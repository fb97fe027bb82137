/-
# Chains that are too deep

A name of the template that is too deep is listed with a chain of references
that the trace's own dependencies bear out. The chain has one name more than
the bound allows, unless it ends at a name that was found in the cache: such a
name is not looked into, so the rest of the chain, although there is one, is
not told.

Key definition: `Trace.TellsChain`.
Key theorem: `chains_told`.
-/
import Stencil.Proofs.Engine.Errors
import Stencil.Proofs.Expansion.Chain

namespace Stencil

open Template

/-- The trace tells why `n`, a name of a template that refers to `roots`, is too deep for the bound:
there is a chain of references from it that has one name more than the bound. The names `inner` that
are listed after `n` are all the others of the chain, or they end at one that was found in the
cache, as the ledger that the call ended with says. -/
structure Trace.TellsChain (t : Trace) (roots : List String) (bound : Nat) (l : Ledger) (n : String)
    (inner : List String) (limit : Int) : Prop where
  limit : limit = bound
  root : n ∈ roots
  full : ∃ rest, (n :: (inner ++ rest)).IsChain t.DependsOn ∧
    (n :: (inner ++ rest)).length = bound + 1
  cut : (n :: inner).length < bound + 1 →
    l.Capped ((n :: inner).getLast (List.cons_ne_nil _ _)) inner.length

namespace Context

/-- A chain of references from a name that is reached stays among such names. -/
theorem Reached.isChain {c : Context} {roots names : List String} {n : String}
    (hn : c.Reached roots n) (h : (n :: names).IsChain c.Refers) :
    (n :: names).IsChain (c.RefersAmong roots) := by
  induction names generalizing n with
  | nil => exact .singleton n
  | cons m names ih =>
    obtain ⟨hr, hchain⟩ := List.isChain_cons_cons.1 h
    exact .cons_cons ⟨hn, hr⟩ (ih (hn.refers hr) hchain)

end Context

namespace Engine

open Context Pass

variable {U : Context → Prop} {e : Engine} {c : Context} {graph : Graph} {template : String}
  {segments : List Segment} {x : Expansion} {l : Ledger} {t : Trace}

/-- A trace of an expansion tells the chain of what was too deep. -/
theorem records_chain (hU : Context.CollisionFree U) (ht : ∀ c, U c → c.HasTexts) (hc : U c)
    (he : e.IsGenuine U) (hg : Graph.ofContext c (variableNames segments) = .ok graph)
    (hx : (e.pass c graph.cycles).expandTemplate segments e.ledger = (.ok x, l))
    (hr : t.Records graph x l) {n : String} {inner : List String} {limit : Int}
    (hm : .tooDeep n inner limit ∈ t.failures) :
    t.TellsChain (variableNames segments) e.maxDepth l n inner limit := by
  have hdeep : (e.pass c graph.cycles).Deep (variableNames segments) (fun k => k.All (Genuine U))
      ((e.pass c graph.cycles).expandTemplate segments e.ledger).2 :=
    expandTemplate_deep (upholds_genuine hU ht hc graph.cycles)
      (failCircular_ledger e c graph.cycles).warned (all_ledger he) rfl
  rw [hx] at hdeep
  rw [hr.failures] at hm
  obtain ⟨hlimit, hn, hd⟩ := hdeep.tooDeep n inner limit (List.mem_reverse.1 hm)
  refine ⟨hlimit, hn, ?_, fun hlen => ?_⟩
  · obtain ⟨rest, hchain, hlen⟩ := hd.full
    have hroot : c.Reached (variableNames segments) n := ⟨n, hn, .refl⟩
    refine ⟨rest, ?_, congrArg (· + 1) hlen⟩
    rw [depends_eq hg hr]
    exact hroot.isChain hchain
  · have hcap := hd.cut (Nat.lt_of_succ_lt_succ hlen)
    have hdepth : (e.pass c graph.cycles).depthAt (e.pass c graph.cycles).maxDepth = 0 :=
      Int.sub_self _
    rwa [hdepth, Int.zero_add] at hcap

/-- **A call tells the chain of each name that is too deep**, whatever engines that share the cache
have put into it: in full, unless it ends at a name that the call found in the cache. -/
theorem chains_told {U : Context → Prop} (hU : Context.CollisionFree U)
    (ht : ∀ c, U c → c.HasTexts) {e : Engine} (he : e.IsStocked U) {c : Context} (hc : U c)
    {template : String} {segments : List Segment}
    (hp : Template.parse template = .ok (.ok segments)) (stamp : Stamp) :
    e.Yields c template
      (fun t => ∀ n inner limit, .tooDeep n inner limit ∈ t.failures →
        t.TellsChain (variableNames segments) e.maxDepth (e.ending c template) n inner limit)
      (e.resolve c template stamp).1 := by
  refine yields_of_records (ht c hc) hp stamp fun graph x l t hg hx hr => ?_
  have hl : e.ending c template = l := by rw [ending_expand hp hg, hx]
  rw [hl]
  exact fun n inner limit hm => records_chain hU ht hc (he.isGenuine hU ht) hg hx hr hm

/-- Three names in a chain for a bound of two; the second one is in the cache when the first is
expanded. -/
theorem chained_through_cache :
    let c : Context := { global := [
      { name := "a", value := .text "$\x7bb\x7d" },
      { name := "b", value := .text "$\x7bc\x7d" },
      { name := "c", value := .text "x" }] }
    let e : Engine := {
      cache := some { capacity := .int 8, lifetime := none }
      library := ⟨[]⟩
      sources := .preview
      maxDepth := 2
      maxDepth_pos := by decide }
    let template := "$\x7bb\x7d$\x7ba\x7d"
    ∃ segments, Template.parse template = .ok (.ok segments) ∧
      variableNames segments = ["b", "a"] ∧
      e.Yields c template
        (fun t => ∀ n inner limit, .tooDeep n inner limit ∈ t.failures →
          t.TellsChain (variableNames segments) 2 (e.ending c template) n inner limit)
        (e.resolve c template).1 := by
  intro c e template
  have ht : ∀ d, d = c → d.HasTexts := by
    rintro d rfl
    decide
  have he : e.IsStocked (· = c) := by
    rintro k ⟨⟩
    exact ⟨_, rfl, .refl⟩
  have hp : Template.parse "$\x7bb\x7d$\x7ba\x7d" = .ok (.ok [
      .reference ⟨"b", none, "$\x7bb\x7d", ⟨0, 4⟩⟩,
      .reference ⟨"a", none, "$\x7ba\x7d", ⟨4, 8⟩⟩]) := by cbv
  exact ⟨_, hp, by cbv, chains_told (Context.CollisionFree.single c) ht he rfl hp {}⟩

end Engine
end Stencil
