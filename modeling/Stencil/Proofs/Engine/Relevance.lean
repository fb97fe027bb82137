/-
# Definitions that are not reached do not matter

What a call answers with depends on the values of the names that its template
reaches, and on nothing else of the context: not on the scope, the owner or the
secrecy of these, not on definitions that lose against them or are disabled, and
on no other variable. Two calls that begin with empty caches come to the same,
list the same and count the same, if the values of the names reached are the
same and the functions cannot tell the calls apart.

Key theorem: `unreached_irrelevant`.
-/
import Stencil.Proofs.Engine.Observation
import Stencil.Proofs.Engine.Transparency
import Stencil.Proofs.Expansion.Twin

namespace Stencil

open Template

/-- What is counted depends on the outlines of the events. -/
theorem Metrics.foldl_count_congr {es es' : List Event} (m : Metrics)
    (h : es.map Event.outline = es'.map Event.outline) :
    es.foldl count m = es'.foldl count m := by
  induction es generalizing es' m with
  | nil =>
    rw [List.map_nil, eq_comm, List.map_eq_nil_iff] at h
    rw [h]
  | cons e es ih =>
    obtain ⟨e', es', rfl, he, hes⟩ := List.map_eq_cons_iff.1 h.symm
    have hcount : m.count e = m.count e' := by
      injection he with hk hd
      injection hd with hn hd
      rw [count, count, hk, hd]
    rw [List.foldl_cons, List.foldl_cons, hcount]
    exact ih _ hes.symm

namespace Engine

variable {e : Engine} {c c' : Context} {template : String} {segments : List Segment} {s' : Sources}

/-- The engine with other sources of time and chance. -/
def withSources (e : Engine) (s : Sources) : Engine := { e with sources := s }

/-- Whether what the engine keeps grows too old. -/
def Expires (e : Engine) : Prop := e.ledger.cache.Expires

/-- The passes of two calls for a template whose names have the same values. -/
theorem pass_twin (h : c.SameValues c' (variableNames segments)) {graph graph' : Graph}
    (hg : graph.Alike graph') :
    (e.pass c graph.cycles).Twin (c.Reached (variableNames segments))
      ((e.withSources s').pass c' graph'.cycles) where
  library := rfl
  maxDepth := rfl
  circular := congrArg Graph.cycleMembers hg.cycles
  defined n hn := Context.define?_alike (h n hn)
  closed _ _ ha hab := ha.refers hab

/-- Empty caches are alike. -/
theorem ledger_twin (hf : e.IsFresh) {S : Sources → Sources → Prop} (hs : S e.sources s')
    (p p' : Pass) : e.ledger.Twin S e.Expires p p' (e.withSources s').ledger :=
  .of_fresh hf.entries_ledger hs p p'

/-- The calls come to the same, and their ledgers tell of the same. -/
theorem outcome_twin (hf : e.IsFresh) (hs : e.sources.Twin e.library e.Expires s')
    (h : ∀ segments, Template.parse template = .ok (.ok segments) →
      c.SameValues c' (variableNames segments)) :
    e.outcome c template = (e.withSources s').outcome c' template ∧
      (e.ending c template).recentEvents.map Event.outline =
        ((e.withSources s').ending c' template).recentEvents.map Event.outline ∧
      (e.ending c template).recentFailures =
        ((e.withSources s').ending c' template).recentFailures := by
  obtain ⟨S, hS, hs⟩ := hs
  unfold outcome ending
  rcases hp : Template.parse template with r | (f | segments)
  · exact ⟨rfl, rfl, rfl⟩
  · exact ⟨rfl, rfl, rfl⟩
  have hvalues := h segments hp
  have hg := Graph.ofContext_alike hvalues
  dsimp only
  generalize Graph.ofContext c (variableNames segments) = x at hg
  generalize Graph.ofContext c' (variableNames segments) = x' at hg
  cases hg with
  | error r => exact ⟨rfl, rfl, rfl⟩
  | @ok graph graph' hg =>
    have hpass : (e.pass c graph.cycles).Twin (c.Reached (variableNames segments))
        ((e.withSources s').pass c' graph'.cycles) := pass_twin hvalues hg
    have hx := Pass.expandTemplate_twin hpass hS (fun n hn => ⟨n, hn, .refl⟩)
      (ledger_twin hf hs _ _)
    dsimp only
    generalize (e.pass c graph.cycles).expandTemplate segments e.ledger = a at hx
    generalize ((e.withSources s').pass c' graph'.cycles).expandTemplate segments
      (e.withSources s').ledger = a' at hx
    obtain ⟨y, hl⟩ := hx
    refine ⟨?_, hl.events, hl.failures⟩
    cases y with
    | error r => rfl
    | ok y =>
      dsimp only
      rw [Ledger.resolved, Ledger.unresolved, hl.status, hg.adjacency, hg.cycles]
      rfl

/-- **Definitions that are not reached are irrelevant.** If each name that the template reaches
through the values of the first context has the same value in both, calls with empty caches answer
alike. The functions may do what they like as long as they cannot tell the sources of the calls
apart; sources that are the same cannot be told apart at all, and where functions depend on their
arguments only none can. -/
theorem unreached_irrelevant (hf : e.IsFresh) (hs : e.sources.Twin e.library e.Expires s')
    (h : ∀ segments, Template.parse template = .ok (.ok segments) →
      c.SameValues c' (variableNames segments)) (stamp stamp' : Stamp) :
    SameAnswer (e.resolve c template stamp).1
      ((e.withSources s').resolve c' template stamp').1 := by
  obtain ⟨houtcome, hevents, hfailures⟩ := outcome_twin hf hs h
  rw [resolve_eq, resolve_eq, ← houtcome]
  cases e.outcome c template with
  | error r => exact .refused r
  | ok x =>
    refine .traces (close_sameResult ?_ ?_ x)
    · rw [recorded_failures, recorded_failures, Ledger.failures, hfailures]
      rfl
    · rw [recorded_metrics, recorded_metrics]
      refine Metrics.foldl_count_congr _ ?_
      rw [Ledger.events, Ledger.events, List.map_reverse, List.map_reverse, hevents]

/-- A secret of a rule in one context and a plain global variable in the other, among definitions
that lose, are disabled or are not reached, with a function that answers the same at any time. -/
theorem irrelevant_token :
    let c : Context := {
      global := [
        { name := "host", value := .text "lost" },
        { name := "domain", value := .text "example.org" },
        { name := "other", value := .text "$\x7bother\x7d" }]
      rule := [{
        name := "host", value := .text "$\x7bping()\x7d.$\x7bdomain\x7d", isSecret := true }] }
    let c' : Context := {
      system := [{ name := "domain", value := .text "example.org" }]
      global := [{ name := "host", value := .text "$\x7bping()\x7d.$\x7bdomain\x7d" }]
      rule := [{ name := "domain", value := .text "hidden", isEnabled := false }] }
    let e : Engine := {
      cache := some { capacity := .int 1, lifetime := none }
      library := ⟨[{ name := "ping", run := fun _ s => (.ok (.text "pong"), s) }]⟩
      sources := .preview
      maxDepth := 4
      maxDepth_pos := by decide }
    let s' : Sources := { Sources.preview with identifier := fun _ => "", draw := fun _ => 0 }
    SameAnswer (e.resolve c "$\x7bhost\x7d").1
      ((e.withSources s').resolve c' "$\x7bhost\x7d").1 := by
  intro c c' e s'
  have hf : e.IsFresh := by
    intro cache hc
    cases hc
    rfl
  have hs : e.sources.Twin e.library e.Expires s' := by
    refine .of_pure (T := Sources.IsSteady) ?_ ?_ isSteady_isReadable ?_ preview_isSteady
      (preview_isSteady.of_now rfl)
    · intro f hf arguments s₁ s₂
      obtain rfl := List.mem_singleton.1 hf
      rfl
    · intro f hf arguments s hs
      obtain rfl := List.mem_singleton.1 hf
      exact hs
    · intro h
      cases h
  have hp : Template.parse "$\x7bhost\x7d" = .ok (.ok [
      .reference ⟨"host", none, "$\x7bhost\x7d", ⟨0, 7⟩⟩]) := by cbv
  refine unreached_irrelevant hf hs (fun segments h => ?_) {} {}
  rw [hp] at h
  cases h
  -- only the host and the domain are reached
  have hhost : (c.define? "host").map (Option.map Definition.references) =
      .ok (some ["domain"]) := by cbv
  have hdomain : (c.define? "domain").map (Option.map Definition.references) =
      .ok (some []) := by cbv
  have hreached : ∀ n, c.Reached ["host"] n → n = "host" ∨ n = "domain" := by
    rintro n ⟨r, hr, hrn⟩
    obtain rfl := List.mem_singleton.1 hr
    induction hrn with
    | refl => exact .inl rfl
    | tail _ hab ih =>
      obtain ⟨d, hd, hm⟩ := hab
      rcases ih with rfl | rfl
      · rw [hd] at hhost
        injection hhost with hhost
        injection hhost with hhost
        rw [hhost] at hm
        exact .inr (List.mem_singleton.1 hm)
      · rw [hd] at hdomain
        injection hdomain with hdomain
        injection hdomain with hdomain
        rw [hdomain] at hm
        cases hm
  intro n hn
  rcases hreached n hn with rfl | rfl <;> rfl

end Engine
end Stencil
