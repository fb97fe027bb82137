/-
# Expanding is linear in the definitions

A call that lists no failure asks its cache once for each reference in the
template, and once for each in the values of the names that are reached: as often
as there are references to follow, not as often as they stand in the tree that
the template expands to. Each name is missed once.

This holds of a cache without entries that has room for all names that are
reached, and of a call without a cache that reaches no more than it remembers.

Key definitions: `Context.reachedNames`, `Engine.HasRoom`.
Key theorems: `metrics_counted`, `lookups_linear`.
-/
import Mathlib.Data.Set.Finite.Basic
import Stencil.Proofs.Engine.Outcome
import Stencil.Proofs.Engine.WellFormed
import Stencil.Proofs.Expansion.Lookups

namespace Stencil

open Template Context

/-! ### The names that are reached -/

theorem Context.finite_reached (c : Context) (roots : List String) :
    {n | c.Reached roots n}.Finite := by
  refine (List.finite_toSet (roots ++ c.definedNames.flatMap c.mentionsOf)).subset ?_
  rintro n ⟨r, hr, hrn⟩
  rcases Relation.ReflTransGen.cases_tail hrn with rfl | ⟨m, -, hmn⟩
  · exact List.mem_append_left _ hr
  · have hm : m ∈ c.definedNames := by
      obtain ⟨d, hd, -⟩ := hmn
      exact mem_definedNames hd
    exact List.mem_append_right _ (List.mem_flatMap.2 ⟨m, hm, mem_mentionsOf.2 hmn⟩)

/-- The names that some roots refer to, directly or through others, and the roots themselves. -/
noncomputable def Context.reachedNames (c : Context) (roots : List String) : Finset String :=
  (c.finite_reached roots).toFinset

variable {c : Context} {roots : List String} {n : String}

theorem Context.mem_reachedNames : n ∈ c.reachedNames roots ↔ c.Reached roots n := by
  rw [reachedNames, Set.Finite.mem_toFinset]
  rfl

/-- They are the nodes of the graph. -/
theorem Context.reachedNames_eq {graph : Graph} (hg : Graph.ofContext c roots = .ok graph) :
    c.reachedNames roots = graph.names.toFinset := by
  ext n
  rw [mem_reachedNames, List.mem_toFinset, (Graph.ofContext_depicts hg).names]

namespace Engine

variable {e : Engine} {template : String} {stamp : Stamp} {t : Trace} {segments : List Segment}
  {graph : Graph} {x : Expansion} {l : Ledger}

/-- The cache is without entries and keeps as many names as `n` for ever; without one a call
remembers as many. -/
def HasRoom (e : Engine) (n : Nat) : Prop :=
  match e.cache with
  | none => n ≤ memoCapacity
  | some k => k.entries = [] ∧ k.lifetime = none ∧ (Number.int n).le k.capacity = true

theorem HasRoom.holds {room : Nat} (h : e.HasRoom room) (f : String) :
    e.ledger.cache.Holds room f ∅ := by
  unfold HasRoom at h
  unfold ledger
  cases hc : e.cache with
  | none =>
    rw [hc] at h
    exact Cache.holds_empty rfl ((Number.int_le_int _ _).trans (decide_eq_true (by omega))) rfl
  | some k =>
    rw [hc] at h
    exact Cache.holds_empty h.2.1 h.2.2 h.1

/-- Where nothing fails no name is circular. -/
theorem pass_ground (hg : Graph.ofContext c (variableNames segments) = .ok graph)
    (hcalls : ∀ n, c.Reached (variableNames segments) n → c.CallsNothing n)
    (hx : (e.pass c graph.cycles).expandTemplate segments e.ledger = (.ok x, l))
    (hf : l.recentFailures = []) :
    (e.pass c graph.cycles).Ground (c.reachedNames (variableNames segments)) where
  closed n hn m hr := mem_reachedNames.2 ((mem_reachedNames.1 hn).refers hr)
  acyclic n hn hcycle := by
    have hrun := (pass_runs e c graph segments).2.run
    rw [hx] at hrun
    have hstart : ((e.pass c graph.cycles).failCircular e.ledger).recentFailures = [] :=
      List.suffix_nil.1 (hf ▸ hrun.failures)
    have hnone := ((failCircular_ledger e c graph.cycles).tidy hstart).2.1
    have hsome := (pass_circular (e := e) hg).2 ⟨mem_reachedNames.1 hn, hcycle⟩
    rw [Pass.cycle?_isSome, hnone] at hsome
    cases hsome
  callsNothing n hn := hcalls n (mem_reachedNames.1 hn)

/-- A trace counts what the cache was asked during its call. -/
theorem metrics_counted (h : (e.resolve c template stamp).1 = .ok t) :
    (e.ending c template).cache.hits = e.ledger.cache.hits + t.metrics.hits ∧
      (e.ending c template).cache.misses = e.ledger.cache.misses + t.metrics.misses := by
  obtain ⟨y, hy, rfl⟩ := resolve_trace h
  obtain ⟨es, hes⟩ := ending_notes hy
  have hevents : (e.ending c template).events = es := by
    rw [hes.events, ledger_events, List.nil_append]
  obtain ⟨-, hhits, hmisses⟩ := Metrics.foldl_count es {}
  have hmetrics : ((e.recorded c template stamp).close y).1.metrics =
      es.foldl Metrics.count {} := by
    rw [← hevents]
    exact e.recorded_metrics c template stamp
  rw [hmetrics, hhits, hmisses, Nat.zero_add, Nat.zero_add]
  exact ⟨hes.hits, hes.misses⟩

/-- What is asked of an empty cache is kept: all that is reached. -/
theorem kept_eq_reachedNames {p : Pass} {kept : Finset String} {k k' : Cache}
    (h : p.Asked (p.context.reachedNames (variableNames segments)) ∅ (mentions segments) k
      kept k') :
    kept = p.context.reachedNames (variableNames segments) := by
  refine Finset.Subset.antisymm h.stocked.subset fun n hn => ?_
  obtain ⟨r, hr, hrn⟩ := mem_reachedNames.1 hn
  induction hrn with
  | refl => exact h.covers r (mem_mentions.2 hr)
  | tail hrm hmn ih => exact h.stocked.closed _ (ih (mem_reachedNames.2 ⟨r, hr, hrm⟩)) _ hmn

/-- **Each name that is reached is missed once, and each reference is followed once.** -/
theorem lookups_linear (hp : Template.parse template = .ok (.ok segments))
    (hcalls : ∀ n, c.Reached (variableNames segments) n → c.CallsNothing n)
    (hroom : e.HasRoom (c.reachedNames (variableNames segments)).card)
    (h : (e.resolve c template stamp).1 = .ok t) (hok : t.isSuccess = true) :
    t.metrics.misses = (c.reachedNames (variableNames segments)).card ∧
      t.metrics.hits + t.metrics.misses = (mentions segments).length +
        ∑ n ∈ c.reachedNames (variableNames segments), (c.mentionsOf n).length := by
  obtain ⟨hhits, hmisses⟩ := metrics_counted h
  obtain ⟨segments', graph, x, l, hp', hg, hx, -, hf⟩ := resolve_success h hok
  cases hp.symm.trans hp'
  rw [ending_expand hp hg, hx] at hhits hmisses
  obtain ⟨kept, hasked⟩ := Pass.expandTemplate_asked (pass_ground hg hcalls hx hf)
    (fun n hn => mem_reachedNames.2 ⟨n, mem_mentions.1 hn, .refl⟩)
    (failCircular_ledger e c graph.cycles).warned
    ⟨hroom.holds _, Finset.empty_subset _, by simp⟩ hx hf
  have hmissed := hasked.misses
  have hasks := hasked.lookups
  rw [kept_eq_reachedNames hasked] at hmissed hasks
  rw [Finset.card_empty] at hmissed
  rw [Finset.sum_empty] at hasks
  have hcontext : (e.pass c graph.cycles).context = c := rfl
  rw [hcontext] at hmissed hasks
  dsimp only at hhits hmisses
  refine ⟨?_, ?_⟩ <;> omega

/-- A name that stands for another one twice. -/
def doubled : Context := { global := [
  { name := "a", value := .text "$\x7bb\x7d$\x7bb\x7d" },
  { name := "b", value := .text "x" }] }

theorem doubled_callsNothing (hn : n ∈ ["a", "b"]) : doubled.CallsNothing n := by
  obtain ⟨d, inner, hd, hp, hc⟩ : ∃ d inner, doubled.define? n = .ok (some d) ∧
      d.parsed = .ok inner ∧ Template.calls inner = [] := by
    rcases List.mem_pair.1 hn with rfl | rfl
    · exact ⟨⟨.global, { name := "a", value := .text "$\x7bb\x7d$\x7bb\x7d" }, _, _⟩, _, by cbv,
        rfl, by cbv⟩
    · exact ⟨⟨.global, { name := "b", value := .text "x" }, _, _⟩, _, by cbv, rfl, by cbv⟩
  rintro segments ⟨-, d', hd', hp'⟩
  cases hd.symm.trans hd'
  cases hp.symm.trans hp'
  exact hc

/-- Four lookups where a tree of expansions would make six. -/
theorem doubled_looked_up :
    let e : Engine := {
      cache := some (.ofCapacity 2)
      library := ⟨[]⟩
      sources := .preview
      maxDepth := 4
      maxDepth_pos := by decide }
    let template := "$\x7ba\x7d$\x7ba\x7d"
    ∃ t, (e.resolve doubled template).1 = .ok t ∧ t.isSuccess = true ∧
      t.metrics.misses = 2 ∧ t.metrics.hits = 2 := by
  intro e template
  let segments : List Segment := [
    .reference ⟨"a", none, "$\x7ba\x7d", ⟨0, 4⟩⟩, .reference ⟨"a", none, "$\x7ba\x7d", ⟨4, 8⟩⟩]
  have hp : Template.parse "$\x7ba\x7d$\x7ba\x7d" = .ok (.ok segments) := by cbv
  obtain ⟨graph, hg, hnames, hcycles⟩ : ∃ graph,
      Graph.ofContext doubled (variableNames segments) = .ok graph ∧
        graph.names = ["a", "b"] ∧ graph.cycles = [] := ⟨{
    roots := ["a"]
    nodes := [
      ⟨"a", some {
        isDefined := true, scope := some "global", value := some "$\x7bb\x7d$\x7bb\x7d" }⟩,
      ⟨"b", some { isDefined := true, scope := some "global", value := some "x" }⟩]
    edges := [("a", "b")] }, by cbv, rfl, by cbv⟩
  have hf : e.IsFresh := by
    rintro k ⟨⟩
    rfl
  obtain ⟨t, hans, -, hok⟩ := resolve_acyclic hf "xxxx" true hp hg hcycles
    (by decide +kernel +zetaReduce) {}
  have hreached : doubled.reachedNames (variableNames segments) = {"a", "b"} := by
    rw [reachedNames_eq hg, hnames]
    rfl
  obtain ⟨hmisses, hlookups⟩ := lookups_linear hp
    (fun n hn => doubled_callsNothing (by
      rw [← hnames, (Graph.ofContext_depicts hg).names]
      exact hn))
    (by rw [hreached]; exact ⟨rfl, rfl, by decide +kernel⟩) hans hok
  have hcard : (doubled.reachedNames (variableNames segments)).card = 2 := by
    rw [hreached]
    decide
  have hmentions : (mentions segments).length +
      ∑ n ∈ doubled.reachedNames (variableNames segments), (doubled.mentionsOf n).length = 4 := by
    rw [hreached, Finset.sum_pair (by decide)]
    cbv
  refine ⟨_, hans, hok, hmisses.trans hcard, ?_⟩
  omega

end Engine
end Stencil
