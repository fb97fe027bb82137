/-
# The errors of resolved names in a tree

A name that fails is unresolved for good, so a name that is resolved in the end did
not fail. Yet its entry in the tree of the trace may have an error, in two ways: the
first step kept about the name was stopped at the bound, before it was expanded at
a lesser depth; or a failure listed for another name tells its name
(`Pass.Misnames`). These are all ways, whatever the cache holds and whatever
functions do (`resolved_errors`).

Key definitions: `Trace.IsStopped`, `Trace.Clears`.
Key theorems: `resolve_clears`, `resolved_errors`.
-/
import Mathlib.Tactic.FinCases
import Stencil.Proofs.Engine.Circularity
import Stencil.Proofs.Engine.Outcome
import Stencil.Proofs.Expansion.Naming
import Stencil.Proofs.Tree.Entries

namespace Stencil

open Template Pass

/-- The first step about the name was stopped at the bound of the pass. -/
def Trace.IsStopped (t : Trace) (p : Pass) (n : String) : Prop :=
  ∃ s, Tree.meeting? t.steps n = some s ∧ s.event.error = some p.boundMessage

/-- What a trace tells of a name that is resolved. -/
structure Trace.Clears (t : Trace) (p : Pass) (n : String) : Prop where
  steps : ∀ s ∈ t.steps, Tree.isAboutName s.event.kind = true → s.event.name = n →
    s.event.error = none ∨ s.event.error = some p.boundMessage
  failures : ∀ f ∈ t.failures, Tree.failedName? f = some n →
    Misnames p.context p.library t.unresolved n f

theorem Pass.Misnames.failedName? {c : Context} {L : Library} {failed : List String} {n : String}
    {f : Failure} (h : Misnames c L failed n f) : Tree.failedName? f = some n := by
  cases h with
  | malformed hm hd hp hn => exact hn
  | declined hc hr ho hn => exact congrArg some hn

theorem Pass.boundMessage_ne_empty (p : Pass) : p.boundMessage ≠ "" := by
  unfold boundMessage
  simp

namespace Tree

theorem errorOf_eq_none {x : Event} (h : x.error = none) : errorOf x = none := by
  rw [errorOf, h]

theorem errorOf_bound {x : Event} {p : Pass} (h : x.error = some p.boundMessage) :
    errorOf x = some p.boundMessage := by
  rw [errorOf, h]
  dsimp only
  rw [if_neg fun he => p.boundMessage_ne_empty (String.isEmpty_iff.1 he)]

variable {steps : List Step} {failures : List Failure} {n : String} {s : Step} {f : Failure}

theorem blame?_some (h : blame? failures n = some f) : f ∈ failures ∧ failedName? f = some n := by
  have hp := List.find?_some h
  exact ⟨List.mem_of_find?_eq_some h, beq_iff_eq.1 hp⟩

theorem blame?_isSome (hf : f ∈ failures) (hn : failedName? f = some n) :
    (blame? failures n).isSome = true := by
  rw [blame?, List.find?_isSome]
  exact ⟨f, hf, beq_iff_eq.2 hn⟩

end Tree

namespace Engine

variable {e : Engine} {c : Context} {template : String} {stamp : Stamp} {t : Trace} {tree : Tree}
  {n : String}

/-- **What a trace tells of a name that is resolved.** Its steps tell no other error of the name
than the one at the bound, and failures name it only wrongly. -/
theorem resolve_clears (h : (e.resolve c template stamp).1 = .ok t) (hn : n ∈ t.resolved) :
    t.Clears (e.pass c t.cycles) n := by
  obtain ⟨ending, hending, rfl⟩ := resolve_trace h
  cases outcome_concludes hending with
  | malformed => exact absurd hn List.not_mem_nil
  | expanded hp hg hx =>
    rename_i segments graph x l
    have hend : e.ending c template = l := by rw [ending_expand hp hg, hx]
    have htold : (e.pass c graph.cycles).Told l := by
      have hempty : (e.pass c graph.cycles).Told e.ledger :=
        ⟨fun x hx => absurd hx List.not_mem_nil, fun f hf => absurd hf List.not_mem_nil⟩
      have hall := expandTemplate_told _ segments hempty
      rwa [hx] at hall
    have hposted : (e.pass c graph.cycles).Posted l := by
      have hrun := (pass_runs e c graph segments).2.run
      rw [hx] at hrun
      exact (failCircular_posted _ _).grow hrun.grows
    have hresolved : n ∉ l.unresolved := by
      have hc := (List.mem_filter.1 hn).2
      intro hm
      rw [List.contains_iff_mem.2 hm] at hc
      cases hc
    constructor
    · intro s hs hk hname
      obtain ⟨y, hy, he⟩ := recorded_step hs
      rw [hend, Ledger.events, List.mem_reverse] at hy
      rw [he] at hk hname ⊢
      -- a step keeps the kind, the name and the error of its event
      change Tree.isAboutName y.kind = true at hk
      change y.name = n at hname
      show y.error = none ∨ y.error = some (e.pass c graph.cycles).boundMessage
      exact htold.error_of_resolved hposted hresolved hy hk hname
    · intro f hf hname
      have hmem : f ∈ l.recentFailures := by
        change f ∈ (e.recorded c template stamp).failures ++ [] at hf
        rwa [List.append_nil, recorded_failures, hend, Ledger.failures, List.mem_reverse] at hf
      exact (htold.failures f hmem n hname).resolve_left hresolved

/-- **The errors of resolved names.** The entry of a name that is resolved has an error just where
the first step about it was stopped at the bound, or a failure names it wrongly; and that is what the
error tells. -/
theorem resolved_errors (h : (e.resolve c template stamp).1 = .ok t)
    (ht : Tree.ofTrace t = .ok tree) {x : Tree.Entry} (hx : x ∈ tree.entries)
    (hr : x.isResolved = true) :
    let p := e.pass c t.cycles
    (x.error.isSome = true ↔ t.IsStopped p x.name ∨
      ∃ f ∈ t.failures, Misnames c e.library t.unresolved x.name f) ∧
    ∀ m, x.error = some m → (t.IsStopped p x.name ∧ m = p.boundMessage) ∨
      ∃ f ∈ t.failures, Misnames c e.library t.unresolved x.name f ∧ m = f.message := by
  intro p
  have htells := Tree.ofTrace_tells ht
  have hname : x.name ∈ t.resolved := by
    rw [htells.isResolved x hx] at hr
    exact List.contains_iff_mem.1 hr
  have hclears := resolve_clears h hname
  have hmessage : ∀ m, x.error = some m → (t.IsStopped p x.name ∧ m = p.boundMessage) ∨
      ∃ f ∈ t.failures, Misnames c e.library t.unresolved x.name f ∧ m = f.message := by
    intro m hm
    rw [htells.error x hx, Option.or_eq_some_iff] at hm
    rcases hm with hm | ⟨-, hm⟩
    · obtain ⟨s, hs, he⟩ := Option.bind_eq_some_iff.1 hm
      obtain ⟨hmem, hk, hs'⟩ := Tree.meeting?_some hs
      rcases hclears.steps s hmem hk hs' with hnone | hbound
      · rw [Tree.errorOf_eq_none hnone] at he
        cases he
      · rw [Tree.errorOf_bound hbound] at he
        exact .inl ⟨⟨s, hs, hbound⟩, (Option.some.inj he).symm⟩
    · obtain ⟨f, hf, rfl⟩ := Option.map_eq_some_iff.1 hm
      obtain ⟨hmem, hf'⟩ := Tree.blame?_some hf
      exact .inr ⟨f, hmem, hclears.failures f hmem hf', rfl⟩
  refine ⟨⟨fun hs => ?_, fun hs => ?_⟩, hmessage⟩
  · obtain ⟨m, hm⟩ := Option.isSome_iff_exists.1 hs
    exact (hmessage m hm).imp And.left fun ⟨f, hf, hmis, _⟩ => ⟨f, hf, hmis⟩
  · rw [htells.error x hx, Option.isSome_or, Bool.or_eq_true, Option.isSome_map]
    rcases hs with ⟨s, hs, hbound⟩ | ⟨f, hf, hmis⟩
    · refine .inl ?_
      rw [Tree.metError, hs, Option.bind_some, Tree.errorOf_bound hbound]
      rfl
    · exact .inr (Tree.blame?_isSome hf hmis.failedName?)

/-! ### A name met at the bound and again above it -/

/-- Two variables, of which the first refers to the second. -/
def pairContext : Context := { global := [
  { name := "a", value := .text "$\x7bb\x7d" },
  { name := "b", value := .text "x" }] }

/-- An engine that expands no variable inside another one. -/
def flatEngine : Engine where
  cache := none
  library := ⟨[]⟩
  sources := .preview
  maxDepth := 1
  maxDepth_pos := Nat.one_pos

/-- A template that refers to both. -/
def pairSegments : List Segment := [
  .reference ⟨"a", none, "$\x7ba\x7d", ⟨0, 4⟩⟩,
  .reference ⟨"b", none, "$\x7bb\x7d", ⟨4, 8⟩⟩]

theorem parse_pair : Template.parse "$\x7ba\x7d$\x7bb\x7d" = .ok (.ok pairSegments) := by cbv

theorem graph_pair : ∃ graph, Graph.ofContext pairContext (variableNames pairSegments) = .ok graph ∧
    graph.cycles = [] ∧ graph.adjacency = [("a", ["b"]), ("b", [])] := ⟨_, by cbv, by cbv, by cbv⟩

/-- What the first variable means. -/
def pairDefinition : Definition :=
  ⟨.global, { name := "a", value := .text "$\x7bb\x7d" }, "$\x7bb\x7d",
    .ok [.reference ⟨"b", none, "$\x7bb\x7d", ⟨0, 4⟩⟩]⟩

/-- The ledger once the first variable has been stopped, as the second one is met at the bound. -/
def stopped (p : Pass) (c : Cache) (l : Ledger) : Ledger :=
  ((({ l with cache := c }.note (missEvent "a" 0)).note
    (p.lookupEvent "a" pairDefinition true 0)).note (p.boundEvent "b" 1)).fail "a"
      (.tooDeep "a" ["b"] 1)

/-- **A template of both variables comes to what the second one does after the first one has been
stopped.** -/
theorem expand_stopped {p : Pass} {l l' : Ledger} {c : Cache} {x : Expansion}
    (hm : p.maxDepth = 1) (hc : p.circular = [])
    (hd : p.context.define? "a" = .ok (some pairDefinition))
    (hf : l.cache.findNow (p.key "a") l.sources = .ok (none, c, l.sources))
    (hx : p.expandTop "b" (stopped p c l) = (.ok x, l')) :
    p.expandTemplate pairSegments l =
      (.ok ((Expansion.failed "a").append (x.append .empty)), l') := by
  have hcycle : ∀ n, p.cycle? n = none := fun n => by rw [cycle?, hc]; rfl
  have hstart : p.failCircular l = l := by rw [failCircular, hc]; rfl
  have hfirst : p.expandTop "a" l = (.ok (.failed "a"), stopped p c l) :=
    expandTop_stopped hm hcycle hf hd rfl rfl
  rw [expandTemplate, hstart]
  exact expandAll_ok ((expandSegment_variable rfl).trans hfirst)
    (expandAll_ok ((expandSegment_variable rfl).trans hx) rfl)

/-- The second variable is met at the bound, in the value of the first one, and again above it. -/
theorem expand_pair (f : String) (p : Pass) (hp : p = ⟨pairContext, f, ⟨[]⟩, 1, []⟩) :
    ∃ x l d, p.expandTemplate pairSegments flatEngine.ledger = (.ok x, l) ∧
      l.resolved = ["b"] ∧ l.unresolved = ["a"] ∧
      l.events = [missEvent "a" 0, p.lookupEvent "a" pairDefinition true 0, p.boundEvent "b" 1,
        missEvent "b" 0, p.lookupEvent "b" d false 0] := by
  let c : Cache := { Cache.ofCapacity memoCapacity with misses := 1 }
  let d : Definition := ⟨.global, { name := "b", value := .text "x" }, "x",
    .ok [.literal "x" ⟨0, 1⟩]⟩
  have hm : p.maxDepth = 0 + 1 := by rw [hp]
  have hc : p.circular = [] := by rw [hp]
  have hfirst : p.context.define? "a" = .ok (some pairDefinition) := by
    rw [hp]
    cbv
  have hsecond : p.context.define? "b" = .ok (some d) := by
    rw [hp]
    cbv
  obtain ⟨l, hlast, hl⟩ : ∃ l, p.expandTop "b" (stopped p c flatEngine.ledger) =
      (.ok { text := "x" }, l) ∧ l.resolved = ["b"] ∧ l.unresolved = ["a"] ∧
        l.recentEvents = p.lookupEvent "b" d false 0 :: missEvent "b" 0 ::
          (stopped p c flatEngine.ledger).recentEvents :=
    ⟨_, expandTop_value hm (by rw [cycle?, hc]; rfl) rfl hsecond rfl
      ((expandValue_literal rfl).trans (settle_kept rfl rfl rfl)), rfl, rfl, rfl⟩
  refine ⟨_, l, d, expand_stopped hm hc hfirst rfl hlast, hl.1, hl.2.1, ?_⟩
  rw [Ledger.events, hl.2.2]
  rfl

/-- The second variable is resolved, and yet its entry has an error. -/
theorem resolved_at_bound :
    ∃ t tree, (flatEngine.resolve pairContext "$\x7ba\x7d$\x7bb\x7d").1 = .ok t ∧
      Tree.ofTrace t = .ok tree ∧ ∃ x ∈ tree.entries, x.name = "b" ∧ x.isResolved = true ∧
        x.error.isSome = true := by
  obtain ⟨graph, hg, hcycles, hadj⟩ := graph_pair
  have hpass : flatEngine.pass pairContext graph.cycles =
      ⟨pairContext, pairContext.fingerprint, ⟨[]⟩, 1, []⟩ := by
    rw [hcycles]
    rfl
  obtain ⟨y, l, d, hx, hr, hu, hl⟩ := expand_pair _ _ hpass
  let t : Trace := ((flatEngine.recorded pairContext "$\x7ba\x7d$\x7bb\x7d" {}).close {
      value := y.text
      resolved := l.resolved
      unresolved := l.unresolved
      dependencies := graph.adjacency
      cycles := graph.cycles }).1
  have hans : (flatEngine.resolve pairContext "$\x7ba\x7d$\x7bb\x7d").1 = .ok t := by
    rw [resolve_eq, outcome_expand parse_pair hg hx]
    rfl
  have hwanted : flatEngine.wanted pairContext "$\x7ba\x7d$\x7bb\x7d" = l.events := by
    rw [wanted, ending_expand parse_pair hg, hx, hl]
    rfl
  have hsteps : t.steps.map Step.event = l.events.map flatEngine.tracking.shape := by
    have hrecorded := (flatEngine.recorded_steps pairContext "$\x7ba\x7d$\x7bb\x7d" {}).1
    have hlength : l.events.length = 5 := by
      rw [hl]
      rfl
    rw [room, hwanted, Tracking.room_int (b := 1000) rfl, hlength,
      List.take_of_length_le (by rw [hlength]; decide)] at hrecorded
    exact hrecorded
  have hstopped : t.IsStopped (flatEngine.pass pairContext t.cycles) "b" := by
    have hfirst : (Tree.meeting? t.steps "b").map Step.event = some (flatEngine.tracking.shape
        ((flatEngine.pass pairContext graph.cycles).boundEvent "b" 1)) := by
      have hfind := List.find?_map (f := Step.event) (l := t.steps)
        (p := fun x => Tree.isAboutName x.kind && x.name == "b")
      rw [hsteps, hl] at hfind
      exact hfind.symm
    obtain ⟨s, hs, he⟩ := Option.map_eq_some_iff.1 hfirst
    exact ⟨s, hs, he ▸ rfl⟩
  obtain ⟨tree, htree⟩ : ∃ tree, Tree.ofTrace t = .ok tree := by
    rcases circularity_agrees hans with ⟨tree, htree, -⟩ | ⟨r, -, -, s, hs, hhit, -⟩
    · exact ⟨tree, htree⟩
    · have hmem : s.event ∈ t.steps.map Step.event := List.mem_map_of_mem hs
      obtain ⟨z, hz, he⟩ := List.mem_map.1 (hsteps ▸ hmem)
      rw [← he] at hhit
      rw [hl] at hz
      fin_cases hz <;> cases hhit
  obtain ⟨x, hx, hname⟩ : ∃ x ∈ tree.entries, x.name = "b" := by
    have hshows := Tree.ofTrace_shows htree
    have hedge := hshows.refers "a" "b" ⟨["b"], by
      show _ ∈ graph.adjacency
      rw [hadj]
      exact List.mem_cons_self, List.mem_cons_self⟩
    have hends := (hshows.sound.wellFormed.ends _ hedge).2
    rw [hshows.sound.names] at hends
    exact List.mem_map.1 hends
  have hresolved : x.isResolved = true := by
    rw [(Tree.ofTrace_tells htree).isResolved x hx, hname]
    show (l.resolved.filter fun n => !l.unresolved.contains n).contains "b" = true
    rw [hr, hu]
    decide
  exact ⟨t, tree, hans, htree, x, hx, hname, hresolved,
    (resolved_errors hans htree hx hresolved).1.2 (.inl (hname ▸ hstopped))⟩

end Engine
end Stencil
