/-
# Calls of an engine

A call that expands a template ends with a ledger, from which the engine
afterwards and the trace are made (`resolve_engine`, `expand_ok`). A call goes in
one of four ways (`resolve_goes`), and there is an equation for each of them. The
names that the pass of a call takes for circular are just those on reference
cycles that are reached from the template.

Key definitions: `Engine.ending`, `Engine.calls`, `Engine.IsFresh`,
`Engine.ResolveGoes`.
Key theorems: `resolve_goes`, `ending_cases`, `resolve_engine`, `pass_circular`.
-/
import Stencil.Engine
import Stencil.Proofs.Expansion.Plain
import Stencil.Proofs.Expansion.Twin
import Stencil.Proofs.Graph.Reach
import Stencil.Proofs.Trace.Recorder

namespace Stencil

open Template

namespace Engine

/-- The ledger that a call ends with. -/
def ending (e : Engine) (c : Context) (template : String) : Ledger :=
  match Template.parse template with
  | .ok (.ok segments) =>
    match Graph.ofContext c (Template.variableNames segments) with
    | .ok graph => ((e.pass c graph.cycles).expandTemplate segments e.ledger).2
    | .error _ => e.ledger
  | _ => e.ledger

/-- The functions that a call invokes, in order, as the events of their invocations: with names,
arguments and outputs. -/
def calls (e : Engine) (c : Context) (template : String) : List Event :=
  (e.ending c template).recentCalls.reverse

/-- There is no cache, or one without entries. -/
def IsFresh (e : Engine) : Prop := ∀ cache, e.cache = some cache → cache.entries = []

variable {e : Engine} {c : Context} {template : String} {segments : List Segment} {graph : Graph}
  {r : Recorder} {l : Ledger}

theorem after_ledger (e : Engine) : e.after e.ledger = e := by
  unfold after ledger
  cases hc : e.cache with
  | none =>
    cases e
    cases hc
    rfl
  | some k =>
    cases e
    cases hc
    rfl

theorem IsFresh.entries_ledger (h : e.IsFresh) : e.ledger.cache.entries = [] := by
  unfold ledger
  cases hc : e.cache with
  | none => rfl
  | some cache => exact h cache hc

/-- What holds of all entries of the cache holds of those that a call begins with. -/
theorem all_ledger {Q : Cache.Key → String → Int → Prop}
    (h : ∀ cache, e.cache = some cache → cache.All Q) : e.ledger.cache.All Q := by
  unfold ledger
  cases hc : e.cache with
  | none => exact fun x hx => absurd hx List.not_mem_nil
  | some cache => exact h cache hc

/-! ### The ways in which a call goes -/

/-- The ways in which a call goes: its template has a number that is too long, it is malformed, a
value that it refers to cannot be read, or it is expanded. -/
inductive ResolveGoes (c : Context) (template : String) : Prop where
  | overlong {refusal : Refusal} (hp : Template.parse template = .error refusal)
  | malformed {fault : Fault} (hp : Template.parse template = .ok (.error fault))
  | unread {segments : List Segment} {refusal : Refusal}
      (hp : Template.parse template = .ok (.ok segments))
      (hg : Graph.ofContext c (variableNames segments) = .error refusal)
  | expanded {segments : List Segment} {graph : Graph}
      (hp : Template.parse template = .ok (.ok segments))
      (hg : Graph.ofContext c (variableNames segments) = .ok graph)

theorem resolve_goes (c : Context) (template : String) : ResolveGoes c template := by
  cases hp : Template.parse template with
  | error refusal => exact .overlong hp
  | ok parsed =>
    cases parsed with
    | error fault => exact .malformed hp
    | ok segments =>
      cases hg : Graph.ofContext c (variableNames segments) with
      | error refusal => exact .unread hp hg
      | ok graph => exact .expanded hp hg

theorem resolve_overlong {refusal : Refusal} (hp : Template.parse template = .error refusal)
    (stamp : Stamp) : e.resolve c template stamp = (.error refusal, e) := by
  unfold resolve
  rw [hp]

/-- A malformed template stands for itself, and what is wrong with it is the only failure. -/
theorem resolve_malformed {fault : Fault} (hp : Template.parse template = .ok (.error fault))
    (stamp : Stamp) :
    e.resolve c template stamp =
      (.ok ((Recorder.start stamp.id template (some (c.summary c.fingerprint)) e.tracking
        stamp.clock).close { value := template, failures := [.ofFault fault] }).1, e) := by
  unfold resolve
  rw [hp]

theorem resolve_parsed (hp : Template.parse template = .ok (.ok segments)) (stamp : Stamp) :
    e.resolve c template stamp = e.expand c segments (.start stamp.id template
      (some (c.summary c.fingerprint)) e.tracking stamp.clock) := by
  unfold resolve
  rw [hp]

theorem expand_unread {refusal : Refusal}
    (hg : Graph.ofContext c (variableNames segments) = .error refusal) :
    e.expand c segments r = (.error refusal, e) := by
  unfold expand
  rw [hg]

theorem expand_ok {x : Expansion} (hg : Graph.ofContext c (variableNames segments) = .ok graph)
    (hx : (e.pass c graph.cycles).expandTemplate segments e.ledger = (.ok x, l)) :
    e.expand c segments r = (.ok ((replay r l).close {
      value := x.text
      resolved := l.resolved
      unresolved := l.unresolved
      dependencies := graph.adjacency
      cycles := graph.cycles }).1, e.after l) := by
  unfold expand
  rw [hg]
  dsimp only
  rw [hx]

theorem expand_error {refusal : Refusal}
    (hg : Graph.ofContext c (variableNames segments) = .ok graph)
    (hx : (e.pass c graph.cycles).expandTemplate segments e.ledger = (.error refusal, l)) :
    e.expand c segments r = (.error refusal, e.after l) := by
  unfold expand
  rw [hg]
  dsimp only
  rw [hx]

/-! ### The ledger at the end of a call -/

theorem ending_overlong {refusal : Refusal} (hp : Template.parse template = .error refusal) :
    e.ending c template = e.ledger := by
  unfold ending
  rw [hp]

theorem ending_malformed {fault : Fault} (hp : Template.parse template = .ok (.error fault)) :
    e.ending c template = e.ledger := by
  unfold ending
  rw [hp]

theorem ending_unread {refusal : Refusal} (hp : Template.parse template = .ok (.ok segments))
    (hg : Graph.ofContext c (variableNames segments) = .error refusal) :
    e.ending c template = e.ledger := by
  unfold ending
  rw [hp]
  dsimp only
  rw [hg]

theorem ending_expand (hp : Template.parse template = .ok (.ok segments))
    (hg : Graph.ofContext c (variableNames segments) = .ok graph) :
    e.ending c template = ((e.pass c graph.cycles).expandTemplate segments e.ledger).2 := by
  unfold ending
  rw [hp]
  dsimp only
  rw [hg]

/-- A call ends with the ledger that it begins with, or with the one that its expansion leaves. -/
theorem ending_cases (e : Engine) (c : Context) (template : String) :
    e.ending c template = e.ledger ∨
      ∃ segments graph, Template.parse template = .ok (.ok segments) ∧
        Graph.ofContext c (variableNames segments) = .ok graph ∧
        e.ending c template = ((e.pass c graph.cycles).expandTemplate segments e.ledger).2 := by
  cases resolve_goes c template with
  | overlong hp => exact .inl (ending_overlong hp)
  | malformed hp => exact .inl (ending_malformed hp)
  | unread hp hg => exact .inl (ending_unread hp hg)
  | expanded hp hg => exact .inr ⟨_, _, hp, hg, ending_expand hp hg⟩

/-- A call leaves the engine with the cache and the sources of the ledger it ends with. -/
theorem resolve_engine (e : Engine) (c : Context) (template : String) (stamp : Stamp) :
    (e.resolve c template stamp).2 = e.after (e.ending c template) := by
  cases resolve_goes c template with
  | overlong hp => rw [resolve_overlong hp, ending_overlong hp, after_ledger]
  | malformed hp => rw [resolve_malformed hp, ending_malformed hp, after_ledger]
  | unread hp hg => rw [resolve_parsed hp, expand_unread hg, ending_unread hp hg, after_ledger]
  | @expanded segments graph hp hg =>
    rw [resolve_parsed hp, ending_expand hp hg]
    rcases hx : (e.pass c graph.cycles).expandTemplate segments e.ledger with ⟨_ | x, l⟩
    · rw [expand_error hg hx]
    · rw [expand_ok hg hx]

/-! ### Traces -/

/-- The failures of a ledger have no part in what a replay keeps of its events. -/
theorem replay_tracking (r : Recorder) (l : Ledger) :
    let r' := l.events.foldl (fun r e => (r.take e).2) r
    (replay r l).recent = r'.recent ∧ (replay r l).isTruncated = r'.isTruncated ∧
      (replay r l).metrics = r'.metrics ∧ (replay r l).template = r'.template := by
  unfold replay
  dsimp only
  rw [Recorder.foldl_addFailure_eq]
  exact ⟨rfl, rfl, rfl, rfl⟩

/-- A trace lists the failures of the ledger. -/
theorem replay_failures (r : Recorder) (l : Ledger) :
    (replay r l).failures = r.failures ++ l.failures := by
  unfold replay
  dsimp only
  rw [Recorder.foldl_addFailure, Recorder.failures, Recorder.foldl_take_failures, Recorder.failures]

/-! ### Circular names -/

/-- A pass takes those names for circular that are reached from the template and lie on reference
cycles. -/
theorem pass_circular {roots : List String} (hg : Graph.ofContext c roots = .ok graph)
    {n : String} :
    ((e.pass c graph.cycles).cycle? n).isSome ↔ c.Reached roots n ∧ c.OnCycle n := by
  have hd := Graph.ofContext_depicts hg
  have hm : ((e.pass c graph.cycles).cycle? n).isSome ↔
      n ∈ (Graph.cycleMembers graph.cycles).map Prod.fst := Pass.cycle?_isSome
  rw [hm]
  refine ⟨fun h => ?_, fun h => (hd.onCycle_iff h.1).2 h.2⟩
  obtain ⟨cycle, hcycle, hmem⟩ := (Graph.mem_cycleMembers_iff _ _).1 h
  have hn := (hd.of_mem_cycles hcycle hmem).1
  exact ⟨hn, (hd.onCycle_iff hn).1 h⟩

theorem pass_isSound {roots : List String} (hg : Graph.ofContext c roots = .ok graph) :
    (e.pass c graph.cycles).IsSound := fun _ hn => ((pass_circular hg).1 hn).2

/-- Where nothing is circular, a pass that begins with an empty cache does what it does under no
fingerprint. -/
theorem pass_acyclic (hf : e.IsFresh) (c : Context) (hc : graph.cycles = [])
    (segments : List Segment) :
    Pass.SameAnswer Eq e.ledger.cache.Expires (e.pass c graph.cycles)
      ⟨c, "", e.library, e.maxDepth, []⟩ ((e.pass c graph.cycles).expandTemplate segments e.ledger)
      (Pass.expandTemplate ⟨c, "", e.library, e.maxDepth, []⟩ segments e.ledger) := by
  have hpass : { e.pass c graph.cycles with fingerprint := "" } =
      (⟨c, "", e.library, e.maxDepth, []⟩ : Pass) := by
    rw [hc]
    rfl
  have h := Pass.expandTemplate_fingerprint (e.pass c graph.cycles) "" segments hf.entries_ledger
  rwa [hpass] at h

end Engine
end Stencil
