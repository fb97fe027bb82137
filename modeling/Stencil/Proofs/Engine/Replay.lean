/-
# Traces are replays

What a call comes to is known before anything is recorded: its outcome, and
the ledger that it ends with (`resolve_eq`). The recorder is given the events of
the ledger in order, and then its failures; so what its trace counts is what
the ledger lists (`recorded_metrics`), and its steps are those of the events that
are kept (`recorded_steps`).

Key definitions: `Engine.outcome`, `Engine.recorded`, `Engine.Concludes`, `Engine.wanted`.
Key theorems: `resolve_eq`, `recorded_steps`, `recorded_metrics`.
-/
import Stencil.Proofs.Engine.Call
import Stencil.Proofs.Trace.Tracking

namespace Stencil

open Template

namespace Engine

/-- What is known at the end of a call, or why it is refused. -/
def outcome (e : Engine) (c : Context) (template : String) : Except Refusal Recorder.Ending :=
  match Template.parse template with
  | .error refusal => .error refusal
  | .ok (.error fault) => .ok { value := template, failures := [.ofFault fault] }
  | .ok (.ok segments) =>
    match Graph.ofContext c (variableNames segments) with
    | .error refusal => .error refusal
    | .ok graph =>
      match (e.pass c graph.cycles).expandTemplate segments e.ledger with
      | (.error refusal, _) => .error refusal
      | (.ok x, l) => .ok {
          value := x.text
          resolved := l.resolved
          unresolved := l.unresolved
          dependencies := graph.adjacency
          cycles := graph.cycles }

/-- The recorder of a call that has been given all that happened. -/
def recorded (e : Engine) (c : Context) (template : String) (stamp : Stamp) : Recorder :=
  replay (.start stamp.id template (some (c.summary c.fingerprint)) e.tracking stamp.clock)
    (e.ending c template)

variable {e : Engine} {c : Context} {template : String} {stamp : Stamp} {segments : List Segment}
  {graph : Graph} {t : Trace}

theorem outcome_overlong {refusal : Refusal} (hp : Template.parse template = .error refusal) :
    e.outcome c template = .error refusal := by
  unfold outcome
  rw [hp]

theorem outcome_malformed {fault : Fault} (hp : Template.parse template = .ok (.error fault)) :
    e.outcome c template = .ok { value := template, failures := [.ofFault fault] } := by
  unfold outcome
  rw [hp]

theorem outcome_unread {refusal : Refusal} (hp : Template.parse template = .ok (.ok segments))
    (hg : Graph.ofContext c (variableNames segments) = .error refusal) :
    e.outcome c template = .error refusal := by
  unfold outcome
  rw [hp]
  dsimp only
  rw [hg]

theorem outcome_refused {refusal : Refusal} {l : Ledger}
    (hp : Template.parse template = .ok (.ok segments))
    (hg : Graph.ofContext c (variableNames segments) = .ok graph)
    (hx : (e.pass c graph.cycles).expandTemplate segments e.ledger = (.error refusal, l)) :
    e.outcome c template = .error refusal := by
  unfold outcome
  rw [hp]
  dsimp only
  rw [hg]
  dsimp only
  rw [hx]

theorem outcome_expand (hp : Template.parse template = .ok (.ok segments))
    (hg : Graph.ofContext c (variableNames segments) = .ok graph) {x : Expansion} {l : Ledger}
    (hx : (e.pass c graph.cycles).expandTemplate segments e.ledger = (.ok x, l)) :
    e.outcome c template = .ok {
      value := x.text
      resolved := l.resolved
      unresolved := l.unresolved
      dependencies := graph.adjacency
      cycles := graph.cycles } := by
  unfold outcome
  rw [hp]
  dsimp only
  rw [hg]
  dsimp only
  rw [hx]

/-- How a call that is not refused comes to what is known at its end: its template is malformed, or
it was expanded. -/
inductive Concludes (e : Engine) (c : Context) (template : String) : Recorder.Ending → Prop where
  | malformed {fault : Fault} (hp : Template.parse template = .ok (.error fault)) :
      Concludes e c template { value := template, failures := [.ofFault fault] }
  | expanded {segments : List Segment} {graph : Graph} {x : Expansion} {l : Ledger}
      (hp : Template.parse template = .ok (.ok segments))
      (hg : Graph.ofContext c (variableNames segments) = .ok graph)
      (hx : (e.pass c graph.cycles).expandTemplate segments e.ledger = (.ok x, l)) :
      Concludes e c template {
        value := x.text
        resolved := l.resolved
        unresolved := l.unresolved
        dependencies := graph.adjacency
        cycles := graph.cycles }

theorem outcome_concludes {x : Recorder.Ending} (h : e.outcome c template = .ok x) :
    e.Concludes c template x := by
  cases resolve_goes c template with
  | overlong hp =>
    rw [outcome_overlong hp] at h
    cases h
  | malformed hp =>
    rw [outcome_malformed hp] at h
    cases h
    exact .malformed hp
  | unread hp hg =>
    rw [outcome_unread hp hg] at h
    cases h
  | @expanded segments graph hp hg =>
    rcases hx : (e.pass c graph.cycles).expandTemplate segments e.ledger with ⟨r | y, l⟩
    · rw [outcome_refused hp hg hx] at h
      cases h
    · rw [outcome_expand hp hg hx] at h
      cases h
      exact .expanded hp hg hx

/-- **A call answers with a replay of the ledger that it ends with.** -/
theorem resolve_eq (e : Engine) (c : Context) (template : String) (stamp : Stamp) :
    e.resolve c template stamp =
      ((e.outcome c template).map fun x => ((e.recorded c template stamp).close x).1,
        e.after (e.ending c template)) := by
  refine Prod.ext ?_ (resolve_engine e c template stamp)
  cases resolve_goes c template with
  | overlong hp =>
    rw [resolve_overlong hp, outcome_overlong hp]
    rfl
  | malformed hp =>
    rw [resolve_malformed hp, outcome_malformed hp, recorded, ending_malformed hp]
    rfl
  | unread hp hg =>
    rw [resolve_parsed hp, expand_unread hg, outcome_unread hp hg]
    rfl
  | @expanded segments graph hp hg =>
    rw [resolve_parsed hp, recorded, ending_expand hp hg]
    rcases hx : (e.pass c graph.cycles).expandTemplate segments e.ledger with ⟨refusal | x, l⟩
    · rw [expand_error hg hx, outcome_refused hp hg hx]
      rfl
    · rw [expand_ok hg hx, outcome_expand hp hg hx]
      rfl

theorem resolve_trace (h : (e.resolve c template stamp).1 = .ok t) :
    ∃ x, e.outcome c template = .ok x ∧ t = ((e.recorded c template stamp).close x).1 := by
  rw [resolve_eq] at h
  cases ho : e.outcome c template with
  | error refusal =>
    rw [ho] at h
    cases h
  | ok x =>
    rw [ho] at h
    cases h
    exact ⟨x, rfl, rfl⟩

/-! ### What is recorded -/

/-- The events of a call that its tracking wants. -/
def wanted (e : Engine) (c : Context) (template : String) : List Event :=
  (e.ending c template).events.filter e.tracking.wants

/-- For how many of the wanted events there is room. -/
def room (e : Engine) (c : Context) (template : String) : Nat :=
  e.tracking.room 0 (e.wanted c template).length

/-- The steps of a call are those of its wanted events for which there is room. -/
theorem recorded_steps (e : Engine) (c : Context) (template : String) (stamp : Stamp) :
    let r := e.recorded c template stamp
    r.steps.map Step.event =
        ((e.wanted c template).take (e.room c template)).map e.tracking.shape ∧
      r.steps.map Step.number = List.range' 1 (e.room c template) ∧
      (r.isTruncated = true ↔ e.room c template < (e.wanted c template).length) := by
  obtain ⟨hrecent, htrunc, -, -⟩ := replay_tracking
    (.start stamp.id template (some (c.summary c.fingerprint)) e.tracking stamp.clock)
    (e.ending c template)
  obtain ⟨hevents, hnumbers, hfull⟩ := Recorder.foldl_take_kept (e.ending c template).events
    (.start stamp.id template (some (c.summary c.fingerprint)) e.tracking stamp.clock)
  unfold recorded
  refine ⟨?_, ?_, ?_⟩
  · rw [Recorder.steps, hrecent]
    exact hevents
  · rw [Recorder.steps, hrecent]
    exact hnumbers
  · rw [htrunc]
    exact hfull.trans (or_iff_right Bool.false_ne_true)

/-- A recorder with room for all that is wanted keeps it. -/
theorem recorded_all (c : Context) (template : String) (stamp : Stamp) {b : Nat}
    (hb : e.tracking.maxSteps = .int b) (hl : (e.wanted c template).length ≤ b) :
    let r := e.recorded c template stamp
    r.steps.map Step.event = (e.wanted c template).map e.tracking.shape ∧
      r.isTruncated = false := by
  obtain ⟨hevents, -, htrunc⟩ := e.recorded_steps c template stamp
  have hroom : e.room c template = (e.wanted c template).length := by
    rw [room, Tracking.room_int hb, Nat.sub_zero, Nat.min_eq_right hl]
  rw [hroom] at hevents htrunc
  rw [List.take_length] at hevents
  refine ⟨hevents, ?_⟩
  rw [← Bool.not_eq_true, htrunc]
  exact Nat.lt_irrefl _

/-- A trace counts all events of the ledger, kept or not. -/
theorem recorded_metrics (e : Engine) (c : Context) (template : String) (stamp : Stamp) :
    (e.recorded c template stamp).metrics =
      (e.ending c template).events.foldl Metrics.count {} := by
  unfold recorded
  rw [(replay_tracking _ _).2.2.1, Recorder.foldl_take_metrics]
  rfl

/-- A trace is about the template of the call. -/
theorem recorded_template (e : Engine) (c : Context) (template : String) (stamp : Stamp) :
    (e.recorded c template stamp).template = template := by
  unfold recorded
  rw [(replay_tracking _ _).2.2.2, Recorder.foldl_take_template]
  rfl

/-- Each step of a trace keeps the kind, the name and the texts of an event of the ledger. -/
theorem recorded_step {s : Stencil.Step} (hs : s ∈ (e.recorded c template stamp).steps) :
    ∃ x ∈ (e.ending c template).events, s.event = e.tracking.shape x := by
  have hmem : s.event ∈ (e.recorded c template stamp).steps.map Step.event :=
    List.mem_map_of_mem hs
  rw [(e.recorded_steps c template stamp).1] at hmem
  obtain ⟨x, hx, he⟩ := List.mem_map.1 hmem
  exact ⟨x, (List.mem_filter.1 (List.mem_of_mem_take hx)).1, he.symm⟩

/-- A trace lists the failures of the ledger. -/
theorem recorded_failures (e : Engine) (c : Context) (template : String) (stamp : Stamp) :
    (e.recorded c template stamp).failures = (e.ending c template).failures := by
  unfold recorded
  rw [replay_failures]
  rfl

end Engine
end Stencil
