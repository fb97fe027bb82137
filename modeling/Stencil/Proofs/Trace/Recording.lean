/-
# What a recorder makes of what it is told

A recorder is told of events and failures, in any order, until it is finished. That
it was told of failures between the events makes no difference to the steps, nor the
other way round (`foldl_told`); so the trace has the wanted events for which there
was room, numbered from one, and all failures (`SumsUp`). The counts go on for
events that are not kept, since an event is counted before it is asked whether it is
wanted (`Metrics.Counts.count`). The depth counts from zero, also where all events
lie above it.

Once a recorder is finished every call is refused and changes nothing
(`answers_finished`). A trace is not part of the recorder, so it stays as it is.

Key definitions: `Input`, `Call`, `answers`, `Metrics.Counts`, `SumsUp`.
Key theorems: `foldl_told`, `Metrics.foldl_count_counts`, `close_sumsUp`,
`answers_finished`, `answers_sumUp`.
-/
import Mathlib.Order.Bounds.Basic
import Stencil.Proofs.Trace.Tracking

namespace Stencil

/-- An event is of a kind that is kept, whether or not anything is. -/
def Tracking.keepsKind (t : Tracking) (e : Event) : Bool := t.keepsCache || !e.kind.isOfCache

namespace Metrics

/-- The counts are those of the events, and the depth is the greatest of theirs and of zero. -/
structure Counts (m : Metrics) (es : List Event) : Prop where
  lookups : m.lookups = es.countP fun e => e.kind = .lookup ∨ e.kind = .hit
  calls : m.calls = es.countP fun e => e.kind = .call
  hits : m.hits = es.countP fun e => e.kind = .hit
  misses : m.misses = es.countP fun e => e.kind = .miss
  maxDepth : IsGreatest {d | d = 0 ∨ ∃ e ∈ es, e.depth = d} m.maxDepth

/-- **One event more is counted.** -/
theorem Counts.count {m : Metrics} {es : List Event} (h : m.Counts es) (e : Event) :
    (m.count e).Counts (es ++ [e]) := by
  obtain ⟨hdepth, hbound⟩ := h.maxDepth
  refine ⟨?_, ?_, ?_, ?_, ?_, ?_⟩
  · simp [Metrics.count, List.countP_append, List.countP_singleton, h.lookups]
  · simp [Metrics.count, List.countP_append, List.countP_singleton, h.calls]
  · simp [Metrics.count, List.countP_append, List.countP_singleton, h.hits]
  · simp [Metrics.count, List.countP_append, List.countP_singleton, h.misses]
  · rcases le_total m.maxDepth e.depth with hle | hle
    · have hmax : (m.count e).maxDepth = e.depth := max_eq_right hle
      exact .inr ⟨e, by simp, hmax.symm⟩
    · have hmax : (m.count e).maxDepth = m.maxDepth := max_eq_left hle
      rw [hmax]
      rcases hdepth with hzero | ⟨x, hx, hxd⟩
      · exact .inl hzero
      · exact .inr ⟨x, List.mem_append_left _ hx, hxd⟩
  · rintro d (rfl | ⟨x, hx, rfl⟩)
    · exact le_max_of_le_left (hbound (.inl rfl))
    · rcases List.mem_append.1 hx with hx | hx
      · exact le_max_of_le_left (hbound (.inr ⟨x, hx, rfl⟩))
      · rw [List.mem_singleton.1 hx]
        exact le_max_right _ _

/-- **All events are counted.** -/
theorem foldl_count_counts (es : List Event) : (es.foldl Metrics.count {}).Counts es := by
  induction es using List.reverseRecOn with
  | nil => exact ⟨rfl, rfl, rfl, rfl, by simp [IsGreatest, upperBounds]⟩
  | append_singleton es e ih =>
    rw [List.foldl_append]
    exact ih.count e

end Metrics

namespace Recorder

/-- What a recorder is told of. -/
inductive Input where
  | event (e : Event)
  | failure (f : Failure)

def Input.event? : Input → Option Event
  | event e => some e
  | failure _ => none

def Input.failure? : Input → Option Failure
  | event _ => none
  | failure f => some f

def eventsOf (xs : List Input) : List Event := xs.filterMap Input.event?

def failuresOf (xs : List Input) : List Failure := xs.filterMap Input.failure?

/-- A call on a recorder. -/
inductive Call where
  | tell (x : Input)
  | finish (x : Ending)

/-- What a call answers: the step that an event became, if any, nothing for a failure, or the
trace. -/
inductive Answer where
  | step (s : Option Step)
  | noted
  | trace (t : Trace)

/-- What a call answers, and the recorder after it. A call that is refused leaves it as it is. -/
def answer (r : Recorder) : Call → Except String Answer × Recorder
  | .tell (.event e) =>
    match r.record e with
    | .ok (s, r') => (.ok (.step s), r')
    | .error message => (.error message, r)
  | .tell (.failure f) =>
    match r.fail f with
    | .ok r' => (.ok .noted, r')
    | .error message => (.error message, r)
  | .finish x =>
    match r.finish x with
    | .ok (t, r') => (.ok (.trace t), r')
    | .error message => (.error message, r)

/-- Calls one after another. -/
def answers (r : Recorder) : List Call → List (Except String Answer) × Recorder
  | [] => ([], r)
  | c :: cs => ((r.answer c).1 :: ((r.answer c).2.answers cs).1, ((r.answer c).2.answers cs).2)

/-- The recorder after it was told of something while open. -/
def told (r : Recorder) : Input → Recorder
  | .event e => (r.take e).2
  | .failure f => r.addFailure f

/-- What a trace says of all that its recorder was told of. -/
structure SumsUp (tracking : Tracking) (xs : List Input) (x : Ending) (t : Trace) : Prop where
  numbers : t.steps.map Step.number = List.range' 1 t.steps.length
  events : t.steps.map Step.event =
    (((eventsOf xs).filter tracking.wants).take t.steps.length).map tracking.shape
  off : tracking.isEnabled = false → t.steps = []
  count : tracking.isEnabled = true → ∀ bound : ℕ, tracking.maxSteps = .int bound →
    t.steps.length = min bound ((eventsOf xs).countP tracking.keepsKind)
  isTruncated : ∀ bound : ℕ, tracking.maxSteps = .int bound → (t.isTruncated = true ↔
    tracking.isEnabled = true ∧ bound < (eventsOf xs).countP tracking.keepsKind)
  metrics : t.metrics.Counts (eventsOf xs)
  failures : t.failures = failuresOf xs ++ x.failures
  isSuccess : t.isSuccess = true ↔ t.failures = []
  resolved : t.resolved = x.resolved.filter fun n => !x.unresolved.contains n
  unresolved : t.unresolved = x.unresolved
  disjoint : t.resolved.Disjoint t.unresolved

variable {r : Recorder} {xs : List Input} {x : Ending}

/-! ### Being told -/

theorem take_withFailures (r : Recorder) (fs : List Failure) (e : Event) :
    ({ r with recentFailures := fs }.take e).2 = { (r.take e).2 with recentFailures := fs } := by
  unfold take
  dsimp only
  split_ifs <;> rfl

theorem foldl_take_withFailures (es : List Event) (r : Recorder) (fs : List Failure) :
    es.foldl (fun r e => (r.take e).2) { r with recentFailures := fs } =
      { es.foldl (fun r e => (r.take e).2) r with recentFailures := fs } := by
  induction es generalizing r with
  | nil => rfl
  | cons e es ih => rw [List.foldl_cons, take_withFailures, ih, List.foldl_cons]

/-- **Events and failures do not meddle with each other.** -/
theorem foldl_told (xs : List Input) (r : Recorder) :
    xs.foldl told r = { (eventsOf xs).foldl (fun r e => (r.take e).2) r with
      recentFailures := (failuresOf xs).reverse ++ r.recentFailures } := by
  induction xs generalizing r with
  | nil => rfl
  | cons y xs ih =>
    rw [List.foldl_cons, ih]
    cases y with
    | event e =>
      show _ = { ((eventsOf xs).foldl (fun r e => (r.take e).2) (r.take e).2) with
        recentFailures := (failuresOf xs).reverse ++ r.recentFailures }
      rw [told, take_failures]
    | failure f =>
      have hfailures : failuresOf (.failure f :: xs) = f :: failuresOf xs := rfl
      show _ = { ((eventsOf xs).foldl (fun r e => (r.take e).2) r) with
        recentFailures := (failuresOf (.failure f :: xs)).reverse ++ r.recentFailures }
      rw [told, addFailure, foldl_take_withFailures, hfailures, List.reverse_cons,
        List.append_assoc, List.singleton_append]

/-- Being told of anything leaves a recorder open, and the same one. -/
theorem told_open (r : Recorder) (y : Input) :
    (r.told y).isFinished = r.isFinished ∧ (r.told y).id = r.id := by
  cases y with
  | event e =>
    show (r.take e).2.isFinished = r.isFinished ∧ (r.take e).2.id = r.id
    unfold take
    dsimp only
    split_ifs <;> exact ⟨rfl, rfl⟩
  | failure f => exact ⟨rfl, rfl⟩

theorem foldl_told_open (r : Recorder) (xs : List Input) :
    (xs.foldl told r).isFinished = r.isFinished ∧ (xs.foldl told r).id = r.id := by
  induction xs generalizing r with
  | nil => exact ⟨rfl, rfl⟩
  | cons y xs ih =>
    obtain ⟨hfinished, hid⟩ := ih (r.told y)
    obtain ⟨hfinished', hid'⟩ := told_open r y
    exact ⟨hfinished.trans hfinished', hid.trans hid'⟩

theorem wanted_length (tracking : Tracking) (es : List Event) (h : tracking.isEnabled = true) :
    (es.filter tracking.wants).length = es.countP tracking.keepsKind := by
  have hwants : tracking.wants = tracking.keepsKind := by
    funext e
    rw [Tracking.wants, h, Bool.true_and, Tracking.keepsKind]
  rw [hwants, List.countP_eq_length_filter]

/-- The steps of a recorder that has been given events from the start on. -/
theorem start_kept (id template : String) (context : Option Summary) (tracking : Tracking)
    (clock : Clock) (es : List Event) :
    let r := es.foldl (fun (r : Recorder) e => (r.take e).2)
      (start id template context tracking clock)
    let wanted := es.filter tracking.wants
    r.steps.length = tracking.room 0 wanted.length ∧
      r.steps.map Step.number = List.range' 1 r.steps.length ∧
      r.steps.map Step.event = (wanted.take r.steps.length).map tracking.shape ∧
      (r.isTruncated = true ↔ r.steps.length < wanted.length) := by
  intro r wanted
  obtain ⟨hevents, hnumbers, htruncated⟩ :=
    foldl_take_kept es (.start id template context tracking clock)
  have hnumbers : r.steps.map Step.number = List.range' 1 (tracking.room 0 wanted.length) := hnumbers
  have hevents : r.steps.map Step.event =
      (wanted.take (tracking.room 0 wanted.length)).map tracking.shape := hevents
  have htruncated : r.isTruncated = true ↔
      false = true ∨ tracking.room 0 wanted.length < wanted.length := htruncated
  have hlength : r.steps.length = tracking.room 0 wanted.length := by
    have hmap := congrArg List.length hnumbers
    simpa using hmap
  rw [hlength]
  exact ⟨rfl, hnumbers, hevents, by simpa using htruncated⟩

/-- **The trace of a recorder sums up what it was told of.** -/
theorem close_sumsUp (id template : String) (context : Option Summary) (tracking : Tracking)
    (clock : Clock) (xs : List Input) (x : Ending) :
    SumsUp tracking xs x
      ((xs.foldl told (.start id template context tracking clock)).close x).1 := by
  obtain ⟨hlength, hnumbers, hevents, htruncated⟩ :=
    start_kept id template context tracking clock (eventsOf xs)
  have hmetrics := foldl_take_metrics (eventsOf xs) (.start id template context tracking clock)
  rw [foldl_told]
  generalize (eventsOf xs).foldl (fun (r : Recorder) e => (r.take e).2)
    (start id template context tracking clock) = r at *
  have hnone : tracking.isEnabled = false → (eventsOf xs).filter tracking.wants = [] := by
    intro hoff
    refine List.filter_eq_nil_iff.2 fun e _ => ?_
    simp [Tracking.wants, hoff]
  have hoff : tracking.isEnabled = false → r.steps = [] := by
    intro hoff
    rw [← List.length_eq_zero_iff, hlength, hnone hoff]
    rfl
  have hcount : tracking.isEnabled = true → ∀ bound : ℕ, tracking.maxSteps = .int bound →
      r.steps.length = min bound ((eventsOf xs).countP tracking.keepsKind) := by
    intro hon bound hb
    rw [hlength, Tracking.room_int hb, wanted_length tracking _ hon, Nat.sub_zero]
  have htrunc : ∀ bound : ℕ, tracking.maxSteps = .int bound → (r.isTruncated = true ↔
      tracking.isEnabled = true ∧ bound < (eventsOf xs).countP tracking.keepsKind) := by
    intro bound hb
    rw [htruncated]
    cases hon : tracking.isEnabled with
    | false => simp [hnone hon]
    | true =>
      rw [hcount hon bound hb, wanted_length tracking _ hon]
      simp
  have hcounts : r.metrics.Counts (eventsOf xs) := by
    rw [hmetrics]
    exact Metrics.foldl_count_counts _
  have hfailures : ((failuresOf xs).reverse ++ []).reverse = failuresOf xs := by simp
  refine ⟨hnumbers, hevents, hoff, hcount, htrunc, hcounts, congrArg (· ++ x.failures) hfailures,
    List.isEmpty_iff, rfl, rfl, ?_⟩
  intro n hn hu
  have hkept : (!x.unresolved.contains n) = true := (List.mem_filter.1 hn).2
  have hfailed : x.unresolved.contains n = true := List.contains_iff_mem.2 hu
  rw [hfailed] at hkept
  cases hkept

/-! ### Calls -/

theorem answers_append (r : Recorder) (cs ds : List Call) :
    r.answers (cs ++ ds) =
      ((r.answers cs).1 ++ ((r.answers cs).2.answers ds).1, ((r.answers cs).2.answers ds).2) := by
  induction cs generalizing r with
  | nil => rfl
  | cons c cs ih => simp [answers, ih]

/-- **A finished recorder refuses every call and stays as it is.** -/
theorem answers_finished (h : r.isFinished = true) (cs : List Call) :
    r.answers cs = (cs.map fun _ => .error r.finishedMessage, r) := by
  have hone : ∀ c, r.answer c = (.error r.finishedMessage, r) := by
    intro c
    match c with
    | .tell (.event e) => simp [answer, record, h]
    | .tell (.failure f) => simp [answer, fail, h]
    | .finish x => simp [answer, finish, h]
  induction cs with
  | nil => rfl
  | cons c cs ih => rw [answers, hone, ih, List.map_cons]

/-- An open recorder takes all that it is told of. -/
theorem answers_tell (h : r.isFinished = false) (xs : List Input) :
    ∃ replies, r.answers (xs.map .tell) = (replies, xs.foldl told r) ∧
      replies.length = xs.length ∧ ∀ a ∈ replies, ∃ y, a = .ok y := by
  induction xs generalizing r with
  | nil => exact ⟨[], rfl, rfl, fun a ha => absurd ha List.not_mem_nil⟩
  | cons y xs ih =>
    obtain ⟨reply, hone⟩ : ∃ z, r.answer (.tell y) = (.ok z, r.told y) := by
      cases y with
      | event e => exact ⟨.step (r.take e).1, by simp [answer, record, h, told]⟩
      | failure f => exact ⟨.noted, by simp [answer, fail, h, told]⟩
    obtain ⟨replies, hrest, hlength, hok⟩ := ih ((told_open r y).1.trans h)
    refine ⟨.ok reply :: replies, ?_, by simp [hlength], fun a ha => ?_⟩
    · rw [List.map_cons, answers, hone, hrest, List.foldl_cons]
    · rcases List.mem_cons.1 ha with rfl | ha
      · exact ⟨reply, rfl⟩
      · exact hok a ha

/-- **A recorder takes what it is told of until it is finished, sums that up, and refuses every call
from then on.** -/
theorem answers_sumUp (id template : String) (context : Option Summary) (tracking : Tracking)
    (clock : Clock) (xs : List Input) (x : Ending) (later : List Call) :
    let r := Recorder.start id template context tracking clock
    ∃ replies t closed,
      r.answers (xs.map .tell ++ [.finish x]) = (replies ++ [.ok (.trace t)], closed) ∧
      replies.length = xs.length ∧ (∀ a ∈ replies, ∃ y, a = .ok y) ∧
      SumsUp tracking xs x t ∧
      closed.answers later = (later.map fun _ => .error r.finishedMessage, closed) := by
  intro r
  obtain ⟨replies, htell, hlength, hok⟩ := answers_tell (r := r) rfl xs
  obtain ⟨hopen, hid⟩ := foldl_told_open r xs
  generalize hr' : xs.foldl told r = r' at *
  have hfinish : r'.answers [.finish x] = ([.ok (.trace (r'.close x).1)], (r'.close x).2) := by
    have hnot : r'.isFinished = false := hopen
    simp [answers, answer, finish, hnot]
  have hmessage : (r'.close x).2.finishedMessage = r.finishedMessage := by
    have hsame : (r'.close x).2.id = r.id := hid
    unfold finishedMessage
    rw [hsame]
  refine ⟨replies, (r'.close x).1, (r'.close x).2, ?_, hlength, hok, ?_, ?_⟩
  · rw [answers_append, htell, hfinish]
  · rw [← hr']
    exact close_sumsUp id template context tracking clock xs x
  · rw [answers_finished rfl later, hmessage]

/-- The deepest of the depths is below zero, and yet zero is counted. -/
theorem depth_below_zero :
    let e : Event := { kind := .lookup, name := "a", depth := -1 }
    let r := Recorder.start "" "" none {} ⟨0, 0⟩
    ∃ reply t, (r.answers [.tell (.event e), .finish { value := "" }]).1 =
        [.ok reply, .ok (.trace t)] ∧
      t.metrics.maxDepth = 0 ∧ IsGreatest {d | ∃ x ∈ [e], x.depth = d} (-1) ∧
      ¬ IsGreatest {d | ∃ x ∈ [e], x.depth = d} t.metrics.maxDepth := by
  intro e r
  have hgreatest : IsGreatest {d | ∃ x ∈ [e], x.depth = d} (-1 : ℤ) := by
    refine ⟨⟨e, List.mem_singleton_self e, rfl⟩, ?_⟩
    rintro d ⟨x, hx, rfl⟩
    rw [List.mem_singleton.1 hx]
  refine ⟨_, _, rfl, rfl, hgreatest, fun h => ?_⟩
  have hsame : (0 : ℤ) = -1 := h.unique hgreatest
  cases hsame

end Recorder
end Stencil
