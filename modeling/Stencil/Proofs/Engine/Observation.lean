/-
# Tracking observes and does not influence

How much of a trace is kept has no influence on a call: with any two settings
the call comes to the same, invokes the same functions, and leaves the cache
and the sources the same. What is kept is a part of the full list of steps: none
if tracking is off; else the steps that are wanted, as many as there is room for,
numbered from one and without what is left out.

Key definitions: `Trace.SameResult`, `Trace.selection`, `Trace.IsPart`.
Key theorem: `tracking_observes`.
-/
import Stencil.Proofs.Engine.Replay

namespace Stencil

open Template

namespace Trace

/-- Two traces of one result. -/
structure SameResult (t u : Trace) : Prop where
  value : t.value = u.value
  isSuccess : t.isSuccess = u.isSuccess
  failures : t.failures = u.failures
  resolved : t.resolved = u.resolved
  unresolved : t.unresolved = u.unresolved
  metrics : t.metrics = u.metrics
  dependencies : t.dependencies = u.dependencies
  cycles : t.cycles = u.cycles

/-- The events of a full trace that tracking selects, room left aside. -/
def selection (full : Trace) (k : Tracking) : List Event :=
  if k.isEnabled then
    (full.steps.map Step.event).filter fun e =>
      k.keepsCache || (e.kind != .hit && e.kind != .miss)
  else []

/-- The trace keeps the selected steps of a full one as long as there is room, numbered from one and
without what tracking leaves out. -/
structure IsPart (t full : Trace) (k : Tracking) : Prop where
  whole : full.isTruncated = false
  events : t.steps.map Step.event =
    ((full.selection k).take (k.room 0 (full.selection k).length)).map k.reduce
  numbers : t.steps.map Step.number = List.range' 1 t.steps.length
  isTruncated : t.isTruncated = true ↔
    k.room 0 (full.selection k).length < (full.selection k).length

end Trace

/-- Two answers of one result. -/
inductive SameAnswer : Except Refusal Trace → Except Refusal Trace → Prop where
  | traces {t u : Trace} (h : t.SameResult u) : SameAnswer (.ok t) (.ok u)
  | refused (r : Refusal) : SameAnswer (.error r) (.error r)

/-- An answer whose trace is part of a full one. -/
inductive PartAnswer (k : Tracking) : Except Refusal Trace → Except Refusal Trace → Prop where
  | traces {t full : Trace} (h : t.IsPart full k) : PartAnswer k (.ok t) (.ok full)
  | refused (r : Refusal) : PartAnswer k (.error r) (.error r)

namespace Engine

/-- The engine with another tracking. -/
def withTracking (e : Engine) (k : Tracking) : Engine := { e with tracking := k }

variable {e : Engine} {c : Context} {template : String} {stamp : Stamp}

theorem outcome_withTracking (e : Engine) (c : Context) (template : String) (k : Tracking) :
    (e.withTracking k).outcome c template = e.outcome c template := rfl

/-- Recorders with the same failures and counts close with one result. -/
theorem close_sameResult {r r' : Recorder} (hf : r.failures = r'.failures)
    (hm : r.metrics = r'.metrics) (x : Recorder.Ending) :
    (r.close x).1.SameResult (r'.close x).1 := by
  have hall : (r.close x).1.failures = (r'.close x).1.failures := congrArg (· ++ x.failures) hf
  exact ⟨rfl, congrArg List.isEmpty hall, hall, rfl, rfl, hm, rfl, rfl⟩

/-- What is selected of a full trace is what tracking wants of the events. -/
theorem selection_eq {full : Trace} {es : List Event} {n : Nat} (k : Tracking)
    (h : full.steps.map Step.event = es.map (Tracking.full n).shape) :
    full.selection k = (es.filter k.wants).map (Tracking.full n).shape := by
  have hwants : ∀ e, k.wants e =
      (k.isEnabled && (k.keepsCache || (e.kind != .hit && e.kind != .miss))) := by
    intro e
    unfold Tracking.wants StepKind.isOfCache
    cases e.kind <;> rfl
  unfold Trace.selection
  rw [h, List.filter_map]
  cases hk : k.isEnabled with
  | true =>
    rw [if_pos rfl]
    refine congrArg _ (List.filter_congr fun e _ => ?_)
    rw [hwants, hk]
    rfl
  | false =>
    rw [if_neg Bool.false_ne_true, List.filter_eq_nil_iff.2, List.map_nil]
    intro e _
    rw [hwants, hk]
    exact Bool.false_ne_true

/-- A recorder with room for all events keeps each of them. -/
theorem recorded_full {n : Nat} (hn : (e.ending c template).events.length ≤ n) :
    let r := (e.withTracking (.full n)).recorded c template stamp
    r.steps.map Step.event = (e.ending c template).events.map (Tracking.full n).shape ∧
      r.isTruncated = false := by
  have hall : (e.withTracking (.full n)).wanted c template = (e.ending c template).events :=
    List.filter_eq_self.2 fun x _ => Tracking.wants_full n x
  have hkept := (e.withTracking (.full n)).recorded_all c template stamp rfl (hall ▸ hn)
  rwa [hall] at hkept

theorem close_isPart {n : Nat} (hn : (e.ending c template).events.length ≤ n) (k : Tracking)
    (stamp stamp' : Stamp) (x : Recorder.Ending) :
    (((e.withTracking k).recorded c template stamp).close x).1.IsPart
      (((e.withTracking (.full n)).recorded c template stamp').close x).1 k := by
  obtain ⟨hfull, hwhole⟩ := @recorded_full e c template stamp' n hn
  obtain ⟨hevents, hnumbers, htrunc⟩ := (e.withTracking k).recorded_steps c template stamp
  have hsel : (((e.withTracking (.full n)).recorded c template stamp').close x).1.selection k =
      ((e.withTracking k).wanted c template).map (Tracking.full n).shape :=
    selection_eq k hfull
  have hreduce : k.reduce ∘ (Tracking.full n).shape = k.shape :=
    funext fun e => Tracking.reduce_shape k n e
  refine ⟨hwhole, ?_, ?_, ?_⟩
  · rw [hsel, List.length_map, ← List.map_take, List.map_map, hreduce]
    exact hevents
  · have hlength := congrArg List.length hnumbers
    rw [List.length_map, List.length_range'] at hlength
    exact hnumbers.trans (congrArg (List.range' 1) hlength.symm)
  · rw [hsel, List.length_map]
    exact htrunc

/-- **Tracking observes a call and does not influence it.** With any two settings a call comes to
the same, makes the same invocations and leaves the same cache and sources. The steps kept are
part of those that are kept with every setting on and no limit in the way, and a number that limits
them is the number of those that there is room for. -/
theorem tracking_observes (e : Engine) (c : Context) (template : String) :
    (∀ (k k' : Tracking) (stamp stamp' : Stamp),
      let a := (e.withTracking k).resolve c template stamp
      let b := (e.withTracking k').resolve c template stamp'
      SameAnswer a.1 b.1 ∧ a.2.cache = b.2.cache ∧ a.2.sources = b.2.sources ∧
        (e.withTracking k).calls c template = (e.withTracking k').calls c template) ∧
    (∃ m, ∀ n, m ≤ n → ∀ (k : Tracking) (stamp stamp' : Stamp),
      PartAnswer k ((e.withTracking k).resolve c template stamp).1
        ((e.withTracking (.full n)).resolve c template stamp').1) ∧
    ∀ (k : Tracking) (b n : Nat), k.maxSteps = .int b → k.room 0 n = min b n := by
  refine ⟨fun k k' stamp stamp' => ?_, ⟨(e.ending c template).events.length, ?_⟩, ?_⟩
  · have hending : (e.withTracking k).ending c template = (e.withTracking k').ending c template :=
      rfl
    simp only [resolve_eq, outcome_withTracking]
    refine ⟨?_, rfl, rfl, rfl⟩
    cases e.outcome c template with
    | error r => exact .refused r
    | ok x =>
      refine .traces (close_sameResult ?_ ?_ x)
      · rw [recorded_failures, recorded_failures, hending]
      · rw [recorded_metrics, recorded_metrics, hending]
  · intro n hn k stamp stamp'
    simp only [resolve_eq, outcome_withTracking]
    cases e.outcome c template with
    | error r => exact .refused r
    | ok x => exact .traces (close_isPart hn k stamp stamp' x)
  · exact fun k b n hb => Tracking.room_int hb 0 n

end Engine
end Stencil
