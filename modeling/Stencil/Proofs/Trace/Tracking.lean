/-
# What tracking keeps

A recorder keeps the wanted events in order, as many as there is room for, and
numbers them from one (`foldl_take_kept`). What it counts depends on the events
alone. So a trace that is kept in part is read off one that is kept in full:
the steps that are wanted, cut to the room there is, each without what tracking
leaves out (`Tracking.reduce_shape`).

Key definitions: `Tracking.room`, `Tracking.reduce`, `Tracking.full`.
Key theorems: `room_int`, `foldl_take_kept`, `foldl_take_metrics`.
-/
import Stencil.Proofs.Number.Order
import Stencil.Proofs.Trace.Recorder

namespace Stencil

namespace Tracking

/-- For how many of `n` steps there is room once `taken` have been taken. -/
def room (t : Tracking) (taken : Nat) : Nat → Nat
  | 0 => 0
  | n + 1 => if t.maxSteps.le (.int taken) then 0 else t.room (taken + 1) n + 1

/-- A kept event without what tracking leaves out. -/
def reduce (t : Tracking) (e : Event) : Event :=
  { e with
    duration := if t.keepsTiming then e.duration else 0
    details := if t.keepsDetails then e.details else [] }

/-- Everything is kept, up to a number of steps. -/
def full (maxSteps : Nat) : Tracking := { maxSteps := .int maxSteps }

variable {t : Tracking} {k n : Nat}

theorem room_of_full (h : t.maxSteps.le (.int k) = true) (n : Nat) : t.room k n = 0 := by
  cases n with
  | zero => rfl
  | succ n => exact if_pos h

/-- A whole number of steps is room for just as many. -/
theorem room_int {b : Nat} (h : t.maxSteps = .int b) (k n : Nat) : t.room k n = min (b - k) n := by
  induction n generalizing k with
  | zero => exact (Nat.min_zero _).symm
  | succ n ih =>
    rw [room, h, Number.int_le_int, ih]
    split_ifs with hb
    · have : b ≤ k := by simpa using hb
      omega
    · have : k < b := by simpa using hb
      omega

theorem wants_full (maxSteps : Nat) (e : Event) : (full maxSteps).wants e = true := rfl

/-- **What is kept of an event is what full tracking keeps, without what is left out.** -/
theorem reduce_shape (t : Tracking) (maxSteps : Nat) (e : Event) :
    t.reduce ((full maxSteps).shape e) = t.shape e := by
  unfold reduce shape full
  cases t.keepsTiming <;> cases t.keepsDetails <;> rfl

end Tracking

namespace Recorder

variable {r : Recorder}

theorem take_metrics (r : Recorder) (e : Event) : (r.take e).2.metrics = r.metrics.count e := by
  unfold take
  dsimp only
  split_ifs <;> rfl

/-- What is counted does not depend on what is kept. -/
theorem foldl_take_metrics (es : List Event) (r : Recorder) :
    (es.foldl (fun r e => (r.take e).2) r).metrics = es.foldl Metrics.count r.metrics := by
  induction es generalizing r with
  | nil => rfl
  | cons e es ih => rw [List.foldl_cons, ih, take_metrics, List.foldl_cons]

theorem take_unwanted {e : Event} (hw : r.tracking.wants e = false) :
    (r.take e).2 = { r with metrics := r.metrics.count e } := by
  simp only [take, hw, Bool.not_false, if_true]

theorem take_full {e : Event} (hw : r.tracking.wants e = true)
    (hf : r.tracking.maxSteps.le (.int r.count) = true) :
    (r.take e).2 = { r with metrics := r.metrics.count e, isTruncated := true } := by
  simp only [take, hw, hf, Bool.not_true, Bool.false_eq_true, if_false, if_true]

theorem take_wanted {e : Event} (hw : r.tracking.wants e = true)
    (hf : r.tracking.maxSteps.le (.int r.count) = false) :
    ∃ time clock, (r.take e).2 = { r with
      metrics := r.metrics.count e
      clock
      recent := ⟨r.count + 1, r.tracking.shape e, time⟩ :: r.recent
      count := r.count + 1 } := by
  simp only [take, hw, hf, Bool.not_true, Bool.false_eq_true, if_false]
  exact ⟨_, _, rfl⟩

/-- What a recorder has after it was given events: the wanted ones for which there was room. -/
structure Kept (r : Recorder) (es : List Event) (r' : Recorder) : Prop where
  events : r'.steps.map Step.event = r.steps.map Step.event ++
    ((es.filter r.tracking.wants).take
      (r.tracking.room r.count (es.filter r.tracking.wants).length)).map r.tracking.shape
  numbers : r'.steps.map Step.number = r.steps.map Step.number ++
    List.range' (r.count + 1) (r.tracking.room r.count (es.filter r.tracking.wants).length)
  isTruncated : r'.isTruncated = true ↔ r.isTruncated = true ∨
    r.tracking.room r.count (es.filter r.tracking.wants).length <
      (es.filter r.tracking.wants).length

/-- **A recorder keeps the wanted events in order, as many as there is room for, and numbers
them.** -/
theorem foldl_take_kept (es : List Event) (r : Recorder) :
    r.Kept es (es.foldl (fun r e => (r.take e).2) r) := by
  induction es generalizing r with
  | nil =>
    refine ⟨?_, ?_, ?_⟩
    · simp
    · simp [Tracking.room]
    · simp [Tracking.room]
  | cons e es ih =>
    obtain ⟨hevents, hnumbers, htrunc⟩ := ih (r.take e).2
    rw [List.foldl_cons]
    cases hw : r.tracking.wants e with
    | false =>
      have hfilter : (e :: es).filter r.tracking.wants = es.filter r.tracking.wants :=
        List.filter_cons_of_neg (by simp [hw])
      rw [take_unwanted hw] at hevents hnumbers htrunc ⊢
      rw [← hfilter] at hevents hnumbers htrunc
      exact ⟨hevents, hnumbers, htrunc⟩
    | true =>
      have hfilter : (e :: es).filter r.tracking.wants = e :: es.filter r.tracking.wants :=
        List.filter_cons_of_pos hw
      cases hf : r.tracking.maxSteps.le (.int r.count) with
      | true =>
        rw [take_full hw hf] at hevents hnumbers htrunc ⊢
        simp only [Tracking.room_of_full hf] at hevents hnumbers
        refine ⟨?_, ?_, ?_⟩
        · rw [Tracking.room_of_full hf]
          exact hevents
        · rw [Tracking.room_of_full hf]
          exact hnumbers
        · rw [hfilter, List.length_cons, Tracking.room_of_full hf]
          exact ⟨fun _ => .inr (Nat.succ_pos _), fun _ => htrunc.2 (.inl rfl)⟩
      | false =>
        obtain ⟨time, clock, htake⟩ := take_wanted hw hf
        have hroom : r.tracking.room r.count ((e :: es).filter r.tracking.wants).length =
            r.tracking.room (r.count + 1) (es.filter r.tracking.wants).length + 1 := by
          rw [hfilter, List.length_cons, Tracking.room, hf]
          rfl
        rw [htake] at hevents hnumbers htrunc ⊢
        refine ⟨?_, ?_, ?_⟩
        · rw [hevents, hroom, hfilter, List.take_succ_cons, List.map_cons, steps, List.reverse_cons,
            List.map_append, List.append_assoc]
          rfl
        · rw [hnumbers, hroom, List.range'_succ, steps, List.reverse_cons, List.map_append,
            List.append_assoc]
          rfl
        · rw [htrunc, hroom, hfilter, List.length_cons, Nat.succ_lt_succ_iff]

end Recorder
end Stencil
