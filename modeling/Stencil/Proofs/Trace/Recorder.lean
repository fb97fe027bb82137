/-
# What a recorder keeps

A recorder that has had room for every step keeps each event that its tracking
wants, with its name, its texts and its error (`kept_of_not_truncated`). It
never lets a failure go. The clock is written down and never read back: two
records of one call differ only in their times and in what identifies them.

Key definitions: `Step.untimed`, `Trace.untimed`, `Recorder.untimed`.
Key theorems: `kept_of_not_truncated`, `foldl_addFailure`, `foldl_take_untimed`,
`close_untimed`.
-/
import Mathlib.Tactic.SplitIfs
import Stencil.Trace.Recorder

namespace Stencil

/-- A step without its times. -/
def Step.untimed (s : Step) : Step :=
  { s with event := { s.event with duration := 0 }, time := 0 }

/-- A trace without its times and what identifies it. -/
def Trace.untimed (t : Trace) : Trace :=
  { t with id := "", steps := t.steps.map Step.untimed, started := 0, ended := 0 }

namespace Recorder

variable {r : Recorder}

/-! ### Events -/

theorem take_failures (r : Recorder) (e : Event) :
    (r.take e).2.recentFailures = r.recentFailures := by
  unfold take
  dsimp only
  split_ifs <;> rfl

theorem take_tracking (r : Recorder) (e : Event) : (r.take e).2.tracking = r.tracking := by
  unfold take
  dsimp only
  split_ifs <;> rfl

theorem take_template (r : Recorder) (e : Event) : (r.take e).2.template = r.template := by
  unfold take
  dsimp only
  split_ifs <;> rfl

/-- Steps stay, and so does the mark that there was no room for one. -/
theorem take_recent (r : Recorder) (e : Event) :
    r.recent ⊆ (r.take e).2.recent ∧ (r.isTruncated = true → (r.take e).2.isTruncated = true) := by
  unfold take
  dsimp only
  split_ifs
  · exact ⟨fun _ h => h, fun h => h⟩
  · exact ⟨fun _ h => h, fun _ => rfl⟩
  · exact ⟨List.subset_cons_self _ _, fun h => h⟩

theorem take_kept {e : Event} (hw : r.tracking.wants e = true)
    (ht : (r.take e).2.isTruncated = false) :
    ∃ s ∈ (r.take e).2.recent, s.event = r.tracking.shape e := by
  unfold take at ht ⊢
  simp only [hw, Bool.not_true, Bool.false_eq_true, if_false] at ht ⊢
  split_ifs at ht ⊢
  exact ⟨_, List.mem_cons_self, rfl⟩

theorem foldl_take_failures (es : List Event) (r : Recorder) :
    (es.foldl (fun r e => (r.take e).2) r).recentFailures = r.recentFailures := by
  induction es generalizing r with
  | nil => rfl
  | cons e es ih => rw [List.foldl_cons, ih, take_failures]

theorem foldl_take_template (es : List Event) (r : Recorder) :
    (es.foldl (fun r e => (r.take e).2) r).template = r.template := by
  induction es generalizing r with
  | nil => rfl
  | cons e es ih => rw [List.foldl_cons, ih, take_template]

theorem foldl_take_recent (es : List Event) (r : Recorder) :
    r.recent ⊆ (es.foldl (fun r e => (r.take e).2) r).recent ∧
      (r.isTruncated = true → (es.foldl (fun r e => (r.take e).2) r).isTruncated = true) := by
  induction es generalizing r with
  | nil => exact ⟨fun _ h => h, fun h => h⟩
  | cons e es ih =>
    obtain ⟨hs, ht⟩ := take_recent r e
    obtain ⟨hs', ht'⟩ := ih (r.take e).2
    exact ⟨fun s h => hs' (hs h), fun h => ht' (ht h)⟩

/-- **A recorder that has had room for every step keeps each event that is wanted.** -/
theorem kept_of_not_truncated {es : List Event} {e : Event} (he : e ∈ es)
    (hw : r.tracking.wants e = true)
    (ht : (es.foldl (fun r e => (r.take e).2) r).isTruncated = false) :
    ∃ s ∈ (es.foldl (fun r e => (r.take e).2) r).recent, s.event = r.tracking.shape e := by
  induction es generalizing r with
  | nil => cases he
  | cons x es ih =>
    rw [List.foldl_cons] at ht ⊢
    obtain ⟨hs, ht'⟩ := foldl_take_recent es (r.take x).2
    rcases List.mem_cons.1 he with rfl | he
    · have hn : (r.take e).2.isTruncated = false := by
        rw [← Bool.not_eq_true]
        intro h
        rw [ht' h] at ht
        cases ht
      obtain ⟨s, hm, hse⟩ := take_kept hw hn
      exact ⟨s, hs hm, hse⟩
    · rw [← take_tracking r x] at hw ⊢
      exact ih he hw ht

theorem take_untracked (hw : r.tracking.isEnabled = false) (e : Event) :
    (r.take e).2.recent = r.recent := by
  have hn : r.tracking.wants e = false := by rw [Tracking.wants, hw, Bool.false_and]
  unfold take
  simp only [hn, Bool.not_false, if_true]

/-- A recorder with tracking off keeps no step. -/
theorem foldl_take_untracked (es : List Event) (hw : r.tracking.isEnabled = false) :
    (es.foldl (fun r e => (r.take e).2) r).recent = r.recent := by
  induction es generalizing r with
  | nil => rfl
  | cons e es ih => rw [List.foldl_cons, ih (by rwa [take_tracking]), take_untracked hw]

/-! ### Failures -/

/-- Taking failures changes nothing but the list of them. -/
theorem foldl_addFailure_eq (fs : List Failure) (r : Recorder) :
    fs.foldl Recorder.addFailure r = { r with recentFailures := fs.reverse ++ r.recentFailures } := by
  induction fs generalizing r with
  | nil => rfl
  | cons f fs ih =>
    rw [List.foldl_cons, ih, List.reverse_cons, List.append_assoc]
    rfl

theorem foldl_addFailure (fs : List Failure) (r : Recorder) :
    (fs.foldl Recorder.addFailure r).failures = r.failures ++ fs := by
  rw [foldl_addFailure_eq, Recorder.failures, List.reverse_append, List.reverse_reverse]
  rfl

/-! ### Times -/

/-- A recorder without its times and what identifies it. -/
def untimed (r : Recorder) : Recorder :=
  { r with id := "", clock := { now := 0 }, started := 0, recent := r.recent.map Step.untimed }

theorem untimed_map (ss : List Step) :
    (ss.map Step.untimed).map Step.untimed = ss.map Step.untimed := by
  rw [List.map_map]
  rfl

theorem untimed_untimed (r : Recorder) : r.untimed.untimed = r.untimed := by
  unfold untimed
  dsimp only
  rw [untimed_map]

/-- What becomes of an event does not depend on the times so far. -/
theorem take_untimed (r : Recorder) (e : Event) :
    (r.untimed.take e).2.untimed = (r.take e).2.untimed := by
  unfold take
  dsimp only [untimed]
  split_ifs
  · rw [untimed_map]
  · rw [untimed_map]
  · rw [List.map_cons, List.map_cons, untimed_map]
    rfl

theorem foldl_take_untimed (es : List Event) (r : Recorder) :
    (es.foldl (fun r e => (r.take e).2) r.untimed).untimed =
      (es.foldl (fun r e => (r.take e).2) r).untimed := by
  induction es generalizing r with
  | nil => exact untimed_untimed r
  | cons e es ih => rw [List.foldl_cons, List.foldl_cons, ← ih, take_untimed, ih]

theorem foldl_addFailure_untimed (fs : List Failure) (r : Recorder) :
    (fs.foldl addFailure r).untimed = fs.foldl addFailure r.untimed := by
  rw [foldl_addFailure_eq, foldl_addFailure_eq]
  rfl

theorem close_untimed (r : Recorder) (x : Ending) :
    (r.untimed.close x).1.untimed = (r.close x).1.untimed := by
  unfold close untimed Trace.untimed steps failures
  dsimp only
  rw [← List.map_reverse, untimed_map]

end Recorder
end Stencil
