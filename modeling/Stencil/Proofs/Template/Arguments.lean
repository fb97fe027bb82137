/-
# What arguments are

A bare word that is an integer has 4300 digits at most where the template is
read at all, so every literal argument of a template can be written again
(`parse_arguments`).

Key theorems: `digitsToNat_lt`, `ofWord_isWritable`, `parse_arguments`.
-/
import Mathlib.Algebra.Group.Nat.Defs
import Mathlib.Tactic.SplitIfs
import Stencil.Proofs.Template.Accepts

namespace Stencil

namespace Text

theorem digitValue?_lt {c : Char} {d : Nat} (h : digitValue? c = some d) : d < 10 := by
  unfold digitValue? at h
  dsimp only at h
  split_ifs at h with h₁ h₂
  · cases h
    simp only [Bool.and_eq_true, decide_eq_true_eq] at h₂
    omega
  · obtain ⟨z, hz, rfl⟩ := Option.map_eq_some_iff.1 h
    have hr := Array.find?_some hz
    simp only [Bool.and_eq_true, decide_eq_true_eq] at hr
    omega

theorem digitValue?_getD_lt (c : Char) : (digitValue? c).getD 0 < 10 := by
  cases h : digitValue? c with
  | none => decide
  | some d => exact digitValue?_lt h

/-- A run of digits denotes less than the power of ten of its length. -/
theorem digitsToNat_lt (cs : List Char) : digitsToNat cs < 10 ^ cs.length := by
  have hgo : ∀ (cs : List Char) (n k : Nat), n < 10 ^ k →
      cs.foldl (fun n c => 10 * n + (digitValue? c).getD 0) n < 10 ^ (k + cs.length) := by
    intro cs
    induction cs with
    | nil => exact fun n k hn => hn
    | cons c cs ih =>
      intro n k hn
      have hc := digitValue?_getD_lt c
      have hnext : 10 * n + (digitValue? c).getD 0 < 10 ^ (k + 1) := by
        rw [Nat.pow_succ]
        omega
      have hrest := ih _ (k + 1) hnext
      rwa [Nat.add_right_comm, Nat.add_assoc] at hrest
  have h := hgo cs 0 0 (by decide)
  rwa [Nat.zero_add] at h

theorem digitsToNat_lt_tenTo {cs : List Char} {k : Nat} (h : cs.length ≤ k) :
    digitsToNat cs < Binary64.tenTo k := by
  rw [Binary64.tenTo, Nat.pow_eq]
  exact Nat.lt_of_lt_of_le (digitsToNat_lt cs) (Nat.pow_le_pow_right (by decide) h)

end Text

namespace Template

open Text Grammar

theorem ofWord_isWritable {w : List Char} {v : Value} (h : Literal.ofWord w = .ok v) :
    v.isWritable = true := by
  unfold Literal.ofWord at h
  dsimp only at h
  split at h
  · split at h
    · cases h
    · rename_i hshort
      cases h
      have hn : digitsToNat (Numeral.splitSign w).2 < Numeral.tooLarge :=
        digitsToNat_lt_tenTo (Nat.le_of_not_lt hshort)
      rw [Value.isWritable, decide_eq_true_eq]
      split
      · rwa [Int.natAbs_neg, Int.natAbs_natCast]
      · rwa [Int.natAbs_natCast]
  · split at h
    · cases h
      rfl
    · cases h
      split
      · rfl
      · split
        · rfl
        · rfl

namespace Grammar

theorem Argument.isWritable_value {a : Argument} (h : a.IsShort) : a.value.isWritable = true := by
  cases a with
  | quoted q => rfl
  | bare w => exact ofWord_isWritable (w.ofWord_value h)

theorem Expression.isWritable_arguments {e : Expression} (h : e.IsShort) {pos : Nat} :
    ∀ v ∈ (e.reference pos).arguments, v.isWritable = true := by
  intro v hv
  unfold Expression.reference Reference.arguments Expression.arguments? at hv
  cases hc : e.call? with
  | none =>
    rw [hc] at hv
    exact absurd hv List.not_mem_nil
  | some c =>
    rw [hc] at hv
    obtain ⟨s, hs, rfl⟩ := List.mem_map.1 hv
    exact Argument.isWritable_value (h c hc s hs)

theorem Outline.isWritable_arguments {o : Outline} (h : o.IsShort) {pos : Nat} {r : Reference}
    (hr : .reference r ∈ o.segments pos) : ∀ v ∈ r.arguments, v.isWritable = true := by
  have hrun : ∀ {run : Run} {pos : Nat}, .reference r ∉ run.segments pos := by
    intro run pos
    unfold Run.segments
    split <;> simp
  induction o generalizing pos with
  | last run => exact absurd hr hrun
  | next run e rest ih =>
    rcases List.mem_append.1 hr with hr | hr
    · exact absurd hr hrun
    rcases List.mem_cons.1 hr with hr | hr
    · cases hr
      exact Expression.isWritable_arguments h.1
    · exact ih h.2 hr

end Grammar

/-- **The literal arguments of a well-formed template can be written.** -/
theorem parse_arguments {t : String} {segments : List Segment}
    (h : parse t = .ok (.ok segments)) {r : Reference} (hr : .reference r ∈ segments) :
    ∀ v ∈ r.arguments, v.isWritable = true := by
  obtain ⟨o, -, ho, rfl⟩ := outline_of_parse h
  exact Outline.isWritable_arguments ho hr

end Template
end Stencil
