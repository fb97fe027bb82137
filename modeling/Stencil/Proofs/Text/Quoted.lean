/-
# The characters of quoted texts and of numbers

A quoted text has the characters of the text and, besides, only those that
quoting is done with; a number in a text has digits and a sign.

Key definition: `quotingMarks`.
Key theorems: `mem_quoted`, `mem_intText`.
-/
import Mathlib.Tactic.IntervalCases
import Mathlib.Tactic.SplitIfs
import Stencil.Number
import Stencil.Text.Quoted

namespace Stencil
namespace Text

/-- The digits that numbers are written with. -/
def digits : String := "0123456789abcdef"

/-- The characters that quoting adds. -/
def quotingMarks : String := "'\"\\nrtxuU0123456789abcdef"

variable {b n : Nat} {c q : Char} {s : String}

theorem mem_digits_of_lt (h : n < 16) : Nat.digitChar n ∈ digits.toList := by
  interval_cases n <;> decide

theorem mem_toDigits (hb : 1 < b) (hle : b ≤ 16) (h : c ∈ Nat.toDigits b n) :
    c ∈ digits.toList := by
  induction n using Nat.strong_induction_on with
  | _ n ih =>
    by_cases hn : n < b
    · rw [Nat.toDigits_of_lt_base hn, List.mem_singleton] at h
      exact h ▸ mem_digits_of_lt (by omega)
    · have hpos : 0 < n := by omega
      rw [Nat.toDigits_of_base_le hb (by omega), List.mem_append, List.mem_singleton] at h
      rcases h with h | rfl
      · exact ih (n / b) (Nat.div_lt_self hpos hb) h
      · have hmod := Nat.mod_lt n (show 0 < b by omega)
        exact mem_digits_of_lt (by omega)

theorem mem_repr (h : c ∈ (Nat.repr n).toList) : c ∈ digits.toList := by
  rw [Nat.repr, String.toList_ofList] at h
  exact mem_toDigits (by decide) (by decide) h

theorem mem_intText {i : Int} (h : c ∈ (intText i).toList) : c ∈ "-".toList ∨ c ∈ digits.toList := by
  rw [intText, String.toList_ofList, intChars] at h
  split_ifs at h
  · rcases List.mem_cons.1 h with rfl | h
    · exact .inl (by decide)
    · exact .inr (mem_repr h)
  · exact .inr (mem_repr h)

/-! ### Quoted texts -/

theorem mem_quotingMarks (h : c ∈ digits.toList) : c ∈ quotingMarks.toList :=
  List.mem_append_right "'\"\\nrtxuU".toList h

theorem mem_hex {w : Nat} (h : c ∈ hex w n) : c ∈ quotingMarks.toList := by
  rcases List.mem_append.1 h with h | h
  · rw [List.eq_of_mem_replicate h]
    decide
  · exact mem_quotingMarks (mem_toDigits (by decide) (by decide) h)

theorem mem_escape {d : Char} (h : c ∈ escape q d) : c = d ∨ c ∈ quotingMarks.toList := by
  have hslash : '\\' ∈ quotingMarks.toList := by decide
  have hcode : ∀ {x : Char} {r : List Char}, x ∈ quotingMarks.toList →
      (∀ y ∈ r, y ∈ quotingMarks.toList) → c ∈ '\\' :: x :: r → c = d ∨ c ∈ quotingMarks.toList := by
    intro x r hx hr hc
    rcases List.mem_cons.1 hc with rfl | hc
    · exact .inr hslash
    rcases List.mem_cons.1 hc with rfl | hc
    · exact .inr hx
    · exact .inr (hr c hc)
  have hnil : ∀ y ∈ ([] : List Char), y ∈ quotingMarks.toList := fun y hy => absurd hy List.not_mem_nil
  unfold escape at h
  split_ifs at h
  · rcases List.mem_cons.1 h with rfl | h
    · exact .inr hslash
    · exact .inl (List.mem_singleton.1 h)
  · exact hcode (by decide) hnil h
  · exact hcode (by decide) hnil h
  · exact hcode (by decide) hnil h
  · exact .inl (List.mem_singleton.1 h)
  · exact hcode (by decide) (fun y => mem_hex) h
  · exact hcode (by decide) (fun y => mem_hex) h
  · exact hcode (by decide) (fun y => mem_hex) h

theorem quoteFor_mem (cs : List Char) : quoteFor cs ∈ quotingMarks.toList := by
  unfold quoteFor
  split_ifs <;> decide

/-- **A quoted text has the characters of the text, and marks.** -/
theorem mem_quoted (h : c ∈ (quoted s).toList) : c ∈ s.toList ∨ c ∈ quotingMarks.toList := by
  unfold quoted at h
  dsimp only at h
  rw [String.toList_ofList] at h
  simp only [List.cons_append, List.mem_cons, List.mem_append, List.mem_flatMap, List.not_mem_nil,
    or_false] at h
  rcases h with rfl | ⟨d, hd, hc⟩ | rfl
  · exact .inr (quoteFor_mem _)
  · rcases mem_escape hc with rfl | hc
    · exact .inl hd
    · exact .inr hc
  · exact .inr (quoteFor_mem _)

end Text
end Stencil
