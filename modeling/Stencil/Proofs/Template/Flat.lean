/-
# Templates without expressions

A text in which no expression starts is a well-formed template without
references, and no other text is (`isFlat_iff`). The literal runs of a
well-formed template are such texts. Where two of them are put together an
expression starts only at the seam, if the first one ends with a `$` and the
second one begins with a brace (`isFlat_append`).

Key theorems: `isFlat_append`, `isFlat_of_parse`, `parse_flat`, `isFlat_iff`.
-/
import Stencil.Proofs.Template.Accepts

namespace Stencil
namespace Template

open Grammar

variable {t : String} {segments : List Segment}

/-- **Flat texts start an expression together only at the seam.** -/
theorem isFlat_append {a b : List Char} :
    IsFlat (a ++ b) ↔ IsFlat a ∧ IsFlat b ∧ ¬ (a.getLast? = some '$' ∧ b.head? = some '{') := by
  induction a with
  | nil => simp [isFlat_nil]
  | cons c a ih =>
    rw [List.cons_append, isFlat_cons, isFlat_cons, ih]
    cases a with
    | nil =>
      simp only [List.nil_append, List.head?_nil, List.getLast?_nil, List.getLast?_singleton,
        Option.some.injEq, reduceCtorEq, false_and, and_false, not_false_eq_true, isFlat_nil,
        true_and, and_true]
      exact and_comm
    | cons d a =>
      rw [List.cons_append, List.head?_cons, List.head?_cons, List.getLast?_cons_cons, and_assoc]

theorem Grammar.Outline.literal_isFlat {o : Outline} {pos : Nat} {text : String} {span : Span}
    (h : .literal text span ∈ o.segments pos) : IsFlat text.toList := by
  have hrun : ∀ (run : Run) (pos : Nat), .literal text span ∈ run.segments pos →
      IsFlat text.toList := by
    intro run pos hr
    unfold Run.segments at hr
    split_ifs at hr
    · cases hr
    · cases List.mem_singleton.1 hr
      exact String.toList_ofList ▸ run.isFlat
  induction o generalizing pos with
  | last run => exact hrun run pos h
  | next run e o ih =>
    rcases List.mem_append.1 h with h | h
    · exact hrun run pos h
    rcases List.mem_cons.1 h with h | h
    · cases h
    · exact ih h

/-- A literal run starts no expression. -/
theorem isFlat_of_parse {text : String} {span : Span} (h : parse t = .ok (.ok segments))
    (hm : .literal text span ∈ segments) : IsFlat text.toList := by
  obtain ⟨o, -, -, rfl⟩ := outline_of_parse h
  exact Outline.literal_isFlat hm

/-- A text in which no expression starts is read as one literal run. -/
theorem parse_flat (h : IsFlat t.toList) :
    parse t = .ok (.ok (Run.segments 0 ⟨t.toList, h⟩)) :=
  parse_of_outline (o := .last ⟨t.toList, h⟩) rfl trivial

/-- **No expression starts in a text just where it is a template without references.** -/
theorem isFlat_iff :
    IsFlat t.toList ↔ ∃ segments, parse t = .ok (.ok segments) ∧
      ∀ s ∈ segments, s.isReference = false := by
  constructor
  · intro h
    refine ⟨_, parse_flat h, fun s hs => ?_⟩
    unfold Run.segments at hs
    split_ifs at hs
    · cases hs
    · cases List.mem_singleton.1 hs
      rfl
  · rintro ⟨segments, hp, hs⟩
    obtain ⟨o, ht, -, rfl⟩ := outline_of_parse hp
    cases o with
    | last run => exact ht ▸ run.isFlat
    | next run e rest => cases hs _ (List.mem_append_right _ List.mem_cons_self)

end Template
end Stencil
