/-
# How a text is cut

A text is cut at its first expression, whether that is well-formed or not, or
after its first character where none starts; what is left is cut in the same
way (`cut_of_pieces`). Cutting is refused only where the reading of an
expression is (`refused_at`).

Key definition: `Cut`.
Key theorems: `cut_of_pieces`, `refused_at`.
-/
import Stencil.Proofs.Template.Accepts

namespace Stencil
namespace Template

open Grammar

variable {cs rest : List Char} {q : Piece} {ps : List Piece}

/-- The first piece of a text, and what is left of the text after it. -/
inductive Cut : List Char → Piece → List Char → Prop where
  | char {c : Char} {r : List Char} (h : ¬ (c = '$' ∧ r.head? = some '{')) :
      Cut (c :: r) (.char c) r
  | malformed {r rest : List Char} {reason : Reason} {name : Option String}
      (h : readReference r = .error (.malformed reason name rest)) :
      Cut ('$' :: '{' :: r) (.malformed ('$' :: '{' :: taken r rest) reason name) rest
  | reference {r rest : List Char} {name : String} {args : Option (List Value)}
      (h : readReference r = .ok ((name, args), rest)) :
      Cut ('$' :: '{' :: r) (.reference ('$' :: '{' :: taken r rest) name args) rest

theorem Cut.text_append (h : Cut cs q rest) : q.text ++ rest = cs := by
  cases h with
  | char => rfl
  | malformed h =>
    rename_i r _ _
    have hs := readReference_reads r
    rw [h] at hs
    rw [Piece.text, List.cons_append, List.cons_append, taken_append hs]
  | reference h =>
    rename_i r _ _
    have hs := readReference_reads r
    rw [h] at hs
    rw [Piece.text, List.cons_append, List.cons_append, taken_append hs]

theorem Cut.text_pos (h : Cut cs q rest) : 0 < q.text.length := by
  cases h <;> simp [Piece.text]

theorem eq_nil_of_pieces (h : pieces cs = .ok []) : cs = [] := by
  rw [← pieces_text h]
  rfl

/-- **A text is cut at its first piece, and what is left is cut again.** -/
theorem cut_of_pieces (h : pieces cs = .ok (q :: ps)) :
    ∃ rest, Cut cs q rest ∧ pieces rest = .ok ps := by
  fun_induction pieces cs generalizing q ps with
  | case1 => cases h
  | case2 => cases h
  | case3 => cases h
  | case4 r reason name rest hr ps' hp =>
    cases h
    exact ⟨rest, .malformed hr, hp⟩
  | case5 => cases h
  | case6 r name args rest hr ps' hp =>
    cases h
    exact ⟨rest, .reference hr, hp⟩
  | case7 => cases h
  | case8 c r hc ps' hp =>
    cases h
    refine ⟨r, .char ?_, hp⟩
    rintro ⟨rfl, hr⟩
    obtain ⟨r', rfl⟩ := List.head?_eq_some_iff.1 hr
    exact hc r' rfl rfl

/-- Every piece takes a part of the text. -/
theorem text_pos_of_pieces (h : pieces cs = .ok ps) : ∀ q ∈ ps, 0 < q.text.length := by
  induction ps generalizing cs with
  | nil => exact fun q hq => absurd hq List.not_mem_nil
  | cons x ps ih =>
    obtain ⟨rest, hcut, hr⟩ := cut_of_pieces h
    intro q hq
    rcases List.mem_cons.1 hq with rfl | hq
    · exact hcut.text_pos
    · exact ih hr q hq

theorem pieces_of_read {t : String} {reading : Reading} (h : read t = .ok reading) :
    ∃ ps, pieces t.toList = .ok ps ∧ layOut 0 [] ps = reading := by
  unfold read at h
  split at h
  · rename_i ps hp
    cases h
    exact ⟨ps, hp, rfl⟩
  · cases h

/-- Cutting is refused where the reading of an expression is. -/
theorem refused_at {e : Refusal} (h : pieces cs = .error e) :
    ∃ before r, cs = before ++ '$' :: '{' :: r ∧ readReference r = .error (.refused e) := by
  fun_induction pieces cs with
  | case1 => cases h
  | case2 r e' he =>
    cases h
    exact ⟨[], r, rfl, he⟩
  | case3 r reason name rest hr e' hp ih =>
    cases h
    obtain ⟨before, r', rfl, he⟩ := ih hp
    have htext := (Cut.malformed hr).text_append
    exact ⟨_, r', htext.symm.trans (List.append_assoc _ _ _).symm, he⟩
  | case4 => cases h
  | case5 r name args rest hr e' hp ih =>
    cases h
    obtain ⟨before, r', rfl, he⟩ := ih hp
    have htext := (Cut.reference hr).text_append
    exact ⟨_, r', htext.symm.trans (List.append_assoc _ _ _).symm, he⟩
  | case6 => cases h
  | case7 c r hc e' hp ih =>
    cases h
    obtain ⟨before, r', rfl, he⟩ := ih hp
    exact ⟨c :: before, r', rfl, he⟩
  | case8 => cases h

end Template
end Stencil
