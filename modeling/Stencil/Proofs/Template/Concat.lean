/-
# Templates put together

Two well-formed templates put together make a well-formed template, unless the
first ends with `$` and the second starts with an opening brace. It is cut into
the pieces of the first and those of the second; only a literal text at the end
of the first and one at the start of the second become one segment.

Key definition: `Piece.segment`.
Key theorems: `parse_append`, `variableNames_layOut`.
-/
import Stencil.Proofs.Context.Plain
import Stencil.Proofs.Template.Accepts

namespace Stencil
namespace Template

open Context Grammar

/-- A piece as a segment of its own, wherever it stands. -/
def Piece.segment : Piece → Segment
  | .char c => .literal (String.ofList [c]) ⟨0, 0⟩
  | .reference text name args => .reference ⟨name, args, String.ofList text, ⟨0, 0⟩⟩
  | .malformed text _ _ => .literal (String.ofList text) ⟨0, 0⟩

variable {s t : String} {ss ts : List Segment}

theorem layOut_faults {ps : List Piece} (h : ∀ p ∈ ps, p.IsSound) (pos : Nat) (run : List Char) :
    (layOut pos run ps).faults = [] := by
  fun_induction layOut pos run ps with
  | case1 => rfl
  | case2 pos run c ps ih => exact ih fun p hp => h p (List.mem_cons_of_mem _ hp)
  | case3 => exact absurd (h _ List.mem_cons_self) id
  | case4 pos run text name args ps stop rest ih =>
    exact ih fun p hp => h p (List.mem_cons_of_mem _ hp)

/-- **Templates that do not start an expression between them are well-formed together.** -/
theorem parse_append (hs : parse s = .ok (.ok ss)) (ht : parse t = .ok (.ok ts))
    (hst : ¬ (s.toList.getLast? = some '$' ∧ t.toList.head? = some '{')) :
    ∃ ps qs, (layOut 0 [] ps).segments = ss ∧ (layOut 0 [] qs).segments = ts ∧
      parse (s ++ t) = .ok (.ok (layOut 0 [] (ps ++ qs)).segments) := by
  obtain ⟨ps, hps, hpf, hss⟩ := pieces_of_parse hs
  obtain ⟨qs, hqs, hqf, hts⟩ := pieces_of_parse ht
  refine ⟨ps, qs, hss, hts, ?_⟩
  obtain ⟨o, ho, hos, rfl⟩ := outline_of_pieces hps (isSound_of_layOut hpf)
  have hcut : pieces (s ++ t).toList = .ok (o.pieces ++ qs) := by
    have h := pieces_outline o ho (r := t.toList) (hos ▸ hst)
    rw [String.toList_append, ← hos, h, hqs]
    rfl
  have hsound : ∀ p ∈ o.pieces ++ qs, p.IsSound := by
    intro p hp
    rcases List.mem_append.1 hp with hp | hp
    · exact isSound_of_layOut hpf p hp
    · exact isSound_of_layOut hqf p hp
  unfold parse read
  rw [hcut]
  simp only [Reading.parsed, layOut_faults hsound]

theorem filterMap_literalRun (stop : Nat) (run : List Char) :
    (literalRun stop run).filterMap Segment.variableName? = [] := by
  unfold literalRun
  split_ifs <;> rfl

/-- The variables of a template are those of its pieces. -/
theorem variableNames_layOut (pos : Nat) (run : List Char) (ps : List Piece) :
    variableNames (layOut pos run ps).segments = variableNames (ps.map Piece.segment) := by
  unfold variableNames
  congr 1
  fun_induction layOut pos run ps with
  | case1 pos run => exact filterMap_literalRun pos run
  | case2 pos run c ps ih => exact ih
  | case3 pos run text reason name ps stop rest ih => exact ih
  | case4 pos run text name args ps stop rest ih =>
    rw [List.filterMap_append, filterMap_literalRun, List.nil_append, List.filterMap_cons,
      List.map_cons, List.filterMap_cons, ih]
    rfl

theorem reached_append {c : Context} {n : String} :
    c.Reached (variableNames (ss ++ ts)) n ↔
      c.Reached (variableNames ss) n ∨ c.Reached (variableNames ts) n := by
  have hm : ∀ k, k ∈ variableNames (ss ++ ts) ↔ k ∈ variableNames ss ∨ k ∈ variableNames ts := by
    intro k
    simp only [mem_variableNames, List.mem_append, or_and_right, exists_or]
  simp only [Context.Reached, hm, or_and_right, exists_or]

end Template
end Stencil
