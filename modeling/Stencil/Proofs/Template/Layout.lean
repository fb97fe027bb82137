/-
# Where the pieces of a text stand

Each piece stands right behind the one before it, where the text is cut for it
(`cut_of_placed`), and at every place of the text stands one
(`exists_placed`). The faults and the references of a reading are its pieces
on their places (`faults_layOut`, `references_layOut`), so they have no
character in common (`apart_layOut`).

Key definitions: `Span.Apart`, `placed`, `Reading.references`, `Reading.marks`.
Key theorems: `cut_of_placed`, `exists_placed`, `apart_layOut`.
-/
import Mathlib.Data.List.Pairwise
import Stencil.Proofs.Template.Cut

namespace Stencil

/-- Two spans without a common character. -/
def Span.Apart (a b : Span) : Prop := a.stop ≤ b.start ∨ b.stop ≤ a.start

/-- The reference that a segment is. -/
def Segment.reference? : Segment → Option Reference
  | .literal .. => none
  | .reference r => some r

namespace Template

variable {cs : List Char} {q : Piece} {ps : List Piece} {pos p : Nat} {run : List Char}

/-- The references of a reading, in order. -/
def Reading.references (r : Reading) : List Reference := r.segments.filterMap Segment.reference?

theorem Reading.mem_references {r : Reading} {x : Reference} :
    x ∈ r.references ↔ .reference x ∈ r.segments := by
  rw [Reading.references, List.mem_filterMap]
  constructor
  · rintro ⟨s, hs, hx⟩
    cases s with
    | literal => cases hx
    | reference y => cases hx; exact hs
  · exact fun hx => ⟨_, hx, rfl⟩

/-- The spans of the faults and of the references of a reading. -/
def Reading.marks (r : Reading) : List Span :=
  r.faults.map Fault.span ++ r.references.map Reference.span

/-- Pieces with the places where they begin, the first at `pos`. -/
def placed (pos : Nat) : List Piece → List (Nat × Piece)
  | [] => []
  | q :: ps => (pos, q) :: placed (pos + q.text.length) ps

namespace Piece

/-- The fault that a piece is at the place `pos`. -/
def fault? (pos : Nat) : Piece → Option Fault
  | malformed text reason name =>
    some ⟨reason, name, String.ofList text, ⟨pos, pos + text.length⟩⟩
  | _ => none

/-- The reference that a piece is at the place `pos`. -/
def reference? (pos : Nat) : Piece → Option Reference
  | reference text name args => some ⟨name, args, String.ofList text, ⟨pos, pos + text.length⟩⟩
  | _ => none

theorem span_of_fault? {f : Fault} (h : q.fault? pos = some f) :
    f.span = ⟨pos, pos + q.text.length⟩ := by
  cases q with
  | malformed => cases h; rfl
  | _ => cases h

theorem span_of_reference? {x : Reference} (h : q.reference? pos = some x) :
    x.span = ⟨pos, pos + q.text.length⟩ := by
  cases q with
  | reference => cases h; rfl
  | _ => cases h

end Piece

/-! ### Places in the text -/

theorem cut_from (h : pieces cs = .ok ps) (hq : (p, q) ∈ placed pos ps) :
    pos ≤ p ∧ ∃ rest, Cut (cs.drop (p - pos)) q rest := by
  induction ps generalizing cs pos with
  | nil => cases hq
  | cons q' ps ih =>
    obtain ⟨rest, hcut, hr⟩ := cut_of_pieces h
    rcases List.mem_cons.1 hq with hq | hq
    · cases hq
      exact ⟨Nat.le_refl _, rest, by simpa using hcut⟩
    · obtain ⟨hle, rest', hcut'⟩ := ih hr hq
      refine ⟨Nat.le_of_add_right_le hle, rest', ?_⟩
      have hdrop : cs.drop (p - pos) = rest.drop (p - (pos + q'.text.length)) := by
        rw [← hcut.text_append, List.drop_append, List.drop_eq_nil_of_le (by omega),
          List.nil_append, Nat.sub_sub]
      rwa [hdrop]

/-- Where a piece stands, the text is cut for it. -/
theorem cut_of_placed (h : pieces cs = .ok ps) (hq : (p, q) ∈ placed 0 ps) :
    ∃ rest, Cut (cs.drop p) q rest :=
  (cut_from h hq).2

/-- A piece stands within the text. -/
theorem placed_le (h : pieces cs = .ok ps) (hq : (p, q) ∈ placed 0 ps) :
    p + q.text.length ≤ cs.length := by
  obtain ⟨rest, hcut⟩ := cut_of_placed h hq
  have hlen := congrArg List.length hcut.text_append
  have hpos := hcut.text_pos
  rw [List.length_append, List.length_drop] at hlen
  omega

/-- At every place of the text stands a piece. -/
theorem exists_placed (h : pieces cs = .ok ps) (hle : pos ≤ p) (hlt : p < pos + cs.length) :
    ∃ start q, (start, q) ∈ placed pos ps ∧ start ≤ p ∧ p < start + q.text.length := by
  induction ps generalizing cs pos with
  | nil =>
    rw [eq_nil_of_pieces h] at hlt
    exact absurd hlt (Nat.not_lt_of_le hle)
  | cons q ps ih =>
    obtain ⟨rest, hcut, hr⟩ := cut_of_pieces h
    by_cases hq : p < pos + q.text.length
    · exact ⟨pos, q, List.mem_cons_self, hle, hq⟩
    · rw [← hcut.text_append, List.length_append, ← Nat.add_assoc] at hlt
      obtain ⟨start, q', hmem, hin⟩ := ih hr (Nat.le_of_not_lt hq) hlt
      exact ⟨start, q', List.mem_cons_of_mem _ hmem, hin⟩

/-- A piece begins where those before it have ended. -/
theorem pairwise_placed (pos : Nat) (ps : List Piece) :
    (placed pos ps).Pairwise fun a b => a.1 + a.2.text.length ≤ b.1 := by
  have hge : ∀ (ps : List Piece) (pos : Nat), ∀ b ∈ placed pos ps, pos ≤ b.1 := by
    intro ps
    induction ps with
    | nil => exact fun _ b hb => absurd hb List.not_mem_nil
    | cons q ps ih =>
      intro pos b hb
      rcases List.mem_cons.1 hb with rfl | hb
      · exact Nat.le_refl _
      · exact Nat.le_of_add_right_le (ih _ b hb)
  induction ps generalizing pos with
  | nil => exact .nil
  | cons q ps ih => exact .cons (hge ps _) (ih _)

/-! ### Faults and references -/

theorem faults_layOut (pos : Nat) (run : List Char) (ps : List Piece) :
    (layOut pos run ps).faults = (placed pos ps).filterMap fun a => a.2.fault? a.1 := by
  fun_induction layOut pos run ps with
  | case1 => rfl
  | case2 pos run c ps ih => exact ih
  | case3 pos run text reason name ps stop rest ih => exact congrArg _ ih
  | case4 pos run text name args ps stop rest ih => exact ih

theorem references_layOut (pos : Nat) (run : List Char) (ps : List Piece) :
    (layOut pos run ps).references = (placed pos ps).filterMap fun a => a.2.reference? a.1 := by
  have hlit : ∀ stop run, (literalRun stop run).filterMap Segment.reference? = [] := by
    intro stop run
    unfold literalRun
    split <;> rfl
  unfold Reading.references
  fun_induction layOut pos run ps with
  | case1 pos run => exact hlit pos run
  | case2 pos run c ps ih => exact ih
  | case3 pos run text reason name ps stop rest ih => exact ih
  | case4 pos run text name args ps stop rest ih =>
    rw [List.filterMap_append, hlit, List.nil_append]
    exact congrArg _ ih

theorem mem_faults_layOut {f : Fault} :
    f ∈ (layOut pos run ps).faults ↔ ∃ p q, (p, q) ∈ placed pos ps ∧ q.fault? p = some f := by
  rw [faults_layOut, List.mem_filterMap]
  exact ⟨fun ⟨a, ha, hf⟩ => ⟨a.1, a.2, ha, hf⟩, fun ⟨p, q, ha, hf⟩ => ⟨(p, q), ha, hf⟩⟩

theorem mem_references_layOut {x : Reference} :
    x ∈ (layOut pos run ps).references ↔
      ∃ p q, (p, q) ∈ placed pos ps ∧ q.reference? p = some x := by
  rw [references_layOut, List.mem_filterMap]
  exact ⟨fun ⟨a, ha, hf⟩ => ⟨a.1, a.2, ha, hf⟩, fun ⟨p, q, ha, hf⟩ => ⟨(p, q), ha, hf⟩⟩

/-- **Faults and references have no character in common.** -/
theorem apart_layOut (pos : Nat) (run : List Char) (ps : List Piece) :
    (layOut pos run ps).marks.Pairwise Span.Apart := by
  have hplaced := pairwise_placed pos ps
  rw [Reading.marks, faults_layOut, references_layOut, List.pairwise_append]
  refine ⟨?_, ?_, ?_⟩
  · rw [List.pairwise_map, List.pairwise_filterMap]
    refine hplaced.imp fun {a b} hab f hf g hg => ?_
    rw [Piece.span_of_fault? hf, Piece.span_of_fault? hg]
    exact .inl hab
  · rw [List.pairwise_map, List.pairwise_filterMap]
    refine hplaced.imp fun {a b} hab x hx y hy => ?_
    rw [Piece.span_of_reference? hx, Piece.span_of_reference? hy]
    exact .inl hab
  · intro s hs s' hs'
    obtain ⟨f, hf, rfl⟩ := List.mem_map.1 hs
    obtain ⟨x, hx, rfl⟩ := List.mem_map.1 hs'
    obtain ⟨a, ha, hf⟩ := List.mem_filterMap.1 hf
    obtain ⟨b, hb, hx⟩ := List.mem_filterMap.1 hx
    -- no piece is both, so one of the two stands before the other
    have hne : a ≠ b := by
      rintro rfl
      obtain ⟨p, q⟩ := a
      cases q with
      | char => cases hf
      | reference => cases hf
      | malformed => cases hx
    rw [Piece.span_of_fault? hf, Piece.span_of_reference? hx]
    have hsymm : Std.Symm fun a b : Nat × Piece =>
        a.1 + a.2.text.length ≤ b.1 ∨ b.1 + b.2.text.length ≤ a.1 := ⟨fun _ _ => Or.symm⟩
    have heither : (placed pos ps).Pairwise fun a b =>
        a.1 + a.2.text.length ≤ b.1 ∨ b.1 + b.2.text.length ≤ a.1 := hplaced.imp Or.inl
    exact heither.forall ha hb hne

end Template
end Stencil
