/-
# The segments tile the template

The segments of a reading stand one right behind the other from the first
character of the template to the last, each with its own part of the text, and
no two literal texts stand side by side. A fault begins with the start of an
expression and ends within the template; no two faults or references have a
character in common. All this holds of every template that is read at all,
which is every one without an integer that is too long (`read_isTiling`).

Key definitions: `Span.slice`, `Tiles`, `Fault.StandsIn`, `Reading.IsTiling`.
Key theorem: `read_isTiling`.
-/
import Mathlib.Data.List.Chain
import Stencil.Proofs.Template.Layout
import Stencil.Proofs.Template.Overlong

namespace Stencil

/-- The characters of a text on a span. -/
def Span.slice (sp : Span) (cs : List Char) : List Char :=
  (cs.drop sp.start).take (sp.stop - sp.start)

namespace Template

/-- Spans that are not empty, each right behind the one before it, from `start` to `stop`. -/
def Tiles : Nat → List Span → Nat → Prop
  | start, [], stop => start = stop
  | start, sp :: r, stop => sp.start = start ∧ start < sp.stop ∧ Tiles sp.stop r stop

/-- A fault that stands in a text: it begins with the start of an expression. -/
structure Fault.StandsIn (f : Fault) (cs : List Char) : Prop where
  begins : Span.slice ⟨f.span.start, f.span.start + 2⟩ cs = ['$', '{']
  start_le : f.span.start + 2 ≤ f.span.stop
  stop_le : f.span.stop ≤ cs.length
  fragment : f.fragment.toList = f.span.slice cs

/-- A reading whose parts make up the text. -/
structure Reading.IsTiling (r : Reading) (cs : List Char) : Prop where
  covers : Tiles 0 (r.segments.map Segment.span) cs.length
  reads : ∀ s ∈ r.segments, s.source.toList = s.span.slice cs
  whole : sources r.segments = cs
  alternates : r.segments.IsChain fun a b => a.isReference = true ∨ b.isReference = true
  stand : ∀ f ∈ r.faults, f.StandsIn cs
  ordered : r.faults.Pairwise fun f g => f.span.start < g.span.start
  apart : r.marks.Pairwise Span.Apart

variable {cs run : List Char} {q : Piece} {ps : List Piece} {pos p stop : Nat}
  {segments : List Segment}

/-! ### Segments -/

theorem Tiles.append {a b : List Span} {start mid : Nat} (ha : Tiles start a mid)
    (hb : Tiles mid b stop) : Tiles start (a ++ b) stop := by
  induction a generalizing start with
  | nil =>
    cases ha
    exact hb
  | cons sp a ih => exact ⟨ha.1, ha.2.1, ih ha.2.2⟩

theorem tiles_literalRun (h : run.length ≤ stop) :
    Tiles (stop - run.length) ((literalRun stop run).map Segment.span) stop := by
  unfold literalRun
  split
  · rename_i hrun
    rw [List.isEmpty_iff.1 hrun]
    rfl
  · rename_i hrun
    have hpos : 0 < run.length := by simpa [List.length_pos_iff] using hrun
    exact ⟨rfl, Nat.sub_lt (Nat.lt_of_lt_of_le hpos h) hpos, rfl⟩

/-- A malformed expression at the end of a run does not make it longer than its place allows. -/
theorem length_run_le (text : List Char) (hrun : run.length ≤ pos) :
    (text.reverse ++ run).length ≤ pos + text.length := by
  rw [List.length_append, List.length_reverse, Nat.add_comm]
  exact Nat.add_le_add_right hrun _

theorem tiles_layOut (pos : Nat) (run : List Char) (h : ∀ q ∈ ps, 0 < q.text.length)
    (hrun : run.length ≤ pos) :
    Tiles (pos - run.length) ((layOut pos run ps).segments.map Segment.span)
      (pos + (ps.flatMap Piece.text).length) := by
  fun_induction layOut pos run ps with
  | case1 pos run => exact tiles_literalRun hrun
  | case2 pos run c ps ih =>
    have hrest := ih (fun q hq => h q (List.mem_cons_of_mem _ hq)) (Nat.succ_le_succ hrun)
    rwa [List.length_cons, Nat.add_sub_add_right, Nat.add_assoc,
      show 1 + (ps.flatMap Piece.text).length = ((Piece.char c :: ps).flatMap Piece.text).length by
        simp [Piece.text, Nat.add_comm]] at hrest
  | case3 pos run text reason name ps stop rest ih =>
    have hrest := ih (fun q hq => h q (List.mem_cons_of_mem _ hq)) (length_run_le text hrun)
    rwa [List.length_append, List.length_reverse, Nat.add_comm text.length,
      Nat.add_sub_add_right, Nat.add_assoc, ← List.length_append] at hrest
  | case4 pos run text name args ps stop rest ih =>
    have hrest := ih (fun q hq => h q (List.mem_cons_of_mem _ hq)) (Nat.zero_le _)
    rw [Nat.add_assoc, ← List.length_append] at hrest
    rw [List.map_append]
    exact (tiles_literalRun hrun).append
      ⟨rfl, Nat.lt_add_of_pos_right (h _ List.mem_cons_self), hrest⟩

/-- A segment is as long as its text. -/
theorem length_layOut (hrun : run.length ≤ pos) :
    ∀ s ∈ (layOut pos run ps).segments, s.span.stop = s.span.start + s.source.toList.length := by
  have hlit : ∀ (stop : Nat) (run : List Char), run.length ≤ stop → ∀ s ∈ literalRun stop run,
      s.span.stop = s.span.start + s.source.toList.length := by
    intro stop run hrun s hs
    unfold literalRun at hs
    split at hs
    · exact absurd hs List.not_mem_nil
    · rw [List.mem_singleton.1 hs, Segment.source, String.toList_ofList, List.length_reverse]
      exact (Nat.sub_add_cancel hrun).symm
  fun_induction layOut pos run ps with
  | case1 pos run => exact hlit pos run hrun
  | case2 pos run c ps ih => exact ih (Nat.succ_le_succ hrun)
  | case3 pos run text reason name ps stop rest ih => exact ih (length_run_le text hrun)
  | case4 pos run text name args ps stop rest ih =>
    intro s hs
    rcases List.mem_append.1 hs with hs | hs
    · exact hlit pos run hrun s hs
    rcases List.mem_cons.1 hs with rfl | hs
    · rw [Segment.source, String.toList_ofList]
      rfl
    · exact ih (Nat.zero_le _) s hs

/-- Segments that stand one behind the other are the text on their spans. -/
theorem slice_of_tiles (pre : List Char)
    (h : Tiles pre.length (segments.map Segment.span) stop)
    (hlen : ∀ s ∈ segments, s.span.stop = s.span.start + s.source.toList.length) :
    ∀ s ∈ segments, s.source.toList = s.span.slice (pre ++ sources segments) := by
  induction segments generalizing pre with
  | nil => exact fun s hs => absurd hs List.not_mem_nil
  | cons x r ih =>
    obtain ⟨hstart, -, hr⟩ := h
    have hx := hlen x List.mem_cons_self
    intro s hs
    rw [sources_cons]
    rcases List.mem_cons.1 hs with rfl | hs
    · rw [Span.slice, hx, Nat.add_sub_cancel_left, hstart, List.drop_left, List.take_left]
    · rw [← List.append_assoc]
      refine ih (pre ++ x.source.toList) ?_ (fun s hs => hlen s (List.mem_cons_of_mem _ hs)) s hs
      rwa [List.length_append, ← hstart, ← hx]

/-- No two literal texts stand side by side. -/
theorem alternates_layOut (pos : Nat) (run : List Char) (ps : List Piece) :
    (layOut pos run ps).segments.IsChain
      fun a b => a.isReference = true ∨ b.isReference = true := by
  fun_induction layOut pos run ps with
  | case1 pos run =>
    unfold literalRun
    split
    · exact .nil
    · exact .singleton _
  | case2 pos run c ps ih => exact ih
  | case3 pos run text reason name ps stop rest ih => exact ih
  | case4 pos run text name args ps stop rest ih =>
    have hrest : (.reference ⟨name, args, String.ofList text, ⟨pos, stop⟩⟩ :: rest.segments).IsChain
        fun a b => a.isReference = true ∨ b.isReference = true :=
      List.isChain_cons.2 ⟨fun s _ => .inl rfl, ih⟩
    unfold literalRun
    split
    · exact hrest
    · exact .cons_cons (.inr rfl) hrest

/-! ### Faults -/

/-- The text of a piece is what the text is on its span. -/
theorem slice_placed (h : pieces cs = .ok ps) (hq : (p, q) ∈ placed 0 ps) :
    Span.slice ⟨p, p + q.text.length⟩ cs = q.text := by
  obtain ⟨rest, hcut⟩ := cut_of_placed h hq
  rw [Span.slice, Nat.add_sub_cancel_left, ← hcut.text_append, List.take_left]

theorem standsIn_layOut (h : pieces cs = .ok ps) :
    ∀ f ∈ (layOut 0 [] ps).faults, f.StandsIn cs := by
  intro f hf
  obtain ⟨p, q, hq, hf⟩ := mem_faults_layOut.1 hf
  obtain ⟨rest, hcut⟩ := cut_of_placed h hq
  have hslice := slice_placed h hq
  have hle := placed_le h hq
  generalize hcs : cs.drop p = ds at hcut
  cases hcut with
  | char => cases hf
  | reference => cases hf
  | malformed =>
    cases hf
    refine ⟨?_, ?_, hle, ?_⟩
    · rw [Span.slice, Nat.add_sub_cancel_left, hcs]
      rfl
    · simp
    · rw [String.toList_ofList]
      exact hslice.symm

theorem ordered_layOut (h : pieces cs = .ok ps) :
    (layOut 0 [] ps).faults.Pairwise fun f g => f.span.start < g.span.start := by
  rw [faults_layOut, List.pairwise_filterMap]
  refine (pairwise_placed 0 ps).imp_of_mem fun {a b} ha hb hab f hf g hg => ?_
  obtain ⟨rest, hcut⟩ := cut_of_placed h ha
  rw [Piece.span_of_fault? hf, Piece.span_of_fault? hg]
  exact Nat.lt_of_lt_of_le (Nat.lt_add_of_pos_right hcut.text_pos) hab

/-- **Every template that holds no integer that is too long is read, and tiled by what is
read.** -/
theorem read_isTiling (t : String) :
    (∃ reading, read t = .ok reading ∧ reading.IsTiling t.toList) ∨
      ∃ n, read t = .error (.literalTooLong n) ∧ HoldsOverlong t.toList n := by
  cases hr : read t with
  | error e =>
    obtain ⟨n, rfl, hn⟩ := read_overlong hr
    exact .inr ⟨n, rfl, hn⟩
  | ok reading =>
    obtain ⟨ps, hps, rfl⟩ := pieces_of_read hr
    have htext := pieces_text hps
    have hsources : sources (layOut 0 [] ps).segments = t.toList := by
      rw [layOut_sources, htext]
      rfl
    have htiles := tiles_layOut 0 [] (text_pos_of_pieces hps) (Nat.le_refl 0)
    have hreads := slice_of_tiles [] htiles (length_layOut (Nat.le_refl 0))
    rw [List.nil_append, hsources] at hreads
    rw [htext, Nat.zero_add] at htiles
    exact .inl ⟨_, rfl, {
      covers := htiles
      reads := hreads
      whole := hsources
      alternates := alternates_layOut 0 [] ps
      stand := standsIn_layOut hps
      ordered := ordered_layOut hps
      apart := apart_layOut 0 [] ps }⟩

end Template
end Stencil
