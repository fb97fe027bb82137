/-
# What reading a template keeps

Every reader leaves an end of the text it was given, so the pieces of a
template put together give the template back (`pieces_text`), and so do the
segments of a well-formed one (`parse_source`). The names of references are
identifiers (`parse_names`). Reading is refused only for an integer literal
with too many digits (`parse_refused`).

Key definition: `Piece.text`.
Key theorems: `parse_source`, `parse_names`, `parse_refused`.
-/
import Stencil.Template.Scan

namespace Stencil
namespace Template

open Text

/-! ### Pieces -/

/-- The text that a piece covers. -/
def Piece.text : Piece → List Char
  | .char c => [c]
  | .reference text _ _ => text
  | .malformed text _ _ => text

theorem taken_append {cs rest : List Char} (h : rest <:+ cs) : taken cs rest ++ rest = cs := by
  obtain ⟨pre, rfl⟩ := h
  simp [taken]

/-- **The pieces of a text put together give the text back.** -/
theorem pieces_text {cs : List Char} {ps : List Piece} (h : pieces cs = .ok ps) :
    ps.flatMap Piece.text = cs := by
  fun_induction pieces cs generalizing ps with
  | case1 =>
    cases h
    rfl
  | case2 => cases h
  | case3 => cases h
  | case4 r reason name rest hr ps' hp ih =>
    cases h
    have hs := readReference_reads r
    rw [hr] at hs
    rw [List.flatMap_cons, ih hp, Piece.text, List.cons_append, List.cons_append, taken_append hs]
  | case5 => cases h
  | case6 r name args rest hr ps' hp ih =>
    cases h
    have hs := readReference_reads r
    rw [hr] at hs
    rw [List.flatMap_cons, ih hp, Piece.text, List.cons_append, List.cons_append, taken_append hs]
  | case7 => cases h
  | case8 c r _ ps' hp ih =>
    cases h
    rw [List.flatMap_cons, ih hp]
    rfl

theorem pieces_refused {cs : List Char} {r : Refusal} (h : pieces cs = .error r) : TooLong r := by
  fun_induction pieces cs with
  | case1 => cases h
  | case2 cs e he =>
    cases h
    have hs := readReference_reads cs
    rw [he] at hs
    exact hs
  | case3 _ _ _ _ _ _ hp ih =>
    cases h
    exact ih hp
  | case4 => cases h
  | case5 _ _ _ _ _ _ hp ih =>
    cases h
    exact ih hp
  | case6 => cases h
  | case7 _ _ _ _ hp ih =>
    cases h
    exact ih hp
  | case8 => cases h

/-- A piece that is a reference has an identifier for its name. -/
def Piece.IsNamed : Piece → Prop
  | .reference _ name _ => isIdentifier name.toList = true
  | _ => True

theorem readReference_name {cs rest : List Char} {name : String} {args : Option (List Value)}
    (h : readReference cs = .ok ((name, args), rest)) : isIdentifier name.toList = true := by
  unfold readReference at h
  split at h
  · cases h
  · rename_i text d after _
    dsimp only at h
    split at h
    · cases h
    split at h
    · cases h
    split at h
    · cases h
    rename_i hid
    have hid' : isIdentifier (String.ofList (trim text)).toList = true := by
      rw [String.toList_ofList]
      simpa using hid
    split at h
    · cases h
      exact hid'
    split at h
    · cases h
    · split at h
      · cases h
      · split at h
        · cases h
          exact hid'
        · cases h

theorem pieces_named {cs : List Char} {ps : List Piece} (h : pieces cs = .ok ps) :
    ∀ p ∈ ps, p.IsNamed := by
  fun_induction pieces cs generalizing ps with
  | case1 =>
    cases h
    simp
  | case2 => cases h
  | case3 => cases h
  | case4 r reason name rest hr ps' hp ih =>
    cases h
    intro p hm
    rcases List.mem_cons.1 hm with rfl | hm
    · trivial
    · exact ih hp p hm
  | case5 => cases h
  | case6 r name args rest hr ps' hp ih =>
    cases h
    intro p hm
    rcases List.mem_cons.1 hm with rfl | hm
    · exact readReference_name hr
    · exact ih hp p hm
  | case7 => cases h
  | case8 c r _ ps' hp ih =>
    cases h
    intro p hm
    rcases List.mem_cons.1 hm with rfl | hm
    · trivial
    · exact ih hp p hm

/-! ### Segments -/

/-- The characters that segments cover. -/
def sources (segments : List Segment) : List Char := segments.flatMap fun s => s.source.toList

theorem sources_cons (s : Segment) (r : List Segment) :
    sources (s :: r) = s.source.toList ++ sources r := rfl

theorem sources_append (a b : List Segment) : sources (a ++ b) = sources a ++ sources b :=
  List.flatMap_append

theorem sources_literalRun (stop : Nat) (run : List Char) :
    sources (literalRun stop run) = run.reverse := by
  unfold literalRun
  split
  · rename_i h
    rw [List.isEmpty_iff.1 h]
    rfl
  · rw [sources_cons, Segment.source, String.toList_ofList]
    exact List.append_nil _

theorem layOut_sources (pos : Nat) (run : List Char) (ps : List Piece) :
    sources (layOut pos run ps).segments = run.reverse ++ ps.flatMap Piece.text := by
  fun_induction layOut pos run ps with
  | case1 pos run => rw [sources_literalRun, List.flatMap_nil, List.append_nil]
  | case2 pos run c ps ih =>
    rw [ih, List.reverse_cons, List.append_assoc, List.flatMap_cons]
    rfl
  | case3 pos run text reason name ps stop rest ih =>
    rw [ih, List.reverse_append, List.reverse_reverse, List.append_assoc, List.flatMap_cons]
    rfl
  | case4 pos run text name args ps stop rest ih =>
    rw [sources_append, sources_literalRun, sources_cons, ih, List.flatMap_cons, Segment.source,
      String.toList_ofList]
    rfl

theorem layOut_names (pos : Nat) (run : List Char) (ps : List Piece)
    (h : ∀ p ∈ ps, p.IsNamed) :
    ∀ r, .reference r ∈ (layOut pos run ps).segments → isIdentifier r.name.toList = true := by
  have hlit : ∀ (stop : Nat) (run : List Char) (r : Reference),
      .reference r ∉ literalRun stop run := by
    intro stop run r
    unfold literalRun
    split <;> simp
  fun_induction layOut pos run ps with
  | case1 pos run => exact fun r hr => absurd hr (hlit _ _ r)
  | case2 pos run c ps ih => exact ih fun p hp => h p (List.mem_cons_of_mem _ hp)
  | case3 pos run text reason name ps stop rest ih =>
    exact ih fun p hp => h p (List.mem_cons_of_mem _ hp)
  | case4 pos run text name args ps stop rest ih =>
    intro r hr
    rcases List.mem_append.1 hr with hr | hr
    · exact absurd hr (hlit _ _ r)
    rcases List.mem_cons.1 hr with hr | hr
    · injection hr with hr
      subst hr
      exact h _ List.mem_cons_self
    · exact ih (fun p hp => h p (List.mem_cons_of_mem _ hp)) r hr

theorem parse_ok {s : String} {segments : List Segment} (h : parse s = .ok (.ok segments)) :
    ∃ ps, pieces s.toList = .ok ps ∧ segments = (layOut 0 [] ps).segments := by
  unfold parse at h
  split at h
  · rename_i r hr
    unfold read at hr
    split at hr
    · rename_i ps hp
      cases hr
      refine ⟨ps, hp, ?_⟩
      unfold Reading.parsed at h
      split at h <;> cases h
      rfl
    · cases hr
  · cases h

/-- **The segments of a well-formed template put together give the template back.** -/
theorem parse_source {s : String} {segments : List Segment}
    (h : parse s = .ok (.ok segments)) : sources segments = s.toList := by
  obtain ⟨ps, hp, rfl⟩ := parse_ok h
  rw [layOut_sources, pieces_text hp]
  rfl

/-- References of a well-formed template have identifiers for names. -/
theorem parse_names {s : String} {segments : List Segment}
    (h : parse s = .ok (.ok segments)) :
    ∀ r, .reference r ∈ segments → isIdentifier r.name.toList = true := by
  obtain ⟨ps, hp, rfl⟩ := parse_ok h
  exact layOut_names 0 [] ps (pieces_named hp)

theorem read_of_pieces {s : String} {ps : List Piece} (h : pieces s.toList = .ok ps) :
    read s = .ok (layOut 0 [] ps) := by
  unfold read
  rw [h]

/-- What can be parsed is parsed from its reading. -/
theorem read_of_parse {s : String} {parsed : Except Fault (List Segment)}
    (h : parse s = .ok parsed) : ∃ reading, read s = .ok reading ∧ reading.parsed = parsed := by
  unfold parse at h
  split at h
  · rename_i reading hr
    cases h
    exact ⟨reading, hr, rfl⟩
  · cases h

/-- The segments of a well-formed template are those of its reading. -/
theorem segments_of_read {s : String} {reading : Reading} {segments : List Segment}
    (hr : read s = .ok reading) (hp : parse s = .ok (.ok segments)) :
    reading.segments = segments := by
  unfold parse Reading.parsed at hp
  rw [hr] at hp
  dsimp only at hp
  split at hp
  · cases hp
    rfl
  · cases hp

/-- A template is refused only for an integer literal with too many digits. -/
theorem read_refused {s : String} {r : Refusal} (h : read s = .error r) : TooLong r := by
  unfold read at h
  split at h
  · cases h
  · rename_i hp
    cases h
    exact pieces_refused hp

theorem parse_refused {s : String} {r : Refusal} (h : parse s = .error r) : TooLong r := by
  unfold parse at h
  split at h
  · cases h
  · rename_i hr
    cases h
    exact read_refused hr

end Template
end Stencil
