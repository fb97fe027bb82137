/-
# Reading markers back

The markers of names that stand in a text with no other `<` around are read
back, these names in order and nothing else. Nothing in a marker starts an
expression, so it can be read as a template.

Key definitions: `IsMarkable`, `Marked`.
Key theorems: `readMarker_chars`, `Marked.names`, `read_marker`.
-/
import Stencil.Marker
import Stencil.Proofs.Secret.Hiding
import Stencil.Proofs.Template.Accepts

namespace Stencil
namespace Marker

open Template

/-- A name that a marker may hold: an identifier, or the call of one. -/
def IsMarkable (n : String) : Prop :=
  ∃ m : String, isIdentifier m.toList = true ∧ (n = m ∨ n = Reference.callName m)

/-- A text in which the markers of some names stand, in order, with no other `<` around. -/
inductive Marked : List String → List Char → Prop where
  | nil : Marked [] []
  | char {ns : List String} {c : Char} {cs : List Char} (hc : c ≠ '<') (h : Marked ns cs) :
      Marked ns (c :: cs)
  | marker {n : String} {ns : List String} {cs : List Char} (hn : IsMarkable n)
      (h : Marked ns cs) : Marked (n :: ns) (chars n.toList ++ cs)

variable {n : String} {ns ms : List String} {cs ds rest : List Char}

/-! ### Texts with markers -/

theorem Marked.of_not_mem (h : '<' ∉ cs) : Marked [] cs := by
  induction cs with
  | nil => exact .nil
  | cons c cs ih =>
    rw [List.mem_cons, not_or] at h
    exact .char (Ne.symm h.1) (ih h.2)

theorem Marked.append (h : Marked ns cs) (h' : Marked ms ds) : Marked (ns ++ ms) (cs ++ ds) := by
  induction h with
  | nil => exact h'
  | char hc _ ih => exact .char hc ih
  | marker hn _ ih =>
    rw [List.append_assoc]
    exact .marker hn ih

theorem Marked.of_marker (hn : IsMarkable n) : Marked [n] (Marker.marker n).toList := by
  have h : Marked [n] (chars n.toList ++ []) := .marker hn .nil
  rwa [List.append_nil, ← String.toList_ofList (l := chars n.toList)] at h

/-! ### Reading -/

theorem isNameChar_of_identifier {word : List Char} (h : isIdentifier word = true) :
    ∀ c ∈ word, isNameChar c = true := by
  cases word with
  | nil => exact fun c hc => absurd hc List.not_mem_nil
  | cons a r =>
    unfold isIdentifier at h
    unfold isNameChar
    simp only [Bool.and_eq_true, Bool.or_eq_true, List.all_eq_true, beq_iff_eq] at h ⊢
    intro c hc
    rcases List.mem_cons.1 hc with rfl | hc
    · refine h.1.imp_left fun ha => ?_
      rw [Char.isAlphanum, ha]
      rfl
    · exact h.2 c hc

/-- The word of a marker ends where the call or the closing begins. -/
theorem takeWhile_word {word : List Char} (rest : List Char) (hw : isIdentifier word = true)
    {c : Char} (hc : isNameChar c = false) :
    (word ++ c :: rest).takeWhile isNameChar = word ∧
      (word ++ c :: rest).dropWhile isNameChar = c :: rest := by
  have h := isNameChar_of_identifier hw
  constructor
  · rw [List.takeWhile_append_of_pos h, List.takeWhile_cons_of_neg (by simp [hc]), List.append_nil]
  · rw [List.dropWhile_append_of_pos h, List.dropWhile_cons_of_neg (by simp [hc])]

theorem readMarker_word {word call : List Char} (rest : List Char)
    (hw : isIdentifier word = true) (hcall : call = [] ∨ call = ['(', ')']) :
    readMarker (chars (word ++ call) ++ rest) = some (String.ofList (word ++ call), rest) := by
  have hchars : chars (word ++ call) ++ rest = opening ++ (word ++ (call ++ (closing ++ rest))) := by
    simp [chars]
  have hread : readCall (call ++ (closing ++ rest)) = (call, closing ++ rest) := by
    rcases hcall with rfl | rfl <;> rfl
  obtain ⟨c, r, hr, hc⟩ : ∃ c r, call ++ (closing ++ rest) = c :: r ∧ isNameChar c = false := by
    rcases hcall with rfl | rfl
    · exact ⟨'>', _, rfl, by decide⟩
    · exact ⟨'(', _, rfl, by decide⟩
  obtain ⟨ht, hd⟩ := takeWhile_word r hw hc
  unfold readMarker
  rw [hchars, dropStart?_append]
  dsimp only
  rw [hr, ht, hd, if_pos hw, ← hr, hread]
  dsimp only
  rw [dropStart?_append]

/-- A marker is read back. -/
theorem readMarker_chars (hn : IsMarkable n) (rest : List Char) :
    readMarker (chars n.toList ++ rest) = some (n, rest) := by
  obtain ⟨m, hm, rfl | rfl⟩ := hn
  · have h := readMarker_word rest hm (.inl rfl)
    rwa [List.append_nil, String.ofList_toList] at h
  · have hcall : (Reference.callName m).toList = m.toList ++ ['(', ')'] := by
      rw [Reference.callName, String.toList_append]
      rfl
    have h := readMarker_word rest hm (.inr rfl)
    rwa [← hcall, String.ofList_toList] at h

/-- Nothing is read where no `<` stands. -/
theorem readMarker_ne {c : Char} (hc : c ≠ '<') : readMarker (c :: rest) = none := by
  have h : dropStart? opening (c :: rest) = none := if_neg fun he => hc (beq_iff_eq.1 he).symm
  unfold readMarker
  rw [h]

/-- Reading goes on behind a character where nothing is read. -/
theorem names_of_unread {c : Char} (h : readMarker (c :: cs) = none) :
    Marker.names (c :: cs) = Marker.names cs := by
  rw [Marker.names, h]

/-- A marker at the start of a text is read first. -/
theorem names_chars (hn : IsMarkable n) (cs : List Char) :
    Marker.names (chars n.toList ++ cs) = n :: Marker.names cs := by
  have hread := readMarker_chars hn cs
  have hcons : chars n.toList ++ cs = '<' :: (chars n.toList ++ cs).tail := rfl
  rw [hcons] at hread ⊢
  rw [Marker.names, hread]

/-- **The names of the markers are read back, and nothing else.** -/
theorem Marked.names (h : Marked ns cs) : Marker.names cs = ns := by
  induction h with
  | nil => rw [Marker.names]
  | char hc _ ih => exact (names_of_unread (readMarker_ne hc)).trans ih
  | marker hn _ ih => exact (names_chars hn _).trans (congrArg _ ih)

/-! ### As a template -/

/-- The marker of an identifier can be read as a template. -/
theorem read_marker (hn : isIdentifier n.toList = true) :
    ∃ reading, Template.read (marker n) = .ok reading := by
  have hchars : (marker n).toList = opening ++ n.toList ++ closing := by
    rw [marker, String.toList_ofList, chars]
  have hfree : '$' ∉ (marker n).toList := by
    rw [hchars, List.mem_append, List.mem_append]
    rintro ((h | h) | h)
    · exact absurd h (by decide)
    · exact absurd (isNameChar_of_identifier hn _ h) (by decide)
    · exact absurd h (by decide)
  obtain ⟨ps, hps⟩ := pieces_of_not_mem hfree
  exact ⟨_, read_of_pieces hps⟩

end Marker
end Stencil
