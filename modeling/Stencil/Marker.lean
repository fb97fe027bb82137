/-
# Markers

A reference that cannot be resolved leaves a marker with its name in the text.
A marker holds no reference itself, and the names of the markers in a text can
be read back.

Key definitions: `marker`, `readMarker`, `markedNames`.
-/
import Stencil.Template.Scan

namespace Stencil
namespace Marker

/-- What stands before the name. -/
def opening : List Char := "<<unresolved:".toList

/-- What stands after the name. -/
def closing : List Char := ">>".toList

/-- The marker of a name. -/
def chars (name : List Char) : List Char := opening ++ name ++ closing

/-- The marker of a name. -/
def marker (name : String) : String := String.ofList (chars name.toList)

/-- A letter, a digit or an underscore. -/
def isNameChar (c : Char) : Bool := c.isAlphanum || c == '_'

/-- What follows the first characters `start`, if the text starts with them. -/
def dropStart? : (start cs : List Char) → Option (List Char)
  | [], cs => some cs
  | _ :: _, [] => none
  | s :: start, c :: cs => if s == c then dropStart? start cs else none

theorem dropStart?_length {start cs rest : List Char} (h : dropStart? start cs = some rest) :
    cs.length = start.length + rest.length := by
  fun_induction dropStart? start cs with
  | case1 => cases h; simp
  | case2 => simp at h
  | case3 s start c cs _ ih =>
    have := ih h
    simp only [List.length_cons]
    omega
  | case4 => simp at h

/-- The parentheses of a call's name, if they follow, and the rest. -/
def readCall : List Char → List Char × List Char
  | '(' :: ')' :: r => (['(', ')'], r)
  | r => ([], r)

theorem readCall_length (cs : List Char) : (readCall cs).2.length ≤ cs.length := by
  unfold readCall
  split
  · exact Nat.le_succ_of_le (Nat.le_succ _)
  · exact Nat.le_refl _

/-- The name of the marker at the start of a text, and the rest after the marker. A name is an
identifier, with empty parentheses if it is a call's. -/
def readMarker (cs : List Char) : Option (String × List Char) :=
  match dropStart? opening cs with
  | none => none
  | some r =>
    let word := r.takeWhile isNameChar
    if Template.isIdentifier word then
      let call := readCall (r.dropWhile isNameChar)
      match dropStart? closing call.2 with
      | some rest => some (String.ofList (word ++ call.1), rest)
      | none => none
    else none

theorem dropWhile_length_le (p : Char → Bool) (cs : List Char) :
    (cs.dropWhile p).length ≤ cs.length := (List.dropWhile_sublist p).length_le

theorem readMarker_length {cs rest : List Char} {name : String}
    (h : readMarker cs = some (name, rest)) : rest.length < cs.length := by
  unfold readMarker at h
  split at h
  · simp at h
  · rename_i r hr
    have h₁ := dropStart?_length hr
    have h₂ := dropWhile_length_le isNameChar r
    have h₃ := readCall_length (r.dropWhile isNameChar)
    dsimp only at h
    split at h
    · split at h
      · rename_i rest' hc
        have h₄ := dropStart?_length hc
        cases h
        have : opening.length = 13 := rfl
        omega
      · simp at h
    · simp at h

/-- The names of the markers in a text, in order. -/
def names (cs : List Char) : List String :=
  match cs with
  | [] => []
  | c :: r =>
    match _h : readMarker (c :: r) with
    | some (name, rest) => name :: names rest
    | none => names r
termination_by cs.length
decreasing_by
  · exact readMarker_length _h
  · exact Nat.lt_succ_self _

/-- The names of the markers in a text, in order. -/
def markedNames (s : String) : List String := names s.toList

end Marker
end Stencil
