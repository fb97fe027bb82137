/-
# Short codes

The name of a picture between colons stands for the picture. The name may end
in `-text` or `-emoji`, which asks for a plain or a coloured picture. Between
the colons there is no break; what names no picture stands for itself.

Key definitions: `readTo`, `Shortcode.expand`, `Shortcode.replace`.
-/
import Stencil.Console.Pictures
import Stencil.Text.Basic
import Stencil.Text.LetterCase

namespace Stencil
namespace Console

/-- The characters before the next one that closes, unless a break comes before it, and those after
it. -/
def readTo (close : Char) (isBreak : Char → Bool) : List Char → Option (List Char × List Char)
  | [] => none
  | c :: r =>
    if c == close then some ([], r)
    else if isBreak c then none
    else (readTo close isBreak r).map fun (cs, rest) => (c :: cs, rest)

theorem readTo_length {close : Char} {isBreak : Char → Bool} {cs a rest : List Char}
    (h : readTo close isBreak cs = some (a, rest)) : rest.length < cs.length := by
  induction cs generalizing a with
  | nil => simp [readTo] at h
  | cons c r ih =>
    unfold readTo at h
    split at h
    · cases h
      exact Nat.lt_succ_self _
    · split at h
      · simp at h
      · obtain ⟨⟨a', rest'⟩, hr, he⟩ := Option.map_eq_some_iff.1 h
        cases he
        exact Nat.lt_succ_of_lt (ih hr)

namespace Shortcode

/-- The name in a code, and the sign that asks for a plain or a coloured picture. -/
def parts (code : List Char) : List Char × List Char :=
  match dropEnding? "-text".toList code with
  | some name => (name, ['\ufe0e'])
  | none =>
    match dropEnding? "-emoji".toList code with
    | some name => (name, ['\ufe0f'])
    | none => (code, [])

/-- What a code stands for, with its colons if it names no picture. -/
def expand (code : List Char) : List Char :=
  let (name, sign) := parts code
  match picture? (Text.lower (String.ofList name)).toList with
  | some glyph => glyph ++ sign
  | none => ':' :: code ++ [':']

/-- A text with the pictures in place of their codes, from the left on. -/
def replace (isBreak : Char → Bool) (cs : List Char) : List Char :=
  match cs with
  | [] => []
  | c :: r =>
    match _h : if c == ':' then readTo ':' isBreak r else none with
    | some (code, rest) => expand code ++ replace isBreak rest
    | none => c :: replace isBreak r
termination_by cs.length
decreasing_by
  · split at _h
    · exact Nat.lt_succ_of_lt (readTo_length _h)
    · simp at _h
  · exact Nat.lt_succ_self _

/-- Whether a character is a break in a text. -/
def isBreakInText (c : Char) : Bool := Text.isBlank c

/-- Whether a character is a break in a JSON string, where the control characters are escaped. -/
def isBreakInJson (c : Char) : Bool := Text.isBlank c && 0x20 ≤ c.toNat

end Shortcode
end Console
end Stencil
