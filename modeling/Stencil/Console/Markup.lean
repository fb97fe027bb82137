/-
# Markup

A text for the console may hold tags in square brackets, which say how the text
after them looks and are not seen themselves. A tag starts with a small letter
or one of `#`, `/` and `@`. A backslash before a tag makes it plain text, and
two backslashes before a tag are seen as one.

Key definitions: `Markup.Piece`, `Markup.pieces`, `Markup.escape`,
`Markup.shown`.
-/
import Stencil.Console.Shortcode

namespace Stencil
namespace Console
namespace Markup

/-- Whether a character may come first in a tag. -/
def startsTag (c : Char) : Bool := c.isLower || c == '#' || c == '/' || c == '@'

/-- The tag at the start of a text, and the rest. -/
def readTag : List Char → Option (List Char × List Char)
  | '[' :: c :: r =>
    if startsTag c then
      (readTo ']' (· == '[') r).map fun (body, rest) => ('[' :: c :: body ++ [']'], rest)
    else none
  | _ => none

theorem readTag_length {cs tag rest : List Char} (h : readTag cs = some (tag, rest)) :
    rest.length < cs.length := by
  unfold readTag at h
  split at h
  · split at h
    · obtain ⟨⟨body, rest'⟩, hr, he⟩ := Option.map_eq_some_iff.1 h
      cases he
      have := readTo_length hr
      simp only [List.length_cons]
      omega
    · simp at h
  · simp at h

/-- A stretch of a text. -/
inductive Piece where
  | plain (cs : List Char)
  /-- A tag, brackets and all, after a number of backslashes. -/
  | tag (slashes : Nat) (cs : List Char)
deriving DecidableEq, Repr

/-- Puts a plain character before pieces. -/
def addPlain (c : Char) : List Piece → List Piece
  | .plain cs :: r => .plain (c :: cs) :: r
  | ps => .plain [c] :: ps

def isSlash (c : Char) : Bool := c == '\\'

/-- The pieces of a text. -/
def pieces (cs : List Char) : List Piece :=
  match cs with
  | [] => []
  | c :: r =>
    match _h : readTag ((c :: r).dropWhile isSlash) with
    | some (tag, rest) => .tag ((c :: r).takeWhile isSlash).length tag :: pieces rest
    | none => addPlain c (pieces r)
termination_by cs.length
decreasing_by
  · exact Nat.lt_of_lt_of_le (readTag_length _h) (List.dropWhile_suffix _).length_le
  · exact Nat.lt_succ_self _

/-! ### Escaping -/

/-- A stretch of a text as markup that shows it. -/
def Piece.escape : Piece → List Char
  | plain cs => cs
  | tag slashes cs => List.replicate (2 * slashes + 1) '\\' ++ cs

/-- Doubles a single backslash at the end. -/
def closeEnd (cs : List Char) : List Char :=
  match cs.reverse with
  | '\\' :: '\\' :: _ => cs
  | '\\' :: _ => cs ++ ['\\']
  | _ => cs

/-- A text as markup without tags. -/
def escape (s : String) : String := String.ofList (closeEnd ((pieces s.toList).flatMap Piece.escape))

/-! ### Showing -/

/-- Plain text as it is seen: a backslash before an opening bracket is not. -/
def showPlain : List Char → List Char
  | '\\' :: '[' :: r => '[' :: showPlain r
  | c :: r => c :: showPlain r
  | [] => []

/-- What is seen of a stretch. -/
def Piece.shown : Piece → List (List Char)
  | plain cs => [showPlain cs]
  | tag slashes cs =>
    List.replicate (slashes / 2) '\\' :: if slashes % 2 = 1 then [cs] else []

/-- What is seen of a text, with the pictures that it names. -/
def shown (s : String) : String :=
  String.ofList (((pieces s.toList).flatMap Piece.shown).flatMap
    (Shortcode.replace Shortcode.isBreakInText))

end Markup
end Console
end Stencil
