/-
# Literal arguments

A bare word among the arguments of a call denotes an integer, a double, a
truth value, or itself as a text, whichever it fits first.

Key definitions: `isNumeral`, `decimal?`, `ofWord`.
-/
import Stencil.Refusal
import Stencil.Text.LetterCase

namespace Stencil
namespace Literal

open Text

/-- Whether digits alone stand after an optional sign. -/
def isNumeral (digits : List Char) : Bool := !digits.isEmpty && digits.all isDigit

/-- The exponent at the end of a decimal; no exponent counts as 0. -/
def exponent? : List Char → Option Int
  | [] => some 0
  | c :: r =>
    let (negative, ds) := Numeral.splitSign r
    if (c == 'e' || c == 'E') && isNumeral ds then
      some (if negative then -(digitsToNat ds : Int) else digitsToNat ds)
    else none

/-- The double of a decimal: digits with an optional point among or around them, and an optional
exponent. -/
def decimal? (word : List Char) : Option Float :=
  let (negative, cs) := Numeral.splitSign word
  let whole := cs.takeWhile isDigit
  let (part, rest) := match cs.dropWhile isDigit with
    | '.' :: r => (r.takeWhile isDigit, r.dropWhile isDigit)
    | r => ([], r)
  if whole.isEmpty && part.isEmpty then none
  else (exponent? rest).map fun e =>
    Binary64.ofDecimal negative (digitsToNat (whole ++ part)) (e - part.length)

/-- What a bare word denotes. -/
def ofWord (word : List Char) : Except Refusal Value :=
  let (negative, ds) := Numeral.splitSign word
  if isNumeral ds then
    if Numeral.digitLimit < ds.length then .error (.literalTooLong ds.length)
    else .ok (.int (if negative then -(digitsToNat ds : Int) else digitsToNat ds))
  else
    match decimal? word with
    | some x => .ok (.float x)
    | none =>
      let lowered := lower (String.ofList word)
      .ok (if lowered == "true" then .bool true
        else if lowered == "false" then .bool false
        else .text (String.ofList word))

end Literal
end Stencil
