/-
# Numerals

How a text denotes an integer or a double: an optional sign and decimal digits
of any script; in a free-standing numeral a single underscore may stand between
two digits. An integer numeral has at most 4300 digits.

Key definitions: `digitLimit`, `readInteger`, `readReal?`.
-/
import Stencil.Number.Binary64
import Stencil.Text.Basic

namespace Stencil
namespace Numeral

open Text

/-- The greatest number of digits of an integer numeral. -/
def digitLimit : Nat := 4300

/-- The least integer that has too many digits. -/
def tooLarge : Nat := Binary64.tenTo digitLimit

/-- Why a text denotes no integer. -/
inductive Fault where
  /-- It is not a numeral. -/
  | malformed
  /-- It has this many digits, more than `digitLimit`. -/
  | tooLong (digits : Nat)

/-- The message for an integer numeral of `digits` digits. -/
def tooLongMessage (digits : Nat) : String :=
  s!"Exceeds the limit (4300 digits) for integer string conversion: value has {digits} digits; " ++
    "use sys.set_int_max_str_digits() to increase the limit"

/-- The message for an integer that has more than `digitLimit` digits when it is written out. -/
def unwritableMessage : String :=
  "Exceeds the limit (4300 digits) for integer string conversion; " ++
    "use sys.set_int_max_str_digits() to increase the limit"

/-- The blanks that may stand around a numeral: all but the information separators. -/
def isMargin (c : Char) : Bool := isBlank c && !(0x1C ≤ c.toNat && c.toNat ≤ 0x1F)

/-- A text without the blanks around it. -/
def stripAround (cs : List Char) : List Char :=
  ((cs.dropWhile isMargin).reverse.dropWhile isMargin).reverse

/-- The sign of a numeral and what follows it. -/
def splitSign : List Char → Bool × List Char
  | '-' :: r => (true, r)
  | '+' :: r => (false, r)
  | r => (false, r)

/-- The longest run of digits and single underscores between them; `none` if an underscore
stands elsewhere. The digits read, and the rest. -/
def digitRun (afterDigit : Bool) : List Char → Option (List Char × List Char)
  | [] => some ([], [])
  | c :: r =>
    if isDigit c then (digitRun true r).map fun (ds, rest) => (c :: ds, rest)
    else if c == '_' then
      match afterDigit, r with
      | true, d :: _ => if isDigit d then digitRun false r else none
      | _, _ => none
    else some ([], c :: r)

/-- The integer that a whole text denotes. -/
def readInteger (s : String) : Except Fault Int :=
  let (negative, cs) := splitSign (stripAround s.toList)
  match digitRun false cs with
  | none => .error .malformed
  | some (ds, rest) =>
    if digitLimit < ds.length then .error (.tooLong ds.length)
    else if ds.isEmpty || !rest.isEmpty then .error .malformed
    else
      let n : Int := digitsToNat ds
      .ok (if negative then -n else n)

/-- The exponent of a numeral: `none` if there is none, and the rest. -/
def readExponent : List Char → Option (Option Int × List Char)
  | [] => some (none, [])
  | c :: r =>
    if c == 'e' || c == 'E' then
      let (negative, cs) := splitSign r
      match digitRun false cs with
      | some (d :: ds, rest) =>
        let n : Int := digitsToNat (d :: ds)
        some (some (if negative then -n else n), rest)
      | _ => none
    else some (none, c :: r)

/-- The double that a whole text denotes: a decimal, or one of the words for infinity and for no
number. -/
def readReal? (s : String) : Option Float :=
  let (negative, cs) := splitSign (stripAround s.toList)
  let word := String.ofList (cs.map Char.toLower)
  if word == "inf" || word == "infinity" then
    some (if negative then -Binary64.infinity else Binary64.infinity)
  else if word == "nan" then some Binary64.nan
  else do
    let (whole, rest) ← digitRun false cs
    let (part, rest) ← match rest with
      | '.' :: r => digitRun false r
      | r => some ([], r)
    if whole.isEmpty && part.isEmpty then none
    else
      let (e, rest) ← readExponent rest
      if !rest.isEmpty then none
      else some (Binary64.ofDecimal negative (digitsToNat (whole ++ part)) (e.getD 0 - part.length))

end Numeral
end Stencil
