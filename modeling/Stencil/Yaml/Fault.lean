/-
# Faults of a YAML text

Why a text has no value.

Key definitions: `Yaml.Fault`.
-/
import Stencil.Value

namespace Stencil
namespace Yaml

inductive Fault where
  /-- The text is not well-formed. -/
  | malformed
  /-- An escape gives a code that no character has. -/
  | noCharacter
  /-- An escape gives a code beyond 31 bits. -/
  | codeTooLarge
  /-- An integer has too many digits. -/
  | tooLong (digits : Nat)
  /-- An integer has no digits of its base. -/
  | noDigits (base : Nat)
  /-- A decimal in parts of sixty has a part of a unit beyond the doubles. -/
  | unitTooLarge
  /-- A date has no such month. -/
  | noMonth
  /-- A date has no such day. -/
  | noDay
  /-- A date has no such year. -/
  | noYear
  /-- A timestamp has no such hour. -/
  | noHour
  /-- A timestamp has no such minute. -/
  | noMinute
  /-- A timestamp has no such second. -/
  | noSecond
  /-- Clocks are so many minutes away from universal time, a day or more. -/
  | offsetTooLarge (minutes : Int)
deriving DecidableEq, Repr

def Fault.message : Fault → String
  | malformed => "Invalid YAML"
  | noCharacter => "chr() arg not in range(0x110000)"
  | codeTooLarge => "Python int too large to convert to C int"
  | tooLong digits => Numeral.tooLongMessage digits
  | noDigits base => s!"invalid literal for int() with base {base}: ''"
  | unitTooLarge => Number.beyondMessage
  | noMonth => "month must be in 1..12"
  | noDay => "day is out of range for month"
  | noYear => "year 0 is out of range"
  | noHour => "hour must be in 0..23"
  | noMinute => "minute must be in 0..59"
  | noSecond => "second must be in 0..59"
  | offsetTooLarge minutes =>
    "offset must be a timedelta strictly between -timedelta(hours=24) and timedelta(hours=24), not " ++
      Calendar.Timestamp.quotedSpan minutes ++ "."

/-- The outcome of reading something that is malformed if it cannot be read. -/
def orMalformed {α : Type} (a? : Option α) : Except Fault α :=
  match a? with
  | some a => .ok a
  | none => .error .malformed

end Yaml
end Stencil
