/-
# Timestamps

A date with a time of day as it is written down: with the distance of the
clocks from universal time, or without. Two timestamps with a distance are the
same when they mean one moment; without one they are the same when they read
the same.

Key definitions: `Timestamp`, `Timestamp.same`, `Timestamp.text`,
`Timestamp.quoted`.
-/
import Stencil.Calendar

namespace Stencil
namespace Calendar

/-- The number of days from the epoch to a date. Years are counted from March. -/
def Date.days (d : Date) : Int :=
  let year := if d.month ≤ 2 then d.year - 1 else d.year
  let era := year.fdiv 400
  let yearOfEra := year - era * 400
  let dayOfYear := (153 * ((d.month + 9) % 12) + 2) / 5 + d.day - 1
  era * 146097 + yearOfEra * 365 + yearOfEra / 4 - yearOfEra / 100 + dayOfYear - 719468

structure Timestamp where
  date : Date
  hour : Nat
  minute : Nat
  second : Nat
  microsecond : Nat
  /-- The minutes by which the clocks are ahead of universal time. -/
  offset : Option Int := none
deriving DecidableEq, Repr

namespace Timestamp

/-- Microseconds since the epoch, by clocks of universal time. -/
def reading (t : Timestamp) : Int :=
  let minutes := (t.date.days * 24 + t.hour) * 60 + t.minute - t.offset.getD 0
  (minutes * 60 + t.second) * 1000000 + t.microsecond

/-- Whether two timestamps are the same. -/
def same (a b : Timestamp) : Bool := a.offset.isSome == b.offset.isSome && a.reading == b.reading

/-- Whether a timestamp is before another one, if the two can be compared. -/
def isBefore? (a b : Timestamp) : Option Bool :=
  if a.offset.isSome == b.offset.isSome then some (decide (a.reading < b.reading)) else none

/-- A distance from universal time, with its sign. -/
def offsetText (minutes : Int) : String :=
  (if minutes < 0 then "-" else "+") ++ pad 2 (minutes.natAbs / 60) ++ ":" ++ pad 2 (minutes.natAbs % 60)

/-- Date and time with a space between them. -/
def text (t : Timestamp) : String :=
  t.date.iso ++ " " ++ pad 2 t.hour ++ ":" ++ pad 2 t.minute ++ ":" ++ pad 2 t.second ++
    (if t.microsecond == 0 then "" else "." ++ pad 6 t.microsecond) ++ (t.offset.map offsetText).getD ""

/-- A span of minutes as it stands inside a list or a mapping: whole days, and seconds from 0 on. -/
def quotedSpan (minutes : Int) : String :=
  let days := minutes.fdiv 1440
  let seconds := minutes.fmod 1440 * 60
  let parts := (if days == 0 then [] else ["days=" ++ intText days]) ++
    if seconds == 0 then [] else ["seconds=" ++ intText seconds]
  "datetime.timedelta(" ++ (if parts.isEmpty then "0" else ", ".intercalate parts) ++ ")"

/-- A distance from universal time as it stands inside a list or a mapping. -/
def quotedOffset (minutes : Int) : String :=
  if minutes == 0 then "datetime.timezone.utc" else "datetime.timezone(" ++ quotedSpan minutes ++ ")"

/-- A timestamp as it stands inside a list or a mapping, where seconds may be left out. -/
def quoted (t : Timestamp) : String :=
  let parts : List Int := [t.date.year, t.date.month, t.date.day, t.hour, t.minute] ++
    if t.microsecond != 0 then [(t.second : Int), t.microsecond]
    else if t.second != 0 then [(t.second : Int)] else []
  "datetime.datetime(" ++ ", ".intercalate (parts.map intText) ++
    (t.offset.map fun o => ", tzinfo=" ++ quotedOffset o).getD "" ++ ")"

end Timestamp
end Calendar
end Stencil
