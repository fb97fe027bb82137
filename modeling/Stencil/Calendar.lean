/-
# Calendar

Dates and times of day in the proleptic Gregorian calendar, in universal time,
to the microsecond; and the moment a number of seconds after the epoch, which
exists for the years 1 to 9999.

Key definitions: `Date`, `Date.ofDays`, `Moment`, `Moment.ofEpoch`,
`Moment.iso`, `Moment.long`.
-/
import Stencil.Number

namespace Stencil
namespace Calendar

structure Date where
  year : Int
  month : Nat
  day : Nat
deriving DecidableEq, Repr

def isLeap (year : Int) : Bool :=
  year % 4 == 0 && (year % 100 != 0 || year % 400 == 0)

/-- The number of days of a month, 0 for a month that does not exist. -/
def daysIn (year : Int) (month : Nat) : Nat :=
  match month with
  | 1 | 3 | 5 | 7 | 8 | 10 | 12 => 31
  | 4 | 6 | 9 | 11 => 30
  | 2 => if isLeap year then 29 else 28
  | _ => 0

/-- The date `n` days after the epoch. Years are counted from March, so that a
leap day comes last. -/
def Date.ofDays (n : Int) : Date :=
  let z := n + 719468
  let era := z.fdiv 146097
  let dayOfEra := z.fmod 146097
  let yearOfEra := (dayOfEra - dayOfEra / 1460 + dayOfEra / 36524 - dayOfEra / 146096) / 365
  let dayOfYear := dayOfEra - (365 * yearOfEra + yearOfEra / 4 - yearOfEra / 100)
  let m := (5 * dayOfYear + 2) / 153
  let day := dayOfYear - (153 * m + 2) / 5 + 1
  let month := if m < 10 then m + 3 else m - 9
  let year := yearOfEra + era * 400
  ⟨if month ≤ 2 then year + 1 else year, month.toNat, day.toNat⟩

/-- A number in decimal, padded with zeros to `width`. -/
def pad (width : Nat) (n : Int) : String :=
  let cs := intChars n
  String.ofList (List.replicate (width - cs.length) '0' ++ cs)

/-- Year, month and day with hyphens, the year in four digits. -/
def Date.iso (d : Date) : String := pad 4 d.year ++ "-" ++ pad 2 d.month ++ "-" ++ pad 2 d.day

/-- A date with the time of day. -/
structure Moment where
  date : Date
  /-- Days after Sunday. -/
  weekday : Nat
  hour : Nat
  minute : Nat
  second : Nat
  microsecond : Nat

/-- Why a number of seconds is no moment. -/
inductive Fault where
  /-- It is no number. -/
  | notANumber
  /-- It does not fit 64 bits. -/
  | outOfRange
  /-- Its year, counted from 1900, does not fit 32 bits. -/
  | tooLarge
  /-- Its year, in 32 bits, is not from 1 to 9999. -/
  | year (value : Int)

def Fault.message : Fault → String
  | notANumber => "Invalid value NaN (not a number)"
  | outOfRange => "timestamp out of range for platform time_t"
  | tooLarge => "[Errno 75] Value too large for defined data type"
  | year value => s!"year {intText value} is out of range"

/-- The nearest whole number, a half to the even one. -/
def roundHalfEven (p : Binary64.Parts) : Int :=
  let (n, d) := Binary64.scale p.mantissa 1 (-p.exponent)
  let r := Binary64.roundDiv n d
  if p.negative then -(r : Int) else r

/-- Whole seconds and microseconds of a number of seconds. The bounds are those of 64 bits; for a
double the upper one is the next double, and belongs to the range. -/
def split (t : Number) : Except Fault (Int × Nat) :=
  match t with
  | .int i => if -0x8000000000000000 ≤ i ∧ i < 0x8000000000000000 then .ok (i, 0) else .error .outOfRange
  | .float x =>
    match Binary64.decode x with
    | none => .error (if x.isNaN then .notANumber else .outOfRange)
    | some p =>
      let whole := p.truncate
      let part := (x - Binary64.ofInt whole) * 1000000.0
      let micros := ((Binary64.decode part).map roundHalfEven).getD 0
      let (seconds, micros) :=
        if 1000000 ≤ micros then (whole + 1, micros - 1000000)
        else if micros < 0 then (whole - 1, micros + 1000000)
        else (whole, micros)
      if -0x8000000000000000 ≤ seconds ∧ seconds ≤ 0x8000000000000000 then .ok (seconds, micros.toNat)
      else .error .outOfRange

/-- The moment `t` seconds after the epoch. -/
def Moment.ofEpoch (t : Number) : Except Fault Moment := do
  let (seconds, micros) ← split t
  let days := seconds.fdiv 86400
  let rest := (seconds.fmod 86400).toNat
  let date := Date.ofDays days
  if date.year - 1900 < -0x80000000 || 0x80000000 ≤ date.year - 1900 then throw .tooLarge
  let shown := Int.bmod date.year 0x100000000
  if shown < 1 || 9999 < shown then throw (.year shown)
  return ⟨date, ((days + 4).fmod 7).toNat, rest / 3600, rest / 60 % 60, rest % 60, micros⟩

/-- Date and time to the millisecond, in universal time. -/
def Moment.iso (m : Moment) : String :=
  m.date.iso ++ "T" ++ pad 2 m.hour ++ ":" ++ pad 2 m.minute ++ ":" ++ pad 2 m.second ++ "." ++
    pad 3 (m.microsecond / 1000) ++ "Z"

/-- Year, month and day with hyphens, the year as it is. -/
def Moment.yearFirst (m : Moment) : String :=
  intText m.date.year ++ "-" ++ pad 2 m.date.month ++ "-" ++ pad 2 m.date.day

/-- Month, day and the last two digits of the year, with hyphens. -/
def Moment.monthFirst (m : Moment) : String :=
  pad 2 m.date.month ++ "-" ++ pad 2 m.date.day ++ "-" ++ pad 2 (m.date.year % 100)

def weekdayNames : List String := ["Sun", "Mon", "Tue", "Wed", "Thu", "Fri", "Sat"]

def monthNames : List String :=
  ["Jan", "Feb", "Mar", "Apr", "May", "Jun", "Jul", "Aug", "Sep", "Oct", "Nov", "Dec"]

/-- Date and time in words, the day of the month padded with a space. -/
def Moment.long (m : Moment) : String :=
  let day := if m.date.day < 10 then " " ++ intText m.date.day else intText m.date.day
  weekdayNames.getD m.weekday "" ++ " " ++ monthNames.getD (m.date.month - 1) "" ++ " " ++ day ++
    " " ++ pad 2 m.hour ++ ":" ++ pad 2 m.minute ++ ":" ++ pad 2 m.second ++ " " ++
    intText m.date.year

end Calendar
end Stencil
