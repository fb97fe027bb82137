/-
# What plain scalars stand for

A plain scalar that reads as a truth value, a number, a date, a timestamp or
nothing stands for that; any other one is a text. Numbers may hold underscores; an integer
may be written with the base 2, 8, 10 or 16, and numbers as parts of sixty.

Key definitions: `Implied.ofPlain`.
-/
import Stencil.Yaml.Fault

namespace Stencil
namespace Yaml
namespace Implied

/-- A decimal digit. -/
def isDigit (c : Char) : Bool := '0' ≤ c && c ≤ '9'

/-- A digit or an underscore. -/
def isSpacedDigit (c : Char) : Bool := isDigit c || c == '_'

def splitSign : List Char → Bool × List Char := Numeral.splitSign

def truths : List String := ["yes", "Yes", "YES", "true", "True", "TRUE", "on", "On", "ON"]

def falsehoods : List String := ["no", "No", "NO", "false", "False", "FALSE", "off", "Off", "OFF"]

def nothings : List String := ["", "~", "null", "Null", "NULL"]

/-- A part below sixty: one digit or two. -/
def isSixtieth : List Char → Bool
  | [a] => isDigit a
  | [a, b] => '0' ≤ a && a ≤ '5' && isDigit b
  | _ => false

/-- The parts of a text between colons. -/
def colonParts (cs : List Char) : List (List Char) := cs.splitOn ':'

/-- The value of digits in a base; underscores do not count. -/
def valueOf (base : Nat) (cs : List Char) : Nat :=
  cs.foldl (fun n c =>
    if c == '_' then n
    else
      let d := if isDigit c then c.toNat - '0'.toNat else c.toLower.toNat - 'a'.toNat + 10
      n * base + d) 0

/-- The number of digits. -/
def digitCount (cs : List Char) : Nat := (cs.filter (· != '_')).length

/-- An exponent with its sign. -/
def isExponent : List Char → Bool
  | e :: s :: d :: ds => (e == 'e' || e == 'E') && (s == '+' || s == '-') && (d :: ds).all isDigit
  | _ => false

/-- Whether a text without its sign is a decimal. -/
def isDecimal (cs : List Char) (isSigned : Bool) : Bool :=
  let whole := cs.takeWhile isSpacedDigit
  match cs.drop whole.length with
  | '.' :: r =>
    let part := r.takeWhile isSpacedDigit
    let rest := r.drop part.length
    (rest.isEmpty || isExponent rest) &&
      (if whole.isEmpty then !isSigned && isDigit (part.headD '_') else isDigit (whole.headD '_'))
  | _ => false

/-- Whether a text without its sign is a decimal whose whole part is given in parts of sixty. -/
def isSexagesimalDecimal (cs : List Char) : Bool :=
  match colonParts cs with
  | first :: second :: more =>
    let last := (second :: more).getLast?.getD []
    isDigit (first.headD '_') && first.all isSpacedDigit &&
      (second :: more).dropLast.all isSixtieth &&
      isSixtieth (last.takeWhile isDigit) &&
      (match last.dropWhile isDigit with
        | '.' :: r => r.all isSpacedDigit
        | _ => false)
  | _ => false

/-- Whether a text without its sign is an integer given in parts of sixty. -/
def isSexagesimal (cs : List Char) : Bool :=
  match colonParts cs with
  | first :: second :: more =>
    '1' ≤ first.headD '_' && first.headD '_' ≤ '9' && first.all isSpacedDigit &&
      (second :: more).all isSixtieth
  | _ => false

/-- The double that a decimal denotes; underscores do not count. -/
def realOf (cs : List Char) : Float :=
  (Numeral.readReal? (String.ofList (cs.filter (· != '_')))).getD 0

/-- The sum of parts of sixty, the last part first and of the given unit. Every unit counts as the
double nearest to it. -/
def sixtieths : (unit : Nat) → (sum : Float) → List (List Char) → Except Fault Float
  | _, sum, [] => .ok sum
  | unit, sum, part :: r =>
    match (Number.int unit).toFloat? with
    | some x => sixtieths (unit * 60) (sum + realOf part * x) r
    | none => .error .unitTooLarge

def signed (isNegative : Bool) (n : Nat) : Value := .int (if isNegative then -(n : Int) else n)

/-- The integer that a text without its sign denotes, if it has that form. -/
def integer? (isNegative : Bool) (cs : List Char) : Option (Except Fault Value) :=
  let inBase (base : Nat) (ds : List Char) : Except Fault Value :=
    if digitCount ds == 0 then .error (.noDigits base) else .ok (signed isNegative (valueOf base ds))
  let ofDigits (ds : List Char) : Except Fault Nat :=
    if Numeral.digitLimit < digitCount ds then .error (.tooLong (digitCount ds))
    else .ok (valueOf 10 ds)
  let ofSixtieths (parts : List (List Char)) : Except Fault Value := do
    let parts ← parts.mapM ofDigits
    return signed isNegative (parts.foldl (fun n p => n * 60 + p) 0)
  match cs with
  | ['0'] => some (.ok (.int 0))
  | '0' :: 'b' :: d :: ds =>
    if (d :: ds).all fun c => c == '0' || c == '1' || c == '_' then some (inBase 2 (d :: ds)) else none
  | '0' :: 'x' :: d :: ds =>
    if (d :: ds).all fun c => isSpacedDigit c || ('a' ≤ c.toLower && c.toLower ≤ 'f') then
      some (inBase 16 (d :: ds))
    else none
  | '0' :: ds =>
    if ds.all fun c => ('0' ≤ c && c ≤ '7') || c == '_' then some (.ok (signed isNegative (valueOf 8 ds)))
    else none
  | d :: ds =>
    if isDigit d && ds.all isSpacedDigit then some ((ofDigits (d :: ds)).map (signed isNegative))
    else if isSexagesimal cs then some (ofSixtieths (colonParts cs))
    else none
  | [] => none

/-- The double that a text denotes, if it has that form. -/
def real? (cs : List Char) : Option (Except Fault Value) :=
  let (isNegative, body) := splitSign cs
  let isSigned := body.length != cs.length
  let sign (x : Float) : Value := .float (if isNegative then -x else x)
  let text := String.ofList body
  if isDecimal body isSigned then some (.ok (sign (realOf body)))
  else if isSexagesimalDecimal body then
    some ((sixtieths 1 0 (colonParts body).reverse).map sign)
  else if [".inf", ".Inf", ".INF"].contains text then some (.ok (sign Binary64.infinity))
  else if !isSigned && [".nan", ".NaN", ".NAN"].contains text then
    some (.ok (.float Binary64.nan))
  else none

/-! ### Dates and timestamps -/

/-- The date with the given parts. -/
def dateOf (year month day : Nat) : Except Fault Calendar.Date :=
  if year == 0 then .error .noYear
  else if month == 0 || 12 < month then .error .noMonth
  else if day == 0 || Calendar.daysIn year month < day then .error .noDay
  else .ok ⟨year, month, day⟩

/-- The number that between `least` and `most` digits denote, and the rest. -/
def readNumber (least most : Nat) (cs : List Char) : Option (Nat × List Char) :=
  let ds := (cs.take most).takeWhile isDigit
  if ds.length < least then none else some (valueOf 10 ds, cs.drop ds.length)

/-- What follows a character, if the text starts with it. -/
def after? (c : Char) (cs : List Char) : Option (List Char) :=
  if cs.head? == some c then some cs.tail else none

/-- Year, month and day with hyphens, month and day in at least so many digits; and the rest. -/
def readDate (least : Nat) (cs : List Char) : Option ((Nat × Nat × Nat) × List Char) := do
  let (year, cs) ← readNumber 4 4 cs
  let (month, cs) ← readNumber least 2 (← after? '-' cs)
  let (day, cs) ← readNumber least 2 (← after? '-' cs)
  return ((year, month, day), cs)

/-- What stands between a date and a time of day is left out. -/
def afterDate? (cs : List Char) : Option (List Char) :=
  match cs with
  | 'T' :: r => some r
  | 't' :: r => some r
  | ' ' :: r => some (r.dropWhile (· == ' '))
  | _ => none

/-- The microseconds that the digits of a part of a second denote. -/
def microseconds (ds : List Char) : Nat :=
  valueOf 10 (ds.take 6 ++ List.replicate (6 - ds.length) '0')

/-- The minutes by which clocks are ahead of universal time: none at the end of a text. -/
def readOffset (cs : List Char) : Option (Option Int) :=
  if cs.isEmpty then some none
  else
    match cs.dropWhile (· == ' ') with
    | ['Z'] => some (some 0)
    | sign :: r => do
      if sign != '+' && sign != '-' then none
      let (hours, r) ← readNumber 1 2 r
      let (minutes, r) ← if r.isEmpty then some (0, r) else readNumber 2 2 (← after? ':' r)
      if !r.isEmpty then none
      let total : Int := hours * 60 + minutes
      return some (if sign == '-' then -total else total)
    | [] => none

/-- The timestamp with the given parts. -/
def timestampOf (date : Nat × Nat × Nat) (hour minute second microsecond : Nat) (offset : Option Int) :
    Except Fault Calendar.Timestamp := do
  let minutes := offset.getD 0
  if 1440 ≤ minutes.natAbs then throw (.offsetTooLarge minutes)
  let date ← dateOf date.1 date.2.1 date.2.2
  if 24 ≤ hour then throw .noHour
  if 60 ≤ minute then throw .noMinute
  if 60 ≤ second then throw .noSecond
  return { date, hour, minute, second, microsecond, offset }

/-- The timestamp that a text denotes, if it has that form. -/
def timestamp? (cs : List Char) : Option (Except Fault Value) := do
  let (date, cs) ← readDate 1 cs
  let (hour, cs) ← readNumber 1 2 (← afterDate? cs)
  let (minute, cs) ← readNumber 2 2 (← after? ':' cs)
  let (second, cs) ← readNumber 2 2 (← after? ':' cs)
  let part := match cs with
    | '.' :: r => r.takeWhile isDigit
    | _ => []
  let cs := match cs with
    | '.' :: r => r.dropWhile isDigit
    | r => r
  let offset ← readOffset cs
  return (timestampOf date hour minute second (microseconds part) offset).map .timestamp

/-- The date that a text denotes, if it has that form. -/
def date? (cs : List Char) : Option (Except Fault Value) := do
  let ((year, month, day), rest) ← readDate 2 cs
  if !rest.isEmpty then none
  return (dateOf year month day).map .date

/-- What a plain scalar stands for. -/
def ofPlain (cs : List Char) : Except Fault Value :=
  let text := String.ofList cs
  if truths.contains text then .ok (.bool true)
  else if falsehoods.contains text then .ok (.bool false)
  else
    match real? cs with
    | some r => r
    | none =>
      let (isNegative, body) := splitSign cs
      match integer? isNegative body with
      | some r => r
      | none =>
        if nothings.contains text then .ok .null
        else
          match (date? cs).orElse fun _ => timestamp? cs with
          | some r => r
          | none => .ok (.text text)

end Implied
end Yaml
end Stencil
