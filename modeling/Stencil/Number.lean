/-
# Numbers

A number is an exact integer or a double. Integers and doubles are compared by
their exact values; arithmetic between them is done in doubles.

Key definitions: `Number`, `Number.lt`, `Number.le`, `Number.add?`,
`Number.sub`, `Number.truncate`.
-/
import Stencil.Number.Shortest

namespace Stencil

/-- An exact integer or a double. -/
inductive Number where
  | int (value : Int)
  | float (value : Float)

namespace Number

/-- The nearest double; an integer beyond them is infinite. -/
def toFloat : Number → Float
  | int i => Binary64.ofInt i
  | float x => x

/-- The nearest double, unless the number is an integer beyond them. -/
def toFloat? : Number → Option Float
  | int i => let x := Binary64.ofInt i; if x.isFinite then some x else none
  | float x => some x

/-- The message for an integer beyond the doubles. -/
def beyondMessage : String := "int too large to convert to float"

/-- The order of two numbers; `none` if one of them is no number. -/
def compare? : Number → Number → Option Ordering
  | int i, int j => some (compare i j)
  | float x, float y =>
    if x < y then some .lt else if y < x then some .gt else if x == y then some .eq else none
  | float x, int j => side x j
  | int i, float y => (side y i).map Ordering.swap
where
  side (x : Float) (j : Int) : Option Ordering :=
    match Binary64.decode x with
    | some p => some (p.compareInt j)
    | none => if x.isNaN then none else some (if x < 0 then .lt else .gt)

def lt (a b : Number) : Bool := compare? a b == some .lt

def le (a b : Number) : Bool := lt a b || compare? a b == some .eq

def same (a b : Number) : Bool := compare? a b == some .eq

/-- The sum, unless an integer beyond the doubles meets a double. -/
def add? : Number → Number → Option Number
  | int i, int j => some (int (i + j))
  | a, b => do return float ((← a.toFloat?) + (← b.toFloat?))

def sub : Number → Number → Number
  | int i, int j => int (i - j)
  | a, b => float (a.toFloat - b.toFloat)

/-- Why a double has no integer part. -/
inductive NotFinite where
  | infinite
  | notANumber

def NotFinite.message : NotFinite → String
  | infinite => "cannot convert float infinity to integer"
  | notANumber => "cannot convert float NaN to integer"

/-- The integer part, toward zero. -/
def truncate : Number → Except NotFinite Int
  | int i => .ok i
  | float x =>
    match Binary64.decode x with
    | some p => .ok p.truncate
    | none => .error (if x.isNaN then .notANumber else .infinite)

/-- Whether a finite number is whole. -/
def isWhole : Number → Bool
  | int _ => true
  | float x => match Binary64.decode x with
    | some p => p.isWhole
    | none => false

end Number

/-- The decimal digits of an integer, with a sign if it is negative. -/
def intChars (i : Int) : List Char :=
  if i < 0 then '-' :: (Nat.repr i.natAbs).toList else (Nat.repr i.natAbs).toList

/-- The decimal text of an integer. -/
def intText (i : Int) : String := String.ofList (intChars i)

end Stencil
