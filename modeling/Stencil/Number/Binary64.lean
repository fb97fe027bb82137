/-
# Double precision numbers and exact ratios

A finite double is `± mantissa · 2 ^ exponent`. `decode` reads the two parts
off its bits; `nearest` goes the other way and rounds an exact ratio to the
nearest double, a tie to the even mantissa.

Key definitions: `Parts`, `decode`, `nearest`, `ofDecimal`, `compareInt`.
-/

namespace Stencil
namespace Binary64

/-- A power of two. -/
def twoTo (n : Nat) : Nat := Nat.pow 2 n

/-- A power of ten. -/
def tenTo (n : Nat) : Nat := Nat.pow 10 n

/-- A finite double: `± mantissa · 2 ^ exponent`. -/
structure Parts where
  negative : Bool
  mantissa : Nat
  exponent : Int

/-- The least exponent, that of the subnormal numbers. -/
def minExponent : Int := -1074

/-- The bits of positive infinity. -/
def infinityBits : Nat := 0x7FF0000000000000

/-- The parts of a finite double. -/
def decode (x : Float) : Option Parts :=
  let bits := x.toBits.toNat
  let negative := bits / twoTo 63 == 1
  let biased : Nat := bits / twoTo 52 % twoTo 11
  let fraction : Nat := bits % twoTo 52
  if biased == 2047 then none
  else if biased == 0 then some ⟨negative, fraction, minExponent⟩
  else some ⟨negative, twoTo 52 + fraction, (biased : Int) - 1075⟩

/-- The quotient `num / den` rounded to the nearest integer, a half to the even one. -/
def roundDiv (num den : Nat) : Nat :=
  let q := num / den
  let twice := 2 * (num % den)
  if twice < den then q else if den < twice then q + 1 else q + q % 2

/-- The ratio `num / (den · 2 ^ e)` as a numerator and a denominator. -/
def scale (num den : Nat) (e : Int) : Nat × Nat :=
  if 0 ≤ e then (num, den * twoTo e.toNat) else (num * twoTo (-e).toNat, den)

/-- The bits of the double nearest to `num / den`. -/
def nearestBits (num den : Nat) : Nat :=
  if num == 0 then 0
  else
    let low : Int := (num.log2 : Int) - den.log2 - 53
    let (n, d) := scale num den low
    let e := max minExponent (if d * twoTo 53 ≤ n then low + 1 else low)
    let (n, d) := scale num den e
    min infinityBits ((e - minExponent).toNat * twoTo 52 + roundDiv n d)

/-- The double nearest to `± num / den`. -/
def nearest (negative : Bool) (num den : Nat) : Float :=
  Float.ofBits (UInt64.ofNat (nearestBits num den + if negative then twoTo 63 else 0))

/-- The double nearest to an integer. -/
def ofInt (i : Int) : Float := nearest (decide (i < 0)) i.natAbs 1

/-- Positive infinity. -/
def infinity : Float := Float.ofBits (UInt64.ofNat infinityBits)

/-- The double that is no number. -/
def nan : Float := Float.ofBits (UInt64.ofNat (infinityBits + twoTo 51))

/-- The double nearest to `± digits · 10 ^ exponent`. A decimal far outside the
range of the doubles is decided by its size alone. -/
def ofDecimal (negative : Bool) (digits : Nat) (exponent : Int) : Float :=
  let size : Int := (Nat.toDigits 10 digits).length + exponent
  if digits == 0 || size < -400 then nearest negative 0 1
  else if 400 < size then (if negative then -infinity else infinity)
  else if 0 ≤ exponent then nearest negative (digits * tenTo exponent.toNat) 1
  else nearest negative digits (tenTo (-exponent).toNat)

/-- The exact order of `± mantissa · 2 ^ exponent` and an integer. -/
def Parts.compareInt (p : Parts) (i : Int) : Ordering :=
  let m : Int := if p.negative then -(p.mantissa : Int) else p.mantissa
  if 0 ≤ p.exponent then compare (m * twoTo p.exponent.toNat) i
  else compare m (i * twoTo (-p.exponent).toNat)

/-- The integer part, toward zero. -/
def Parts.truncate (p : Parts) : Int :=
  let n := if 0 ≤ p.exponent then p.mantissa * twoTo p.exponent.toNat
    else p.mantissa / twoTo (-p.exponent).toNat
  if p.negative then -(n : Int) else n

/-- Whether the number is whole. -/
def Parts.isWhole (p : Parts) : Bool :=
  decide (0 ≤ p.exponent) || p.mantissa % twoTo (-p.exponent).toNat == 0

end Binary64
end Stencil
