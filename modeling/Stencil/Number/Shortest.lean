/-
# The shortest decimal of a double

Every decimal between the midpoints to a double's two neighbours reads back as
that double. `shortest` takes the fewest digits for which such a decimal
exists, and of those the one nearest to the double. `text` writes it: with a
point for numbers from `0.0001` to below `10 ^ 16`, with an exponent outside.

Key definitions: `shortest`, `text`.
-/
import Stencil.Number.Binary64

namespace Stencil
namespace Binary64

/-- The power of ten at or below the positive ratio `num / den`. -/
def tenExponent (num den : Nat) : Int :=
  if den ≤ num then ((Nat.toDigits 10 (num / den)).length : Int) - 1
  else
    let d := (Nat.toDigits 10 (den / num)).length
    if den ≤ num * tenTo (d - 1) then -((d : Int) - 1) else -(d : Int)

/-- The decimals `c · 10 ^ g` and `(c + 1) · 10 ^ g` around `num / den`; the one that lies
between `low / den` and `high / den`, the nearer one if both do. The ends belong to the
interval if `closed`. -/
def onGrid (num low high den : Nat) (closed : Bool) (g : Int) : Option Nat :=
  let (up, down) := if 0 ≤ g then (tenTo g.toNat, 1) else (1, tenTo (-g).toNat)
  let c := num * down / (den * up)
  let inside (k : Nat) : Bool :=
    let x := k * up * den
    if closed then low * down ≤ x && x ≤ high * down else low * down < x && x < high * down
  match inside c, inside (c + 1) with
  | true, true =>
    match compare (2 * num * down) ((2 * c + 1) * up * den) with
    | .lt => some c
    | .gt => some (c + 1)
    | .eq => some (c + c % 2)
  | true, false => some c
  | false, true => some (c + 1)
  | false, false => none

/-- The first grid with a hit, from `n` significant digits on, with `k` the power of ten of
the number. -/
def firstGrid (num low high den : Nat) (closed : Bool) (k : Int) : Nat → Nat → Nat × Int
  | 0, _ => (num / den, 0)
  | left + 1, n =>
    let g := k - n + 1
    match onGrid num low high den closed g with
    | some c => (c, g)
    | none => firstGrid num low high den closed k left (n + 1)

/-- The shortest decimal `digits · 10 ^ exponent` of a positive finite double. -/
def Parts.shortest (p : Parts) : Nat × Int :=
  let narrow := p.mantissa == twoTo 52 && minExponent < p.exponent
  let mid := 4 * p.mantissa
  let low := if narrow then mid - 1 else mid - 2
  let (up, den) := if 2 ≤ p.exponent then (twoTo (p.exponent - 2).toNat, 1)
    else (1, twoTo (2 - p.exponent).toNat)
  let num := mid * up
  firstGrid num (low * up) ((mid + 2) * up) den (p.mantissa % 2 == 0) (tenExponent num den) 17 1

/-- The digits of `n` without the zeros at its end, and the number of those zeros. -/
def stripZeros (n : Nat) : List Char × Nat :=
  let ds := Nat.toDigits 10 n
  let kept := (ds.reverse.dropWhile (· == '0')).reverse
  (kept, ds.length - kept.length)

/-- A positive decimal `0.d₁d₂… · 10 ^ (point)` with digits `ds`. -/
def positional (ds : List Char) (point : Int) : List Char :=
  if point ≤ 0 then '0' :: '.' :: List.replicate (-point).toNat '0' ++ ds
  else
    let n := point.toNat
    if ds.length ≤ n then ds ++ List.replicate (n - ds.length) '0' ++ ['.', '0']
    else ds.take n ++ '.' :: ds.drop n

/-- A positive decimal `d₁.d₂… · 10 ^ e`; the exponent has a sign and two digits at least. -/
def scientific (ds : List Char) (e : Int) : List Char :=
  let head := match ds with
    | d :: f :: r => d :: '.' :: f :: r
    | r => r
  let es := Nat.toDigits 10 e.natAbs
  head ++ 'e' :: (if e < 0 then '-' else '+') :: List.replicate (2 - es.length) '0' ++ es

/-- The text of a double. -/
def text (x : Float) : String :=
  match decode x with
  | none => if x.isNaN then "nan" else if x < 0 then "-inf" else "inf"
  | some p =>
    let sign := if p.negative then ['-'] else []
    if p.mantissa == 0 then String.ofList (sign ++ ['0', '.', '0'])
    else
      let (n, g) := p.shortest
      let (ds, zeros) := stripZeros n
      let e : Int := g + zeros + ds.length - 1
      String.ofList (sign ++ if -4 ≤ e && e < 16 then positional ds (e + 1) else scientific ds e)

end Binary64
end Stencil
