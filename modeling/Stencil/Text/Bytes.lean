/-
# Text as bytes

UTF-8 in both directions. Reading never fails: the longest part of a sequence
that could still have become a character is read as one replacement character,
and reading goes on at the byte that broke it. In base 64 three bytes are
written as four characters of six bits each, and a shorter group at the end is
filled up with `=`.

Key definitions: `utf8`, `Pending`, `ofUtf8`, `base64`.
-/

namespace Stencil
namespace Text

/-- The UTF-8 bytes of a text. -/
def utf8 (s : String) : List UInt8 := s.toUTF8.toList

/-- The character read in place of malformed bytes. -/
def replacement : Char := '\uFFFD'

/-- A character of which the first bytes have been read. -/
structure Pending where
  /-- The bits read so far. -/
  bits : Nat
  /-- How many bytes are still to come. -/
  left : Nat
  /-- The least byte that may come next. -/
  low : UInt8
  /-- The greatest byte that may come next. -/
  high : UInt8

/-- What a byte starts: a character of several bytes, or `none`. -/
def Pending.start? (b : UInt8) : Option Pending :=
  if 0xC2 ≤ b ∧ b ≤ 0xDF then some ⟨b.toNat - 0xC0, 1, 0x80, 0xBF⟩
  else if b = 0xE0 then some ⟨0, 2, 0xA0, 0xBF⟩
  else if b = 0xED then some ⟨0xD, 2, 0x80, 0x9F⟩
  else if 0xE1 ≤ b ∧ b ≤ 0xEF then some ⟨b.toNat - 0xE0, 2, 0x80, 0xBF⟩
  else if b = 0xF0 then some ⟨0, 3, 0x90, 0xBF⟩
  else if b = 0xF4 then some ⟨4, 3, 0x80, 0x8F⟩
  else if 0xF1 ≤ b ∧ b ≤ 0xF3 then some ⟨b.toNat - 0xF0, 3, 0x80, 0xBF⟩
  else none

/-- Reads a byte at the start of a character: what is complete, and what has been started. -/
def readStart (b : UInt8) : List Char × Option Pending :=
  if b < 0x80 then ([Char.ofNat b.toNat], none)
  else
    match Pending.start? b with
    | some p => ([], some p)
    | none => ([replacement], none)

/-- Reads a byte after those of `p`. -/
def Pending.read (p : Pending) (b : UInt8) : List Char × Option Pending :=
  if p.low ≤ b ∧ b ≤ p.high then
    let bits := p.bits * 64 + (b.toNat - 0x80)
    if p.left ≤ 1 then ([Char.ofNat bits], none)
    else ([], some ⟨bits, p.left - 1, 0x80, 0xBF⟩)
  else
    let (cs, q) := readStart b
    (replacement :: cs, q)

/-- Reads bytes, the first ones of a character having been read before. -/
def readBytes : Option Pending → List UInt8 → List Char
  | none, [] => []
  | some _, [] => [replacement]
  | pending, b :: r =>
    let (cs, next) := match pending with
      | none => readStart b
      | some p => p.read b
    cs ++ readBytes next r

/-- The text of bytes in UTF-8. -/
def ofUtf8 (bytes : List UInt8) : String := String.ofList (readBytes none bytes)

/-! ### Base 64 -/

/-- The characters for the values 0 to 63. -/
def base64Alphabet : List Char :=
  "ABCDEFGHIJKLMNOPQRSTUVWXYZabcdefghijklmnopqrstuvwxyz0123456789+/".toList

def base64Char (n : Nat) : Char := base64Alphabet.getD (n % 64) '='

/-- The base 64 form of bytes. -/
def base64 : List UInt8 → List Char
  | [] => []
  | [a] =>
    let n := a.toNat * 16
    [base64Char (n / 64), base64Char n, '=', '=']
  | [a, b] =>
    let n := (a.toNat * 256 + b.toNat) * 4
    [base64Char (n / 4096), base64Char (n / 64), base64Char n, '=']
  | a :: b :: c :: r =>
    let n := (a.toNat * 256 + b.toNat) * 256 + c.toNat
    base64Char (n / 262144) :: base64Char (n / 4096) :: base64Char (n / 64) :: base64Char n ::
      base64 r

end Text
end Stencil
