/-
# Quoted text

A text between quotes on one line: a backslash, a quote, a line break, a tab
and every unprintable character are written as escapes, all else as itself.
Single quotes are used unless the text holds one and no double quote. A JSON
string has double quotes always, and escapes besides the quote and the backslash
only the control characters below the space.

Key definitions: `quoteFor`, `escape`, `quoted`, `jsonChar`, `jsonString`.
-/
import Stencil.Text.Printable

namespace Stencil
namespace Text

/-- The lower-case hexadecimal digits of `n`, padded with zeros to `width`. -/
def hex (width n : Nat) : List Char :=
  let ds := Nat.toDigits 16 n
  List.replicate (width - ds.length) '0' ++ ds

/-- The quote that encloses a text. -/
def quoteFor (cs : List Char) : Char :=
  if cs.contains '\'' && !cs.contains '"' then '"' else '\''

/-- One character as it stands inside quotes `q`. -/
def escape (q c : Char) : List Char :=
  if c == '\\' || c == q then ['\\', c]
  else if c == '\n' then ['\\', 'n']
  else if c == '\r' then ['\\', 'r']
  else if c == '\t' then ['\\', 't']
  else if isPrintable c then [c]
  else if c.toNat < 0x100 then '\\' :: 'x' :: hex 2 c.toNat
  else if c.toNat < 0x10000 then '\\' :: 'u' :: hex 4 c.toNat
  else '\\' :: 'U' :: hex 8 c.toNat

/-- The quoted form of a text. -/
def quoted (s : String) : String :=
  let cs := s.toList
  let q := quoteFor cs
  String.ofList (q :: cs.flatMap (escape q) ++ [q])

/-! ### JSON -/

/-- One character inside a JSON string. -/
def jsonChar (c : Char) : List Char :=
  if c == '"' then ['\\', '"']
  else if c == '\\' then ['\\', '\\']
  else if c == '\n' then ['\\', 'n']
  else if c == '\r' then ['\\', 'r']
  else if c == '\t' then ['\\', 't']
  else if c.toNat == 8 then ['\\', 'b']
  else if c.toNat == 12 then ['\\', 'f']
  else if c.toNat < 0x20 then '\\' :: 'u' :: hex 4 c.toNat
  else [c]

/-- The characters of the JSON string for `s`. -/
def jsonChars (s : String) : List Char := '"' :: s.toList.flatMap jsonChar ++ ['"']

/-- The JSON string for `s`. -/
def jsonString (s : String) : String := String.ofList (jsonChars s)

end Text
end Stencil
