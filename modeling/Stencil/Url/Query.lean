/-
# Query strings

The part of a URL after the question mark: fields separated by `&`, each a
name and a value. A plus sign stands for a space and a percent sign with two
hexadecimal digits for a byte. Fields without a value are left out; of fields
with one name the last value counts, at the first place.

Key definitions: `decode`, `fields`, `assign`, `readQuery`.
-/
import Stencil.Text.Bytes
import Stencil.Url.Address

namespace Stencil
namespace Url

/-- The value of a hexadecimal digit. -/
def hexValue? (c : Char) : Option Nat :=
  if c.isDigit then some (c.toNat - 48)
  else if 'a' ≤ c && c ≤ 'f' then some (c.toNat - 87)
  else if 'A' ≤ c && c ≤ 'F' then some (c.toNat - 55)
  else none

/-- The bytes that an escaped text stands for. -/
def percentBytes : List Char → List UInt8
  | [] => []
  | '%' :: a :: b :: r =>
    match hexValue? a, hexValue? b with
    | some x, some y => UInt8.ofNat (16 * x + y) :: percentBytes r
    | _, _ => Text.utf8 "%" ++ percentBytes (a :: b :: r)
  | c :: r => Text.utf8 (String.singleton c) ++ percentBytes r

/-- The text that a name or a value of a field stands for. -/
def decode (cs : List Char) : String :=
  Text.ofUtf8 (percentBytes (cs.map fun c => if c == '+' then ' ' else c))

/-- The fields with a value, in order. -/
def fields (cs : List Char) : List (String × String) :=
  (splitAt '&' cs).filterMap fun field =>
    let value := (field.dropWhile (· != '=')).drop 1
    if value.isEmpty then none else some (decode (field.takeWhile (· != '=')), decode value)

/-- Gives a name a value; a new name goes to the end. -/
def assign (name value : String) : List (String × String) → List (String × String)
  | [] => [(name, value)]
  | (n, v) :: r => if n == name then (n, value) :: r else (n, v) :: assign name value r

/-- Pairs with the last value of each name, at its first place. -/
def assignAll (pairs : List (String × String)) : List (String × String) :=
  pairs.foldl (fun m (n, v) => assign n v m) []

/-- The names and values of a query string. -/
def readQuery (cs : List Char) : List (String × String) := assignAll (fields cs)

end Url
end Stencil
