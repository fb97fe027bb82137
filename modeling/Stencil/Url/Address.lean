/-
# Internet addresses

Which texts denote an address of four decimal bytes, and which one of eight
hexadecimal groups, where one run of zero groups may be left out and the last
two groups may be written as four bytes.

Key definitions: `isFourBytes`, `isEightGroups`.
-/

namespace Stencil
namespace Url

/-- The parts of a text between the separators. -/
def splitAt (sep : Char) : List Char → List (List Char)
  | [] => [[]]
  | c :: r =>
    if c == sep then [] :: splitAt sep r
    else
      match splitAt sep r with
      | p :: ps => (c :: p) :: ps
      | [] => [[c]]

/-- Up to three decimal digits without a leading zero, at most 255. -/
def isByte (cs : List Char) : Bool :=
  !cs.isEmpty && cs.all Char.isDigit && cs.length ≤ 3 && (cs == ['0'] || cs.head? != some '0') &&
    cs.foldl (fun n c => 10 * n + (c.toNat - 48)) 0 ≤ 255

/-- Four bytes separated by points. -/
def isFourBytes (cs : List Char) : Bool :=
  let parts := splitAt '.' cs
  parts.length == 4 && parts.all isByte

def isHexDigit (c : Char) : Bool :=
  c.isDigit || ('a' ≤ c && c ≤ 'f') || ('A' ≤ c && c ≤ 'F')

/-- One to four hexadecimal digits. -/
def isGroup (cs : List Char) : Bool := !cs.isEmpty && cs.all isHexDigit && cs.length ≤ 4

/-- Whether colon-separated parts give eight groups; of the inner parts at most one is empty and
stands for the groups left out. -/
def areGroups (parts : List (List Char)) : Bool :=
  let inner := (parts.drop 1).dropLast
  let high := parts.take (1 + (inner.takeWhile (!·.isEmpty)).length)
  let low := parts.drop (high.length + 1)
  if parts.length < 3 || 9 < parts.length then false
  else
    match (inner.filter List.isEmpty).length with
    | 0 => parts.length == 8 && parts.all isGroup
    | 1 =>
      let high := if high.head? == some [] then high.drop 1 else high
      let low := if low.getLast? == some [] then low.dropLast else low
      (high.isEmpty || parts.head? != some []) && (low.isEmpty || parts.getLast? != some []) &&
        high.length + low.length < 8 && high.all isGroup && low.all isGroup
    | _ => false

/-- Eight groups separated by colons, with an optional zone after a percent sign. -/
def isEightGroups (cs : List Char) : Bool :=
  let address := cs.takeWhile (· != '%')
  let zone := cs.dropWhile (· != '%')
  let zoneFits := match zone with
    | [] => true
    | _ :: z => !z.isEmpty && !z.contains '%'
  let parts := splitAt ':' address
  let tail := parts.getLastD []
  !cs.contains '/' && zoneFits && 3 ≤ parts.length &&
    if tail.contains '.' then
      isFourBytes tail && areGroups (parts.dropLast ++ [['0'], ['0']])
    else areGroups parts

end Url
end Stencil
