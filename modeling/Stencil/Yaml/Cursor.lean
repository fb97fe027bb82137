/-
# Places in a YAML text

A cursor stands at a character of a text and knows its line and column.

Key definitions: `Cursor`, `Cursor.next`, `Cursor.peek`, `isBreak`, `isGap`.
-/

namespace Stencil
namespace Yaml

/-- What stands for the end of a text where a character is asked for. -/
def ending : Char := '\x00'

/-- A line break. -/
def isBreak (c : Char) : Bool := c == '\n' || c == '\x85' || c == '\u2028' || c == '\u2029'

/-- A line break as it is kept: all but two kinds are the same. -/
def keptBreak (c : Char) : Char := if c == '\x85' then '\n' else c

/-- A space, a tab, a line break, or the end. -/
def isGap (c : Char) : Bool := c == ending || c == ' ' || c == '\t' || isBreak c

/-- A line break, or the end. -/
def endsLine (c : Char) : Bool := c == ending || isBreak c

structure Cursor where
  rest : List Char
  line : Nat := 0
  column : Nat := 0
  /-- The number of characters before. -/
  index : Nat := 0

namespace Cursor

/-- The character `n` places ahead. -/
def peek (c : Cursor) (n : Nat := 0) : Char := c.rest.getD n ending

def isAtEnd (c : Cursor) : Bool := c.rest.isEmpty

/-- One character on. -/
def next (c : Cursor) : Cursor :=
  match c.rest with
  | [] => c
  | x :: rest =>
    if isBreak x then { rest, line := c.line + 1, column := 0, index := c.index + 1 }
    else { c with
      rest
      column := if x == '\uFEFF' then c.column else c.column + 1
      index := c.index + 1 }

/-- So many characters on. -/
def forward (c : Cursor) : Nat → Cursor
  | 0 => c
  | n + 1 => c.next.forward n

/-- The characters ahead that satisfy a condition, and the place after them. -/
def takeWhile (p : Char → Bool) (c : Cursor) : List Char × Cursor :=
  let taken := c.rest.takeWhile p
  (taken, c.forward taken.length)

/-- The place after the characters that satisfy a condition. -/
def skip (p : Char → Bool) (c : Cursor) : Cursor := (c.takeWhile p).2

/-- The line break at this place, if there is one, and the place after it. -/
def lineBreak? (c : Cursor) : Option (Char × Cursor) :=
  if isBreak c.peek then some (keptBreak c.peek, c.next) else none

/-- Whether three equal characters stand here, followed by a gap. -/
def hasTriple (x : Char) (c : Cursor) : Bool :=
  c.peek == x && c.peek 1 == x && c.peek 2 == x && isGap (c.peek 3)

/-- Whether a marker between documents stands here. -/
def isAtMarker (c : Cursor) : Bool := c.hasTriple '-' || c.hasTriple '.'

end Cursor
end Yaml
end Stencil
