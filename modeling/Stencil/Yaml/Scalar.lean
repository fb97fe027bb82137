/-
# Scalars in a YAML text

How the text of a scalar is read: plain, between quotes, or as an indented
block. A single line break counts as a space, except in a literal block; of
several the first is dropped.

Key definitions: `plain`, `quoted`, `block`.
-/
import Stencil.Text.Basic
import Stencil.Yaml.Cursor
import Stencil.Yaml.Fault

namespace Stencil
namespace Yaml

/-- What a line break followed by empty lines counts as. -/
def folded (first : Char) (empty : List Char) : List Char :=
  (if first != '\n' then [first] else if empty.isEmpty then [' '] else []) ++ empty

/-! ### Plain scalars -/

/-- The characters that end a plain scalar between brackets. -/
def isFlowMark (c : Char) : Bool := c == ',' || c == '?' || c == '[' || c == ']' || c == '{' || c == '}'

/-- Whether a colon before the character `next` ends a plain scalar. -/
def endsKey (inFlow : Bool) (next : Char) : Bool :=
  isGap next || (inFlow && isFlowMark next && next != '?')

/-- The part of a plain scalar that stands before the next gap. -/
def plainRun (inFlow : Bool) : List Char → List Char
  | [] => []
  | c :: r =>
    if isGap c || (c == ':' && endsKey inFlow (r.headD ending)) || (inFlow && isFlowMark c) then []
    else c :: plainRun inFlow r

/-- The breaks of empty lines, and the place after them and the spaces that follow; `none` at a
marker between documents. -/
def emptyLines : (fuel : Nat) → Cursor → List Char → Option (List Char × Cursor)
  | 0, c, read => some (read, c)
  | fuel + 1, c, read =>
    if c.peek == ' ' then emptyLines fuel c.next read
    else
      match c.lineBreak? with
      | none => some (read, c)
      | some (b, c) => if c.isAtMarker then none else emptyLines fuel c (read ++ [b])

/-- What stands for the gap after a part of a plain scalar, whether it holds a line break, and the
place after it. Nothing stands for a gap that ends the scalar. -/
def plainGap (c : Cursor) : List Char × Bool × Cursor :=
  let (spaces, c) := c.takeWhile (· == ' ')
  match c.lineBreak? with
  | none => (spaces, false, c)
  | some (b, c) =>
    if c.isAtMarker then ([], true, c)
    else
      match emptyLines c.rest.length c [] with
      | none => ([], true, c)
      | some (empty, c) => (folded b empty, true, c)

/-- A plain scalar on lines from the column `margin` on: its text, whether it went over a line
break, and the place after it. -/
def plain (inFlow : Bool) (margin : Nat) :
    (fuel : Nat) → (read gap : List Char) → (crossed : Bool) → Cursor → List Char × Bool × Cursor
  | 0, read, _, crossed, c => (read, crossed, c)
  | fuel + 1, read, gap, crossed, c =>
    let run := if c.peek == '#' then [] else plainRun inFlow c.rest
    if run.isEmpty then (read, crossed, c)
    else
      let read := read ++ gap ++ run
      let (gap, crosses, c) := plainGap (c.forward run.length)
      if gap.isEmpty || c.peek == '#' || (!inFlow && c.column < margin) then (read, crosses, c)
      else plain inFlow margin fuel read gap crosses c

/-! ### Quoted scalars -/

/-- The character that a letter after a backslash stands for. -/
def escaped? (c : Char) : Option Char :=
  [('0', '\x00'), ('a', '\x07'), ('b', '\x08'), ('t', '\t'), ('\t', '\t'), ('n', '\n'),
    ('v', '\x0b'), ('f', '\x0c'), ('r', '\r'), ('e', '\x1b'), (' ', ' '), ('"', '"'),
    ('\\', '\\'), ('/', '/'), ('N', '\x85'), ('_', '\xa0'), ('L', '\u2028'), ('P', '\u2029')].lookup c

/-- The number of hexadecimal digits after a letter that begins the code of a character. -/
def codeLength? (c : Char) : Option Nat := [('x', 2), ('u', 4), ('U', 8)].lookup c

/-- The value of a hexadecimal digit. -/
def hexDigit? (c : Char) : Option Nat :=
  if '0' ≤ c && c ≤ '9' then some (c.toNat - '0'.toNat)
  else if 'a' ≤ c && c ≤ 'f' then some (c.toNat - 'a'.toNat + 10)
  else if 'A' ≤ c && c ≤ 'F' then some (c.toNat - 'A'.toNat + 10)
  else none

/-- The number that hexadecimal digits denote. -/
def hexValue? (cs : List Char) : Option Nat :=
  cs.foldl (fun n? c => do return (← n?) * 16 + (← hexDigit? c)) (some 0)

/-- The character with a code of the given digits. -/
def ofCode (digits : List Char) : Except Fault Char := do
  let n ← orMalformed (hexValue? digits)
  if n.isValidChar then return Char.ofNat n
  else if 0x80000000 ≤ n then throw .codeTooLarge
  else if 0x110000 ≤ n then throw .noCharacter
  else throw .malformed

/-- The breaks of the empty lines ahead; `none` at a marker between documents. -/
def quotedBreaks : (fuel : Nat) → Cursor → List Char → Option (List Char × Cursor)
  | 0, _, _ => none
  | fuel + 1, c, read =>
    if c.isAtMarker then none
    else
      let c := c.skip fun x => x == ' ' || x == '\t'
      match c.lineBreak? with
      | none => some (read, c)
      | some (b, c) => quotedBreaks fuel c (read ++ [b])

/-- What an escape stands for, from the character after the backslash on. -/
def escape (c : Cursor) : Except Fault (List Char × Cursor) :=
  match escaped? c.peek, codeLength? c.peek, c.lineBreak? with
  | some x, _, _ => .ok ([x], c.next)
  | none, some n, _ => do
    let c := c.next
    let digits := c.rest.take n
    if digits.length < n then throw .malformed
    return ([← ofCode digits], c.forward n)
  | none, none, some (_, c) => orMalformed (quotedBreaks (c.rest.length + 1) c [])
  | none, none, none => .error .malformed

/-- A scalar between quotes, from the character after the first one on. -/
def quoted (isDouble : Bool) :
    (fuel : Nat) → (read : List Char) → Cursor → Except Fault (List Char × Cursor)
  | 0, _, _ => .error .malformed
  | fuel + 1, read, c =>
    let x := c.peek
    if c.isAtEnd then .error .malformed
    else if x == ' ' || x == '\t' then
      let (spaces, c) := c.takeWhile fun x => x == ' ' || x == '\t'
      match c.lineBreak? with
      | none => if c.isAtEnd then .error .malformed else quoted isDouble fuel (read ++ spaces) c
      | some _ => quoted isDouble fuel read c
    else if isBreak x then do
      let (empty, after) ← orMalformed (quotedBreaks (c.rest.length + 1) c.next [])
      quoted isDouble fuel (read ++ folded (keptBreak x) empty) after
    else if isDouble then
      if x == '"' then .ok (read, c.next)
      else if x == '\\' then do
        let (xs, c) ← escape c.next
        quoted isDouble fuel (read ++ xs) c
      else quoted isDouble fuel (read ++ [x]) c.next
    else if x == '\'' then
      if c.peek 1 == '\'' then quoted isDouble fuel (read ++ ['\'']) (c.forward 2)
      else .ok (read, c.next)
    else quoted isDouble fuel (read ++ [x]) c.next

/-! ### Blocks -/

/-- What becomes of the line breaks at the end of a block. -/
inductive Chomping where
  | strip
  | clip
  | keep

def chomping? (c : Char) : Option Chomping :=
  if c == '+' then some .keep else if c == '-' then some .strip else none

/-- The indentation that a header gives. -/
def indicated? (c : Char) : Option Nat :=
  if '1' ≤ c && c ≤ '9' then some (c.toNat - '0'.toNat) else none

/-- The header of a block, up to the end of its line. -/
def header (c : Cursor) : Option (Chomping × Option Nat × Cursor) := do
  let (chomping, increment, c) ← match chomping? c.peek, indicated? c.peek with
    | some h, _ =>
      let c := c.next
      match indicated? c.peek with
      | some n => some (h, some n, c.next)
      | none => some (h, none, c)
    | none, some n =>
      let c := c.next
      match chomping? c.peek with
      | some h => some (h, some n, c.next)
      | none => some (.clip, some n, c)
    | none, none => some (.clip, none, c)
  if !(c.peek == ' ' || endsLine c.peek) then none
  let c := c.skip (· == ' ')
  let c := if c.peek == '#' then c.skip (!isBreak ·) else c
  if !endsLine c.peek then none
  return (chomping, increment, c.next)

/-- The empty lines before a block, the greatest column reached in them, and the place after. -/
def leadingLines : (fuel : Nat) → Cursor → (read : List Char) → (widest : Nat) → List Char × Nat × Cursor
  | 0, c, read, widest => (read, widest, c)
  | fuel + 1, c, read, widest =>
    if c.peek == ' ' then leadingLines fuel c.next read (max widest c.next.column)
    else
      match c.lineBreak? with
      | some (b, c) => leadingLines fuel c (read ++ [b]) widest
      | none => (read, widest, c)

/-- The place after the spaces before the column `indent`. -/
def indentTo (indent : Nat) (c : Cursor) : Cursor :=
  c.forward (min (c.takeWhile (· == ' ')).1.length (indent - c.column))

/-- The empty lines ahead in a block indented to a column. -/
def blockBreaks (indent : Nat) : (fuel : Nat) → Cursor → (read : List Char) → List Char × Cursor
  | 0, c, read => (read, c)
  | fuel + 1, c, read =>
    let c := indentTo indent c
    match c.lineBreak? with
    | some (b, c) => blockBreaks indent fuel c (read ++ [b])
    | none => (read, c)

/-- Whether a line of a block begins with a space. -/
def isSpaced (c : Cursor) : Bool := c.peek == ' ' || c.peek == '\t'

/-- The lines of a block, with the break after the last one and the empty lines that follow. -/
def blockLines (isFolded : Bool) (indent : Nat) :
    (fuel : Nat) → (read empty : List Char) → Cursor → List Char × List Char × List Char × Cursor
  | 0, read, empty, c => (read, [], empty, c)
  | fuel + 1, read, empty, c =>
    let (line, after) := c.takeWhile (!isBreak ·)
    let read := read ++ empty ++ line
    let (break?, next) := match after.lineBreak? with
      | some (b, n) => ([b], n)
      | none => ([], after)
    let (empty, next) := blockBreaks indent (next.rest.length + 1) next []
    if next.column == indent && !next.isAtEnd then
      let folds := isFolded && break? == ['\n'] && !isSpaced c && !isSpaced next
      let glue := if folds then (if empty.isEmpty then [' '] else []) else break?
      blockLines isFolded indent fuel (read ++ glue) empty next
    else (read, break?, empty, next)

/-- A block, from the character after its indicator on, inside a collection whose entries begin
before the column `margin`. -/
def block (isFolded : Bool) (margin : Nat) (c : Cursor) : Option (List Char × Cursor) := do
  let (chomping, increment, c) ← header c
  let least := max margin 1
  let fuel := c.rest.length + 1
  let (empty, indent, c) := match increment with
    | some n =>
      let indent := least + n - 1
      let (empty, c) := blockBreaks indent fuel c []
      (empty, indent, c)
    | none =>
      let (empty, widest, c) := leadingLines fuel c [] 0
      (empty, max least widest, c)
  let (text, last, empty, c) :=
    if c.column == indent && !c.isAtEnd then blockLines isFolded indent fuel [] empty c
    else ([], [], empty, c)
  return match chomping with
    | .strip => (text, c)
    | .clip => (text ++ last, c)
    | .keep => (text ++ last ++ empty, c)

end Yaml
end Stencil
