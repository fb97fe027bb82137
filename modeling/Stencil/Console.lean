/-
# Console output

What a command shows: texts, tables and records. A text is shown line by line;
control characters are left out, and a tab reaches to the next multiple of
eight columns. In a record, as in a text, pictures stand for their codes. The
columns of a table are as wide as their cells, where a tab counts for nothing;
a line that its tabs make wider is broken.

Key definitions: `Console.lines`, `Console.Table`, `Console.Block`.
-/
import Stencil.Console.Markup
import Stencil.Console.Wrap
import Stencil.Value

namespace Stencil

/-- Changes every text in a value but those that are keys. -/
def Value.mapTexts (f : String → String) : Value → Value
  | .text s => .text (f s)
  | .list items => .list (mapItems f items)
  | .map entries => .map (mapEntries f entries)
  | v => v
where
  mapItems (f : String → String) : List Value → List Value
    | [] => []
    | v :: r => mapTexts f v :: mapItems f r
  mapEntries (f : String → String) : List (Value × Value) → List (Value × Value)
    | [] => []
    | (k, v) :: r => (k, mapTexts f v) :: mapEntries f r

namespace Console

/-- The control characters that are not shown: bell, backspace, vertical tab, form feed and carriage
return. -/
def isHidden (c : Char) : Bool := [0x07, 0x08, 0x0B, 0x0C, 0x0D].contains c.toNat

/-- A line from a column on, with blanks in place of its tabs. -/
def expandTabs (column : Nat) : List Char → List Char
  | [] => []
  | c :: r =>
    if c == '\t' then
      let width := 8 - column % 8
      List.replicate width ' ' ++ expandTabs (column + width) r
    else c :: expandTabs (column + Text.columnsOf c) r

/-- The lines of a text as they are shown, the tabs included. -/
def rawLines (s : String) : List (List Char) :=
  (s.toList.filter fun c => !isHidden c).splitOn '\n'

/-- The lines in which a text is shown. -/
def lines (s : String) : List String :=
  (rawLines s).map fun line => String.ofList (expandTabs 0 line)

/-- The lines in which a text is shown in a space of the given width. -/
def wrapped (excess : Wrap.Excess) (width : Nat) (s : String) : List String :=
  (rawLines s).flatMap fun line => (Wrap.wrap excess width (expandTabs 0 line)).map String.ofList

/-- The number of columns of the console. -/
def width : Nat := 5000

/-- Where the text of a cell stands. -/
inductive Alignment where
  | left
  | centre
  | right
deriving DecidableEq, Repr

structure Column where
  heading : String
  alignment : Alignment := .left
  /-- The width, if it does not depend on the cells. -/
  width? : Option Nat := none

structure Table where
  title : Option String := none
  columns : List Column
  /-- The cells of each row, as texts with markup. -/
  rows : List (List String)

/-- The ends of lines that count where a width is measured. -/
def endsMeasure (c : Char) : Bool :=
  c == '\n' || (0x1C ≤ c.toNat && c.toNat ≤ 0x1E) || c == '\x85' || c == '\u2028' || c == '\u2029'

/-- The width of a text: that of its widest line, where a tab counts for nothing. -/
def measure (s : String) : Nat :=
  (((s.toList.filter fun c => !isHidden c).splitOnP endsMeasure).map Text.columns).foldl max 0

/-- The widths of the columns. -/
def Table.widths (t : Table) : List Nat :=
  t.columns.mapIdx fun i c =>
    let widths := t.rows.map fun row => measure (Markup.shown (row.getD i ""))
    c.width?.getD (widths.foldl max (measure c.heading))

/-- A row, line by line. -/
def rowLines (widths : List Nat) (cells : List String) : List (List String) :=
  let texts := (widths.zip cells).map fun (width, c) => wrapped .cut width (Markup.shown c)
  let height := (texts.map List.length).foldl max 0
  (List.range height).map fun i => texts.map fun ls => ls.getD i ""

/-- All rows, line by line. -/
def Table.rowLines (t : Table) : List (List String) := t.rows.flatMap (Console.rowLines t.widths)

/-- What is shown at once. -/
inductive Block where
  | text (s : String)
  | table (t : Table)
  | record (v : Value)

/-- A text in lines that fit on the console. -/
def Block.fitted (s : String) : Block := .text (String.intercalate "\n" (wrapped .fold width s))

/-- A text with markup. -/
def Block.marked (markup : String) : Block := .fitted (Markup.shown markup)

/-- A text without markup, with the pictures that it names. -/
def withPictures (s : String) : String :=
  String.ofList (Shortcode.replace Shortcode.isBreakInText s.toList)

/-- A text without markup, its lines being as long as they are. -/
def Block.plain (s : String) : Block := .text (withPictures s)

/-- A value written as JSON. -/
def Block.json (v : Value) : Block :=
  .record (v.mapTexts fun s =>
    String.ofList (Shortcode.replace Shortcode.isBreakInJson s.toList))

end Console
end Stencil
