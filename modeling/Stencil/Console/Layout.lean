/-
# Layout

How blocks look on a terminal: tables stand in boxes, records are indented.

Key definitions: `Table.draw`, `Value.indented`, `Block.lines`.
-/
import Stencil.Console
import Stencil.Context.Fingerprint

namespace Stencil

namespace Value

/-- The start of a line inside brackets. -/
def newLine (depth : Nat) : String := "\n" ++ String.ofList (List.replicate (2 * depth) ' ')

mutual

/-- A value in JSON, each item on a line of its own. -/
def indented (depth : Nat) : Value → String
  | list [] => "[]"
  | list (x :: r) =>
    "[" ++ newLine (depth + 1) ++ indented (depth + 1) x ++ indentedItems (depth + 1) r ++
      newLine depth ++ "]"
  | map [] => "\x7b\x7d"
  | map ((k, v) :: r) =>
    "\x7b" ++ newLine (depth + 1) ++ k.jsonKey ++ ": " ++ indented (depth + 1) v ++
      indentedEntries (depth + 1) r ++ newLine depth ++ "\x7d"
  | v => v.json

/-- Items after the first of a list. -/
def indentedItems (depth : Nat) : List Value → String
  | [] => ""
  | x :: r => "," ++ newLine depth ++ indented depth x ++ indentedItems depth r

/-- Entries after the first of a mapping. -/
def indentedEntries (depth : Nat) : List (Value × Value) → String
  | [] => ""
  | (k, v) :: r =>
    "," ++ newLine depth ++ k.jsonKey ++ ": " ++ indented depth v ++ indentedEntries depth r

end

end Value

namespace Console

/-- A character, a number of times. -/
def rule (c : Char) (width : Nat) : String := String.ofList (List.replicate width c)

/-- A text in a space of the given width. -/
def Alignment.pad (a : Alignment) (width : Nat) (s : String) : String :=
  let room := width - Text.columns s.toList
  match a with
  | left => s ++ rule ' ' room
  | centre => rule ' ' (room / 2) ++ s ++ rule ' ' (room - room / 2)
  | right => rule ' ' room ++ s

/-- A line of cells between bars, in columns of the given alignments and widths. -/
def cellLine (bar : String) (columns : List (Alignment × Nat)) (cells : List String) : String :=
  bar ++ String.join ((columns.zip cells).map fun ((a, width), s) => " " ++ a.pad width s ++ " " ++ bar)

/-- A line of the box: its ends, what parts the columns, and what it is drawn with. -/
def ruleLine (start middle stop : String) (stroke : Char) (widths : List Nat) : String :=
  start ++ Text.joined middle (widths.map fun width => rule stroke (width + 2)) ++ stop

/-- A table in a box. -/
def Table.draw (t : Table) : List String :=
  let widths := t.widths
  let columns := (t.columns.map Column.alignment).zip widths
  let top := ruleLine "┏" "┳" "┓" '━' widths
  (t.title.toList.map (Alignment.centre.pad top.length)) ++
    [top, cellLine "┃" columns (t.columns.map Column.heading), ruleLine "┡" "╇" "┩" '━' widths] ++
    t.rowLines.map (cellLine "│" columns) ++ [ruleLine "└" "┴" "┘" '─' widths]

/-- The lines of a block. -/
def Block.lines : Block → List String
  | text s => Console.lines s
  | table t => t.draw
  | record v => [v.indented 0]

end Console
end Stencil
