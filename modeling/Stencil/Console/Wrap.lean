/-
# Wrapping

A line that is wider than its place is broken before the words that do not
fit. The blanks after a word belong to it, but need not fit themselves. A word
that is too wide alone is folded, or stands on a line of its own and is cut.

Key definitions: `Wrap.words`, `Wrap.folded`, `Wrap.wrap`.
-/
import Stencil.Text.Basic
import Stencil.Text.Columns

namespace Stencil
namespace Console
namespace Wrap

/-- What becomes of a word that is too wide. -/
inductive Excess where
  | fold
  | cut
deriving DecidableEq, Repr

/-- Cuts a text before every word. -/
def stretches : List Char → List (List Char)
  | [] => []
  | c :: r =>
    match stretches r with
    | [] => [[c]]
    | w :: ws =>
      if Text.isBlank c && !w.all Text.isBlank then [c] :: w :: ws else (c :: w) :: ws

/-- The words of a text with the blanks after each; the first one has those before it too. -/
def words (cs : List Char) : List (List Char) :=
  match stretches cs with
  | first :: second :: r =>
    if first.all Text.isBlank then (first ++ second) :: r else first :: second :: r
  | ws => ws

/-- A text without the blanks at its end. -/
def trimEnd (cs : List Char) : List Char := (cs.reverse.dropWhile Text.isBlank).reverse

/-- Cuts a word into parts that fit; `part` holds what is read of a part, `used` its width. -/
def folded (width : Nat) (part : List Char) (used : Nat) : List Char → List (List Char)
  | [] => [part]
  | c :: r =>
    if width < used + Text.columnsOf c then part :: folded width [c] (Text.columnsOf c) r
    else folded width (part ++ [c]) (used + Text.columnsOf c) r

/-- A finished line before others, unless nothing is in it. -/
def finish (line : List Char) (rest : List (List Char)) : List (List Char) :=
  if line.isEmpty then rest else line :: rest

/-- Sets words one after another; `line` holds what stands on a line already, `used` its width. -/
def set (excess : Excess) (width : Nat) (line : List Char) (used : Nat) :
    List (List Char) → List (List Char)
  | [] => [line]
  | w :: ws =>
    let size := Text.columns (trimEnd w)
    if used + size ≤ width then set excess width (line ++ w) (used + Text.columns w) ws
    else if size ≤ width then
      if used == 0 || line.isEmpty then set excess width (line ++ w) used ws
      else line :: set excess width w (Text.columns w) ws
    else
      let parts := if excess = .fold then folded width [] 0 w else [w]
      let last := parts.getLast?.getD []
      finish line (parts.dropLast ++ set excess width last (Text.columns last) ws)

/-- A line without the blanks at its end that have no place. -/
def dropExcess (width : Nat) (line : List Char) : List Char :=
  let blanks := (line.reverse.takeWhile Text.isBlank).length
  line.take (line.length - min blanks (line.length - width))

/-- The start of a line that fits. -/
def startOf (width : Nat) : List Char → List Char
  | [] => []
  | c :: r =>
    if Text.columnsOf c ≤ width then c :: startOf (width - Text.columnsOf c) r
    else List.replicate width ' '

/-- A line that fits, cut if need be. -/
def fitted (excess : Excess) (width : Nat) (line : List Char) : List Char :=
  let line := dropExcess width line
  if Text.columns line ≤ width then line
  else if excess = .fold then startOf width line
  else startOf (width - 1) line ++ ['…']

/-- The lines that a line is broken into. -/
def wrap (excess : Excess) (width : Nat) (line : List Char) : List (List Char) :=
  (set excess width [] 0 (words line)).map (fitted excess width)

end Wrap
end Console
end Stencil
