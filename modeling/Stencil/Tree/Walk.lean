/-
# Walking a tree

The lines of a tree: each root, and under a name, one level further in, the
names it refers to. A name is opened where it is first met; elsewhere its line
says that it was met before, or that it lies on its own path.

Key definitions: `Tree.Line`, `Tree.walk`, `Tree.text`, `Tree.report`.
-/
import Stencil.Tree

namespace Stencil
namespace Tree

/-- How a line's name was met before. -/
inductive Mark where
  /-- It was not. -/
  | first
  /-- It lies on the path to this line. -/
  | circular
  /-- It was opened elsewhere. -/
  | repeated
deriving DecidableEq, Repr

def Mark.name : Mark → String
  | first => ""
  | circular => "circular"
  | repeated => "repeated"

structure Line where
  depth : Nat
  name : String
  mark : Mark
deriving DecidableEq, Repr

/-- A name waiting for its line, with the path to it, the nearest name first. -/
abbrev Waiting := String × List String

/-- The children of a name, waiting. -/
def waitingBelow (t : Tree) (name : String) (path : List String) : List Waiting :=
  (t.children name).map fun c => (c, name :: path)

/-- The lines of the names on a stack and of all below them. `fresh` holds the names that have not
been opened. -/
def lines (t : Tree) (fresh : List String) (stack : List Waiting) : List Line :=
  match stack with
  | [] => []
  | (name, path) :: rest =>
    if path.contains name then ⟨path.length, name, .circular⟩ :: lines t fresh rest
    else if _h : fresh.contains name then
      ⟨path.length, name, .first⟩ :: lines t (fresh.erase name) (t.waitingBelow name path ++ rest)
    else ⟨path.length, name, .repeated⟩ :: lines t fresh rest
termination_by (fresh.length, stack.length)
decreasing_by
  · exact Prod.Lex.right _ (Nat.lt_succ_self _)
  · apply Prod.Lex.left
    have hm : name ∈ fresh := by simpa using _h
    have := List.length_erase_of_mem hm
    have := List.length_pos_of_mem hm
    omega
  · exact Prod.Lex.right _ (Nat.lt_succ_self _)

/-- The lines of a tree. -/
def walk (t : Tree) : List Line := t.lines t.names (t.roots.map fun r => (r, []))

/-! ### As text -/

/-- What follows the name and the scope in a line. -/
def Line.remark (l : Line) (e : Entry) : String :=
  match l.mark with
  | .first =>
    match e.error with
    | some s => if s.isEmpty then "" else ": " ++ s
    | none => ""
  | m => " (" ++ m.name ++ ")"

/-- Whether a name is resolved, as a word. -/
def Entry.status (e : Entry) : String := if e.isResolved then "ok" else "failed"

/-- A line as text, with what is known of its name. -/
def Line.written (l : Line) (e : Entry) : String :=
  String.ofList (List.replicate (2 * l.depth) ' ') ++ l.name ++ " [" ++ e.scope ++ "] " ++
    e.status ++ l.remark e

/-- A line of a tree as text. -/
def Line.text (t : Tree) (l : Line) : String := l.written ((t.find? l.name).getD { name := l.name })

/-- A tree as indented text. -/
def text (t : Tree) : String := Text.joined "\n" (t.walk.map (Line.text t))

/-! ### As a value -/

open Report

/-- An entry with its place in the tree. -/
def Entry.report (t : Tree) (e : Entry) : Value := record [
  ("name", .text e.name),
  ("value", .text e.value),
  ("scope", .text e.scope),
  ("dependencies", texts (t.children e.name)),
  ("dependents", texts (t.graph.predecessors e.name)),
  ("resolution_order", natural (e.order.getD 0)),
  ("resolved", .bool e.isResolved),
  ("resolution_time_ms", .float e.duration),
  ("error", textOrNull e.error),
  ("is_function", .bool e.isCall)]

def report (t : Tree) : Value := record [
  ("roots", texts t.roots),
  ("variables", record (t.entries.map fun e => (e.name, e.report t))),
  ("circular_dependencies", .list (t.cycles.map texts))]

end Tree
end Stencil
