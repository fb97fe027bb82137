/-
# Display

What commands show of traces, trees, templates and functions. Secret values are
hidden before anything of a trace is shown; texts that come from outside are
escaped.

Key definitions: `Trace.blocks`, `Tree.blocks`, `Template.Reading.blocks`,
`Library.table`, `Command.errorBlocks`.
-/
import Stencil.Console
import Stencil.Function.Library
import Stencil.Marker
import Stencil.Secret
import Stencil.Tree.Walk

namespace Stencil

open Console

/-- Names on one line, or a dash if there are none. -/
def Command.nameList (names : List String) : String :=
  if names.isEmpty then "-" else Text.joined ", " names

namespace Trace

open Command

/-- Whether a template was resolved. -/
def headline (t : Trace) : Block :=
  if t.isSuccess then .marked "✅ [bold green]Template resolved[/bold green]"
  else .marked "⚠️  [bold yellow]Template partially resolved[/bold yellow]"

/-- A time in milliseconds, with two places. -/
def timeText (ms : Float) : String :=
  let n := (ms * 100).round.toUInt64.toNat
  let place (k : Nat) : String := toString (n / k % 10)
  toString (n / 100) ++ "." ++ place 10 ++ place 1

/-- A trace in short. -/
def table (t : Trace) : Table where
  columns := [{ heading := "Property", width? := some 12 }, { heading := "Value" }]
  rows := [
    ["Resolved", nameList t.resolved],
    ["Unresolved", nameList t.unresolved],
    ["Steps", toString t.steps.length ++ (if t.isTruncated then " (truncated)" else "")],
    ["Cache", s!"{t.metrics.hits} hits / {t.metrics.misses} misses"],
    ["Time", timeText t.duration ++ "ms"]]

/-- A failure on one line. -/
def failureBlock (f : Failure) : Block :=
  .marked ("   • [red]" ++ f.kind?.getD f.typeName ++ "[/red]: " ++ Markup.escape f.message)

def failureBlocks (t : Trace) : List Block :=
  if t.failures.isEmpty then []
  else .marked "❌ [bold red]Errors:[/bold red]" :: t.failures.map failureBlock

/-- The names of the markers in the value. -/
def markerBlocks (t : Trace) : List Block :=
  match Marker.markedNames t.value with
  | [] => []
  | names => [.marked ("🔍 [dim]Unresolved markers: " ++ Text.joined ", " names ++ "[/dim]")]

/-- What a step shows: its error, if it has one, or else its output. -/
def stepText (s : Step) : String :=
  match s.event.error with
  | some e => if e.isEmpty then s.event.output else e
  | none => s.event.output

/-- The cells of a step, the values being hidden in its output. -/
def stepRow (values : List String) (s : Step) : List String :=
  let shown := { s with event := { s.event with output := Secret.hide values s.event.output } }
  let scope := s.event.scope.getD ""
  [toString s.number, s.event.kind.name, s.event.name, if scope.isEmpty then "-" else scope,
    Markup.escape (stepText shown), timeText s.event.duration]

def stepTable (t : Trace) (values : List String) : Table where
  title := some "Resolution steps"
  columns := [{ heading := "#", alignment := .right }, { heading := "Type" }, { heading := "Name" },
    { heading := "Scope" }, { heading := "Output" }, { heading := "ms", alignment := .right }]
  rows := t.steps.map (stepRow values)

/-- A trace, the values being hidden. -/
def blocks (t : Trace) (values : List String) (showsSteps : Bool) : List Block :=
  [t.headline, .plain (Secret.hide values t.value), .table t.table] ++ t.failureBlocks ++
    t.markerBlocks ++ (if showsSteps then [.table (t.stepTable values)] else [])

end Trace

namespace Tree

/-- Whether a branch of a depth goes on below a line, the depths of the lines after it being
given. -/
def goesOn (depth : Nat) : List Nat → Bool
  | [] => false
  | d :: r => if depth < d then goesOn depth r else d == depth

/-- What is drawn before a line, the depths of the lines after it being given. -/
def guides (depth : Nat) (after : List Nat) : String :=
  String.join ((List.range depth).map fun d => if goesOn d after then "│   " else "    ") ++
    if goesOn depth after then "├── " else "└── "

/-- The name of a line with what is said of it. -/
def label (t : Tree) (l : Line) : String :=
  let e := (t.find? l.name).getD { name := l.name }
  "[cyan]" ++ l.name ++ "[/cyan] [dim]" ++ e.scope ++ "[/dim] " ++
    (if e.isResolved then "[green]ok[/green]" else "[red]failed[/red]") ++
    if l.mark = .first then "" else " [yellow](" ++ l.mark.name ++ ")[/yellow]"

/-- The lines of a tree, drawn. -/
def drawn (t : Tree) : List Line → List Block
  | [] => []
  | l :: r => .marked (guides l.depth (r.map Line.depth) ++ t.label l) :: t.drawn r

/-- A cycle on one line. -/
def cycleBlock (cycle : List String) : Block :=
  .marked ("   • " ++ Failure.path (cycle ++ cycle.take 1))

def cycleBlocks (t : Tree) : List Block :=
  if t.cycles.isEmpty then []
  else .marked "🔁 [bold red]Circular references:[/bold red]" :: t.cycles.map cycleBlock

def blocks (t : Tree) : List Block :=
  .marked "🌳 [bold blue]Dependencies[/bold blue]" :: t.drawn t.walk ++ t.cycleBlocks

end Tree

namespace Template.Reading

/-- Whether a template is valid. -/
def verdict (r : Reading) : List Block :=
  if r.faults.isEmpty then [.marked "✅ [bold green]Template is valid[/bold green]"]
  else
    .marked "❌ [bold red]Template is invalid[/bold red]" ::
      r.faults.map fun f => .fitted (withPictures ("   • " ++ f.message))

/-- The names that a template refers to. -/
def blocks (r : Reading) : List Block :=
  let names := variableNames r.segments
  let calls := Template.calls r.segments
  if names.isEmpty && calls.isEmpty then [.marked "📋 [dim]No references found[/dim]"]
  else
    (if names.isEmpty then []
      else .marked "📋 [bold blue]Variables:[/bold blue]" ::
        names.map fun n => .marked ("  [cyan]" ++ n ++ "[/cyan]")) ++
    (if calls.isEmpty then []
      else .marked "🔧 [bold blue]Functions:[/bold blue]" ::
        calls.map fun c => .marked ("  [magenta]" ++ Markup.escape c.raw ++ "[/magenta]"))

open Report in
/-- The names that a template refers to, as a value. -/
def report (r : Reading) : Value := record [
  ("variables", texts (variableNames r.segments)),
  ("functions", .list ((Template.calls r.segments).map fun c =>
    record [("name", .text c.name), ("args", .list c.arguments)]))]

end Template.Reading

/-- The functions of a library. -/
def Library.table (l : Library) : Table where
  title := some "Available functions"
  columns := [{ heading := "Signature" }, { heading := "Description" },
    { heading := "Built-in", alignment := .centre }]
  rows := l.list.map fun f => [f.signature, f.description, if f.isBuiltIn then "yes" else "no"]

namespace Command

/-- What went wrong in an activity. -/
def errorBlocks (activity message : String) : List Block := [
  .marked ("❌ [bold red]Error during " ++ activity ++ "[/bold red]"),
  .marked ("🔍 [dim]" ++ Markup.escape message ++ "[/dim]")]

end Command
end Stencil
