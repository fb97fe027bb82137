/-
# Dependency trees

What a trace tells about the names of a template: which names each refers to,
what it stood for, and whether it was resolved. The roots are the names that
the template itself refers to. Calls are linked to the variables in whose
values they stand.

Key definitions: `Tree`, `Tree.ofTrace`, `Tree.leaves`, `Tree.sequence`.
-/
import Stencil.Graph.Order
import Stencil.Template.Scan
import Stencil.Trace.Report

namespace Stencil

namespace Tree

/-- A variable or a call. -/
structure Entry where
  name : String
  value : String := ""
  scope : String := "unknown"
  /-- Its place in the order in which names were first met, if it was met. -/
  order : Option Nat := none
  isResolved : Bool := false
  duration : Float := 0
  error : Option String := none

/-- Whether an entry is a call. -/
def Entry.isCall (e : Entry) : Bool := e.name.endsWith "()"

end Tree

structure Tree where
  roots : List String
  graph : Graph := {}
  entries : List Tree.Entry := []
  cycles : List (List String) := []

namespace Tree

def find? (t : Tree) (name : String) : Option Entry := t.entries.find? fun e => e.name == name

def contains (t : Tree) (name : String) : Bool := (t.find? name).isSome

def names (t : Tree) : List String := t.entries.map Entry.name

/-- The names that a name refers to. -/
def children (t : Tree) (name : String) : List String := t.graph.successors name

/-- Adds an entry for a name that has none. -/
def touch (t : Tree) (name : String) : Tree :=
  if t.contains name then t
  else { t with graph := t.graph.touch name, entries := t.entries ++ [{ name }] }

/-- Adds a reference between two names, and entries for them. -/
def link (t : Tree) (source target : String) : Tree :=
  let t := (t.touch source).touch target
  { t with graph := t.graph.addEdge source target }

/-- Changes the entry of a name. -/
def update (t : Tree) (name : String) (f : Entry → Entry) : Tree :=
  { t with entries := t.entries.map fun e => if e.name == name then f e else e }

/-- The names of a template, each once: its variables, then its calls. -/
def rootsOf (r : Template.Reading) : List String :=
  (Template.variableNames r.segments ++
    (Template.calls r.segments).map Reference.displayName).eraseDups

/-- Adds a name with the names it refers to. -/
def addDependencies (t : Tree) (name : String) (names : List String) : Tree :=
  names.foldl (fun t n => t.link name n) (t.touch name)

/-- Whether a step tells what a name stood for. -/
def isAboutName (k : StepKind) : Bool := k == .lookup || k == .hit || k == .call

/-- The number of names met. -/
def metCount (t : Tree) : Nat := (t.entries.filter fun e => e.order.isSome).length

/-- The scope that a step gives to its name, if it gives one. -/
def scopeOf (e : Event) (scope : String) : String :=
  match e.scope with
  | some s => if s.isEmpty then (if e.kind = .call then "function" else scope) else s
  | none => if e.kind = .call then "function" else scope

/-- The error of a step that went wrong. -/
def errorOf (e : Event) : Option String :=
  match e.error with
  | some s => if s.isEmpty then none else some s
  | none => none

/-- Takes a step in: the first step of a name tells what it stood for. -/
def takeStep (t : Tree) (s : Step) : Tree :=
  if isAboutName s.event.kind then
    let t := t.touch s.event.name
    let place := t.metCount + 1
    t.update s.event.name fun entry =>
      let entry := { entry with duration := entry.duration + s.event.duration }
      if entry.order.isSome then entry
      else { entry with
        order := some place
        value := s.event.output
        scope := scopeOf s.event entry.scope
        error := errorOf s.event }
  else t

/-- Links each variable in the list to the calls in its value. -/
def linkCalls : List Entry → Tree → Except Refusal Tree
  | [], t => .ok t
  | e :: r, t =>
    if e.isCall || e.value.isEmpty then linkCalls r t
    else
      match Template.read e.value with
      | .error refusal => .error refusal
      | .ok reading =>
        linkCalls r ((Template.calls reading.segments).foldl
          (fun t c => if t.contains c.displayName then t.link e.name c.displayName else t) t)

/-- The name of the entry that a failure is about. -/
def failedName? (f : Failure) : Option String :=
  match f with
  | .call function _ => some (Reference.callName function)
  | f => f.name?

/-- Takes a failure in, unless an error of its name is known. -/
def takeFailure (t : Tree) (f : Failure) : Tree :=
  match failedName? f with
  | none => t
  | some name => t.update name fun e => { e with error := e.error.or (some f.message) }

/-- The tree of a trace. -/
def ofTrace (trace : Trace) : Except Refusal Tree :=
  match Template.read trace.template with
  | .error refusal => .error refusal
  | .ok reading =>
    let roots := rootsOf reading
    let t : Tree := { roots, cycles := trace.cycles }
    let t := roots.foldl touch t
    let t := trace.dependencies.foldl (fun t (n, ms) => t.addDependencies n ms) t
    let t := trace.steps.foldl takeStep t
    match linkCalls t.entries t with
    | .error refusal => .error refusal
    | .ok t =>
      let t := { t with
        entries := t.entries.map fun e => { e with isResolved := trace.resolved.contains e.name } }
      .ok (trace.failures.foldl takeFailure t)

/-- The names that refer to nothing. -/
def leaves (t : Tree) : List String := t.graph.names.filter fun n => (t.children n).isEmpty

/-- Whether some name refers to itself, directly or through others. -/
def hasCycles (t : Tree) : Bool := !t.graph.isAcyclic

/-- An order in which every name comes after those it refers to. If there are cycles, the order in
which the names were met; those never met come last. -/
def sequence (t : Tree) : List String :=
  if t.hasCycles then
    let place (e : Entry) : Nat := e.order.getD (t.entries.length + 1)
    (t.entries.mergeSort fun a b => decide (place a ≤ place b)).map Entry.name
  else t.graph.sourceOrder.reverse

end Tree
end Stencil
