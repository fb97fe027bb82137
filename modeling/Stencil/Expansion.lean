/-
# Expansion

Replaces the references of a template by what they stand for. A variable's
value is a template again, so variables are expanded inside one another, down
to a bound on the depth. A reference that fails leaves its marker and does not
stop the rest; only a chain of references that reaches the bound gives up the
whole reference of the template that it began with.

A ledger goes along: the cache, the sources of time and chance, what happened,
what failed, and which names are resolved. It is handed on even where an
expansion is given up.

Key definitions: `Expansion`, `Stop`, `Ledger`, `Pass`, `Pass.expandAll`,
`Pass.expandVariable`, `Pass.expandTemplate`.
-/
import Stencil.Cache
import Stencil.Context.Definition
import Stencil.Function.Library
import Stencil.Marker
import Stencil.Trace

namespace Stencil

/-- The text that stands for a part of a template. -/
structure Expansion where
  text : String
  /-- Whether nothing inside failed. -/
  isOk : Bool := true
  /-- Whether nothing inside failed and no function was called. -/
  isPure : Bool := true
  /-- The number of levels of variables below. -/
  height : Int := 0

namespace Expansion

/-- The expansion of nothing. -/
def empty : Expansion := { text := "" }

/-- What stands for two parts that follow each other. -/
def append (a b : Expansion) : Expansion where
  text := a.text ++ b.text
  isOk := a.isOk && b.isOk
  isPure := a.isPure && b.isPure
  height := max a.height b.height

/-- What a failed reference leaves. -/
def failed (name : String) : Expansion := { text := Marker.marker name, isOk := false, isPure := false }

/-- What a called function's text stands for. -/
def called (text : String) : Expansion := { text, isPure := false }

/-- The expansion of a variable, one level up. -/
def below (e : Expansion) : Expansion := { e with height := e.height + 1 }

end Expansion

/-- Why a variable has no expansion. -/
inductive Stop where
  /-- The chain of the variables from `outermost` on reached the bound. -/
  | tooDeep (outermost : String) (inner : List String)
  | refused (r : Refusal)

/-- What goes along with an expansion. -/
structure Ledger where
  cache : Cache
  sources : Sources
  /-- What happened, the last event first. -/
  recentEvents : List Event := []
  /-- What failed, the last failure first. -/
  recentFailures : List Failure := []
  /-- The names with the types of the failures listed for them. -/
  reported : List (String × String) := []
  /-- The names met so far, with whether they are resolved. -/
  status : List (String × Bool) := []

namespace Ledger

def events (l : Ledger) : List Event := l.recentEvents.reverse

def failures (l : Ledger) : List Failure := l.recentFailures.reverse

/-- Notes an event. -/
def note (l : Ledger) (e : Event) : Ledger := { l with recentEvents := e :: l.recentEvents }

/-- The names with one that failed. -/
def setFailed (name : String) : List (String × Bool) → List (String × Bool)
  | [] => [(name, false)]
  | (n, ok) :: r => if n == name then (n, false) :: r else (n, ok) :: setFailed name r

/-- The names with one that succeeded; a name that failed before stays so. -/
def setResolved (name : String) (status : List (String × Bool)) : List (String × Bool) :=
  if status.any fun s => s.1 == name then status else status ++ [(name, true)]

/-- Marks a name as resolved, unless it has failed. -/
def markResolved (l : Ledger) (name : String) : Ledger :=
  { l with status := setResolved name l.status }

/-- Marks a name as unresolved, for good. -/
def markFailed (l : Ledger) (name : String) : Ledger := { l with status := setFailed name l.status }

/-- Lists a failure of a name, which is unresolved from then on. -/
def list (l : Ledger) (name : String) (f : Failure) : Ledger :=
  { l with
    recentFailures := f :: l.recentFailures
    reported := (f.typeName, name) :: l.reported }.markFailed name

/-- Lists a failure of a name, unless one of its type is listed for that name. -/
def fail (l : Ledger) (name : String) (f : Failure) : Ledger :=
  if l.reported.contains (f.typeName, name) then l.markFailed name else l.list name f

/-- The names that are resolved. -/
def resolved (l : Ledger) : List String := (l.status.filter Prod.snd).map Prod.fst

/-- The names that are not resolved. -/
def unresolved (l : Ledger) : List String := (l.status.filter fun s => !s.2).map Prod.fst

end Ledger

/-- What stays the same while a template is expanded. -/
structure Pass where
  context : Context
  fingerprint : String
  library : Library
  /-- The depth at which a variable is not expanded any more. -/
  maxDepth : Nat
  /-- The names on reference cycles, each with a cycle that it lies on. -/
  circular : List (String × List String)

namespace Pass

/-- The cycle that a name lies on. -/
def cycle? (p : Pass) (name : String) : Option (List String) :=
  (p.circular.find? fun c => c.1 == name).map Prod.snd

/-- The key under which a variable's expansion is kept. -/
def key (p : Pass) (name : String) : Cache.Key := ⟨name, p.fingerprint⟩

/-- The depth at which `left` more levels are allowed. -/
def depthAt (p : Pass) (left : Nat) : Int := (p.maxDepth : Int) - left

/-- What is said of a variable at the bound. -/
def boundMessage (p : Pass) : String := s!"maximum nesting depth of {p.maxDepth} reached"

/-- Whether the variable that a name means is a secret. -/
def isSecret (p : Pass) (name : String) : Bool :=
  match p.context.lookup? name with
  | some (_, v) => v.isSecret
  | none => false

/-! ### Events -/

def circularEvent (name : String) (cycle : List String) (depth : Int) : Event where
  kind := .lookup
  name
  input := name
  output := Marker.marker name
  error := some "circular reference"
  depth
  details := [("cycle", .list (cycle.map .text))]

def boundEvent (p : Pass) (name : String) (depth : Int) : Event where
  kind := .lookup
  name
  input := name
  error := some p.boundMessage
  depth

def missEvent (name : String) (depth : Int) : Event where
  kind := .miss
  name
  input := name
  isHit := some false
  depth

def hitEvent (p : Pass) (name : String) (e : Cache.Entry) (isTooDeep : Bool) (depth : Int) : Event where
  kind := .hit
  name
  input := name
  output := e.value
  scope := e.scope.map Scope.name
  isHit := some true
  error := if isTooDeep then some p.boundMessage else none
  depth
  details := [("secret", .bool (p.isSecret name)), ("height", .int e.height), ("hit_count", .int e.hits)]

def undefinedEvent (name : String) (depth : Int) : Event where
  kind := .lookup
  name
  input := name
  output := Marker.marker name
  error := some (Failure.undefined name).message
  depth

/-- What is told of the variable that a name means. -/
def definitionDetails (p : Pass) (name : String) (d : Definition) : List (String × Value) :=
  [("secret", .bool d.winner.isSecret)] ++
  (match d.winner.owner with
    | some owner => if owner.isEmpty then [] else [("owner_id", .text owner)]
    | none => []) ++
  match p.context.shadowed name with
  | [] => []
  | vs => [("shadowed", .list (vs.map fun v => .text v.scope.name))]

def malformedEvent (p : Pass) (name : String) (d : Definition) (f : Failure) (depth : Int) : Event where
  kind := .lookup
  name
  input := name
  output := d.text
  scope := some d.scope.name
  error := some f.message
  depth
  details := p.definitionDetails name d

def lookupEvent (p : Pass) (name : String) (d : Definition) (isRecursive : Bool) (depth : Int) :
    Event where
  kind := .lookup
  name
  input := name
  output := d.text
  scope := some d.scope.name
  depth
  details := p.definitionDetails name d ++ [("recursive", .bool isRecursive)]

def nestedEvent (name : String) (d : Definition) (e : Expansion) (depth : Int) : Event where
  kind := .nested
  name
  input := d.text
  output := e.text
  scope := some d.scope.name
  depth
  details := [("secret", .bool d.winner.isSecret), ("height", .int e.height)]

def callEvent (call : Reference) (output : String) (error : Option String) (depth : Int) : Event where
  kind := .call
  name := call.displayName
  input := call.raw
  output
  error
  depth
  details := [("args", .list call.arguments)]

/-! ### Segments -/

/-- Expands a call. -/
def expandCall (p : Pass) (depth : Int) (call : Reference) (l : Ledger) :
    Except Refusal Expansion × Ledger :=
  let name := call.displayName
  match p.library.invoke call.name call.arguments l.sources with
  | (.ok text, sources) =>
    (.ok (.called text),
      ({ l with sources }.note (callEvent call text none depth)).markResolved name)
  | (.error (.failed f), sources) =>
    (.ok (.failed name),
      ({ l with sources }.note
        (callEvent call (Marker.marker name) (some f.message) depth)).list name f)
  | (.error (.refused r), sources) => (.error r, { l with sources })

/-- Expands a segment; `expand` expands a variable, and `stop` says why a refused call ends it. -/
def expandSegment {ε : Type} (p : Pass) (depth : Int) (stop : Refusal → ε)
    (expand : String → Ledger → Except ε Expansion × Ledger) :
    Segment → Ledger → Except ε Expansion × Ledger
  | .literal text _, l => (.ok { text }, l)
  | .reference r, l =>
    if r.isCall then
      let (a, l) := p.expandCall depth r l
      (a.mapError stop, l)
    else expand r.name l

/-- Expands segments one after another. -/
def expandAll {ε : Type} (p : Pass) (depth : Int) (stop : Refusal → ε)
    (expand : String → Ledger → Except ε Expansion × Ledger) :
    List Segment → Ledger → Except ε Expansion × Ledger
  | [], l => (.ok .empty, l)
  | s :: rest, l =>
    match p.expandSegment depth stop expand s l with
    | (.error e, l) => (.error e, l)
    | (.ok a, l) =>
      match p.expandAll depth stop expand rest l with
      | (.error e, l) => (.error e, l)
      | (.ok b, l) => (.ok (a.append b), l)

/-! ### Variables -/

/-- Keeps the expansion of a variable. -/
def keep (p : Pass) (name : String) (d : Definition) (e : Expansion) (l : Ledger) :
    Except Refusal Unit × Ledger :=
  let entry : Cache.Entry := {
    name
    fingerprint := p.fingerprint
    value := e.text
    scope := some d.scope
    owner := d.winner.owner
    height := e.height }
  match l.cache.putNow entry l.sources with
  | (.ok sources, cache) => (.ok (), { l with cache, sources })
  | (.error r, cache) => (.error r, { l with cache })

/-- Ends the expansion of a variable's value: marks the name, and keeps a pure expansion. -/
def settle (p : Pass) (name : String) (d : Definition) (e : Expansion) (l : Ledger) :
    Except Stop Expansion × Ledger :=
  if e.isOk then
    let l := l.markResolved name
    if e.isPure then
      match p.keep name d e l with
      | (.ok (), l) => (.ok e, l)
      | (.error r, l) => (.error (.refused r), l)
    else (.ok e, l)
  else (.ok e, l.markFailed name)

/-- Expands a variable's value; `expand` expands a variable below it. -/
def expandValue (p : Pass) (depth : Int) (expand : String → Ledger → Except Stop Expansion × Ledger)
    (name : String) (d : Definition) (segments : List Segment) (l : Ledger) :
    Except Stop Expansion × Ledger :=
  if segments.any Segment.isReference then
    match p.expandAll (depth + 1) .refused expand segments (l.note (p.lookupEvent name d true depth)) with
    | (.ok e, l) => p.settle name d e (l.note (nestedEvent name d e depth))
    | (.error (.tooDeep outermost inner), l) => (.error (.tooDeep name (outermost :: inner)), l)
    | (.error (.refused r), l) => (.error (.refused r), l)
  else p.settle name d { text := d.text } (l.note (p.lookupEvent name d false depth))

/-- Expands a variable that is not in the cache; `expand` expands a variable below it. -/
def expandDefined (p : Pass) (depth : Int) (expand : String → Ledger → Except Stop Expansion × Ledger)
    (name : String) (l : Ledger) : Except Stop Expansion × Ledger :=
  match p.context.define? name with
  | .error r => (.error (.refused r), l)
  | .ok none =>
    (.ok (.failed name), (l.note (undefinedEvent name depth)).fail name (.undefined name))
  | .ok (some d) =>
    match d.parsed with
    | .ok segments => p.expandValue depth expand name d segments l
    | .error fault =>
      let f := Failure.ofFault fault
      (.ok (.failed name), (l.note (p.malformedEvent name d f depth)).fail name f)

/-- A variable's answer, seen from the variable above it. -/
def below : Except Stop Expansion × Ledger → Except Stop Expansion × Ledger
  | (a, l) => (a.map Expansion.below, l)

/-- Expands a variable where `left` levels of variables are allowed. An expansion in the cache
counts with its height. -/
def expandVariable (p : Pass) (left : Nat) (name : String) (l : Ledger) :
    Except Stop Expansion × Ledger :=
  let depth := p.depthAt left
  match p.cycle? name with
  | some cycle => (.ok (.failed name), l.note (circularEvent name cycle depth))
  | none =>
    match left with
    | 0 => (.error (.tooDeep name []), l.note (p.boundEvent name depth))
    | left + 1 =>
      match l.cache.findNow (p.key name) l.sources with
      | .error r => (.error (.refused r), l)
      | .ok (some entry, cache, sources) =>
        let isTooDeep := decide ((left : Int) + 1 ≤ entry.height)
        let l := { l with cache, sources }.note (p.hitEvent name entry isTooDeep depth)
        if isTooDeep then (.error (.tooDeep name []), l)
        else (.ok { text := entry.value, height := entry.height }, l.markResolved name)
      | .ok (none, cache, sources) =>
        p.expandDefined depth (fun n l => below (p.expandVariable left n l)) name
          ({ l with cache, sources }.note (missEvent name depth))

/-- Expands a variable that the template itself refers to. If it is too deep it fails as a whole. -/
def expandTop (p : Pass) (name : String) (l : Ledger) : Except Refusal Expansion × Ledger :=
  match p.expandVariable p.maxDepth name l with
  | (.ok e, l) => (.ok e, l)
  | (.error (.tooDeep outermost inner), l) =>
    (.ok (.failed name), l.fail name (.tooDeep outermost inner p.maxDepth))
  | (.error (.refused r), l) => (.error r, l)

/-- Lists the names on cycles as failed. -/
def failCircular (p : Pass) (l : Ledger) : Ledger :=
  p.circular.foldl (fun l (name, cycle) => l.fail name (.circular name cycle)) l

/-- Expands a template. The names on cycles are unresolved from the start. -/
def expandTemplate (p : Pass) (segments : List Segment) (l : Ledger) :
    Except Refusal Expansion × Ledger :=
  p.expandAll 0 id p.expandTop segments (p.failCircular l)

end Pass
end Stencil
