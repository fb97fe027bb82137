/-
# Traces

What happened while a template was expanded: the steps taken, the names
resolved and unresolved, the failures and the counts.

Key definitions: `StepKind`, `Event`, `Step`, `Tracking`, `Metrics`, `Trace`.
-/
import Stencil.Context
import Stencil.Failure

namespace Stencil

inductive StepKind where
  /-- A variable was looked up. -/
  | lookup
  /-- A function was called. -/
  | call
  /-- The references in a variable's value were expanded. -/
  | nested
  /-- An expanded value was found in the cache. -/
  | hit
  /-- No expanded value was found in the cache. -/
  | miss
deriving DecidableEq, Repr

namespace StepKind

def all : List StepKind := [lookup, call, nested, hit, miss]

def name : StepKind → String
  | lookup => "variable"
  | call => "function"
  | nested => "nested"
  | hit => "cache_hit"
  | miss => "cache_miss"

def ofName? (name : String) : Option StepKind := all.find? fun k => k.name == name

/-- The message for a name that is no kind of step. -/
def unknownMessage (name : String) : String := Text.quoted name ++ " is not a valid StepType"

/-- Whether a step tells about the cache. -/
def isOfCache : StepKind → Bool
  | hit | miss => true
  | _ => false

end StepKind

/-- Something that happened to a name. -/
structure Event where
  kind : StepKind
  name : String
  input : String := ""
  output : String := ""
  scope : Option String := none
  /-- How long it took, in milliseconds. -/
  duration : Float := 0
  isHit : Option Bool := none
  error : Option String := none
  /-- How many references it lies below the template. -/
  depth : Int := 0
  details : List (String × Value) := []

/-- A recorded event, with its number and its time. -/
structure Step where
  number : Nat
  event : Event
  time : Float

/-- How much of the events is kept as steps. -/
structure Tracking where
  isEnabled : Bool := true
  maxSteps : Number := .int 1000
  /-- Whether steps about the cache are kept. -/
  keepsCache : Bool := true
  keepsTiming : Bool := true
  keepsDetails : Bool := true

namespace Tracking

/-- The message for a negative bound. -/
def negativeMessage (maxSteps : Value) : String :=
  "max_steps must not be negative, got " ++ maxSteps.plain

/-- Whether an event is of those kept, room provided. -/
def wants (t : Tracking) (e : Event) : Bool :=
  t.isEnabled && (t.keepsCache || !e.kind.isOfCache)

/-- The entries with one set; a new one goes to the end. -/
def setDetail (key : String) (value : Value) : List (String × Value) → List (String × Value)
  | [] => [(key, value)]
  | (k, v) :: r => if k == key then (k, value) :: r else (k, v) :: setDetail key value r

/-- An event as it is kept: its depth is one of its details. -/
def shape (t : Tracking) (e : Event) : Event :=
  { e with
    duration := if t.keepsTiming then e.duration else 0
    details :=
      if t.keepsDetails then
        e.details.foldl (fun ds (k, v) => setDetail k v ds) [("depth", .int e.depth)]
      else [] }

end Tracking

/-- Counts of all events, kept or not. -/
structure Metrics where
  lookups : Nat := 0
  calls : Nat := 0
  maxDepth : Int := 0
  hits : Nat := 0
  misses : Nat := 0

namespace Metrics

/-- The counts with one event more. -/
def count (m : Metrics) (e : Event) : Metrics where
  lookups := m.lookups + (if e.kind = .lookup ∨ e.kind = .hit then 1 else 0)
  calls := m.calls + (if e.kind = .call then 1 else 0)
  maxDepth := max m.maxDepth e.depth
  hits := m.hits + (if e.kind = .hit then 1 else 0)
  misses := m.misses + (if e.kind = .miss then 1 else 0)

end Metrics

/-- A context in short. -/
structure Summary where
  profileId : Option String
  ruleId : Option String
  url : Option String
  method : Option String
  fingerprint : String

/-- A context in short, its fingerprint being known. -/
def Context.summary (c : Context) (fingerprint : String) : Summary where
  profileId := c.profileId
  ruleId := c.ruleId
  url := c.request.map Request.url
  method := c.request.map Request.method
  fingerprint

structure Trace where
  id : String
  template : String
  value : String
  steps : List Step
  resolved : List String
  unresolved : List String
  failures : List Failure
  metrics : Metrics
  started : Float
  ended : Float
  context : Option Summary
  /-- The names reached with the names they refer to. -/
  dependencies : List (String × List String)
  cycles : List (List String)
  /-- Whether there was no room for some step. -/
  isTruncated : Bool

namespace Trace

/-- Whether nothing failed. -/
def isSuccess (t : Trace) : Bool := t.failures.isEmpty

/-- How long it took, in milliseconds. -/
def duration (t : Trace) : Float := (t.ended - t.started) * 1000

/-- The steps of a kind. -/
def stepsOf (t : Trace) (k : StepKind) : List Step := t.steps.filter fun s => s.event.kind == k

end Trace
end Stencil
