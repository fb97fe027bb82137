/-
# Engine

What expands templates: a cache, a library of functions, the sources of time
and chance, a bound on the depth, and how much of a trace is kept. Each call
gives a trace and the engine as the call leaves it.

Key definitions: `Engine`, `Engine.create`, `Engine.resolve`, `Engine.preview`,
`Engine.preResolve`.
-/
import Stencil.Context
import Stencil.Context.Fingerprint
import Stencil.Expansion
import Stencil.Function.BuiltIn
import Stencil.Graph.Cycle
import Stencil.Graph.Reach
import Stencil.Trace.Recorder

namespace Stencil

structure Engine where
  /-- The expansions kept from call to call, if any are. -/
  cache : Option Cache
  library : Library
  sources : Sources
  /-- The depth at which a variable is not expanded any more. -/
  maxDepth : Nat
  maxDepth_pos : 0 < maxDepth
  tracking : Tracking := {}

namespace Engine

/-- The number of expansions kept during a call where none are kept from call to call. -/
def memoCapacity : Nat := 10000

/-- The message for a bound that allows no variables at all. -/
def shallowMessage (maxDepth : Int) : String :=
  s!"max_depth must be at least 1, got {intText maxDepth}"

/-- An engine, unless the bound on the depth allows no variables at all. -/
def create (cache : Option Cache) (library : Library) (sources : Sources) (maxDepth : Int)
    (tracking : Tracking) : Except String Engine :=
  if h : 0 < maxDepth then
    .ok { cache, library, sources, maxDepth := maxDepth.toNat, maxDepth_pos := by omega, tracking }
  else .error (shallowMessage maxDepth)

/-- What identifies a trace, and the clock that it is timed with. -/
structure Stamp where
  id : String := "trace"
  clock : Clock := { now := 0 }

/-- What stays the same during a call, given the cycles of the graph. -/
def pass (e : Engine) (c : Context) (cycles : List (List String)) : Pass where
  context := c
  fingerprint := c.fingerprint
  library := e.library
  maxDepth := e.maxDepth
  circular := Graph.cycleMembers cycles

/-- The ledger that a call begins with. -/
def ledger (e : Engine) : Ledger where
  cache := e.cache.getD (.ofCapacity memoCapacity)
  sources := e.sources

/-- The engine as a call with the given ledger leaves it. -/
def after (e : Engine) (l : Ledger) : Engine :=
  { e with cache := e.cache.map fun _ => l.cache, sources := l.sources }

/-- The recorder with all that a ledger lists. -/
def replay (r : Recorder) (l : Ledger) : Recorder :=
  let r := l.events.foldl (fun r e => (r.take e).2) r
  l.failures.foldl Recorder.addFailure r

/-- Expands a well-formed template. -/
def expand (e : Engine) (c : Context) (segments : List Segment) (r : Recorder) :
    Except Refusal Trace × Engine :=
  match Graph.ofContext c (Template.variableNames segments) with
  | .error refusal => (.error refusal, e)
  | .ok graph =>
    let cycles := graph.cycles
    match (e.pass c cycles).expandTemplate segments e.ledger with
    | (.error refusal, l) => (.error refusal, e.after l)
    | (.ok x, l) =>
      (.ok ((replay r l).close {
        value := x.text
        resolved := l.resolved
        unresolved := l.unresolved
        dependencies := graph.adjacency
        cycles }).1, e.after l)

/-- Expands a template in a context. A malformed template stands for itself. -/
def resolve (e : Engine) (c : Context) (template : String) (stamp : Stamp := {}) :
    Except Refusal Trace × Engine :=
  let r := Recorder.start stamp.id template (some (c.summary c.fingerprint)) e.tracking stamp.clock
  match Template.parse template with
  | .error refusal => (.error refusal, e)
  | .ok (.error fault) =>
    (.ok (r.close { value := template, failures := [.ofFault fault] }).1, e)
  | .ok (.ok segments) => e.expand c segments r

/-- Removes what the cache keeps of a variable. The number of entries removed. -/
def invalidate (e : Engine) (name : String) : Nat × Engine :=
  match e.cache with
  | none => (0, e)
  | some cache =>
    let (n, cache) := cache.invalidate name
    (n, { e with cache := some cache })

/-! ### Previews -/

/-- The request that previews are made for. -/
def previewUrl : String := "https://example.com/api/v1/users"

/-- The request that previews are made for. -/
def previewRequest : Option Request :=
  (Request.ofUrl previewUrl "GET" [] none Sources.preview.now).toOption

/-- The context in which samples are the global variables. -/
def previewContext (samples : List (String × String)) : Context := Context.build {
  system := Context.systemFor previewRequest
  global := samples.map fun (name, value) => { name, value := .text value }
  request := previewRequest }

/-- The engine that previews are made with: fixed sources, no cache, and the standard library with
the custom functions of the engine. -/
def previewer (e : Engine) (draw : Nat → Int := fun _ => 0) : Engine :=
  { e with
    cache := none
    library := Library.standard.extend e.library.custom
    sources := .preview draw }

/-- Expands a template with samples, leaving the engine as it is. -/
def preview (e : Engine) (samples : List (String × String)) (template : String)
    (stamp : Stamp := {}) (draw : Nat → Int := fun _ => 0) : Except Refusal Trace :=
  ((e.previewer draw).resolve (previewContext samples) template stamp).1

/-! ### Expanding ahead of use -/

/-- The variable with an expanded value. -/
def withValue (v : Variable) (value moment : String) : Variable :=
  { v with value := .text value, created := v.created.or (some moment), updated := some moment }

/-- Expands a variable's value at a moment ahead of its use. `none` if its value calls no function,
or if it does not expand without a failure. -/
def preResolve (e : Engine) (v : Variable) (c : Context) (moment : String) :
    Except Refusal (Option Variable) × Engine :=
  match v.template? with
  | .error r => (.error r, e)
  | .ok template =>
    match Template.read template with
    | .error r => (.error r, e)
    | .ok reading =>
      if (Template.calls reading.segments).isEmpty then (.ok none, e)
      else
        match e.resolve c template with
        | (.error r, e) => (.error r, e)
        | (.ok trace, e) =>
          (.ok (if trace.isSuccess then some (withValue v trace.value moment) else none), e)

end Engine
end Stencil
