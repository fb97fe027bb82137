/-
# Recording a trace

A recorder counts every event, keeps the wanted ones as numbered steps as long
as there is room, and lists failures. Finishing it gives the trace; after that
it takes nothing more.

Key definitions: `Clock`, `Recorder`, `Recorder.record`, `Recorder.fail`,
`Recorder.finish`.
-/
import Stencil.Trace

namespace Stencil

/-- A clock that goes on by a fixed amount whenever it is read. -/
structure Clock where
  now : Float
  advance : Float := 0

def Clock.read (c : Clock) : Float × Clock := (c.now, { c with now := c.now + c.advance })

structure Recorder where
  id : String
  template : String
  context : Option Summary
  tracking : Tracking
  clock : Clock
  started : Float
  /-- The steps, the last one first. -/
  recent : List Step := []
  /-- The number of steps. -/
  count : Nat := 0
  /-- The failures, the last one first. -/
  recentFailures : List Failure := []
  metrics : Metrics := {}
  isTruncated : Bool := false
  isFinished : Bool := false

namespace Recorder

/-- A recorder that has recorded nothing. -/
def start (id template : String) (context : Option Summary) (tracking : Tracking) (clock : Clock) :
    Recorder :=
  let (started, clock) := clock.read
  { id, template, context, tracking, clock, started }

/-- The message of a recorder that has been finished. -/
def finishedMessage (r : Recorder) : String := s!"Trace {r.id} is already finished"

def steps (r : Recorder) : List Step := r.recent.reverse

def failures (r : Recorder) : List Failure := r.recentFailures.reverse

/-- Takes an event: the step it became, if it was kept. -/
def take (r : Recorder) (e : Event) : Option Step × Recorder :=
  let r := { r with metrics := r.metrics.count e }
  if !r.tracking.wants e then (none, r)
  else if r.tracking.maxSteps.le (.int r.count) then (none, { r with isTruncated := true })
  else
    let (time, clock) := r.clock.read
    let step : Step := ⟨r.count + 1, r.tracking.shape e, time⟩
    (some step, { r with clock, recent := step :: r.recent, count := r.count + 1 })

/-- Takes an event, unless the recorder has been finished. -/
def record (r : Recorder) (e : Event) : Except String (Option Step × Recorder) :=
  if r.isFinished then .error r.finishedMessage else .ok (r.take e)

/-- Takes a failure. -/
def addFailure (r : Recorder) (f : Failure) : Recorder :=
  { r with recentFailures := f :: r.recentFailures }

/-- Takes a failure, unless the recorder has been finished. -/
def fail (r : Recorder) (f : Failure) : Except String Recorder :=
  if r.isFinished then .error r.finishedMessage else .ok (r.addFailure f)

/-- What is known at the end of an expansion. -/
structure Ending where
  value : String
  resolved : List String := []
  unresolved : List String := []
  failures : List Failure := []
  dependencies : List (String × List String) := []
  cycles : List (List String) := []

/-- The trace of all that has been recorded. A name is not both resolved and unresolved. -/
def close (r : Recorder) (e : Ending) : Trace × Recorder :=
  let (ended, clock) := r.clock.read
  ({ id := r.id
     template := r.template
     value := e.value
     steps := r.steps
     resolved := e.resolved.filter fun n => !e.unresolved.contains n
     unresolved := e.unresolved
     failures := r.failures ++ e.failures
     metrics := r.metrics
     started := r.started
     ended
     context := r.context
     dependencies := e.dependencies
     cycles := e.cycles
     isTruncated := r.isTruncated },
    { r with clock, isFinished := true })

/-- Finishes a recorder, unless that has been done. -/
def finish (r : Recorder) (e : Ending) : Except String (Trace × Recorder) :=
  if r.isFinished then .error r.finishedMessage else .ok (r.close e)

end Recorder
end Stencil
