/-
# Running commands

What a command shows and whether it succeeds. A command that is told something
it cannot use says so and fails; one that cannot go on at all ends there and
logs what it met.

Key definitions: `Surroundings`, `Command.Obstacle`, `Command.Outcome`,
`Command.run`.
-/
import Stencil.Command
import Stencil.Command.Display
import Stencil.Declarations.Read
import Stencil.Settings.Environment

namespace Stencil

/-- What commands find around them. -/
structure Surroundings where
  /-- What stands at a path. -/
  files : String → Document.Found
  environment : Environment
  sources : Sources
  stamp : Engine.Stamp := {}

namespace Command

open Console

/-- Why a command cannot go on. -/
inductive Obstacle where
  | settings (f : Settings.Fault)
  | url (f : Url.Fault)
  | declarations (f : Declarations.Fault)
  | refusal (r : Refusal)
  /-- There is no engine for the settings. -/
  | engine (message : String)

def Obstacle.message : Obstacle → String
  | settings f => f.message
  | url f => f.message
  | declarations f => f.message
  | refusal r => r.message
  | engine message => message

/-- What a command ends with. -/
structure Outcome where
  blocks : List Block := []
  isSuccess : Bool := true
  /-- Why the command did not go on, if it did not. -/
  obstacle : Option Obstacle := none
  /-- What the command logs. -/
  log : List (Level × String) := []

/-- Why a command ends early. -/
inductive Stop where
  /-- It was told something that it cannot use. -/
  | error (message : String)
  | obstacle (o : Obstacle)

def versionText : String := "RequestKit CLI v0.1.0"

/-- The outcome of a command that cannot go on. -/
def stuck (shown : List Block) (o : Obstacle) : Outcome :=
  { blocks := shown, isSuccess := false, obstacle := some o, log := [(.error, o.message)] }

/-- The outcome of an activity that ended early. -/
def stopped (activity : String) : Stop → Outcome
  | .error message => {
      blocks := errorBlocks activity message
      isSuccess := false
      log := [(.debug, s!"Setup of the {activity} failed: {message}")] }
  | .obstacle o => stuck [] o

/-- The outcome of reading a template. -/
def readingOutcome (template : String) (f : Template.Reading → Outcome) : Outcome :=
  match Template.read template with
  | .ok r => f r
  | .error refusal => stuck [] (.refusal refusal)

/-! ### Resolving -/

/-- The settings and the engine that they describe. -/
def loadSettings (o : ResolveOptions) (s : Surroundings) : Except Stop Settings :=
  (Settings.load o.settingsFile s.files s.environment).mapError fun l =>
    if l.fault.isReported then .error l.message else .obstacle (.settings l.fault)

/-- An option, unless it is empty. -/
def filled (o : Option String) : Option String := o.filter fun s => !s.isEmpty

/-- The request to the URL that is given, if one is. -/
def request (o : ResolveOptions) : Except Stop (Option Request) :=
  match filled o.url with
  | none => .ok none
  | some url =>
    match Request.ofUrl url o.method [] none (.int 0) with
    | .ok r => .ok (some r)
    | .error f => .error (.obstacle (.url f))

/-- The context that the options describe. -/
def context (o : ResolveOptions) (s : Surroundings) (request : Option Request) :
    Except Stop Context :=
  match filled o.variableFile with
  | some path =>
    let read : Except Declarations.Fault Context := do
      (← Declarations.ofFile path (s.files path)).context o.profileId o.ruleId request
    read.mapError fun f =>
      if f.isReported then .error (f.placed (some path)) else .obstacle (.declarations f)
  | none =>
    if (filled o.profileId).isSome || (filled o.ruleId).isSome then
      .error (.error "--profile and --rule require --vars")
    else .ok (Context.build { system := Context.systemFor request, request })

/-- The trace of a template, and the context it was resolved in. -/
def resolved (template : String) (o : ResolveOptions) (s : Surroundings) :
    Except Stop (Trace × Context) := do
  let settings ← loadSettings o s
  let c ← context o s (← request o)
  let engine ← (settings.engine .standard s.sources).mapError fun m => .obstacle (.engine m)
  let trace ← (engine.resolve c template s.stamp).1.mapError fun r => .obstacle (.refusal r)
  return (trace, c)

/-- What is shown of a trace, the names being secret. -/
def traceOutcome (t : Trace) (o : ResolveOptions) (names : List String) : Outcome :=
  let values := Secret.values t names
  if o.asJson then
    { blocks := [.json (t.hideSecrets names values).report], isSuccess := t.isSuccess }
  else
    let shown := t.blocks values o.showsSteps
    if o.showsTree then
      match Tree.ofTrace t with
      | .ok tree => { blocks := shown ++ tree.blocks, isSuccess := t.isSuccess }
      | .error refusal => stuck shown (.refusal refusal)
    else { blocks := shown, isSuccess := t.isSuccess }

def resolveOutcome (template : String) (o : ResolveOptions) (s : Surroundings) : Outcome :=
  match resolved template o s with
  | .ok (t, c) => traceOutcome t o (if o.showsSecrets then [] else c.secretNames)
  | .error stop => stopped "resolution" stop

/-! ### Previews -/

/-- The name and the value in a sample. -/
def sample? (sample : String) : Option (String × String) :=
  let cs := sample.toList
  let name := Text.strip (String.ofList (cs.takeWhile (· != '=')))
  match cs.dropWhile (· != '=') with
  | [] => none
  | _ :: value => if name.isEmpty then none else some (name, String.ofList value)

def readSample (sample : String) : Except Stop (String × String) :=
  match sample? sample with
  | some s => .ok s
  | none => .error (.error ("Expected NAME=VALUE, got " ++ Text.quoted sample))

/-- The trace of a template with samples. -/
def previewed (template : String) (samples : List String) (s : Surroundings) : Except Stop Trace := do
  let samples ← samples.mapM readSample
  let engine ← (({} : Settings).engine .standard s.sources).mapError fun m => .obstacle (.engine m)
  (engine.preview (Url.assignAll samples) template s.stamp).mapError fun r => .obstacle (.refusal r)

def previewOutcome (template : String) (samples : List String) (asJson : Bool) (s : Surroundings) :
    Outcome :=
  match previewed template samples s with
  | .ok t => {
      blocks := if asJson then [.json t.report] else t.blocks [] false
      isSuccess := t.isSuccess }
  | .error stop => stopped "preview" stop

/-! ### All commands -/

/-- How the program or a command is used. -/
def usage (command : Option String) : List String :=
  match command with
  | none =>
    "Usage: requestkit [OPTIONS] COMMAND [ARGS]..." ::
      (programSwitches.map fun s => "  " ++ s.name) ++ shapes.map fun s => "  " ++ s.name
  | some name =>
    match shapes.find? fun s => s.name == name with
    | none => []
    | some s =>
      (s!"Usage: requestkit {name} [OPTIONS]" ++ if s.hasTemplate then " TEMPLATE" else "") ::
        (helpSwitch :: s.switches).map fun s => "  " ++ s.name

/-- Runs a command. -/
def run (s : Surroundings) : Command → Outcome
  | .version => { blocks := [.marked versionText] }
  | .help command => { blocks := (usage command).map .text }
  | .resolve template o => resolveOutcome template o s
  | .validate template => readingOutcome template fun r =>
      { blocks := r.verdict, isSuccess := r.faults.isEmpty }
  | .refs template asJson => readingOutcome template fun r =>
      { blocks := if asJson then [.json r.report] else r.blocks }
  | .functions => { blocks := [.table Library.standard.table] }
  | .preview template samples asJson => previewOutcome template samples asJson s

/-- The files that a command reads. -/
def paths : Command → List String
  | .resolve _ o => (filled o.variableFile).toList ++ (filled o.settingsFile).toList
  | _ => []

/-- What a command line ends with: a fault in the words, or the outcome of the command. -/
def runWords (s : Surroundings) (words : List String) : Except Arguments.Fault Outcome :=
  (read words).map fun i => i.command.run s

end Command

/-- The status that a program ends with. -/
def exitStatus : Except Arguments.Fault Command.Outcome → Nat
  | .error _ => 2
  | .ok o => if o.isSuccess then 0 else 1

end Stencil
