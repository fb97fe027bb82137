/-
# Commands

What the program may be told to do, and how it is told. Switches before the
name of the command are those of the program, the ones after it are its own.

Key definitions: `Command`, `Command.Invocation`, `Command.read`.
-/
import Stencil.Command.Arguments
import Stencil.Logging

namespace Stencil

namespace Command

/-- How a template is resolved, and what is shown of it. -/
structure ResolveOptions where
  /-- The file with the variables. -/
  variableFile : Option String := none
  profileId : Option String := none
  ruleId : Option String := none
  url : Option String := none
  method : String := "GET"
  /-- The file with the settings. -/
  settingsFile : Option String := none
  showsSteps : Bool := false
  showsTree : Bool := false
  asJson : Bool := false
  showsSecrets : Bool := false

end Command

inductive Command where
  | version
  /-- How the program or one of its commands is used. -/
  | help (command : Option String)
  | resolve (template : String) (options : Command.ResolveOptions)
  | validate (template : String)
  /-- The names that a template refers to. -/
  | refs (template : String) (asJson : Bool)
  | functions
  /-- Each sample is a name and a value with an equals sign between them. -/
  | preview (template : String) (samples : List String) (asJson : Bool)

namespace Command

def helpSwitch : Switch := { name := "--help" }

def programSwitches : List Switch := [
  helpSwitch, { name := "--version" }, { name := "--verbose", letter := some 'v' },
  { name := "--quiet", letter := some 'q' }]

def jsonSwitch : Switch := { name := "--json" }

def resolveSwitches : List Switch := [
  { name := "--vars", letter := some 'f', takesValue := true },
  { name := "--profile", letter := some 'p', takesValue := true },
  { name := "--rule", letter := some 'r', takesValue := true },
  { name := "--url", takesValue := true },
  { name := "--method", letter := some 'm', takesValue := true },
  { name := "--config", letter := some 'c', takesValue := true },
  { name := "--steps" }, { name := "--tree" }, jsonSwitch, { name := "--show-secrets" }]

def previewSwitches : List Switch := [
  { name := "--set", letter := some 's', takesValue := true }, jsonSwitch]

/-- What a command takes: its switches, and whether a template. -/
structure Shape where
  name : String
  switches : List Switch := []
  hasTemplate : Bool := true

/-- The commands that go by a name. -/
def shapes : List Shape := [
  { name := "resolve", switches := resolveSwitches }, { name := "validate" },
  { name := "refs", switches := [jsonSwitch] }, { name := "functions", hasTemplate := false },
  { name := "preview", switches := previewSwitches }]

def resolveOptions (a : Arguments) : ResolveOptions where
  variableFile := a.value? "--vars"
  profileId := a.value? "--profile"
  ruleId := a.value? "--rule"
  url := a.value? "--url"
  method := (a.value? "--method").getD "GET"
  settingsFile := a.value? "--config"
  showsSteps := a.has "--steps"
  showsTree := a.has "--tree"
  asJson := a.has "--json"
  showsSecrets := a.has "--show-secrets"

/-- The command of a name for a template with further arguments. -/
def ofShape (s : Shape) (template : String) (a : Arguments) : Command :=
  match s.name with
  | "resolve" => .resolve template (resolveOptions a)
  | "validate" => .validate template
  | "refs" => .refs template (a.has "--json")
  | "functions" => .functions
  | _ => .preview template (a.values "--set") (a.has "--json")

/-- The command of a name with the words after it. -/
def readShape (s : Shape) (words : List String) : Except Arguments.Fault Command := do
  let a ← Arguments.read (helpSwitch :: s.switches) true words
  if a.has "--help" then return .help (some s.name)
  if s.hasTemplate then
    match a.words with
    | [] => throw (.missingArgument "TEMPLATE")
    | [template] => return ofShape s template a
    | _ :: extra => throw (.extraArguments extra)
  else if a.words.isEmpty then return ofShape s "" a
  else throw (.extraArguments a.words)

/-- A command, and how much is logged while it runs. -/
structure Invocation where
  command : Command
  verbosity : Verbosity := {}

/-- The command in the words of a command line. -/
def read (words : List String) : Except Arguments.Fault Invocation := do
  let a ← Arguments.read programSwitches false words
  let invoke (command : Command) : Invocation :=
    { command, verbosity := { isVerbose := a.has "--verbose", isQuiet := a.has "--quiet" } }
  if a.has "--help" then return invoke (.help none)
  match a.words with
  | [] => return invoke (if a.has "--version" then .version else .help none)
  | name :: rest =>
    match shapes.find? fun s => s.name == name with
    | none => throw (.unknownCommand name)
    | some s => if a.has "--version" then return invoke .version else return invoke (← readShape s rest)

end Command
end Stencil
