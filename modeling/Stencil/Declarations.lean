/-
# Declarations

The variables that a file declares: those of the system, the global ones, and
those of each profile and rule. A profile and a rule may be chosen; the context
then holds their variables beside the others. Declared system variables go
before those of the request and the built-in ones.

Key definitions: `Declarations`, `Declarations.all`, `Declarations.context`.
-/
import Stencil.Context
import Stencil.Document
import Stencil.Value.Keys

namespace Stencil

/-- Owners with their variables. -/
abbrev Groups := List (String × List Variable)

structure Declarations where
  source : Option String := none
  system : List Variable := []
  global : List Variable := []
  profiles : Groups := []
  rules : Groups := []

namespace Declarations

/-- Why declarations cannot be read or used. -/
inductive Fault where
  | document (f : Document.Fault)
  /-- The section with the variables is no mapping. -/
  | notSection
  | unknownSections (keys : List Value)
  /-- The variables of a scope are no mapping. -/
  | notNames (scope : Scope)
  /-- The variables of a scope are not grouped by their owners. -/
  | notGroups (scope : Scope)
  | invalidName (name : String)
  | unknownKeys (name : String) (keys : List Value)
  | noValue (name : String)
  | notTags (name : String)
  /-- The value of a variable is no scalar. -/
  | notScalar (name : String)
  | notTruth (name key : String) (value : Value)
  /-- A profile or a rule is not declared; those that are. -/
  | unknownOwner (kind owner : String) (known : List String)
  | incomparable (i : Incomparable)
  /-- An integer has too many digits to be written. -/
  | unwritable

def keyList (keys : List Value) : String := Text.joined ", " (keys.map Value.plain)

def Fault.message : Fault → String
  | document f => f.message "Variables"
  | notSection => "'variables' must be a mapping"
  | unknownSections keys => "Unknown variables section(s): " ++ keyList keys
  | notNames scope => s!"Variables of scope '{scope.name}' must be a mapping of name to value"
  | notGroups scope => s!"'{scope.name}' variables must be grouped by {scope.name} id"
  | invalidName name => "Invalid variable name " ++ Text.quoted name
  | unknownKeys name keys => s!"Variable '{name}' has unknown key(s): " ++ keyList keys
  | noValue name => s!"Variable '{name}' is missing 'value'"
  | notTags name => s!"Tags of variable '{name}' must be a list"
  | notScalar name => s!"Value of variable '{name}' must be a string, number or boolean"
  | notTruth name key value =>
    s!"'{key}' of variable '{name}' must be true or false, got " ++ value.quoted
  | unknownOwner kind owner known =>
    let known := Text.joined ", " (Text.sorted known)
    let known := if known.isEmpty then "none" else known
    s!"Unknown {kind} '{owner}' (available: {known})"
  | incomparable i => i.message
  | unwritable => Refusal.unwritable.message

/-- Whether a fault is one of the declarations. -/
def Fault.isReported : Fault → Bool
  | incomparable _ => false
  | unwritable => false
  | document f => f.isReported
  | _ => true

/-- A fault as text, with the source where it lies. -/
def Fault.placed (source : Option String) (f : Fault) : String :=
  if f.isReported then Document.placed source f.message else f.message

/-! ### Use -/

/-- All variables: of the system, global, of the profiles, of the rules. -/
def all (d : Declarations) : List Variable :=
  d.system ++ d.global ++ (d.profiles ++ d.rules).flatMap Prod.snd

/-- The variables of an owner, if one is chosen. -/
def owned (groups : Groups) (kind : String) (owner? : Option String) : Except Fault (List Variable) :=
  match owner? with
  | none => .ok []
  | some owner =>
    match groups.lookup owner with
    | some vs => .ok vs
    | none => .error (.unknownOwner kind owner (groups.map Prod.fst))

/-- The context of a request for a profile and a rule. -/
def context (d : Declarations) (profileId ruleId : Option String) (request : Option Request) :
    Except Fault Context := do
  let profile ← owned d.profiles "profile" profileId
  let rule ← owned d.rules "rule" ruleId
  return Context.build {
    system := d.system ++ Context.systemFor request
    global := d.global
    profile, rule, profileId, ruleId, request }

end Declarations
end Stencil
