/-
# Functions

A template may call a function with literal arguments. A function declares its
parameters; arguments are counted, checked against the parameters' kinds and
filled up with defaults before the function runs. What a function does may
depend on the time, on fresh identifiers and on random numbers, whose sources
are handed to it and handed on.

Key definitions: `Parameter`, `Function`, `Function.bind`, `Function.invoke`.
-/
import Stencil.Failure
import Stencil.Sources

namespace Stencil

/-- What a parameter takes. -/
inductive ParameterKind where
  | text
  | number
  | truth
deriving DecidableEq

def ParameterKind.name : ParameterKind → String
  | text => "string"
  | number => "number"
  | truth => "boolean"

def ParameterKind.ofName? (name : String) : Option ParameterKind :=
  [text, number, truth].find? fun k => k.name == name

structure Parameter where
  name : String
  kind : ParameterKind := .text
  isRequired : Bool := true
  /-- The value of an argument that is left out. -/
  fallback : Value := .null

namespace Parameter

/-- The message for a parameter of an unknown kind. -/
def unknownKind (name kind : String) : String :=
  s!"Parameter '{name}' has unsupported type '{kind}'"

/-- The value that an argument has for a parameter; otherwise what the parameter must be. Texts are
made from values of any kind. -/
def convert (p : Parameter) (v : Value) : Except String Value :=
  match p.kind, v with
  | .number, .int i => .ok (.int i)
  | .number, .float x => .ok (.float x)
  | .number, _ => .error "a number"
  | .truth, .bool b => .ok (.bool b)
  | .truth, _ => .error "true or false"
  | .text, .bool b => .ok (.text (if b then "true" else "false"))
  | .text, v => .ok (.text v.plain)

end Parameter

/-- Why a function gives no value. -/
inductive Breakdown where
  /-- It declined, under the name of a function. -/
  | declined (function reason : String)
  /-- It met a fault of this type. -/
  | fault (type message : String)

structure Function where
  name : String
  description : String := ""
  parameters : List Parameter := []
  isBuiltIn : Bool := false
  run : List Value → Sources → Except Breakdown Value × Sources

/-- Why a call gives no text: it failed, or it is refused. -/
inductive CallStop where
  | failed (f : Failure)
  | refused (r : Refusal)

namespace Function

/-- The least number of arguments. -/
def minArity (f : Function) : Nat := (f.parameters.filter Parameter.isRequired).length

/-- The greatest number of arguments. -/
def maxArity (f : Function) : Nat := f.parameters.length

/-- The name with the parameters; optional ones are marked. -/
def signature (f : Function) : String :=
  f.name ++ "(" ++
    Text.joined ", " (f.parameters.map fun p => if p.isRequired then p.name else p.name ++ "?") ++ ")"

/-- The number of arguments that a function takes, as text. -/
def arityText (f : Function) : String :=
  if f.minArity == f.maxArity then toString f.maxArity
  else toString f.minArity ++ " to " ++ toString f.maxArity

/-- The value of an argument for a parameter. -/
def bindOne (f : Function) (p : Parameter) (v : Value) : Except CallStop Value :=
  match p.convert v with
  | .ok (.text s) => if v.isWritable then .ok (.text s) else .error (.refused .unwritable)
  | .ok w => .ok w
  | .error kind =>
    if v.isWritable then
      .error (.failed (.call f.name s!"argument '{p.name}' must be {kind}, got {v.quoted}"))
    else .error (.refused .unwritable)

/-- The values of the parameters; arguments left out take their defaults. -/
def bindAll (f : Function) : List Parameter → List Value → Except CallStop (List Value)
  | [], _ => .ok []
  | p :: ps, [] => (f.bindAll ps []).map (p.fallback :: ·)
  | p :: ps, v :: vs =>
    match f.bindOne p v with
    | .error e => .error e
    | .ok w => (f.bindAll ps vs).map (w :: ·)

/-- The values of the parameters, once the arguments are of the right number. -/
def bind (f : Function) (arguments : List Value) : Except CallStop (List Value) :=
  if f.minArity ≤ arguments.length ∧ arguments.length ≤ f.maxArity then
    f.bindAll f.parameters arguments
  else
    .error (.failed (.call f.name
      s!"expected {f.arityText} argument(s), got {arguments.length}"))

/-- The text of a function's result; no value is the empty text. -/
def resultText : Value → Except CallStop String
  | .null => .ok ""
  | v => if v.isWritable then .ok v.plain else .error (.refused .unwritable)

/-- Calls a function. -/
def invoke (f : Function) (arguments : List Value) (s : Sources) : Except CallStop String × Sources :=
  match f.bind arguments with
  | .error e => (.error e, s)
  | .ok values =>
    match f.run values s with
    | (.ok v, s) => (resultText v, s)
    | (.error (.declined function reason), s) => (.error (.failed (.call function reason)), s)
    | (.error (.fault type message), s) =>
      (.error (.failed (.call f.name s!"{type}: {message}")), s)

end Function
end Stencil
