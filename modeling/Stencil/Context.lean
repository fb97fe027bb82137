/-
# Contexts

A context holds the variables that one expansion can see, in four lists, one
for each scope. Within a scope the first enabled variable of a name is
visible; a name means its visible variable in the scope of the highest
precedence. A context that brings no system variables of its own has the time, a
fresh identifier, and the details of the request.

Key definitions: `Context`, `Context.find?`, `Context.visible`,
`Context.lookup?`, `Context.shadowed`, `Context.effective`, `Context.build`,
`Context.ofEntries`, `Context.systemFor`.
-/
import Stencil.Request
import Stencil.Text.Basic
import Stencil.Variable

namespace Stencil

structure Context where
  system : List Variable := []
  global : List Variable := []
  profile : List Variable := []
  rule : List Variable := []
  profileId : Option String := none
  ruleId : Option String := none
  request : Option Request := none

namespace Context

/-- The variables of a scope, hidden ones included. -/
def inScope (c : Context) : Scope → List Variable
  | .system => c.system
  | .global => c.global
  | .profile => c.profile
  | .rule => c.rule

/-- The visible variable of a name in a scope. -/
def find? (c : Context) (s : Scope) (name : String) : Option Variable :=
  (c.inScope s).find? fun v => v.isEnabled && v.name == name

/-- The first variable of each name. -/
def firstOfName : List Variable → List Variable
  | [] => []
  | v :: r => v :: (firstOfName r).filter fun w => w.name != v.name

/-- The visible variables of a scope. -/
def visible (c : Context) (s : Scope) : List Variable :=
  firstOfName ((c.inScope s).filter Variable.isEnabled)

/-- The visible variables of a name in all scopes, the winning one first. -/
def matching (c : Context) (name : String) : List (Scope × Variable) :=
  Scope.precedence.filterMap fun s => (c.find? s name).map fun v => (s, v)

/-- The variable that a name means, with the scope where it was found. -/
def lookup? (c : Context) (name : String) : Option (Scope × Variable) := (c.matching name).head?

/-- The visible variables of a name that lose against the winning one. -/
def shadowed (c : Context) (name : String) : List Variable := (c.matching name).tail.map Prod.snd

/-- Replaces the variable of the same name, or puts a new one at the end. -/
def override (v : Variable) : List Variable → List Variable
  | [] => [v]
  | w :: r => if w.name == v.name then v :: r else w :: override v r

/-- Every visible name with the variable it means. The names stand in the order in which they
appear when the scopes are taken from the lowest precedence up. -/
def effective (c : Context) : List Variable :=
  (Scope.precedence.reverse.flatMap c.visible).foldl (fun vs v => override v vs) []

/-- The names whose meaning is a secret, in order. -/
def secretNames (c : Context) : List String :=
  Text.sorted ((c.effective.filter Variable.isSecret).map Variable.name)

/-- The context without the variables that are not enabled. -/
def build (c : Context) : Context :=
  { c with
    system := c.system.filter Variable.isEnabled
    global := c.global.filter Variable.isEnabled
    profile := c.profile.filter Variable.isEnabled
    rule := c.rule.filter Variable.isEnabled }

/-! ### Lists from outside -/

/-- An element of a list where only variables should stand. -/
inductive Entry where
  | variable (v : Variable)
  /-- A value of this kind. -/
  | foreign (kind : String)

/-- Why lists are no context. -/
inductive Fault where
  /-- The list of a scope holds a value of this kind. -/
  | foreign (scope : Scope) (kind : String)
  /-- A value of this kind was asked whether it is enabled. -/
  | notEnabled (kind : String)

def Fault.message : Fault → String
  | foreign scope kind => s!"{scope.name}_variables must contain Variable instances, got {kind}"
  | notEnabled kind => s!"'{kind}' object has no attribute 'enabled'"

/-- The variables of a list, if it holds nothing else; `fault` tells what to say otherwise. -/
def variablesOf (fault : String → Fault) : List Entry → Except Fault (List Variable)
  | [] => .ok []
  | .foreign kind :: _ => .error (fault kind)
  | .variable v :: r => (variablesOf fault r).map (v :: ·)

/-- The context with the given lists; the first fault in the order of precedence is reported. -/
def ofEntries (system global profile rule : List Entry) : Except Fault Context := do
  let rule ← variablesOf (.foreign .rule) rule
  let profile ← variablesOf (.foreign .profile) profile
  let global ← variablesOf (.foreign .global) global
  let system ← variablesOf (.foreign .system) system
  return { system, global, profile, rule }

/-- The context with the enabled variables of the given lists. -/
def buildEntries (system global profile rule : List Entry) : Except Fault Context := do
  let system ← variablesOf .notEnabled system
  let global ← variablesOf .notEnabled global
  let profile ← variablesOf .notEnabled profile
  let rule ← variablesOf .notEnabled rule
  return build { system, global, profile, rule }

/-! ### System variables -/

/-- A system variable. -/
def systemVariable (name value description : String) (tags : List String) : Variable :=
  { name, value := .text value, scope := .system, description := .text description,
    tags := tags.map .text }

/-- The built-in variables; each calls a function. -/
def builtIn : List Variable := [
  systemVariable "timestamp" "$\x7btimestamp()\x7d" "Current Unix timestamp" ["time", "system"],
  systemVariable "iso_date" "$\x7biso_date()\x7d" "Current ISO date string" ["time", "system"],
  systemVariable "uuid" "$\x7buuid()\x7d" "Generated UUID v4" ["random", "system"],
  systemVariable "request_id" "$\x7buuid()\x7d" "Unique request identifier" ["request", "system"]]

/-- The variables that describe a request. -/
def ofRequest (r : Request) : List Variable :=
  [("url", r.url), ("method", r.method), ("domain", r.domain), ("path", r.path),
    ("protocol", r.protocol)].map fun (name, value) =>
      systemVariable name value ("Request " ++ name) ["request", "system"]

/-- The system variables of a context that brings none of its own. -/
def systemFor (request : Option Request) : List Variable :=
  (request.map ofRequest).getD [] ++ builtIn

end Context
end Stencil
