/-
# Definitions

What a name means in a context: the variable that wins, the scope where it was
found, and its value read as a template.

Key definitions: `Definition`, `Context.define?`, `Definition.references`.
-/
import Stencil.Context
import Stencil.Failure
import Stencil.Template.Scan

namespace Stencil

/-- The meaning of a name. -/
structure Definition where
  /-- The scope where the variable was found. -/
  scope : Scope
  /-- The variable that wins. -/
  winner : Variable
  /-- The variable's value. -/
  text : String
  /-- The value's segments, or what is malformed in it. -/
  parsed : Except Template.Fault (List Segment)

namespace Definition

/-- The names that a definition refers to, in order. -/
def references (d : Definition) : List String :=
  match d.parsed with
  | .ok segments => Template.variableNames segments
  | .error _ => []

end Definition

namespace Context

/-- The meaning of a name; `none` if no scope defines it. -/
def define? (c : Context) (name : String) : Except Refusal (Option Definition) :=
  match c.lookup? name with
  | none => .ok none
  | some (scope, winner) =>
    match winner.template? with
    | .error e => .error e
    | .ok text =>
      match Template.parse text with
      | .error e => .error e
      | .ok parsed => .ok (some ⟨scope, winner, text, parsed⟩)

/-- Every name that some scope defines. -/
def definedNames (c : Context) : List String := c.effective.map Variable.name

end Context
end Stencil
