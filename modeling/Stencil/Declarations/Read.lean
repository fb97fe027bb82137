/-
# Reading declarations

A variable is declared by its value alone, or by a mapping that holds the value
and says more about the variable. Values are texts, numbers and truth values;
all of them become texts.

Key definitions: `Declarations.ofValue`, `Declarations.ofFile`.
-/
import Stencil.Declarations
import Stencil.Template.Scan

namespace Stencil
namespace Declarations

/-- A value as text. -/
def textOf (v : Value) : Except Fault String :=
  if v.isWritable then .ok v.plain else .error .unwritable

/-- A fault that lists keys, which have to be written for it. -/
def listing (fault : List Value → Fault) (keys : List Value) : Fault :=
  if keys.all Value.isWritable then fault keys else .unwritable

/-- Nothing, if all keys are allowed. -/
def checkKeys (fault : List Value → Fault) :
    List String → List (Value × Value) → Except Fault Unit :=
  Value.allowOnly .incomparable (listing fault)

/-! ### Variables -/

/-- What is said of a variable: its value, and the mapping that says more. -/
def options (name : String) (v : Value) : Except Fault (Value × List (Value × Value)) :=
  match v with
  | .map entries =>
    match checkKeys (.unknownKeys name) ["value", "enabled", "secret", "tags", "description"] entries with
    | .error f => .error f
    | .ok () =>
      match Value.lookup? entries "value" with
      | none => .error (.noValue name)
      | some value => .ok (value, entries)
  | v => .ok (v, [])

/-- The tags in a list; an empty value has none. -/
def tagsOf (name : String) (v? : Option Value) : Except Fault (List Value) :=
  match v? with
  | none => .ok []
  | some v =>
    if !v.isTrue then .ok []
    else
      match v with
      | .list items => .ok items
      | _ => .error (.notTags name)

/-- The text that a variable has as its value. -/
def valueText (name : String) : Value → Except Fault String
  | .null => .error (.notScalar name)
  | .list _ => .error (.notScalar name)
  | .map _ => .error (.notScalar name)
  | .bool b => .ok (if b then "true" else "false")
  | v => textOf v

/-- The truth value of a key. -/
def flag (name : String) (entries : List (Value × Value)) (key : String) (fallback : Bool) :
    Except Fault Bool :=
  match Value.lookup? entries key with
  | none => .ok fallback
  | some (.bool b) => .ok b
  | some v => .error (if v.isWritable then .notTruth name key v else .unwritable)

/-- The variable that an entry declares. -/
def ofEntry (scope : Scope) (owner : Option String) (key value : Value) : Except Fault Variable := do
  let name ← textOf key
  if !Template.isIdentifier name.toList then throw (.invalidName name)
  let (value, more) ← options name value
  let tags ← tagsOf name (Value.lookup? more "tags")
  let text ← valueText name value
  let isEnabled ← flag name more "enabled" true
  let isSecret ← flag name more "secret" false
  let tags ← tags.mapM textOf
  return {
    name, value := .text text, scope, owner, isEnabled, isSecret
    tags := tags.map .text
    description := (Value.lookup? more "description").getD .null }

/-- The variables that entries declare. -/
def ofEntries (scope : Scope) (owner : Option String) :
    List (Value × Value) → Except Fault (List Variable)
  | [] => .ok []
  | (key, value) :: r => do
    let v ← ofEntry scope owner key value
    let vs ← ofEntries scope owner r
    return v :: vs

/-- The variables that a part of the section declares. -/
def variablesOf (scope : Scope) (owner : Option String) (v? : Option Value) :
    Except Fault (List Variable) :=
  match v? with
  | none => .ok []
  | some .null => .ok []
  | some (.map entries) => ofEntries scope owner entries
  | some _ => .error (.notNames scope)

/-- Gives an owner its variables, in the place of any it had. -/
def putGroup (owner : String) (vs : List Variable) : Groups → Groups
  | [] => [(owner, vs)]
  | (o, us) :: r => if o == owner then (o, vs) :: r else (o, us) :: putGroup owner vs r

/-- The groups that entries declare, put to those there are. -/
def groupsOf (scope : Scope) (groups : Groups) : List (Value × Value) → Except Fault Groups
  | [] => .ok groups
  | (key, v) :: r => do
    let owner ← textOf key
    let vs ← variablesOf scope (some owner) (some v)
    groupsOf scope (putGroup owner vs groups) r

/-- The groups that a part of the section declares. -/
def groups (scope : Scope) (v? : Option Value) : Except Fault Groups :=
  match v? with
  | none => .ok []
  | some .null => .ok []
  | some (.map entries) => groupsOf scope [] entries
  | some _ => .error (.notGroups scope)

/-! ### The whole -/

/-- The entries of the section with the variables; an empty value has none. -/
def sectionOf (entries : List (Value × Value)) : Except Fault (List (Value × Value)) :=
  match Value.lookup? entries "variables" with
  | none => .ok []
  | some v =>
    if !v.isTrue then .ok []
    else
      match v with
      | .map es => .ok es
      | _ => .error .notSection

/-- The declarations that a value holds. -/
def ofValue (source : Option String) (v : Value) : Except Fault Declarations := do
  let entries ← (Document.entriesOf v).mapError Fault.document
  let parts ← sectionOf entries
  checkKeys .unknownSections ["system", "global", "profiles", "rules"] parts
  let system ← variablesOf .system none (Value.lookup? parts "system")
  let global ← variablesOf .global none (Value.lookup? parts "global")
  let profiles ← groups .profile (Value.lookup? parts "profiles")
  let rules ← groups .rule (Value.lookup? parts "rules")
  return { source, system, global, profiles, rules }

/-- The declarations of what is found at a path. -/
def ofFile (path : String) (found : Document.Found) : Except Fault Declarations := do
  let v ← (Document.read found).mapError Fault.document
  ofValue (some path) v

end Declarations
end Stencil
