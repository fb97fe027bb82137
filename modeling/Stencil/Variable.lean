/-
# Variables

A variable gives a name a value in one of four scopes. Where several scopes
define a name the one of the highest precedence wins. Variables of profiles and
rules belong to an owner. The value of a well-formed variable is a text, a
template again; any other value is refused when it is first used.

Key definitions: `Scope`, `Scope.precedence`, `Variable`, `Variable.tagsOf`.
-/
import Stencil.Refusal

namespace Stencil

/-! ### Scopes -/

inductive Scope where
  | system
  | global
  | profile
  | rule
deriving DecidableEq, Repr

namespace Scope

/-- The scopes, the highest precedence first. -/
def precedence : List Scope := [rule, profile, global, system]

def name : Scope → String
  | system => "system"
  | global => "global"
  | profile => "profile"
  | rule => "rule"

/-- The scope of a name. -/
def ofName? (name : String) : Option Scope := precedence.find? fun s => s.name == name

/-- The scope that a value names, or the message for a value that names none. -/
def ofValue (v : Value) : Except String Scope :=
  match v with
  | .text s =>
    match ofName? s with
    | some scope => .ok scope
    | none => .error (v.quoted ++ " is not a valid VariableScope")
  | v => .error (v.quoted ++ " is not a valid VariableScope")

end Scope

/-! ### Variables -/

structure Variable where
  name : String
  value : Value
  scope : Scope := .global
  owner : Option String := none
  isEnabled : Bool := true
  isSecret : Bool := false
  tags : List Value := []
  description : Value := .null
  /-- When the variable was made, if that is known. -/
  created : Option String := none
  /-- When its value was last changed, if it ever was. -/
  updated : Option String := none
  usageCount : Int := 0

namespace Variable

/-- The tags that a value stands for: the items of a list, the characters of a text, the keys of a
mapping, and none for any empty or zero value; or the message for a value that has no items. -/
def tagsOf (v : Value) : Except String (List Value) :=
  if !v.isTrue then .ok []
  else
    match v with
    | .list items => .ok items
    | .text s => .ok (s.toList.map fun c => .text (String.singleton c))
    | .map entries => .ok (entries.map Prod.fst)
    | v => .error s!"'{v.kindName}' object is not iterable"

/-- The text that a variable's value has to be. -/
def template? (v : Variable) : Except Refusal String := v.value.template?

end Variable
end Stencil
