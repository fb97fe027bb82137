/-
# Function libraries

Functions known by their names.

Key definitions: `Library`, `Library.register`, `Library.invoke`,
`Library.extend`.
-/
import Stencil.Function

namespace Stencil

/-- Functions with different names. -/
structure Library where
  functions : List Function := []

namespace Library

def get? (l : Library) (name : String) : Option Function :=
  l.functions.find? fun f => f.name == name

def contains (l : Library) (name : String) : Bool := (l.get? name).isSome

/-- Puts a function in the place of the one with its name, or at the end. -/
def put (f : Function) : List Function → List Function
  | [] => [f]
  | g :: r => if g.name == f.name then f :: r else g :: put f r

/-- The library with a function, in place of any other with its name. -/
def replace (l : Library) (f : Function) : Library := ⟨put f l.functions⟩

/-- The message for a name that is taken. -/
def takenMessage (name : String) : String := s!"Function '{name}' is already registered"

/-- The library with a new function, unless its name is taken. -/
def register (l : Library) (f : Function) : Except String Library :=
  if l.contains f.name then .error (takenMessage f.name) else .ok (l.replace f)

/-- The library without the function of a name. -/
def unregister (l : Library) (name : String) : Library :=
  ⟨l.functions.filter fun f => f.name != name⟩

/-- The names of the functions, in order. -/
def names (l : Library) : List String := Text.sorted (l.functions.map Function.name)

/-- The functions, in the order of their names. -/
def list (l : Library) : List Function := l.names.filterMap l.get?

/-- The library with the given functions in place of those with their names. -/
def extend (l : Library) (functions : List Function) : Library := functions.foldl replace l

/-- The functions that do not come with every library. -/
def custom (l : Library) : List Function := l.list.filter fun f => !f.isBuiltIn

/-- Calls a function by its name. -/
def invoke (l : Library) (name : String) (arguments : List Value) (s : Sources) :
    Except CallStop String × Sources :=
  match l.get? name with
  | none => (.error (.failed (.call name "unknown function")), s)
  | some f => f.invoke arguments s

end Library
end Stencil
