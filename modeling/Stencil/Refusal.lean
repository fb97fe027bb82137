/-
# Refusals

What the engine declines to work on at all. A refusal ends the call that met
it; it is never part of a result, unlike the failures of single references.

Key definitions: `Refusal`, `Refusal.message`, `Value.plain?`, `Value.quoted?`.
-/
import Stencil.Value

namespace Stencil

/-- Why a call is declined. -/
inductive Refusal where
  /-- A template is not a text but a value of this kind. -/
  | notText (kind : String)
  /-- A context is a value of this kind. -/
  | notContext (kind : String)
  /-- An integer literal has this many digits. -/
  | literalTooLong (digits : Nat)
  /-- An integer has too many digits to be written. -/
  | unwritable
  /-- The time is an integer beyond the doubles. -/
  | timeBeyond
deriving DecidableEq, Repr

def Refusal.message : Refusal → String
  | notText kind => s!"Template must be a string, got {kind}"
  | notContext kind => s!"Context must be a ResolutionContext, got {kind}"
  | literalTooLong digits => Numeral.tooLongMessage digits
  | unwritable => Numeral.unwritableMessage
  | timeBeyond => Number.beyondMessage

/-- The bare text of a value that can be written. -/
def Value.plain? (v : Value) : Except Refusal String :=
  if v.isWritable then .ok v.plain else .error .unwritable

/-- The quoted text of a value that can be written. -/
def Value.quoted? (v : Value) : Except Refusal String :=
  if v.isWritable then .ok v.quoted else .error .unwritable

/-- The text that a value has to be where a template is expected. -/
def Value.template? : Value → Except Refusal String
  | .text s => .ok s
  | v => .error (.notText v.kindName)

end Stencil
