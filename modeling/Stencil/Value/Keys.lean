/-
# The keys of a mapping

Keys that are all texts, all numbers, all dates or all timestamps have an
order; keys of different kinds have none. Where only some keys are allowed, the
others are told in their order.

Key definitions: `Value.less?`, `Value.sortedKeys`, `Value.allowOnly`.
-/
import Stencil.Value

namespace Stencil

/-- Two values of which neither is less than the other, by their kinds. -/
structure Incomparable where
  comparison : String
  left : String
  right : String

def Incomparable.message (i : Incomparable) : String :=
  s!"'{i.comparison}' not supported between instances of '{i.left}' and '{i.right}'"

namespace Value

/-- The name of a value's kind with that of its family. -/
def fullKindName : Value → String
  | date _ => "datetime.date"
  | timestamp _ => "datetime.datetime"
  | v => v.kindName

/-- Whether a date is earlier than another one. -/
def isEarlier (a b : Calendar.Date) : Bool :=
  decide (a.year < b.year) || (a.year == b.year &&
    (decide (a.month < b.month) || (a.month == b.month && decide (a.day < b.day))))

/-- Whether a value is less than another one, where they have an order. -/
def less? (a b : Value) : Option Bool :=
  match a.number?, b.number? with
  | some x, some y => some (x.lt y)
  | none, none =>
    match a, b with
    | text s, text t => some (decide (s < t))
    | date d, date e => some (isEarlier d e)
    | timestamp t, timestamp u => t.isBefore? u
    | _, _ => none
  | _, _ => none

/-- The first key that cannot be compared with `first`. -/
def foreignKey? (first : Value) (keys : List Value) : Option Value :=
  keys.find? fun k => (k.less? first).isNone

/-- Keys in order, if they have one. -/
def sortedKeys : List Value → Except Incomparable (List Value)
  | [] => .ok []
  | first :: keys =>
    match foreignKey? first keys with
    | some k => .error ⟨"<", k.fullKindName, first.fullKindName⟩
    | none => .ok ((first :: keys).mergeSort fun a b => !((b.less? a).getD false))

/-- The keys of a mapping that are not among the allowed texts. -/
def unknownKeys (allowed : List String) (entries : List (Value × Value)) : List Value :=
  (entries.map Prod.fst).filter fun k => !allowed.any fun a => k.sameKey (text a)

/-- Nothing, if all keys are allowed. Else the fault that the others are: `incomparable` if they have
no order, and `told` of them in their order. -/
def allowOnly {F : Type} (incomparable : Incomparable → F) (told : List Value → F)
    (allowed : List String) (entries : List (Value × Value)) : Except F Unit :=
  match sortedKeys (unknownKeys allowed entries) with
  | .error i => .error (incomparable i)
  | .ok [] => .ok ()
  | .ok keys => .error (told keys)

end Value
end Stencil
