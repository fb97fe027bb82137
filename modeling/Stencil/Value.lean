/-
# Values

The values that arguments, declarations and settings are made of, with the two
ways of writing one: as bare text, and as it stands inside a list or a
mapping, where texts are quoted. An integer of too many digits has no text.

Keys of a mapping are the same when they are equal texts, equal dates, the same
timestamps or equal numbers; a truth value counts as the number 0 or 1.

Key definitions: `Value`, `Value.isTrue`, `Value.sameKey`, `Value.plain`,
`Value.quoted`, `Value.isWritable`.
-/
import Stencil.Calendar.Timestamp
import Stencil.Number.Numeral
import Stencil.Text.Quoted

namespace Stencil

/-- A value of any kind. -/
inductive Value where
  | null
  | bool (b : Bool)
  | int (i : Int)
  | float (x : Float)
  | text (s : String)
  | date (d : Calendar.Date)
  | timestamp (t : Calendar.Timestamp)
  | list (items : List Value)
  | map (entries : List (Value × Value))
deriving Inhabited

namespace Value

/-- The name of a value's kind. -/
def kindName : Value → String
  | null => "NoneType"
  | bool _ => "bool"
  | int _ => "int"
  | float _ => "float"
  | text _ => "str"
  | date _ => "date"
  | timestamp _ => "datetime"
  | list _ => "list"
  | map _ => "dict"

/-- Empty and zero values are false. -/
def isTrue : Value → Bool
  | null => false
  | bool b => b
  | int i => i != 0
  | float x => x != 0
  | text s => !s.isEmpty
  | date _ => true
  | timestamp _ => true
  | list items => !items.isEmpty
  | map entries => !entries.isEmpty

/-- The number that a value stands for in arithmetic. -/
def number? : Value → Option Number
  | bool b => some (.int (if b then 1 else 0))
  | int i => some (.int i)
  | float x => some (.float x)
  | _ => none

def ofNumber : Number → Value
  | .int i => int i
  | .float x => float x

/-- Whether two keys of a mapping are the same. -/
def sameKey (a b : Value) : Bool :=
  match a.number?, b.number? with
  | some x, some y => x.same y
  | some _, none => false
  | none, some _ => false
  | none, none =>
    match a, b with
    | null, null => true
    | text s, text t => s == t
    | date d, date e => d == e
    | timestamp t, timestamp u => t.same u
    | _, _ => false

/-- Sets the value of a key; a new key goes to the end. -/
def put (key value : Value) : List (Value × Value) → List (Value × Value)
  | [] => [(key, value)]
  | (k, v) :: r => if k.sameKey key then (k, value) :: r else (k, v) :: put key value r

/-- The mapping with the given pairs, later ones replacing earlier values. -/
def mapOf (pairs : List (Value × Value)) : List (Value × Value) :=
  pairs.foldl (fun m (k, v) => put k v m) []

/-- The value of a text key. -/
def lookup? (entries : List (Value × Value)) (key : String) : Option Value :=
  (entries.find? fun (k, _) => k.sameKey (text key)).map Prod.snd

/-- The text of a truth value. -/
def boolText (b : Bool) : String := if b then "True" else "False"

/-! ### Writing values -/

mutual

/-- A value as it stands inside a list or a mapping. -/
def quoted : Value → String
  | null => "None"
  | bool b => boolText b
  | int i => intText i
  | float x => Binary64.text x
  | text s => Text.quoted s
  | date d => s!"datetime.date({intText d.year}, {d.month}, {d.day})"
  | timestamp t => t.quoted
  | list [] => "[]"
  | list (x :: r) => "[" ++ x.quoted ++ quotedItems r ++ "]"
  | map [] => "\x7b\x7d"
  | map ((k, v) :: r) => "\x7b" ++ k.quoted ++ ": " ++ v.quoted ++ quotedEntries r ++ "\x7d"

/-- Items after the first of a list. -/
def quotedItems : List Value → String
  | [] => ""
  | x :: r => ", " ++ x.quoted ++ quotedItems r

/-- Entries after the first of a mapping. -/
def quotedEntries : List (Value × Value) → String
  | [] => ""
  | (k, v) :: r => ", " ++ k.quoted ++ ": " ++ v.quoted ++ quotedEntries r

end

mutual

/-- Whether every integer inside has few enough digits to be written. -/
def isWritable : Value → Bool
  | int i => i.natAbs < Numeral.tooLarge
  | list items => areWritable items
  | map entries => haveWritable entries
  | _ => true

def areWritable : List Value → Bool
  | [] => true
  | x :: r => x.isWritable && areWritable r

def haveWritable : List (Value × Value) → Bool
  | [] => true
  | (k, v) :: r => k.isWritable && v.isWritable && haveWritable r

end

/-- A value as bare text. -/
def plain : Value → String
  | text s => s
  | date d => d.iso
  | timestamp t => t.text
  | v => v.quoted

end Value
end Stencil
