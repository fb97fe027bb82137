/-
# Fingerprints

Two contexts in which every scope shows the same names with the same values
have one fingerprint: the digest of that mapping, written as JSON with the
scopes in order of precedence and the names of a scope in order.

Key definitions: `Value.json`, `mapping`, `fingerprint`.
-/
import Stencil.Context
import Stencil.Digest.Sha256
import Stencil.Text.Quoted

namespace Stencil

namespace Value

/-- A double in JSON. -/
def jsonFloat (x : Float) : String :=
  if x.isNaN then "NaN" else if x.isInf then (if x < 0 then "-Infinity" else "Infinity")
  else Binary64.text x

/-- A key of a mapping in JSON, always a text. -/
def jsonKey : Value → String
  | null => Text.jsonString "null"
  | bool b => Text.jsonString (if b then "true" else "false")
  | float x => Text.jsonString (jsonFloat x)
  | v => Text.jsonString v.plain

mutual

/-- A value in JSON, without spaces. -/
def json : Value → String
  | null => "null"
  | bool b => if b then "true" else "false"
  | int i => intText i
  | float x => jsonFloat x
  | text s => Text.jsonString s
  | date d => Text.jsonString d.iso
  | timestamp t => Text.jsonString t.text
  | list [] => "[]"
  | list (x :: r) => "[" ++ x.json ++ jsonItems r ++ "]"
  | map [] => "\x7b\x7d"
  | map ((k, v) :: r) => "\x7b" ++ k.jsonKey ++ ":" ++ v.json ++ jsonEntries r ++ "\x7d"

/-- Items after the first of a list. -/
def jsonItems : List Value → String
  | [] => ""
  | x :: r => "," ++ x.json ++ jsonItems r

/-- Entries after the first of a mapping. -/
def jsonEntries : List (Value × Value) → String
  | [] => ""
  | (k, v) :: r => "," ++ k.jsonKey ++ ":" ++ v.json ++ jsonEntries r

end

end Value

namespace Context

/-- The visible names of a scope with their values, the names in order. -/
def mapping (c : Context) (s : Scope) : List (String × Value) :=
  ((c.visible s).map fun v => (v.name, v.value)).mergeSort fun a b => !decide (b.1 < a.1)

/-- The mappings of all scopes, as a value. -/
def mappings (c : Context) : Value :=
  .list (Scope.precedence.map fun s =>
    .list [.text s.name, .list ((c.mapping s).map fun (n, v) => .list [.text n, v])])

/-- The digest of a context's mappings. -/
def fingerprint (c : Context) : String := Sha256.hexDigest (Text.utf8 c.mappings.json)

end Context
end Stencil
