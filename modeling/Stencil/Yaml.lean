/-
# YAML

The value of a YAML text: mappings and lists in block and flow style, plain,
quoted and block scalars, comments, named nodes, and the tag for texts.
Directives and texts of several documents are not read. Of several faults in
the nodes of a well-formed text the one nearest to the root counts, and of
those the first.

Key definitions: `Yaml.read`.
-/
import Stencil.Yaml.Compose
import Stencil.Yaml.Implied

namespace Stencil
namespace Yaml

/-- A character that may stand in a text. -/
def isAllowed (c : Char) : Bool :=
  c == '\t' || c == '\n' || c == '\r' || (' ' ≤ c && c ≤ '~') || c == '\x85' ||
    ('\xa0' ≤ c && c ≤ '\ud7ff') || ('\ue000' ≤ c && c ≤ '\ufffd') || 0x10000 ≤ c.toNat

/-- The value of a scalar. -/
def scalarValue (tag : Option (List Char)) (text : List Char) (isPlain : Bool) : Except Fault Value :=
  match tag with
  | some name =>
    if name == "str".toList then .ok (.text (String.ofList text)) else .error .malformed
  | none =>
    if !isPlain then .ok (.text (String.ofList text))
    else if text == ['='] || text == ['<', '<'] then .error .malformed
    else Implied.ofPlain text

/-- The value of a key. No collection is a key. -/
def keyValue : Node → Except Fault Value
  | .scalar none ['='] true => .ok (.text "=")
  | .scalar tag text isPlain => scalarValue tag text isPlain
  | _ => .error .malformed

/-! ### Faults -/

/-- The fault of a result, if it is one. -/
def faultOf {α : Type} : Except Fault α → List Fault
  | .ok _ => []
  | .error f => [f]

/-- The fault of a node, whatever it contains. -/
def ownFault : Node → List Fault
  | .scalar tag text isPlain => faultOf (scalarValue tag text isPlain)
  | .sequence tag _ => if tag.isSome then [.malformed] else []
  | .mapping tag _ => if tag.isSome then [.malformed] else []
  | .named .. => [.malformed]
  | .alias _ => [.malformed]

/-- The layers of two things beside each other. -/
def beside {α : Type} : List (List α) → List (List α) → List (List α)
  | a :: r, b :: s => (a ++ b) :: beside r s
  | [], s => s
  | r, [] => r

mutual

/-- The faults inside a node, layer by layer. -/
def layers : Node → List (List Fault)
  | .scalar .. => []
  | .sequence _ items => items.flatMap ownFault :: layersOfItems items
  | .mapping _ entries =>
    (entries.flatMap fun (k, v) => faultOf (keyValue k) ++ ownFault v) :: layersOfEntries entries
  | .named .. => []
  | .alias _ => []

def layersOfItems : List Node → List (List Fault)
  | [] => []
  | n :: r => beside (layers n) (layersOfItems r)

def layersOfEntries : List (Node × Node) → List (List Fault)
  | [] => []
  | (_, v) :: r => beside (layers v) (layersOfEntries r)

end

/-- All faults of a node, those nearest to it first. -/
def faults (n : Node) : List Fault := ownFault n ++ (layers n).flatten

/-! ### Values -/

mutual

/-- The value of a node without faults. -/
def value : Node → Except Fault Value
  | .scalar tag text isPlain => scalarValue tag text isPlain
  | .sequence _ items => (valuesOf items).map .list
  | .mapping _ entries => (pairsOf entries).map fun es => .map (Value.mapOf es)
  | .named .. => .error .malformed
  | .alias _ => .error .malformed

/-- The values of nodes. -/
def valuesOf : List Node → Except Fault (List Value)
  | [] => .ok []
  | n :: r => do
    let v ← value n
    let vs ← valuesOf r
    return v :: vs

/-- The keys and values of entries. -/
def pairsOf : List (Node × Node) → Except Fault (List (Value × Value))
  | [] => .ok []
  | (k, v) :: r => do
    let k ← keyValue k
    let v ← value v
    let es ← pairsOf r
    return (k, v) :: es

end

/-- The value of a node. -/
def valueOf (n : Node) : Except Fault Value :=
  match faults n with
  | f :: _ => .error f
  | [] => value n

/-- The node of a text. A wrong token before a fault of the scan counts, unless the scan had to go on
from it. -/
def nodeOf (scan : Scan) : Except Fault (Option Node) :=
  match Node.ofTokens? scan.tokens, scan.fault? with
  | .ok node?, none => .ok node?
  | .error _, none => .error .malformed
  | .ok _, some f => .error f
  | .error wrong, some f =>
    if wrong.isEmpty || scan.undecided.contains (scan.tokens.length - wrong.length) then .error f
    else .error .malformed

/-- The value of a text. An empty text stands for nothing. -/
def read (s : String) : Except Fault Value := do
  let cs := s.toList
  if !cs.all isAllowed then throw .malformed
  match ← nodeOf (Token.scan cs) with
  | none => return .null
  | some node =>
    let (node, _) ← orMalformed (node.compose [])
    valueOf node

end Yaml
end Stencil
