/-
# Nodes of a YAML text

The tree that tokens describe. A node that is left out is an empty plain
scalar. Where the tokens describe no tree, those from the first wrong one on
are given.

Key definitions: `Node`, `Node.ofTokens?`.
-/
import Stencil.Yaml.Token

namespace Stencil
namespace Yaml

inductive Node where
  | scalar (tag : Option (List Char)) (text : List Char) (isPlain : Bool)
  | sequence (tag : Option (List Char)) (items : List Node)
  | mapping (tag : Option (List Char)) (entries : List (Node × Node))
  /-- A node with a name. -/
  | named (name : List Char) (node : Node)
  /-- The node of a name. -/
  | alias (name : List Char)

/-- What is read; or the tokens from the first wrong one on. -/
abbrev Reading : Type → Type := Except (List Token)

namespace Node

/-- The node that is left out. -/
def missing : Node := scalar none [] true

/-- Whether the next token is one of some. -/
def isNext (ts : List Token) (ends : List Token) : Bool :=
  match ts with
  | [] => true
  | t :: _ => ends.contains t

/-- Where a node may stand: alone, as the value of a block mapping, or between brackets. -/
inductive Place where
  | block
  | blockValue
  | flow
deriving DecidableEq

/-- What is said of a node before it: a name and a tag. -/
structure Properties where
  name : Option (List Char) := none
  tag : Option (List Char) := none

/-- The properties of a node, in either order, and the tokens after them. -/
def readProperties : List Token → Properties × List Token
  | .anchor name :: .tag tag :: ts => (⟨some name, some tag⟩, ts)
  | .tag tag :: .anchor name :: ts => (⟨some name, some tag⟩, ts)
  | .anchor name :: ts => (⟨some name, none⟩, ts)
  | .tag tag :: ts => (⟨none, some tag⟩, ts)
  | ts => ({}, ts)

/-- The node of properties alone. -/
def ofProperties (p : Properties) (ts : List Token) : Reading (Node × List Token) :=
  if p.tag.isSome || p.name.isSome then .ok (.scalar p.tag [] true, ts) else .error ts

/-- A node with the name that its properties give it. -/
def named? (p : Properties) (n : Node) : Node :=
  match p.name with
  | some name => .named name n
  | none => n

/-- The tokens after the comma that has to stand before every element but the first. -/
def afterComma (isFirst : Bool) (ts : List Token) : Reading (List Token) :=
  if isFirst then .ok ts
  else
    match ts with
    | .comma :: ts => .ok ts
    | ts => .error ts

mutual

/-- Reads a node and gives the tokens after it. -/
def read : (fuel : Nat) → Place → List Token → Reading (Node × List Token)
  | 0, _, ts => .error ts
  | _ + 1, _, .alias name :: ts => .ok (.alias name, ts)
  | fuel + 1, place, ts => do
    let (p, ts) := readProperties ts
    let (node, ts) ← readContent fuel place p ts
    return (named? p node, ts)

/-- Reads a node after its properties. -/
def readContent : (fuel : Nat) → Place → Properties → List Token → Reading (Node × List Token)
  | 0, _, _, ts => .error ts
  | fuel + 1, place, p, ts =>
    match ts with
    | .scalar text isPlain :: ts => .ok (.scalar p.tag text isPlain, ts)
    | .openBracket :: ts => do
      let (items, ts) ← readFlowSequence fuel true ts
      return (.sequence p.tag items, ts)
    | .openBrace :: ts => do
      let (entries, ts) ← readFlowMapping fuel true ts
      return (.mapping p.tag entries, ts)
    | .entry :: _ =>
      if place = .blockValue then do
        let (items, ts) ← readEntries fuel ts
        return (.sequence p.tag items, ts)
      else ofProperties p ts
    | .sequenceStart :: r =>
      if place = .flow then ofProperties p ts
      else do
        let (items, ts) ← readEntries fuel r
        match ts with
        | .blockEnd :: ts => .ok (.sequence p.tag items, ts)
        | ts => .error ts
    | .mappingStart :: r =>
      if place = .flow then ofProperties p ts
      else do
        let (entries, ts) ← readMapping fuel r
        return (.mapping p.tag entries, ts)
    | ts => ofProperties p ts

/-- Reads a node, unless one of the tokens `ends` follows. -/
def readOptional : (fuel : Nat) → Place → (ends : List Token) → List Token → Reading (Node × List Token)
  | 0, _, _, ts => .error ts
  | fuel + 1, place, ends, ts => if isNext ts ends then .ok (missing, ts) else read fuel place ts

/-- Reads the entries of a block sequence, up to what follows the last one. -/
def readEntries : (fuel : Nat) → List Token → Reading (List Node × List Token)
  | 0, ts => .error ts
  | fuel + 1, .entry :: ts => do
    let (item, ts) ← readOptional fuel .block [.entry, .key, .value, .blockEnd] ts
    let (items, ts) ← readEntries fuel ts
    return (item :: items, ts)
  | _ + 1, ts => .ok ([], ts)

/-- Reads the entries of a block mapping and its end. -/
def readMapping : (fuel : Nat) → List Token → Reading (List (Node × Node) × List Token)
  | 0, ts => .error ts
  | fuel + 1, .key :: ts => do
    let ends := [.key, .value, .blockEnd]
    let (key, ts) ← readOptional fuel .blockValue ends ts
    let (value, ts) ← match ts with
      | .value :: ts => readOptional fuel .blockValue ends ts
      | ts => .ok (missing, ts)
    let (entries, ts) ← readMapping fuel ts
    return ((key, value) :: entries, ts)
  | _ + 1, .blockEnd :: ts => .ok ([], ts)
  | _ + 1, ts => .error ts

/-- Reads the items between brackets and the closing one. -/
def readFlowSequence : (fuel : Nat) → (isFirst : Bool) → List Token → Reading (List Node × List Token)
  | 0, _, ts => .error ts
  | _ + 1, _, .closeBracket :: ts => .ok ([], ts)
  | fuel + 1, isFirst, ts => do
    let ts ← afterComma isFirst ts
    match ts with
    | .closeBracket :: ts => .ok ([], ts)
    | .key :: ts =>
      let (key, ts) ← readOptional fuel .flow [.value, .comma, .closeBracket] ts
      let (value, ts) ← match ts with
        | .value :: ts => readOptional fuel .flow [.comma, .closeBracket] ts
        | ts => .ok (missing, ts)
      let (items, ts) ← readFlowSequence fuel false ts
      return (.mapping none [(key, value)] :: items, ts)
    | ts =>
      let (item, ts) ← read fuel .flow ts
      let (items, ts) ← readFlowSequence fuel false ts
      return (item :: items, ts)

/-- Reads the entries between braces and the closing one. -/
def readFlowMapping : (fuel : Nat) → (isFirst : Bool) → List Token → Reading (List (Node × Node) × List Token)
  | 0, _, ts => .error ts
  | _ + 1, _, .closeBrace :: ts => .ok ([], ts)
  | fuel + 1, isFirst, ts => do
    let ts ← afterComma isFirst ts
    match ts with
    | .closeBrace :: ts => .ok ([], ts)
    | .key :: ts =>
      let (key, ts) ← readOptional fuel .flow [.value, .comma, .closeBrace] ts
      let (value, ts) ← match ts with
        | .value :: ts => readOptional fuel .flow [.comma, .closeBrace] ts
        | ts => .ok (missing, ts)
      let (entries, ts) ← readFlowMapping fuel false ts
      return ((key, value) :: entries, ts)
    | ts =>
      let (key, ts) ← read fuel .flow ts
      let (entries, ts) ← readFlowMapping fuel false ts
      return ((key, missing) :: entries, ts)

end

/-- The node of a document of its own, and the tokens after it. -/
def readDocument (fuel : Nat) (ts : List Token) : Reading (Node × List Token) :=
  match ts with
  | .documentStart :: ts => readOptional fuel .block [.documentStart, .documentEnd] ts
  | ts => read fuel .block ts

/-- The node that tokens describe; no tokens describe none. -/
def ofTokens? (ts : List Token) : Reading (Option Node) :=
  if ts.isEmpty then .ok none
  else do
    let (node, ts) ← readDocument (4 * ts.length + 8) ts
    let rest := ts.dropWhile (· == .documentEnd)
    if rest.isEmpty then return some node else throw rest

end Node
end Yaml
end Stencil
