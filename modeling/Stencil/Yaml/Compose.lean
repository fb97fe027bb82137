/-
# Named nodes

A node may have a name, and stands again wherever its name is called after it.
The key `<<` merges mappings into the one that it stands in: their entries go
before its own, those of the first mapping of a list last.

Key definitions: `Node.merged`, `Node.compose`.
-/
import Stencil.Yaml.Node

namespace Stencil
namespace Yaml
namespace Node

/-! ### Merging -/

/-- Whether a node is the key that merges. -/
def isMerge : Node → Bool
  | scalar none ['<', '<'] true => true
  | _ => false

/-- The entries of a mapping. -/
def entries? : Node → Option (List (Node × Node))
  | mapping _ entries => some entries
  | _ => none

/-- The entries that a node merges: those of a mapping, or of a list of mappings. -/
def mergeable? : Node → Option (List (Node × Node))
  | mapping _ entries => some entries
  | sequence _ items => (items.mapM entries?).map fun es => es.reverse.flatten
  | _ => none

/-- The entries of a mapping, those that are merged into it included. What cannot be merged stays,
before all else. -/
def merged (entries : List (Node × Node)) : List (Node × Node) :=
  let (merges, own) := entries.partition fun e => e.1.isMerge
  merges.filter (fun e => e.2.mergeable?.isNone) ++
    merges.flatMap (fun e => e.2.mergeable?.getD []) ++ own

/-! ### Names -/

/-- The nodes of the names given so far. -/
abbrev Names := List (List Char × Node)

mutual

/-- A node with other nodes in place of their names, and the names after it; none if a name is unknown
or given again. -/
def compose (names : Names) : Node → Option (Node × Names)
  | scalar tag text isPlain => some (scalar tag text isPlain, names)
  | sequence tag items => (composeItems names items).map fun (items, names) => (sequence tag items, names)
  | mapping tag entries =>
    (composeEntries names entries).map fun (entries, names) => (mapping tag (merged entries), names)
  | named name node => do
    let (node, names) ← compose names node
    if (names.lookup name).isSome then none
    return (node, (name, node) :: names)
  | .alias name => (names.lookup name).map fun node => (node, names)

def composeItems (names : Names) : List Node → Option (List Node × Names)
  | [] => some ([], names)
  | n :: r => do
    let (n, names) ← compose names n
    let (r, names) ← composeItems names r
    return (n :: r, names)

def composeEntries (names : Names) : List (Node × Node) → Option (List (Node × Node) × Names)
  | [] => some ([], names)
  | (k, v) :: r => do
    let (k, names) ← compose names k
    let (v, names) ← compose names v
    let (r, names) ← composeEntries names r
    return ((k, v) :: r, names)

end

end Node
end Yaml
end Stencil
