/-
# Reference graphs

The nodes of the graph are names of variables; an edge says that the value of
one refers to the other. Nodes and edges keep the order in which they were
added.

Key definitions: `Graph`, `Graph.addNode`, `Graph.addEdge`,
`Graph.successors`, `Graph.adjacency`.
-/

namespace Stencil

/-- What is known of a name that has been looked up. -/
structure NodeDetails where
  isDefined : Bool
  scope : Option String := none
  value : Option String := none
  /-- Why the value cannot be read. -/
  error : Option String := none

/-- A name, with its details once it has been looked up. -/
structure Node where
  name : String
  details? : Option NodeDetails := none

structure Graph where
  /-- The names from which the graph was made. -/
  roots : List String := []
  nodes : List Node := []
  edges : List (String × String) := []

namespace Graph

/-- The graph of some roots without any node. -/
def ofRoots (roots : List String) : Graph := { roots := roots.eraseDups }

def names (g : Graph) : List String := g.nodes.map Node.name

def find? (g : Graph) (name : String) : Option Node := g.nodes.find? fun n => n.name == name

def contains (g : Graph) (name : String) : Bool := (g.find? name).isSome

/-- Gives a node its details; a new node goes to the end. -/
def putNode (name : String) (details : NodeDetails) : List Node → List Node
  | [] => [⟨name, some details⟩]
  | n :: r => if n.name == name then ⟨name, some details⟩ :: r else n :: putNode name details r

/-- The graph with the details of a name. -/
def addNode (g : Graph) (name : String) (details : NodeDetails) : Graph :=
  { g with nodes := putNode name details g.nodes }

/-- The graph with a node for a name. -/
def touch (g : Graph) (name : String) : Graph :=
  if g.contains name then g else { g with nodes := g.nodes ++ [⟨name, none⟩] }

/-- The graph with an edge, and with its ends as nodes. -/
def addEdge (g : Graph) (source target : String) : Graph :=
  let g := (g.touch source).touch target
  if g.edges.contains (source, target) then g else { g with edges := g.edges ++ [(source, target)] }

/-- The names that a name refers to, in order. -/
def successors (g : Graph) (name : String) : List String :=
  (g.edges.filter fun e => e.1 == name).map Prod.snd

/-- The names that refer to a name, in order. -/
def predecessors (g : Graph) (name : String) : List String :=
  (g.edges.filter fun e => e.2 == name).map Prod.fst

/-- Each name with the names it refers to. -/
def adjacency (g : Graph) : List (String × List String) :=
  g.names.map fun n => (n, g.successors n)

/-- The edges, those of one source together, in the order of the nodes. -/
def edgesBySource (g : Graph) : List (String × String) :=
  g.adjacency.flatMap fun (n, ms) => ms.map fun m => (n, m)

def isDefined (g : Graph) (name : String) : Bool :=
  (((g.find? name).bind Node.details?).map NodeDetails.isDefined).getD false

end Graph
end Stencil
