/-
# Cycles

A reference cycle is a list of different names, each of which refers to the
next and the last to the first. Rotations of a cycle count as one. A search
finds a cycle for each reference back to a name on its path; where a name lies
on a cycle but on none of those, the shortest cycle through it is added.

Key definitions: `shortestCycle`, `components`, `cycles`, `cycleMembers`.
-/
import Stencil.Graph.Search

namespace Stencil
namespace Graph

/-! ### The shortest cycle through a name -/

/-- Lengthens a path, which is kept backwards, by each child in `fresh`: the longer paths and what
is left of `fresh`. A child that is the source closes a cycle. -/
def lengthen (source : String) (path : List String) :
    (children fresh : List String) → Except (List String) (List (List String) × List String)
  | [], fresh => .ok ([], fresh)
  | c :: cs, fresh =>
    if c == source then .error path.reverse
    else if fresh.contains c then
      match lengthen source path cs (fresh.erase c) with
      | .error cycle => .error cycle
      | .ok (paths, fresh) => .ok ((c :: path) :: paths, fresh)
    else lengthen source path cs fresh

theorem lengthen_length {source : String} {path children fresh rest : List String}
    {paths : List (List String)} (h : lengthen source path children fresh = .ok (paths, rest)) :
    paths.length + rest.length = fresh.length := by
  fun_induction lengthen source path children fresh generalizing paths rest with
  | case1 => cases h; simp
  | case2 => cases h
  | case3 => cases h
  | case4 c cs fresh _ hc paths' fresh' hr ih =>
    cases h
    have := ih hr
    have hm : c ∈ fresh := by simpa using hc
    have := List.length_erase_of_mem hm
    have := List.length_pos_of_mem hm
    simp only [List.length_cons]
    omega
  | case5 _ _ _ _ _ ih => exact ih h

/-- Goes through the paths in a queue, the shortest first, until one closes a cycle; empty if none
does. -/
def firstCycle (successors : String → List String) (source : String) (fresh : List String)
    (queue : List (List String)) : List String :=
  match queue with
  | [] => []
  | path :: q =>
    match _h : lengthen source path (successors (path.headD source)) fresh with
    | .error cycle => cycle
    | .ok (paths, rest) => firstCycle successors source rest (q ++ paths)
termination_by (fresh.length, queue.length)
decreasing_by
  have hl := lengthen_length _h
  cases paths with
  | nil =>
    simp only [List.length_nil, Nat.zero_add] at hl
    rw [hl, List.append_nil]
    exact Prod.Lex.right _ (Nat.lt_succ_self _)
  | cons p ps =>
    apply Prod.Lex.left
    simp only [List.length_cons] at hl
    omega

/-- A shortest cycle through `source` among `members`; empty if there is none. -/
def shortestCycle (successors : String → List String) (source : String) (members : List String) :
    List String :=
  firstCycle successors source members [[source]]

/-! ### Components -/

/-- The names of a graph in groups, in each group those that refer to one another, directly or
through others. A group comes before those that refer to it. -/
def components (g : Graph) : List (List String) :=
  let order := left (explore (lookIn g.adjacency) g.names g.names).flatten
  ((explore g.predecessors g.names order.reverse).map entered).reverse

/-! ### All cycles -/

/-- The rotation of a cycle that starts with its least name. -/
def leastFirst (cycle : List String) : List String :=
  match cycle with
  | [] => []
  | n :: r =>
    let least := r.foldl (fun m x => if x < m then x else m) n
    cycle.dropWhile (· != least) ++ cycle.takeWhile (· != least)

/-- Adds a cycle unless a rotation of it is there. -/
def addCycle (found : List (List String)) (cycle : List String) : List (List String) :=
  if (found.map leastFirst).contains (leastFirst cycle) then found else found ++ [cycle]

/-- Whether a name lies on one of the cycles. -/
def isCovered (found : List (List String)) (name : String) : Bool :=
  found.any fun cycle => cycle.contains name

/-- Adds the shortest cycle through a name that lies on none so far. -/
def cover (successors : String → List String) (members : List String)
    (found : List (List String)) (name : String) : List (List String) :=
  if isCovered found name then found
  else
    match shortestCycle successors name members with
    | [] => found
    | cycle => addCycle found cycle

/-- Whether a component holds a cycle: it has several names, or one that refers to itself. -/
def isCyclic (successors : String → List String) (component : List String) : Bool :=
  match component with
  | [n] => (successors n).contains n
  | _ => true

/-- The cycles of a graph, such that every name on a cycle lies on one of them. -/
def cycles (g : Graph) : List (List String) :=
  let successors := lookIn g.adjacency
  let starts := (g.roots ++ g.names).eraseDups
  let found := (loops (explore successors g.names starts).flatten).foldl addCycle []
  (g.components.filter (isCyclic successors)).foldl (fun found component =>
    (g.names.filter component.contains).foldl (cover successors component) found) found

/-- Each name on a cycle with the first cycle it lies on. -/
def cycleMembers (found : List (List String)) : List (String × List String) :=
  found.foldl (fun members cycle =>
    cycle.foldl (fun members name =>
      if members.any fun m => m.1 == name then members else members ++ [(name, cycle)]) members) []

end Graph
end Stencil
