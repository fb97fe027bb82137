/-
# Orders of a graph

An order in which every name comes before those it refers to: names to which
nothing refers come first, and each name follows as soon as all that refer to
it are there. Names on cycles, and those only reached from them, never follow.

Key definitions: `freed`, `release`, `sourceOrder`, `isAcyclic`.
-/
import Stencil.Graph

namespace Stencil
namespace Graph

/-- The targets of `edges` at which no edge of `rest` ends. -/
def freed (edges rest : List (String × String)) : List String :=
  (edges.map Prod.snd).filter fun m => !rest.any fun e => e.2 == m

/-- The edges of a name. -/
def edgesOf (name : String) (edges : List (String × String)) : List (String × String) :=
  edges.filter fun e => e.1 == name

/-- The edges of all other names. -/
def edgesBut (name : String) (edges : List (String × String)) : List (String × String) :=
  edges.filter fun e => !(e.1 == name)

theorem edges_length (name : String) (edges : List (String × String)) :
    (edgesOf name edges).length + (edgesBut name edges).length = edges.length := by
  unfold edgesOf edgesBut
  induction edges with
  | nil => rfl
  | cons e r ih =>
    rw [List.filter_cons, List.filter_cons]
    cases e.1 == name
    · simp only [Bool.not_false, if_true, Bool.false_eq_true, if_false, List.length_cons]
      omega
    · simp only [Bool.not_true, if_true, Bool.false_eq_true, if_false, List.length_cons]
      omega

/-- Takes the names of a queue away one by one, each with its edges; names at which no edge ends
any more join the queue. -/
def release (queue : List String) (edges : List (String × String)) : List String :=
  match queue with
  | [] => []
  | n :: q =>
    n :: release (q ++ freed (edgesOf n edges) (edgesBut n edges)) (edgesBut n edges)
termination_by (edges.length, queue.length)
decreasing_by
  have hl := edges_length n edges
  cases hm : edgesOf n edges with
  | nil =>
    rw [hm, List.length_nil, Nat.zero_add] at hl
    rw [hl]
    apply Prod.Lex.right
    simp [freed]
  | cons e r =>
    apply Prod.Lex.left
    rw [hm, List.length_cons] at hl
    omega

/-- The names, each before those it refers to, as far as cycles allow. -/
def sourceOrder (g : Graph) : List String :=
  release (g.names.filter fun n => !g.edges.any fun e => e.2 == n) g.edges

/-- Whether no name refers to itself, directly or through others. -/
def isAcyclic (g : Graph) : Bool := g.sourceOrder.length == g.nodes.length

end Graph
end Stencil
