/-
# Depth-first search

A search walks along the references of a graph and tells what it meets: a name
entered for the first time, a name left when all its references have been
followed, and a reference back to a name it is still below of. The path to the
present name lies on a stack of frames, each with the references still to be
followed.

Key definitions: `Event`, `walk`, `explore`.
-/
import Stencil.Graph

namespace Stencil
namespace Graph

/-- What a search meets. -/
inductive Event where
  | enter (name : String)
  /-- The path from a name back to itself. -/
  | loop (path : List String)
  | leave (name : String)

/-- A name on the path, with the references still to be followed. -/
abbrev Frame := String × List String

/-- How much is left to do for the frames themselves. -/
def work : List Frame → Nat
  | [] => 0
  | f :: r => f.2.length + 1 + work r

/-- The path from `name`, which lies on the stack, up to the top. -/
def pathFrom (name : String) (frames : List Frame) : List String :=
  (name :: ((frames.map Prod.fst).takeWhile (· != name)).reverse)

/-- Walks on from a stack of frames. `fresh` holds the names not yet entered. The events, and the
names still fresh at the end. -/
def walk (successors : String → List String) (fresh : List String) (frames : List Frame) :
    List Event × List String :=
  match frames with
  | [] => ([], fresh)
  | (n, []) :: r =>
    let (events, fresh) := walk successors fresh r
    (.leave n :: events, fresh)
  | (n, c :: cs) :: r =>
    if (((n, c :: cs) :: r).map Prod.fst).contains c then
      let (events, fresh) := walk successors fresh ((n, cs) :: r)
      (.loop (pathFrom c ((n, cs) :: r)) :: events, fresh)
    else if _h : fresh.contains c then
      let (events, fresh) := walk successors (fresh.erase c) ((c, successors c) :: (n, cs) :: r)
      (.enter c :: events, fresh)
    else walk successors fresh ((n, cs) :: r)
termination_by (fresh.length, work frames)
decreasing_by
  · exact Prod.Lex.right _ (by simp only [work]; omega)
  · exact Prod.Lex.right _ (by simp only [work, List.length_cons]; omega)
  · apply Prod.Lex.left
    have hc : c ∈ fresh := by simpa using _h
    have := List.length_erase_of_mem hc
    have := List.length_pos_of_mem hc
    omega
  · exact Prod.Lex.right _ (by simp only [work, List.length_cons]; omega)

/-- Searches from a name that is still fresh. -/
def walkFrom (successors : String → List String) (fresh : List String) (start : String) :
    List Event × List String :=
  let (events, fresh) := walk successors (fresh.erase start) [(start, successors start)]
  (.enter start :: events, fresh)

/-- Searches from each start that is still fresh when its turn comes; one list of events for
each search. -/
def explore (successors : String → List String) (fresh : List String) :
    List String → List (List Event)
  | [] => []
  | s :: r =>
    if fresh.contains s then
      let (events, fresh) := walkFrom successors fresh s
      events :: explore successors fresh r
    else explore successors fresh r

/-- The names entered, in order. -/
def entered (events : List Event) : List String :=
  events.filterMap fun | .enter n => some n | _ => none

/-- The names left, in order. -/
def left (events : List Event) : List String :=
  events.filterMap fun | .leave n => some n | _ => none

/-- The paths back to a name on the way, in order. -/
def loops (events : List Event) : List (List String) :=
  events.filterMap fun | .loop p => some p | _ => none

/-- Look-up in a table of references. -/
def lookIn (table : List (String × List String)) (name : String) : List String :=
  ((table.find? fun e => e.1 == name).map Prod.snd).getD []

end Graph
end Stencil
