/-
# The edges of a graph

In every graph that is built from nodes and edges each name has one node and
edges join nodes (`build_isWellFormed`). The table that a search looks names up
in then tells exactly the edges (`IsWellFormed.mem_lookIn`).

Key definitions: `Edge`, `IsWellFormed`, `Edit`, `build`.
Key theorems: `IsWellFormed.mem_lookIn`, `build_isWellFormed`.
-/
import Stencil.Proofs.Graph.Search

namespace Stencil
namespace Graph

open ListFacts

/-- The graph has an edge from `a` to `b`. -/
def Edge (g : Graph) (a b : String) : Prop := (a, b) ∈ g.edges

/-- Every name has one node, and edges join nodes. -/
structure IsWellFormed (g : Graph) : Prop where
  nodup : g.names.Nodup
  ends : ∀ e ∈ g.edges, e.1 ∈ g.names ∧ e.2 ∈ g.names

theorem mem_successors {g : Graph} {a b : String} : b ∈ g.successors a ↔ g.Edge a b := by
  unfold successors Edge
  constructor
  · intro h
    obtain ⟨⟨x, y⟩, he, rfl⟩ := List.mem_map.1 h
    obtain ⟨he, hx⟩ := List.mem_filter.1 he
    rw [← beq_iff_eq.1 hx]
    exact he
  · exact fun h => List.mem_map.2 ⟨(a, b), List.mem_filter.2 ⟨h, beq_self_eq_true a⟩, rfl⟩

theorem mem_predecessors {g : Graph} {a b : String} : a ∈ g.predecessors b ↔ g.Edge a b := by
  unfold predecessors Edge
  constructor
  · intro h
    obtain ⟨⟨x, y⟩, he, rfl⟩ := List.mem_map.1 h
    obtain ⟨he, hy⟩ := List.mem_filter.1 he
    rw [← beq_iff_eq.1 hy]
    exact he
  · exact fun h => List.mem_map.2 ⟨(a, b), List.mem_filter.2 ⟨h, beq_self_eq_true b⟩, rfl⟩

theorem lookIn_map {f : String → List String} {ns : List String} {n : String} (h : n ∈ ns) :
    lookIn (ns.map fun n => (n, f n)) n = f n := by
  unfold lookIn
  induction ns with
  | nil => exact absurd h List.not_mem_nil
  | cons a ns ih =>
    rw [List.map_cons]
    by_cases han : a = n
    · rw [List.find?_cons_of_pos (by simpa using han), han]
      rfl
    · rw [List.find?_cons_of_neg (by simpa using han)]
      exact ih ((List.mem_cons.1 h).resolve_left (Ne.symm han))

theorem lookIn_map_of_not_mem {f : String → List String} {ns : List String} {n : String}
    (h : n ∉ ns) : lookIn (ns.map fun n => (n, f n)) n = [] := by
  unfold lookIn
  rw [List.find?_eq_none.2]
  · rfl
  · intro e he hn
    obtain ⟨m, hm, rfl⟩ := List.mem_map.1 he
    exact h (beq_iff_eq.1 hn ▸ hm)

theorem mem_adjacency {g : Graph} {a : String} {ms : List String} :
    (a, ms) ∈ g.adjacency ↔ a ∈ g.names ∧ ms = g.successors a := by
  simp only [adjacency, List.mem_map, Prod.mk.injEq]
  constructor
  · rintro ⟨n, hn, rfl, rfl⟩
    exact ⟨hn, rfl⟩
  · rintro ⟨ha, rfl⟩
    exact ⟨a, ha, rfl, rfl⟩

/-- The table of a graph lists its edges. -/
theorem IsWellFormed.mem_adjacency_iff {g : Graph} (h : g.IsWellFormed) {a b : String} :
    (∃ ms, (a, ms) ∈ g.adjacency ∧ b ∈ ms) ↔ g.Edge a b := by
  constructor
  · rintro ⟨ms, hm, hb⟩
    obtain ⟨-, rfl⟩ := mem_adjacency.1 hm
    exact mem_successors.1 hb
  · intro he
    exact ⟨_, mem_adjacency.2 ⟨(h.ends _ he).1, rfl⟩, mem_successors.2 he⟩

/-- The table of a graph tells its edges. -/
theorem IsWellFormed.mem_lookIn {g : Graph} (h : g.IsWellFormed) {a b : String} :
    b ∈ lookIn g.adjacency a ↔ g.Edge a b := by
  by_cases ha : a ∈ g.names
  · rw [adjacency, lookIn_map ha, mem_successors]
  · rw [adjacency, lookIn_map_of_not_mem ha]
    exact ⟨fun hm => absurd hm List.not_mem_nil, fun he => absurd (h.ends _ he).1 ha⟩

theorem IsWellFormed.follows {g : Graph} (h : g.IsWellFormed) :
    Follows (lookIn g.adjacency) = g.Edge := by
  funext a b
  exact propext h.mem_lookIn

theorem IsWellFormed.closed_predecessors {g : Graph} (h : g.IsWellFormed) :
    Closed g.predecessors g.names :=
  fun _ hx _ hy => absurd (h.ends _ (mem_predecessors.1 hy)).2 hx

/-! ### Building a graph -/

/-- A change to a graph. -/
inductive Edit where
  | node (name : String) (details : NodeDetails)
  | edge (source target : String)

/-- The graph after a change. -/
def Edit.apply (g : Graph) : Edit → Graph
  | node name details => g.addNode name details
  | edge source target => g.addEdge source target

/-- The graph of some roots after some edits. -/
def build (roots : List String) (edits : List Edit) : Graph :=
  edits.foldl Edit.apply (ofRoots roots)

theorem putNode_names (name : String) (details : NodeDetails) (nodes : List Node) :
    (putNode name details nodes).map Node.name =
      if name ∈ nodes.map Node.name then nodes.map Node.name
      else nodes.map Node.name ++ [name] := by
  refine map_put (putNode name details) rfl (fun n r => ?_) nodes
  rw [putNode]
  by_cases hn : n.name = name
  · rw [if_pos (beq_iff_eq.2 hn), if_pos hn, List.map_cons]
  · rw [if_neg (by simpa using hn), if_neg hn, List.map_cons]

theorem contains_iff {g : Graph} {name : String} : g.contains name = true ↔ name ∈ g.names := by
  unfold contains find? names
  rw [List.find?_isSome]
  simp

theorem touch_names (g : Graph) (name : String) :
    (g.touch name).names = if name ∈ g.names then g.names else g.names ++ [name] := by
  unfold touch
  by_cases h : name ∈ g.names
  · rw [if_pos (contains_iff.2 h), if_pos h]
  · rw [if_neg (fun hc => h (contains_iff.1 hc)), if_neg h]
    simp [names]

theorem touch_edges (g : Graph) (name : String) : (g.touch name).edges = g.edges := by
  unfold touch
  split <;> rfl

theorem IsWellFormed.addNode {g : Graph} (h : g.IsWellFormed) (name : String)
    (details : NodeDetails) : (g.addNode name details).IsWellFormed := by
  have hn : (g.addNode name details).names =
      if name ∈ g.names then g.names else g.names ++ [name] := putNode_names name details g.nodes
  refine ⟨by rw [hn]; exact nodup_insert h.nodup, fun e he => ?_⟩
  rw [hn, mem_insert, mem_insert]
  exact ⟨.inl (h.ends e he).1, .inl (h.ends e he).2⟩

theorem IsWellFormed.touch {g : Graph} (h : g.IsWellFormed) (name : String) :
    (g.touch name).IsWellFormed := by
  refine ⟨by rw [touch_names]; exact nodup_insert h.nodup, fun e he => ?_⟩
  rw [touch_edges] at he
  rw [touch_names, mem_insert, mem_insert]
  exact ⟨.inl (h.ends e he).1, .inl (h.ends e he).2⟩

theorem mem_touch {g : Graph} {name n : String} :
    n ∈ (g.touch name).names ↔ n ∈ g.names ∨ n = name := by
  rw [touch_names, mem_insert]

theorem IsWellFormed.addEdge {g : Graph} (h : g.IsWellFormed) (source target : String) :
    (g.addEdge source target).IsWellFormed := by
  have ht := (h.touch source).touch target
  unfold Graph.addEdge
  dsimp only
  split_ifs with hc
  · exact ht
  · refine ⟨ht.nodup, fun e he => ?_⟩
    rcases List.mem_append.1 he with he | he
    · exact ht.ends e he
    · rw [List.mem_singleton.1 he]
      exact ⟨mem_touch.2 (.inl (mem_touch.2 (.inr rfl))), mem_touch.2 (.inr rfl)⟩

/-- Every graph that is built is well-formed. -/
theorem build_isWellFormed (roots : List String) (edits : List Edit) :
    (build roots edits).IsWellFormed := by
  have h : ∀ (edits : List Edit) (g : Graph), g.IsWellFormed →
      (edits.foldl Edit.apply g).IsWellFormed := by
    intro edits
    induction edits with
    | nil => exact fun g hg => hg
    | cons s edits ih =>
      intro g hg
      cases s with
      | node name details => exact ih _ (hg.addNode name details)
      | edge source target => exact ih _ (hg.addEdge source target)
  exact h edits _ ⟨List.nodup_nil, fun e he => absurd he List.not_mem_nil⟩

end Graph
end Stencil
