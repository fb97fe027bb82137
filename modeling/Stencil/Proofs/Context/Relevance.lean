/-
# Names that do not matter

What a template comes to in a context depends on the names that it reaches.
Where another context gives these the same values, it defines them by the same
texts, whatever the scopes, owners and other variables are; so the graphs of
both have the same roots, names and edges, and the same cycles.

Key definitions: `DefinedAlike`, `SameValues`, `Graph.Alike`.
Key theorems: `define?_alike`, `Graph.ofContext_alike`, `Graph.Alike.cycles`.
-/
import Stencil.Graph.Cycle
import Stencil.Proofs.Graph.Reach

namespace Stencil

namespace Context

/-- What a name means in two contexts: nothing, or what is read from one text. -/
inductive DefinedAlike :
    Except Refusal (Option Definition) → Except Refusal (Option Definition) → Prop where
  | error (r : Refusal) : DefinedAlike (.error r) (.error r)
  | none : DefinedAlike (.ok none) (.ok none)
  | some {d d' : Definition} (ht : d.text = d'.text) (hp : d.parsed = d'.parsed) :
      DefinedAlike (.ok (some d)) (.ok (some d'))

/-- The value of the variable that a name means. -/
def value? (c : Context) (n : String) : Option Value := (c.lookup? n).map fun x => x.2.value

/-- The names that the roots reach in the first context have the same values in both. -/
def SameValues (c c' : Context) (roots : List String) : Prop :=
  ∀ n, c.Reached roots n → c.value? n = c'.value? n

variable {c c' : Context} {n : String}

/-- **Names of one value are defined alike**, whichever variable the value is taken from. -/
theorem define?_alike (h : c.value? n = c'.value? n) :
    DefinedAlike (c.define? n) (c'.define? n) := by
  unfold value? at h
  unfold define?
  cases hl : c.lookup? n with
  | none =>
    rw [hl] at h
    rw [Option.map_eq_none_iff.1 h.symm]
    exact .none
  | some x =>
    rw [hl, Option.map_some] at h
    obtain ⟨y, hl', hv⟩ := Option.map_eq_some_iff.1 h.symm
    rw [hl']
    dsimp only [Variable.template?]
    rw [hv]
    cases x.2.value.template? with
    | error r => exact .error r
    | ok text =>
      dsimp only
      cases Template.parse text with
      | error r => exact .error r
      | ok parsed => exact .some rfl rfl

end Context

namespace Graph

open Context

/-- Graphs that differ in nothing but the details of their nodes. -/
structure Alike (g g' : Graph) : Prop where
  roots : g.roots = g'.roots
  names : g.names = g'.names
  edges : g.edges = g'.edges

namespace Alike

variable {g g' : Graph} {a b : String}

theorem addNode (h : g.Alike g') (n : String) (x x' : NodeDetails) :
    (g.addNode n x).Alike (g'.addNode n x') :=
  ⟨h.roots, by rw [addNode_names, addNode_names, h.names], h.edges⟩

theorem touch (h : g.Alike g') (n : String) : (g.touch n).Alike (g'.touch n) := by
  refine ⟨?_, by rw [touch_names, touch_names, h.names], by rw [touch_edges, touch_edges, h.edges]⟩
  unfold Graph.touch
  split_ifs <;> exact h.roots

theorem addEdge (h : g.Alike g') (a b : String) : (g.addEdge a b).Alike (g'.addEdge a b) := by
  have ht := (h.touch a).touch b
  unfold Graph.addEdge
  dsimp only
  rw [← ht.edges]
  split_ifs
  · exact ht
  · exact ⟨ht.roots, ht.names, rfl⟩

theorem addDefinition (h : g.Alike g') (n : String) {d d' : Definition}
    (hp : d.parsed = d'.parsed) : (g.addDefinition n d).Alike (g'.addDefinition n d') := by
  have hr : d.references = d'.references := by rw [Definition.references, hp]; rfl
  unfold Graph.addDefinition
  rw [hr]
  have hadd := h.addNode n (detailsOf d) (detailsOf d')
  generalize g.addNode n (detailsOf d) = x at hadd
  generalize g'.addNode n (detailsOf d') = x' at hadd
  induction d'.references generalizing x x' with
  | nil => exact hadd
  | cons m ms ih => exact ih _ _ (hadd.addEdge n m)

theorem successors (h : g.Alike g') : g.successors = g'.successors := by
  funext n
  rw [Graph.successors, h.edges]
  rfl

theorem predecessors (h : g.Alike g') : g.predecessors = g'.predecessors := by
  funext n
  rw [Graph.predecessors, h.edges]
  rfl

theorem adjacency (h : g.Alike g') : g.adjacency = g'.adjacency := by
  rw [Graph.adjacency, h.names, h.successors]
  rfl

/-- The cycles of a graph depend on its roots, names and edges only. -/
theorem cycles (h : g.Alike g') : g.cycles = g'.cycles := by
  have hc : g.components = g'.components := by
    rw [components, h.adjacency, h.names, h.predecessors]
    rfl
  rw [Graph.cycles, h.adjacency, h.roots, h.names, hc]
  rfl

end Alike

/-- Two graphs that are alike, or one refusal of both. -/
inductive MadeAlike : Except Refusal Graph → Except Refusal Graph → Prop where
  | ok {g g' : Graph} (h : g.Alike g') : MadeAlike (.ok g) (.ok g')
  | error (r : Refusal) : MadeAlike (.error r) (.error r)

/-- Names on a stack that are defined alike are looked up alike; the names still fresh need not be
the same, as long as those are that are met. -/
theorem reach_alike {c c' : Context} {N : String → Prop} {fresh fresh' stack : List String}
    {g g' : Graph} (hN : ∀ n, N n → DefinedAlike (c.define? n) (c'.define? n))
    (hclosed : ∀ a b, N a → c.Refers a b → N b) (hstack : ∀ n ∈ stack, N n)
    (hnodup : fresh.Nodup) (hnodup' : fresh'.Nodup)
    (hfresh : ∀ n d, N n → c.define? n = .ok (some d) → (n ∈ fresh ↔ n ∈ fresh'))
    (hg : g.Alike g') : MadeAlike (reach c fresh stack g) (reach c' fresh' stack g') := by
  fun_induction reach c fresh stack g generalizing fresh' g' with
  | case1 =>
    rw [reach]
    exact .ok hg
  | case2 fresh g name rest r hd =>
    have hn := hN name (hstack name List.mem_cons_self)
    rw [hd] at hn
    generalize hd' : c'.define? name = x at hn
    cases hn
    rw [reach, hd']
    exact .error r
  | case3 fresh g name rest hd ih =>
    have hn := hN name (hstack name List.mem_cons_self)
    rw [hd] at hn
    generalize hd' : c'.define? name = x at hn
    cases hn
    rw [reach, hd']
    exact ih (fun n h => hstack n (List.mem_cons_of_mem _ h)) hnodup hnodup' hfresh
      (hg.addNode name _ _)
  | case4 fresh g name rest d hd hf ih =>
    have hname := hstack name List.mem_cons_self
    have hn := hN name hname
    rw [hd] at hn
    generalize hd' : c'.define? name = x at hn
    cases hn with
    | @some _ d' _ hp =>
    have hmem : name ∈ fresh := by simpa using hf
    have hmem' : fresh'.contains name = true := by simpa using (hfresh name d hname hd).1 hmem
    have hrefs : d'.references = d.references := by rw [Definition.references, ← hp]; rfl
    rw [reach, hd']
    dsimp only
    rw [dif_pos hmem', hrefs]
    refine ih (fun n h => ?_) (hnodup.erase name) (hnodup'.erase name) (fun n e hn hde => ?_)
      (hg.addDefinition name hp)
    · rcases List.mem_append.1 h with h | h
      · exact hclosed name n hname ⟨d, hd, List.mem_reverse.1 h⟩
      · exact hstack n (List.mem_cons_of_mem _ h)
    · rw [hnodup.mem_erase_iff, hnodup'.mem_erase_iff, hfresh n e hn hde]
  | case5 fresh g name rest d hd hf ih =>
    have hname := hstack name List.mem_cons_self
    have hn := hN name hname
    rw [hd] at hn
    generalize hd' : c'.define? name = x at hn
    cases hn with
    | @some _ d' _ hp =>
    have hmem' : ¬ fresh'.contains name = true := by
      intro h
      exact hf (by simpa using (hfresh name d hname hd).2 (by simpa using h))
    rw [reach, hd']
    dsimp only
    rw [dif_neg hmem']
    exact ih (fun n h => hstack n (List.mem_cons_of_mem _ h)) hnodup hnodup' hfresh hg

/-- **The graphs of contexts with the same values are alike**, or are refused for the same reason. -/
theorem ofContext_alike {c c' : Context} {roots : List String} (h : c.SameValues c' roots) :
    MadeAlike (ofContext c roots) (ofContext c' roots) := by
  have hN : ∀ n, c.Reached roots n → DefinedAlike (c.define? n) (c'.define? n) :=
    fun n hn => define?_alike (h n hn)
  refine reach_alike hN (fun a b ha hab => ha.refers hab)
    (fun n hn => ⟨n, List.mem_eraseDups.1 hn, .refl⟩) c.definedNames_nodup c'.definedNames_nodup
    (fun n d hn hd => ?_) ⟨rfl, rfl, rfl⟩
  have hn' := hN n hn
  rw [hd] at hn'
  generalize hd' : c'.define? n = x at hn'
  cases hn' with
  | some => exact iff_of_true (mem_definedNames hd) (mem_definedNames hd')

end Graph
end Stencil
