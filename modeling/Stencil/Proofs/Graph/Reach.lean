/-
# The graph of a context is its reference relation

The graph made from some roots has the names that are reached from them, and
an edge wherever one of these refers to another (`ofContext_depicts`). It is
refused just when the value of a name that is reached cannot be read
(`ofContext_error`).

Key definitions: `Depicts`, `Progress`.
Key theorems: `ofContext_depicts`, `ofContext_error`, `onCycle_iff`.
-/
import Stencil.Graph.Reach
import Stencil.Proofs.Context.Reference
import Stencil.Proofs.Graph.Cycle

namespace Stencil
namespace Graph

open ListFacts

/-- The graph shows what the roots refer to, directly or through others, and every name that is
reached can be looked up. -/
structure Depicts (c : Context) (roots : List String) (g : Graph) : Prop where
  wellFormed : g.IsWellFormed
  names : ∀ n, n ∈ g.names ↔ c.Reached roots n
  edge : ∀ a b, g.Edge a b ↔ c.Reached roots a ∧ c.Refers a b
  defined : ∀ n, c.Reached roots n → ∃ d?, c.define? n = .ok d?

/-- A name has been looked up, or it waits for that. -/
def Handled (c : Context) (fresh stack : List String) (g : Graph) (n : String) : Prop :=
  n ∈ stack ∨ (c.define? n = .ok none ∧ n ∈ g.names) ∨
    ∃ d, c.define? n = .ok (some d) ∧ n ∉ fresh

/-- How far the graph has been made: it shows nothing that is not reached, and every name that has
been looked up with all its references. -/
structure Progress (c : Context) (roots fresh stack : List String) (g : Graph) : Prop where
  wellFormed : g.IsWellFormed
  nodup : fresh.Nodup
  waiting : ∀ n ∈ stack, c.Reached roots n
  names : ∀ n ∈ g.names, c.Reached roots n
  edge : ∀ a b, g.Edge a b → c.Reached roots a ∧ c.Refers a b
  roots : ∀ n ∈ roots, Handled c fresh stack g n
  defined : ∀ n d, c.define? n = .ok (some d) → n ∉ fresh →
    n ∈ g.names ∧ ∀ m ∈ d.references, g.Edge n m ∧ Handled c fresh stack g m

theorem addNode_names (g : Graph) (name : String) (details : NodeDetails) :
    (g.addNode name details).names =
      if name ∈ g.names then g.names else g.names ++ [name] :=
  putNode_names name details g.nodes

theorem mem_addNode {g : Graph} {name n : String} {details : NodeDetails} :
    n ∈ (g.addNode name details).names ↔ n ∈ g.names ∨ n = name := by
  rw [addNode_names, mem_insert]

theorem mem_addEdge {g : Graph} {a b n : String} :
    n ∈ (g.addEdge a b).names ↔ n ∈ g.names ∨ n = a ∨ n = b := by
  have h : (g.addEdge a b).names = ((g.touch a).touch b).names := by
    unfold addEdge
    dsimp only
    split_ifs <;> rfl
  rw [h, mem_touch, mem_touch, or_assoc]

theorem edge_addEdge {g : Graph} {a b x y : String} :
    (g.addEdge a b).Edge x y ↔ g.Edge x y ∨ (x = a ∧ y = b) := by
  have he : ((g.touch a).touch b).edges = g.edges := by rw [touch_edges, touch_edges]
  unfold Edge addEdge
  dsimp only
  split_ifs with hc
  · rw [he]
    rw [he] at hc
    refine ⟨.inl, fun h => h.elim id ?_⟩
    rintro ⟨rfl, rfl⟩
    exact List.contains_iff_mem.1 hc
  · simp [he]

theorem foldl_addEdge (a : String) (ms : List String) {g : Graph} (h : g.IsWellFormed) :
    let g' := ms.foldl (fun g m => g.addEdge a m) g
    g'.IsWellFormed ∧ (∀ n, n ∈ g'.names ↔ n ∈ g.names ∨ (n = a ∧ ms ≠ []) ∨ n ∈ ms) ∧
      ∀ x y, g'.Edge x y ↔ g.Edge x y ∨ (x = a ∧ y ∈ ms) := by
  induction ms generalizing g with
  | nil => exact ⟨h, fun n => by simp, fun x y => by simp⟩
  | cons m ms ih =>
    obtain ⟨h₁, h₂, h₃⟩ := ih (h.addEdge a m)
    refine ⟨h₁, fun n => ?_, fun x y => ?_⟩
    · rw [List.foldl_cons, h₂, mem_addEdge]
      simp only [ne_eq, List.mem_cons, reduceCtorEq, not_false_eq_true, and_true]
      tauto
    · rw [List.foldl_cons, h₃, edge_addEdge, List.mem_cons]
      tauto

theorem mem_addDefinition {g : Graph} (h : g.IsWellFormed) {name n : String} {d : Definition} :
    n ∈ (g.addDefinition name d).names ↔ n ∈ g.names ∨ n = name ∨ n ∈ d.references := by
  refine ((foldl_addEdge name d.references (h.addNode name (detailsOf d))).2.1 n).trans ?_
  rw [mem_addNode]
  tauto

theorem edge_addDefinition {g : Graph} (h : g.IsWellFormed) {name x y : String}
    {d : Definition} :
    (g.addDefinition name d).Edge x y ↔ g.Edge x y ∨ (x = name ∧ y ∈ d.references) :=
  (foldl_addEdge name d.references (h.addNode name (detailsOf d))).2.2 x y

section Progress

variable {c : Context} {roots fresh rest : List String} {g : Graph} {name : String}

/-- A name that no scope defines has been looked up once it has a node. -/
theorem Progress.undefined (h : Progress c roots fresh (name :: rest) g)
    (hd : c.define? name = .ok none) :
    Progress c roots fresh rest (g.addNode name { isDefined := false }) := by
  have hh : ∀ n, Handled c fresh (name :: rest) g n →
      Handled c fresh rest (g.addNode name { isDefined := false }) n := by
    rintro n (hn | ⟨hn, hm⟩ | hn)
    · rcases List.mem_cons.1 hn with rfl | hn
      · exact .inr (.inl ⟨hd, mem_addNode.2 (.inr rfl)⟩)
      · exact .inl hn
    · exact .inr (.inl ⟨hn, mem_addNode.2 (.inl hm)⟩)
    · exact .inr (.inr hn)
  refine ⟨h.wellFormed.addNode _ _, h.nodup, fun n hn => h.waiting n (List.mem_cons_of_mem _ hn),
    fun n hn => ?_, h.edge, fun n hn => hh n (h.roots n hn), fun n d hn hf => ?_⟩
  · rcases mem_addNode.1 hn with hn | rfl
    · exact h.names n hn
    · exact h.waiting n List.mem_cons_self
  · obtain ⟨h₁, h₂⟩ := h.defined n d hn hf
    exact ⟨mem_addNode.2 (.inl h₁), fun m hm => ⟨(h₂ m hm).1, hh m (h₂ m hm).2⟩⟩

/-- A name that is looked up for the first time gets its edges, and its references wait. -/
theorem Progress.first {d : Definition} (h : Progress c roots fresh (name :: rest) g)
    (hd : c.define? name = .ok (some d)) :
    Progress c roots (fresh.erase name) (d.references.reverse ++ rest)
      (g.addDefinition name d) := by
  have hw := (foldl_addEdge name d.references
    (h.wellFormed.addNode name (detailsOf d))).1
  have hreach : c.Reached roots name := h.waiting name List.mem_cons_self
  have hne : name ∉ fresh.erase name := fun hm => (h.nodup.mem_erase_iff.1 hm).1 rfl
  have hh : ∀ n, Handled c fresh (name :: rest) g n →
      Handled c (fresh.erase name) (d.references.reverse ++ rest) (g.addDefinition name d) n := by
    rintro n (hn | ⟨hn, hm⟩ | ⟨e, hn, hf⟩)
    · rcases List.mem_cons.1 hn with rfl | hn
      · exact .inr (.inr ⟨d, hd, hne⟩)
      · exact .inl (List.mem_append_right _ hn)
    · exact .inr (.inl ⟨hn, (mem_addDefinition h.wellFormed).2 (.inl hm)⟩)
    · exact .inr (.inr ⟨e, hn, fun hm => hf (List.mem_of_mem_erase hm)⟩)
  refine ⟨hw, h.nodup.erase name, fun n hn => ?_, fun n hn => ?_, fun a b he => ?_,
    fun n hn => hh n (h.roots n hn), fun n e hn hf => ?_⟩
  · rcases List.mem_append.1 hn with hn | hn
    · exact hreach.refers ⟨d, hd, List.mem_reverse.1 hn⟩
    · exact h.waiting n (List.mem_cons_of_mem _ hn)
  · rcases (mem_addDefinition h.wellFormed).1 hn with hn | rfl | hn
    · exact h.names n hn
    · exact hreach
    · exact hreach.refers ⟨d, hd, hn⟩
  · rcases (edge_addDefinition h.wellFormed).1 he with he | ⟨rfl, hb⟩
    · exact h.edge a b he
    · exact ⟨hreach, d, hd, hb⟩
  · by_cases hnn : n = name
    · subst hnn
      obtain rfl : d = e := by rw [hd] at hn; injection hn with hn; injection hn
      refine ⟨(mem_addDefinition h.wellFormed).2 (.inr (.inl rfl)), fun m hm => ⟨?_, ?_⟩⟩
      · exact (edge_addDefinition h.wellFormed).2 (.inr ⟨rfl, hm⟩)
      · exact .inl (List.mem_append_left _ (List.mem_reverse.2 hm))
    · have hf' : n ∉ fresh := fun hm => hf (h.nodup.mem_erase_iff.2 ⟨hnn, hm⟩)
      obtain ⟨h₁, h₂⟩ := h.defined n e hn hf'
      refine ⟨(mem_addDefinition h.wellFormed).2 (.inl h₁), fun m hm => ⟨?_, hh m (h₂ m hm).2⟩⟩
      exact (edge_addDefinition h.wellFormed).2 (.inl (h₂ m hm).1)

/-- A name that has been looked up before is passed over. -/
theorem Progress.again {d : Definition} (h : Progress c roots fresh (name :: rest) g)
    (hd : c.define? name = .ok (some d)) (hf : name ∉ fresh) :
    Progress c roots fresh rest g := by
  have hh : ∀ n, Handled c fresh (name :: rest) g n → Handled c fresh rest g n := by
    rintro n (hn | hn)
    · rcases List.mem_cons.1 hn with rfl | hn
      · exact .inr (.inr ⟨d, hd, hf⟩)
      · exact .inl hn
    · exact .inr hn
  refine ⟨h.wellFormed, h.nodup, fun n hn => h.waiting n (List.mem_cons_of_mem _ hn), h.names,
    h.edge, fun n hn => hh n (h.roots n hn), fun n e hn hnf => ?_⟩
  obtain ⟨h₁, h₂⟩ := h.defined n e hn hnf
  exact ⟨h₁, fun m hm => ⟨(h₂ m hm).1, hh m (h₂ m hm).2⟩⟩

/-- When nothing waits any more the graph shows everything. -/
theorem Progress.depicts (h : Progress c roots fresh [] g) : Depicts c roots g := by
  have hall : ∀ n, c.Reached roots n → n ∈ g.names ∧ Handled c fresh [] g n := by
    have hn : ∀ n, Handled c fresh [] g n → n ∈ g.names := by
      rintro n (hn | ⟨-, hm⟩ | ⟨d, hd, hf⟩)
      · exact absurd hn List.not_mem_nil
      · exact hm
      · exact (h.defined n d hd hf).1
    rintro n ⟨r, hr, hrn⟩
    induction hrn with
    | refl => exact ⟨hn r (h.roots r hr), h.roots r hr⟩
    | tail _ hbc ih =>
      obtain ⟨d, hd, hm⟩ := hbc
      rcases ih.2 with hb | ⟨hb, -⟩ | ⟨e, he, hf⟩
      · exact absurd hb List.not_mem_nil
      · rw [hb] at hd
        cases hd
      · have hc := (h.defined _ e he hf).2
        obtain rfl : d = e := by rw [hd] at he; injection he with he; injection he
        exact ⟨hn _ (hc _ hm).2, (hc _ hm).2⟩
  refine ⟨h.wellFormed, fun n => ⟨h.names n, fun hn => (hall n hn).1⟩,
    fun a b => ⟨h.edge a b, ?_⟩, fun n hn => ?_⟩
  · rintro ⟨ha, d, hd, hb⟩
    rcases (hall a ha).2 with hm | ⟨hu, -⟩ | ⟨e, he, hf⟩
    · exact absurd hm List.not_mem_nil
    · rw [hu] at hd
      cases hd
    · obtain rfl : d = e := by rw [hd] at he; injection he with he; injection he
      exact ((h.defined a d hd hf).2 b hb).1
  · rcases (hall n hn).2 with hm | ⟨hu, -⟩ | ⟨e, he, -⟩
    · exact absurd hm List.not_mem_nil
    · exact ⟨none, hu⟩
    · exact ⟨some e, he⟩

end Progress

/-- What comes of making the graph of a context. -/
theorem reach_result {c : Context} {roots fresh stack : List String} {g : Graph}
    (h : Progress c roots fresh stack g) :
    (∀ g', reach c fresh stack g = .ok g' → Depicts c roots g') ∧
      ∀ e, reach c fresh stack g = .error e → ∃ n, c.Reached roots n ∧ c.define? n = .error e := by
  fun_induction reach c fresh stack g with
  | case1 =>
    refine ⟨fun g' hg => ?_, fun e he => by cases he⟩
    cases hg
    exact h.depicts
  | case2 fresh g name rest e hd =>
    refine ⟨fun g' hg => (by cases hg), fun e' he => ?_⟩
    cases he
    exact ⟨name, h.waiting name List.mem_cons_self, hd⟩
  | case3 fresh g name rest hd ih => exact ih (h.undefined hd)
  | case4 fresh g name rest d hd _ ih => exact ih (h.first hd)
  | case5 fresh g name rest d hd hf ih => exact ih (h.again hd fun hm => hf (by simpa using hm))

theorem progress_start (c : Context) (roots : List String) :
    Progress c roots c.definedNames roots.eraseDups (ofRoots roots) := by
  refine ⟨⟨List.nodup_nil, fun e he => absurd he List.not_mem_nil⟩, c.definedNames_nodup,
    fun n hn => ⟨n, List.mem_eraseDups.1 hn, .refl⟩, fun n hn => absurd hn List.not_mem_nil,
    fun a b he => absurd he List.not_mem_nil, fun n hn => .inl (List.mem_eraseDups.2 hn),
    fun n d hd hf => absurd (Context.mem_definedNames hd) hf⟩

/-- **The graph of a context shows what is reached from its roots.** -/
theorem ofContext_depicts {c : Context} {roots : List String} {g : Graph}
    (h : ofContext c roots = .ok g) : Depicts c roots g :=
  (reach_result (progress_start c roots)).1 g h

/-- The graph is refused only because of a name that is reached. -/
theorem ofContext_error {c : Context} {roots : List String} {e : Refusal}
    (h : ofContext c roots = .error e) : ∃ n, c.Reached roots n ∧ c.define? n = .error e :=
  (reach_result (progress_start c roots)).2 e h

/-- There is a graph just where all that is reached can be looked up. -/
theorem ofContext_ok_iff {c : Context} {roots : List String} :
    (∃ g, ofContext c roots = .ok g) ↔ ∀ n, c.Reached roots n → ∃ d?, c.define? n = .ok d? := by
  refine ⟨fun ⟨g, hg⟩ => (ofContext_depicts hg).defined, fun h => ?_⟩
  cases hg : ofContext c roots with
  | ok g => exact ⟨g, rfl⟩
  | error e =>
    obtain ⟨n, hn, he⟩ := ofContext_error hg
    obtain ⟨d?, hd⟩ := h n hn
    rw [hd] at he
    cases he

/-- Whatever a name that is reached refers to, directly or through others, it does in the graph. -/
theorem Depicts.reach {c : Context} {roots : List String} {g : Graph} (h : Depicts c roots g)
    {a b : String} (ha : c.Reached roots a) (hab : Relation.ReflTransGen c.Refers a b) :
    Relation.ReflTransGen g.Edge a b := by
  induction hab with
  | refl => exact .refl
  | tail hab hbc ih => exact ih.tail ((h.edge _ _).2 ⟨ha.trans hab, hbc⟩)

/-- A name on a cycle of the graph is reached and refers to some name. -/
theorem Depicts.of_mem_cycles {c : Context} {roots cycle : List String} {g : Graph}
    (h : Depicts c roots g) (hc : cycle ∈ g.cycles) {n : String} (hn : n ∈ cycle) :
    c.Reached roots n ∧ ∃ m, c.Refers n m := by
  have hcycle := (mem_cycles_iff h.wellFormed).1 ⟨cycle, hc, hn⟩
  obtain ⟨m, hedge, -⟩ := Relation.TransGen.head'_iff.1 hcycle
  obtain ⟨hreached, hrefers⟩ := (h.edge _ _).1 hedge
  exact ⟨hreached, m, hrefers⟩

/-- Among the names that are reached, those on cycles of the graph are those on reference
cycles. -/
theorem Depicts.onCycle_iff {c : Context} {roots : List String} {g : Graph}
    (h : Depicts c roots g) {n : String} (hn : c.Reached roots n) :
    n ∈ (cycleMembers g.cycles).map Prod.fst ↔ c.OnCycle n := by
  rw [mem_cycleMembers_iff, mem_cycles_iff h.wellFormed]
  constructor
  · exact fun ht => Relation.TransGen.mono (fun a b he => ((h.edge a b).1 he).2) _ _ ht
  · intro ht
    obtain ⟨m, hnm, hmn⟩ := Relation.TransGen.head'_iff.1 ht
    exact .head' ((h.edge _ _).2 ⟨hn, hnm⟩) (h.reach (hn.refers hnm) hmn)

end Graph
end Stencil
