/-
# Orders of acyclic graphs

Names are released one by one, each with its edges, as soon as no edge ends at
them any more. No name is released twice (`release_nodup`); a name on a cycle
waits for ever, since the name before it on the cycle does (`not_mem_release`);
and a name that is never released has another one before it that is not either
(`mem_release`). In a finite graph that goes on until a name comes again, so the
order holds all names just where there is no cycle (`isAcyclic_iff`), and then each
name comes before those it refers to (`sublist_sourceOrder`). Names to which none
refers come first (`source_sublist`).

Key definitions: `Waits`, `IsSimple`.
Key theorems: `release_nodup`, `mem_release`, `before_release`, `isAcyclic_iff`,
`sublist_sourceOrder`, `source_sublist`.
-/
import Mathlib.Data.Fintype.Order
import Mathlib.Order.WellFounded
import Stencil.Graph.Order
import Stencil.Proofs.Graph.Edge

namespace Stencil
namespace Graph

open ListFacts Relation

/-- No edge is there twice. -/
def IsSimple (g : Graph) : Prop := g.edges.Nodup

section Release

variable {queue : List String} {edges : List (String × String)} {n m : String}

theorem mem_edgesOf {e : String × String} : e ∈ edgesOf n edges ↔ e ∈ edges ∧ e.1 = n := by
  simp [edgesOf]

theorem mem_edgesBut {e : String × String} : e ∈ edgesBut n edges ↔ e ∈ edges ∧ e.1 ≠ n := by
  simp [edgesBut]

/-- What is freed with a name are its targets at which no other edge ends. -/
theorem mem_freed :
    m ∈ freed (edgesOf n edges) (edgesBut n edges) ↔
      (n, m) ∈ edges ∧ ∀ a, (a, m) ∈ edges → a = n := by
  simp only [freed, List.mem_filter, List.mem_map, Prod.exists, exists_eq_right, mem_edgesOf,
    Bool.not_eq_true', List.any_eq_false, beq_iff_eq, Prod.forall, mem_edgesBut]
  refine and_congr_right fun _ => ⟨fun h a ha => ?_, fun h a b hab hb => ?_⟩
  · exact by_contra fun hne => h a m ⟨ha, hne⟩ rfl
  · subst hb
    exact hab.2 (h a hab.1)

/-! ### What is released -/

/-- The names of the queue are released first, in their order. -/
theorem prefix_release : queue <+: release queue edges := by
  fun_induction release queue edges with
  | case1 => exact List.prefix_rfl
  | case2 edges n q ih =>
    exact (List.prefix_cons_inj n).2 ((List.prefix_append q _).trans ih)

theorem subset_release : queue ⊆ release queue edges := prefix_release.subset

/-- Only names in the queue and targets of edges are released. -/
theorem of_mem_release (h : m ∈ release queue edges) : m ∈ queue ∨ ∃ a, (a, m) ∈ edges := by
  fun_induction release queue edges with
  | case1 => exact absurd h List.not_mem_nil
  | case2 edges n q ih =>
    rcases List.mem_cons.1 h with rfl | h
    · exact .inl List.mem_cons_self
    rcases ih h with h | ⟨a, ha⟩
    · rcases List.mem_append.1 h with h | h
      · exact .inl (List.mem_cons_of_mem _ h)
      · exact .inr ⟨n, (mem_freed.1 h).1⟩
    · exact .inr ⟨a, (mem_edgesBut.1 ha).1⟩

/-- The names of the queue are different, no edge is there twice, and none ends at a name that has
been released. -/
structure Waits (queue : List String) (edges : List (String × String)) : Prop where
  nodup : queue.Nodup
  simple : edges.Nodup
  free : ∀ e ∈ edges, e.2 ∉ queue

theorem nodup_freed (h : edges.Nodup) : (freed (edgesOf n edges) (edgesBut n edges)).Nodup := by
  refine List.Nodup.filter _ (List.Nodup.map_on ?_ (h.filter _))
  rintro ⟨a, b⟩ ha ⟨c, d⟩ hc rfl
  rw [show a = n from (mem_edgesOf.1 ha).2, show c = n from (mem_edgesOf.1 hc).2]

theorem Waits.step (h : Waits (n :: queue) edges) :
    Waits (queue ++ freed (edgesOf n edges) (edgesBut n edges)) (edgesBut n edges) := by
  refine ⟨?_, h.simple.filter _, fun e he hm => ?_⟩
  · refine List.nodup_append'.2 ⟨(List.nodup_cons.1 h.nodup).2, nodup_freed h.simple, ?_⟩
    intro m hq hf
    exact h.free _ (mem_freed.1 hf).1 (List.mem_cons_of_mem _ hq)
  · obtain ⟨he, hne⟩ := mem_edgesBut.1 he
    rcases List.mem_append.1 hm with hm | hm
    · exact h.free e he (List.mem_cons_of_mem _ hm)
    · exact hne ((mem_freed.1 hm).2 e.1 he)

/-- **No name is released twice.** -/
theorem release_nodup (h : Waits queue edges) : (release queue edges).Nodup := by
  fun_induction release queue edges with
  | case1 => exact List.nodup_nil
  | case2 edges n q ih =>
    refine List.nodup_cons.2 ⟨fun hm => ?_, ih h.step⟩
    rcases of_mem_release hm with hm | ⟨a, ha⟩
    · rcases List.mem_append.1 hm with hm | hm
      · exact (List.nodup_cons.1 h.nodup).1 hm
      · exact h.free _ (mem_freed.1 hm).1 List.mem_cons_self
    · exact h.free _ (mem_edgesBut.1 ha).1 List.mem_cons_self

/-- Names each of which has an edge from one of them are never released. -/
theorem not_mem_release {S : String → Prop} (hq : ∀ s ∈ queue, ¬ S s)
    (hS : ∀ s, S s → ∃ a, S a ∧ (a, s) ∈ edges) : ∀ s ∈ release queue edges, ¬ S s := by
  fun_induction release queue edges with
  | case1 => exact fun s hs => absurd hs List.not_mem_nil
  | case2 edges n q ih =>
    have hn : ¬ S n := hq n List.mem_cons_self
    intro s hs
    rcases List.mem_cons.1 hs with rfl | hs
    · exact hn
    refine ih (fun m hm => ?_) (fun m hm => ?_) s hs
    · rcases List.mem_append.1 hm with hm | hm
      · exact hq m (List.mem_cons_of_mem _ hm)
      · intro hSm
        obtain ⟨a, ha, he⟩ := hS m hSm
        exact hn ((mem_freed.1 hm).2 a he ▸ ha)
    · obtain ⟨a, ha, he⟩ := hS m hm
      exact ⟨a, ha, mem_edgesBut.2 ⟨he, fun hne => hn (hne ▸ ha)⟩⟩

/-- A name is released once all names before it are. -/
theorem mem_release {a s : String} (he : (a, s) ∈ edges)
    (hall : ∀ b, (b, s) ∈ edges → b ∈ release queue edges) : s ∈ release queue edges := by
  fun_induction release queue edges generalizing a with
  | case1 => exact absurd (hall a he) List.not_mem_nil
  | case2 edges n q ih =>
    refine List.mem_cons_of_mem _ ?_
    by_cases hone : ∀ b, (b, s) ∈ edges → b = n
    · refine subset_release (List.mem_append_right _ (mem_freed.2 ⟨?_, hone⟩))
      rwa [← hone a he]
    · push Not at hone
      obtain ⟨b, hb, hbn⟩ := hone
      refine ih (mem_edgesBut.2 ⟨hb, hbn⟩) fun d hd => ?_
      obtain ⟨hd, hdn⟩ := mem_edgesBut.1 hd
      exact (List.mem_cons.1 (hall d hd)).resolve_left hdn

/-- **A name is released after all names before it.** No edge ends at a name of the queue, so an edge
to a name that is released goes out from one that was released earlier. -/
theorem before_release {before after : List String} {a b : String} (h : Waits queue edges)
    (hr : release queue edges = before ++ b :: after) (he : (a, b) ∈ edges) : a ∈ before := by
  fun_induction release queue edges generalizing before with
  | case1 => simp at hr
  | case2 edges n q ih =>
    cases before with
    | nil =>
      obtain ⟨rfl, -⟩ := List.cons.inj hr
      exact absurd List.mem_cons_self (h.free _ he)
    | cons x before =>
      obtain ⟨rfl, hrest⟩ := List.cons.inj hr
      by_cases hn : a = n
      · rw [hn]
        exact List.mem_cons_self
      · exact List.mem_cons_of_mem _ (ih h.step hrest (mem_edgesBut.2 ⟨he, hn⟩))

end Release

/-! ### The order of a graph -/

variable {g : Graph} {n : String}

theorem mem_sources {m : String} :
    m ∈ (g.names.filter fun n => !g.edges.any fun e => e.2 == n) ↔
      m ∈ g.names ∧ ∀ a, ¬ g.Edge a m := by
  simp only [List.mem_filter, Bool.not_eq_true', List.any_eq_false, beq_iff_eq, Prod.forall, Edge]
  exact and_congr_right fun _ => ⟨fun h a he => h a m he rfl, fun h a b he hb => h a (hb ▸ he)⟩

theorem waits_sources (h : g.IsWellFormed) (hs : g.IsSimple) :
    Waits (g.names.filter fun n => !g.edges.any fun e => e.2 == n) g.edges :=
  ⟨h.nodup.filter _, hs, fun e he hm => (mem_sources.1 hm).2 e.1 he⟩

theorem sourceOrder_nodup (h : g.IsWellFormed) (hs : g.IsSimple) : g.sourceOrder.Nodup :=
  release_nodup (waits_sources h hs)

theorem mem_names_of_sourceOrder (h : g.IsWellFormed) (hn : n ∈ g.sourceOrder) : n ∈ g.names := by
  rcases of_mem_release hn with hn | ⟨a, ha⟩
  · exact (mem_sources.1 hn).1
  · exact (h.ends _ ha).2

/-- A name that is not in the order has another one before it that is not either. -/
theorem exists_not_mem_sourceOrder (hn : n ∈ g.names) (ho : n ∉ g.sourceOrder) :
    ∃ a, g.Edge a n ∧ a ∉ g.sourceOrder := by
  by_contra hall
  push Not at hall
  by_cases he : ∃ a, g.Edge a n
  · obtain ⟨a, ha⟩ := he
    exact ho (mem_release ha hall)
  · exact ho (subset_release (mem_sources.2 ⟨hn, not_exists.1 he⟩))

/-- Names on cycles are not in the order. -/
theorem not_mem_sourceOrder (hn : TransGen g.Edge n n) : n ∉ g.sourceOrder := by
  refine fun ho => not_mem_release (S := fun m => TransGen g.Edge m m) ?_ ?_ n ho hn
  · intro m hm hc
    obtain ⟨a, -, ha⟩ := TransGen.tail'_iff.1 hc
    exact (mem_sources.1 hm).2 a ha
  · intro m hc
    obtain ⟨a, hma, ha⟩ := TransGen.tail'_iff.1 hc
    exact ⟨a, TransGen.head' ha hma, ha⟩

/-- Where there is no cycle the order holds every name. -/
theorem mem_sourceOrder (h : g.IsWellFormed) (hc : ∀ m, ¬ TransGen g.Edge m m)
    (hn : n ∈ g.names) : n ∈ g.sourceOrder := by
  -- going back along edges among finitely many names comes to an end
  let before (a b : {m // m ∈ g.names}) : Prop := TransGen g.Edge a.1 b.1
  have htrans : IsTrans _ before := ⟨fun _ _ _ => TransGen.trans⟩
  have hirrefl : Std.Irrefl before := ⟨fun a => hc a.1⟩
  have hwf : WellFounded before := Finite.wellFounded_of_trans_of_irrefl before
  by_contra ho
  obtain ⟨⟨m, hm⟩, hmo, hleast⟩ := hwf.has_min {a | a.1 ∉ g.sourceOrder} ⟨⟨n, hn⟩, ho⟩
  obtain ⟨a, ha, hao⟩ := exists_not_mem_sourceOrder hm hmo
  exact hleast ⟨a, (h.ends _ ha).1⟩ hao (.single ha)

theorem sourceOrder_subperm (h : g.IsWellFormed) (hs : g.IsSimple) :
    g.sourceOrder.Subperm g.names :=
  (sourceOrder_nodup h hs).subperm fun _ => mem_names_of_sourceOrder h

theorem names_length (g : Graph) : g.names.length = g.nodes.length := List.length_map _

/-- **The order of a graph has as many names as the graph just where no name lies on a cycle.** -/
theorem isAcyclic_iff (h : g.IsWellFormed) (hs : g.IsSimple) :
    g.isAcyclic = true ↔ ∀ n, ¬ TransGen g.Edge n n := by
  rw [isAcyclic, beq_iff_eq, ← names_length]
  constructor
  · intro hl n hn
    have hp := (sourceOrder_subperm h hs).perm_of_length_le hl.ge
    obtain ⟨a, -, ha⟩ := TransGen.tail'_iff.1 hn
    exact not_mem_sourceOrder hn (hp.mem_iff.2 (h.ends _ ha).2)
  · intro hc
    exact Nat.le_antisymm (sourceOrder_subperm h hs).length_le
      (h.nodup.subperm fun n hn => mem_sourceOrder h hc hn).length_le

/-- The order of an acyclic graph holds its names, each once. -/
theorem sourceOrder_perm (h : g.IsWellFormed) (hs : g.IsSimple) (ha : g.isAcyclic = true) :
    g.sourceOrder.Perm g.names := by
  rw [isAcyclic, beq_iff_eq, ← names_length] at ha
  exact (sourceOrder_subperm h hs).perm_of_length_le ha.ge

/-- **In the order of an acyclic graph every name comes before those it refers to.** -/
theorem sublist_sourceOrder {a b : String} (h : g.IsWellFormed) (hs : g.IsSimple)
    (ha : g.isAcyclic = true) (he : g.Edge a b) : [a, b].Sublist g.sourceOrder := by
  have hb : b ∈ g.sourceOrder := (sourceOrder_perm h hs ha).mem_iff.2 (h.ends _ he).2
  obtain ⟨before, after, hsplit⟩ := List.append_of_mem hb
  have hmem : a ∈ before := before_release (waits_sources h hs) hsplit he
  rw [hsplit]
  exact (List.singleton_sublist.2 hmem).append (List.singleton_sublist.2 List.mem_cons_self)

/-- A name to which none refers comes before all names to which some do. -/
theorem source_sublist {a b : String} (ha : a ∈ g.names) (hsource : ∀ x, ¬ g.Edge x a)
    (hb : b ∈ g.sourceOrder) (he : ∃ x, g.Edge x b) : [a, b].Sublist g.sourceOrder := by
  have hfirst : (g.names.filter fun n => !g.edges.any fun e => e.2 == n) <+: g.sourceOrder :=
    prefix_release
  obtain ⟨rest, hsplit⟩ := hfirst
  rw [← hsplit] at hb ⊢
  have hrest : b ∈ rest := (List.mem_append.1 hb).resolve_left fun hm =>
    (mem_sources.1 hm).2 he.choose he.choose_spec
  exact (List.singleton_sublist.2 (mem_sources.2 ⟨ha, hsource⟩)).append
    (List.singleton_sublist.2 hrest)

end Graph
end Stencil
