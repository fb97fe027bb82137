/-
# The cycles of a graph

Every list that `cycles` gives is a cycle, no two of them are rotations of
each other, and the names on them are exactly those that lie on some cycle of
the graph (`cycles_correct`). A search alone misses names of a cyclic component;
they are found because a component holds all names that reach one another
(`exists_component`), so that a cycle through a name never leaves it.

Key definitions: `Sound`.
Key theorems: `leastFirst_eq`, `exists_component`, `mem_cycles_iff`,
`mem_cycleMembers_iff`, `cycles_correct`.
-/
import Mathlib.Data.String.Basic
import Stencil.Proofs.Graph.Edge
import Stencil.Proofs.Graph.Shortest

namespace Stencil
namespace Graph

open List ListFacts

/-! ### Rotations -/

theorem leastFirst_isRotated (cycle : List String) : leastFirst cycle ~r cycle := by
  unfold leastFirst
  split
  · exact List.IsRotated.refl _
  · refine List.isRotated_append.trans ?_
    rw [List.takeWhile_append_dropWhile]

theorem leastFirst_head {cycle : List String} (h : cycle ≠ []) :
    ∃ m r, leastFirst cycle = m :: r ∧ ∀ x ∈ cycle, m ≤ x := by
  obtain ⟨n, r, rfl⟩ := List.exists_cons_of_ne_nil h
  obtain ⟨rest, hr⟩ := dropWhile_ne_cons (foldl_least_mem n r)
  have hl : leastFirst (n :: r) =
      (n :: r).dropWhile (· != r.foldl (fun m x => if x < m then x else m) n) ++
        (n :: r).takeWhile (· != r.foldl (fun m x => if x < m then x else m) n) := rfl
  rw [hr, List.cons_append] at hl
  exact ⟨_, _, hl, foldl_least_le n r⟩

/-- Rotations of a cycle have one least-first form. -/
theorem leastFirst_eq {a b : List String} (hn : a.Nodup) (h : a ~r b) :
    leastFirst a = leastFirst b := by
  rcases eq_or_ne a [] with rfl | ha
  · rw [List.isRotated_nil_iff'.1 h]
  have hb : b ≠ [] := fun hb => ha (List.isRotated_nil_iff.1 (hb ▸ h))
  obtain ⟨m, r, hm, hle⟩ := leastFirst_head ha
  obtain ⟨m', r', hm', hle'⟩ := leastFirst_head hb
  have hra := leastFirst_isRotated a
  have hrb := leastFirst_isRotated b
  have hma : m ∈ a := hra.mem_iff.1 (by rw [hm]; exact List.mem_cons_self)
  have hmb : m' ∈ b := hrb.mem_iff.1 (by rw [hm']; exact List.mem_cons_self)
  have hmm : m = m' := le_antisymm (hle m' (h.mem_iff.2 hmb)) (hle' m (h.mem_iff.1 hma))
  subst hmm
  have hrot : leastFirst a ~r leastFirst b := (hra.trans h).trans hrb.symm
  have hnd : (leastFirst a).Nodup := hra.nodup_iff.2 hn
  rw [hm, hm'] at hrot
  rw [hm] at hnd
  rw [hm, hm']
  exact eq_of_isRotated hnd hrot

/-! ### Collecting cycles -/

/-- Cycles of which no two are rotations of each other. -/
structure Sound (R : String → String → Prop) (found : List (List String)) : Prop where
  cycle : ∀ c ∈ found, IsCycle R c
  nodup : (found.map leastFirst).Nodup

theorem subset_addCycle (found : List (List String)) (cycle : List String) :
    found ⊆ addCycle found cycle := by
  unfold addCycle
  split
  · exact List.Subset.refl _
  · exact List.subset_append_left _ _

theorem Sound.addCycle {R : String → String → Prop} {found : List (List String)}
    {cycle : List String} (h : Sound R found) (hc : IsCycle R cycle) :
    Sound R (addCycle found cycle) := by
  unfold Graph.addCycle
  split
  · exact h
  · rename_i hcon
    refine ⟨fun c hm => ?_, ?_⟩
    · rcases List.mem_append.1 hm with hm | hm
      · exact h.cycle c hm
      · rw [List.mem_singleton.1 hm]
        exact hc
    · rw [List.map_append, List.nodup_append]
      refine ⟨h.nodup, by simp, ?_⟩
      rintro a ha b hb rfl
      rw [List.map_singleton, List.mem_singleton] at hb
      exact hcon (List.contains_iff_mem.2 (hb ▸ ha))

/-- After a cycle has been added, each of its names lies on some cycle. -/
theorem addCycle_covers {found : List (List String)} {cycle : List String} {n : String}
    (hn : n ∈ cycle) : ∃ c ∈ addCycle found cycle, n ∈ c := by
  unfold addCycle
  split
  · rename_i hcon
    obtain ⟨c, hc, he⟩ := List.mem_map.1 (List.contains_iff_mem.1 hcon)
    refine ⟨c, hc, (leastFirst_isRotated c).mem_iff.1 ?_⟩
    rw [he]
    exact (leastFirst_isRotated cycle).mem_iff.2 hn
  · exact ⟨cycle, List.mem_append_right _ (List.mem_singleton.2 rfl), hn⟩

theorem sound_foldl_addCycle {R : String → String → Prop} {cs found : List (List String)}
    (hcs : ∀ c ∈ cs, IsCycle R c) (h : Sound R found) : Sound R (cs.foldl addCycle found) := by
  induction cs generalizing found with
  | nil => exact h
  | cons c cs ih =>
    exact ih (fun d hd => hcs d (List.mem_cons_of_mem _ hd))
      (h.addCycle (hcs c List.mem_cons_self))

theorem isCovered_iff {found : List (List String)} {n : String} :
    isCovered found n = true ↔ ∃ c ∈ found, n ∈ c := by
  simp [isCovered]

section Cover

variable {successors : String → List String} {members : List String}

theorem subset_cover (found : List (List String)) (n : String) :
    found ⊆ cover successors members found n := by
  unfold cover
  split
  · exact List.Subset.refl _
  · split
    · exact List.Subset.refl _
    · exact subset_addCycle _ _

theorem Sound.cover {found : List (List String)} {n : String}
    (h : Sound (Follows successors) found) (hn : members.Nodup) :
    Sound (Follows successors) (cover successors members found n) := by
  unfold Graph.cover
  split
  · exact h
  · split
    · exact h
    · rename_i hne
      exact h.addCycle (shortestCycle_isCycle hn hne).1

/-- A name through which there is a cycle within the members is covered. -/
theorem cover_covers (found : List (List String)) {n : String} (hn : members.Nodup)
    (h : shortestCycle successors n members ≠ []) :
    ∃ c ∈ cover successors members found n, n ∈ c := by
  unfold cover
  split
  · rename_i hc
    exact isCovered_iff.1 hc
  · split
    · rename_i hnil
      exact absurd hnil h
    · exact addCycle_covers (shortestCycle_isCycle hn h).2

theorem subset_foldl_cover (ns : List String) (found : List (List String)) :
    found ⊆ ns.foldl (cover successors members) found := by
  induction ns generalizing found with
  | nil => exact List.Subset.refl _
  | cons n ns ih => exact List.Subset.trans (subset_cover found n) (ih _)

theorem sound_foldl_cover {ns : List String} {found : List (List String)} (hn : members.Nodup)
    (h : Sound (Follows successors) found) :
    Sound (Follows successors) (ns.foldl (cover successors members) found) := by
  induction ns generalizing found with
  | nil => exact h
  | cons n ns ih => exact ih (h.cover hn)

theorem foldl_cover_covers {ns : List String} (found : List (List String)) {n : String}
    (hn : members.Nodup) (hm : n ∈ ns) (h : shortestCycle successors n members ≠ []) :
    ∃ c ∈ ns.foldl (cover successors members) found, n ∈ c := by
  induction ns generalizing found with
  | nil => exact absurd hm List.not_mem_nil
  | cons a ns ih =>
    rcases List.mem_cons.1 hm with rfl | hm
    · obtain ⟨c, hc, hnc⟩ := cover_covers found hn h
      exact ⟨c, subset_foldl_cover ns _ hc, hnc⟩
    · exact ih _ hm

end Cover

/-! ### Components -/

theorem mem_left_flatten {ess : List (List Event)} {es : List Event} {n : String} (h : es ∈ ess)
    (hn : n ∈ left es) : n ∈ left ess.flatten := by
  obtain ⟨e, he, hl⟩ := List.mem_filterMap.1 hn
  exact List.mem_filterMap.2 ⟨e, List.mem_flatten.2 ⟨es, h, he⟩, hl⟩

theorem mem_loops_flatten {ess : List (List Event)} {p : List String}
    (h : p ∈ loops ess.flatten) : ∃ es ∈ ess, p ∈ loops es := by
  obtain ⟨e, he, hl⟩ := List.mem_filterMap.1 h
  obtain ⟨es, hes, he⟩ := List.mem_flatten.1 he
  exact ⟨es, hes, List.mem_filterMap.2 ⟨e, he, hl⟩⟩

theorem components_nodup {g : Graph} (h : g.IsWellFormed) : ∀ c ∈ g.components, c.Nodup := by
  intro c hc
  obtain ⟨es, hes, rfl⟩ := List.mem_map.1 (List.mem_reverse.1 hc)
  exact (explore_fresh h.nodup es hes).1

theorem reach_predecessors {g : Graph} {a b : String}
    (h : Relation.ReflTransGen g.Edge a b) :
    Relation.ReflTransGen (Follows g.predecessors) b a := by
  induction h with
  | refl => exact .refl
  | tail _ hbc ih => exact ih.head (mem_predecessors.2 hbc)

/-- **A component holds all that its names reach and are reached from.** -/
theorem exists_component {g : Graph} (h : g.IsWellFormed) {n : String} (hn : n ∈ g.names) :
    ∃ c ∈ g.components, n ∈ c ∧ ∀ m, Relation.ReflTransGen g.Edge n m →
      Relation.ReflTransGen g.Edge m n → m ∈ c := by
  -- the first searches leave every name, so the second ones start from every name
  have hstart : n ∈ (left (explore (lookIn g.adjacency) g.names g.names).flatten).reverse := by
    obtain ⟨es, hes, hm⟩ := explore_entered (lookIn g.adjacency) hn hn
    exact List.mem_reverse.2 (mem_left_flatten hes (explore_left es hes hm))
  obtain ⟨es, hes, hm⟩ := explore_entered g.predecessors hn hstart
  refine ⟨entered es, List.mem_reverse.2 (List.mem_map.2 ⟨es, hes, rfl⟩), hm, fun m hnm hmn => ?_⟩
  exact explore_together h.nodup h.closed_predecessors (reach_predecessors hmn)
    (reach_predecessors hnm) es hes hm

/-! ### All cycles -/

/-- On the way from a name back to itself one meets only names that it reaches and that reach
it. -/
theorem transGen_within {R : String → String → Prop} {members : List String} {n m : String}
    (hin : ∀ b, Relation.ReflTransGen R n b → Relation.ReflTransGen R b n → b ∈ members)
    (h : Relation.TransGen R n m) (hb : Relation.ReflTransGen R m n) :
    Relation.TransGen (fun a b => R a b ∧ b ∈ members) n m := by
  induction h with
  | single hab => exact .single ⟨hab, hin _ (.single hab) hb⟩
  | tail hab hbc ih =>
    exact (ih (hb.head hbc)).tail ⟨hbc, hin _ (hab.to_reflTransGen.tail hbc) hb⟩

theorem subset_foldl_components {successors : String → List String} {names : List String}
    (cs found : List (List String)) :
    found ⊆ cs.foldl (fun found c =>
      (names.filter c.contains).foldl (cover successors c) found) found := by
  induction cs generalizing found with
  | nil => exact List.Subset.refl _
  | cons c cs ih => exact List.Subset.trans (subset_foldl_cover _ _) (ih _)

theorem sound_foldl_components {successors : String → List String} {names : List String}
    {cs found : List (List String)} (hcs : ∀ c ∈ cs, c.Nodup)
    (h : Sound (Follows successors) found) :
    Sound (Follows successors) (cs.foldl (fun found c =>
      (names.filter c.contains).foldl (cover successors c) found) found) := by
  induction cs generalizing found with
  | nil => exact h
  | cons c cs ih =>
    exact ih (fun d hd => hcs d (List.mem_cons_of_mem _ hd))
      (sound_foldl_cover (hcs c List.mem_cons_self) h)

theorem foldl_components_covers {successors : String → List String} {names : List String}
    {cs found : List (List String)} {c : List String} {n : String} (hc : c ∈ cs) (hcn : c.Nodup)
    (hn : n ∈ names) (hnc : n ∈ c) (h : shortestCycle successors n c ≠ []) :
    ∃ d ∈ cs.foldl (fun found c =>
      (names.filter c.contains).foldl (cover successors c) found) found, n ∈ d := by
  induction cs generalizing found with
  | nil => exact absurd hc List.not_mem_nil
  | cons a cs ih =>
    rcases List.mem_cons.1 hc with rfl | hc
    · have hm : n ∈ names.filter c.contains :=
        List.mem_filter.2 ⟨hn, List.contains_iff_mem.2 hnc⟩
      obtain ⟨d, hd, hnd⟩ := foldl_cover_covers found hcn hm h
      exact ⟨d, subset_foldl_components cs _ hd, hnd⟩
    · exact ih hc

theorem sound_cycles {g : Graph} (h : g.IsWellFormed) : Sound g.Edge g.cycles := by
  rw [← h.follows]
  refine sound_foldl_components (fun c hc => ?_) (sound_foldl_addCycle (fun p hp => ?_) ?_)
  · exact components_nodup h c (List.mem_filter.1 hc).1
  · obtain ⟨es, hes, hp⟩ := mem_loops_flatten hp
    exact explore_loops es hes p hp
  · exact ⟨by simp, by simp⟩

/-- The component of a name that reaches itself counts as cyclic. -/
theorem isCyclic_of_transGen {g : Graph} (h : g.IsWellFormed) {c : List String} {n : String}
    (hn : n ∈ c) (hc : ∀ m, Relation.ReflTransGen g.Edge n m →
      Relation.ReflTransGen g.Edge m n → m ∈ c)
    (ht : Relation.TransGen g.Edge n n) : isCyclic (lookIn g.adjacency) c = true := by
  unfold isCyclic
  split
  · rename_i m
    obtain rfl := List.mem_singleton.1 hn
    obtain ⟨b, hnb, hbn⟩ := Relation.TransGen.head'_iff.1 ht
    obtain rfl := List.mem_singleton.1 (hc b (.single hnb) hbn)
    exact List.contains_iff_mem.2 (h.mem_lookIn.2 hnb)
  · rfl

/-- **The names on the cycles found are those that reach themselves.** -/
theorem mem_cycles_iff {g : Graph} (h : g.IsWellFormed) {n : String} :
    (∃ c ∈ g.cycles, n ∈ c) ↔ Relation.TransGen g.Edge n n := by
  constructor
  · rintro ⟨c, hc, hn⟩
    exact ((sound_cycles h).cycle c hc).transGen hn
  · intro ht
    have hn : n ∈ g.names := by
      obtain ⟨b, hb, -⟩ := Relation.TransGen.head'_iff.1 ht
      exact (h.ends _ hb).1
    obtain ⟨c, hc, hnc, hin⟩ := exists_component h hn
    have hw := transGen_within hin ht .refl
    rw [← h.follows] at hw
    have hcn := components_nodup h c hc
    exact foldl_components_covers (List.mem_filter.2 ⟨hc, isCyclic_of_transGen h hnc hin ht⟩) hcn
      hn hnc (shortestCycle_ne_nil hcn hw)

/-! ### Members of cycles -/

/-- What the table of members holds once `names` of a cycle have been entered. -/
theorem foldl_members (cycle names : List String) (members : List (String × List String))
    (hk : (members.map Prod.fst).Nodup) :
    let result := names.foldl (fun members name =>
      if members.any fun m => m.1 == name then members else members ++ [(name, cycle)]) members
    (result.map Prod.fst).Nodup ∧
      (∀ n, n ∈ result.map Prod.fst ↔ n ∈ members.map Prod.fst ∨ n ∈ names) ∧
      ∀ m ∈ result, m ∈ members ∨ m.2 = cycle ∧ m.1 ∈ names := by
  induction names generalizing members with
  | nil => exact ⟨hk, fun n => by simp, fun m hm => .inl hm⟩
  | cons a names ih =>
    rw [List.foldl_cons]
    have hany : (members.any fun m => m.1 == a) = true ↔ a ∈ members.map Prod.fst := by
      simp
    split_ifs with ha
    · obtain ⟨h₁, h₂, h₃⟩ := ih members hk
      refine ⟨h₁, fun n => ?_, fun m hm => ?_⟩
      · rw [h₂, List.mem_cons]
        constructor
        · exact fun h => h.imp_right .inr
        · rintro (h | rfl | h)
          · exact .inl h
          · exact .inl (hany.1 ha)
          · exact .inr h
      · exact (h₃ m hm).imp_right fun h => ⟨h.1, List.mem_cons_of_mem _ h.2⟩
    · have hk' : ((members ++ [(a, cycle)]).map Prod.fst).Nodup := by
        rw [List.map_append, List.nodup_append]
        refine ⟨hk, by simp, ?_⟩
        rintro x hx y hy rfl
        rw [List.mem_singleton.1 hy] at hx
        exact ha (hany.2 hx)
      obtain ⟨h₁, h₂, h₃⟩ := ih _ hk'
      refine ⟨h₁, fun n => ?_, fun m hm => ?_⟩
      · rw [h₂, List.map_append, List.mem_append, List.mem_cons, or_assoc]
        simp
      · rcases h₃ m hm with hm | hm
        · rcases List.mem_append.1 hm with hm | hm
          · exact .inl hm
          · rw [List.mem_singleton.1 hm]
            exact .inr ⟨rfl, List.mem_cons_self⟩
        · exact .inr ⟨hm.1, List.mem_cons_of_mem _ hm.2⟩

theorem foldl_cycleMembers (found : List (List String)) (members : List (String × List String))
    (hk : (members.map Prod.fst).Nodup) :
    let result := found.foldl (fun members cycle => cycle.foldl (fun members name =>
      if members.any fun m => m.1 == name then members else members ++ [(name, cycle)]) members)
      members
    (result.map Prod.fst).Nodup ∧
      (∀ n, n ∈ result.map Prod.fst ↔ n ∈ members.map Prod.fst ∨ ∃ c ∈ found, n ∈ c) ∧
      ∀ m ∈ result, m ∈ members ∨ m.2 ∈ found ∧ m.1 ∈ m.2 := by
  induction found generalizing members with
  | nil => exact ⟨hk, fun n => by simp, fun m hm => .inl hm⟩
  | cons c found ih =>
    obtain ⟨h₁, h₂, h₃⟩ := foldl_members c c members hk
    obtain ⟨h₄, h₅, h₆⟩ := ih _ h₁
    refine ⟨h₄, fun n => ?_, fun m hm => ?_⟩
    · rw [List.foldl_cons, h₅, h₂, or_assoc]
      simp
    · rcases h₆ m hm with hm | hm
      · rcases h₃ m hm with hm | ⟨he, hm⟩
        · exact .inl hm
        · exact .inr ⟨he ▸ List.mem_cons_self, he ▸ hm⟩
      · exact .inr ⟨List.mem_cons_of_mem _ hm.1, hm.2⟩

/-- The table of members has one entry for each name on a cycle. -/
theorem mem_cycleMembers_iff (found : List (List String)) (n : String) :
    n ∈ (cycleMembers found).map Prod.fst ↔ ∃ c ∈ found, n ∈ c := by
  refine ((foldl_cycleMembers found [] (by simp)).2.1 n).trans ?_
  simp

theorem cycleMembers_nodup (found : List (List String)) :
    ((cycleMembers found).map Prod.fst).Nodup :=
  (foldl_cycleMembers found [] (by simp)).1

/-- Each name stands with one of the cycles, on which it lies. -/
theorem of_mem_cycleMembers {found : List (List String)} {m : String × List String}
    (h : m ∈ cycleMembers found) : m.2 ∈ found ∧ m.1 ∈ m.2 :=
  ((foldl_cycleMembers found [] (by simp)).2.2 m h).resolve_left List.not_mem_nil

/-! ### Correctness -/

theorem cycles_pairwise {g : Graph} (h : g.IsWellFormed) :
    g.cycles.Pairwise fun a b => ¬ a ~r b := by
  have hs := sound_cycles h
  refine (List.pairwise_map.1 hs.nodup).imp_of_mem fun ha _ hne hr => hne ?_
  exact leastFirst_eq (hs.cycle _ ha).nodup hr

/-- **The cycles found are right and leave no name out.** In every graph that can be built, each
of them is a cycle of the graph, no two are rotations of each other, and the table of members has
an entry for exactly the names that lie on some cycle, with a cycle found on which the name lies.
So none is found just when the graph has none. -/
theorem cycles_correct (roots : List String) (edits : List Edit) :
    let g := build roots edits
    (∀ c ∈ g.cycles, IsCycle g.Edge c) ∧
    (g.cycles.Pairwise fun a b => ¬ a ~r b) ∧
    ((cycleMembers g.cycles).map Prod.fst).Nodup ∧
    (∀ n, n ∈ (cycleMembers g.cycles).map Prod.fst ↔ ∃ c, IsCycle g.Edge c ∧ n ∈ c) ∧
    (∀ m ∈ cycleMembers g.cycles, m.2 ∈ g.cycles ∧ m.1 ∈ m.2) ∧
    (g.cycles = [] ↔ ∀ c, ¬ IsCycle g.Edge c) := by
  intro g
  have h : g.IsWellFormed := build_isWellFormed roots edits
  have hs := sound_cycles h
  have hmem : ∀ n, (∃ c ∈ g.cycles, n ∈ c) ↔ ∃ c, IsCycle g.Edge c ∧ n ∈ c := by
    intro n
    constructor
    · rintro ⟨c, hc, hn⟩
      exact ⟨c, hs.cycle c hc, hn⟩
    · rintro ⟨c, hc, hn⟩
      exact (mem_cycles_iff h).2 (hc.transGen hn)
  refine ⟨hs.cycle, cycles_pairwise h, cycleMembers_nodup _, fun n => ?_,
    fun m hm => of_mem_cycleMembers hm, fun he c hc => ?_, fun hno => ?_⟩
  · rw [mem_cycleMembers_iff, hmem]
  · obtain ⟨n, r, rfl⟩ := List.exists_cons_of_ne_nil hc.ne_nil
    obtain ⟨d, hd, -⟩ := (hmem n).2 ⟨_, hc, List.mem_cons_self⟩
    rw [he] at hd
    exact absurd hd List.not_mem_nil
  · exact List.eq_nil_iff_forall_not_mem.2 fun c hc => hno c (hs.cycle c hc)

end Graph
end Stencil
