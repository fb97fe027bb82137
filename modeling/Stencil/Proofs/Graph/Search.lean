/-
# What a depth-first search finds

A search enters every name that it can reach among the fresh ones, and leaves
every name that it enters. No edge leads from a name that is not fresh to a
fresh one, before a search and after it (`Closed`); so names that reach one
another are entered by the same search (`explore_together`), in whatever order
the searches start. Every path back that a search meets is a cycle
(`explore_loops`).

Key definitions: `Follows`, `IsCycle`, `Closed`, `Upright`.
Key theorems: `explore_together`, `explore_entered`, `explore_left`,
`explore_loops`.
-/
import Mathlib.Logic.Relation
import Stencil.Graph.Search
import Stencil.Proofs.Lists

namespace Stencil
namespace Graph

open ListFacts

/-- `b` is one of the names that `a` refers to. -/
def Follows (successors : String → List String) (a b : String) : Prop := b ∈ successors a

/-- Different names, each of which is related to the next and the last one to the first. -/
structure IsCycle (R : String → String → Prop) (cycle : List String) : Prop where
  ne_nil : cycle ≠ []
  nodup : cycle.Nodup
  chain : cycle.IsChain R
  closes : ∀ a ∈ cycle.getLast?, ∀ b ∈ cycle.head?, R a b

/-- No name that is not fresh refers to a fresh one. -/
def Closed (successors : String → List String) (fresh : List String) : Prop :=
  ∀ x, x ∉ fresh → ∀ y ∈ successors x, y ∉ fresh

theorem Closed.reach {successors : String → List String} {fresh : List String}
    (hc : Closed successors fresh) {a b : String}
    (h : Relation.ReflTransGen (Follows successors) a b) (ha : a ∉ fresh) : b ∉ fresh := by
  induction h with
  | refl => exact ha
  | tail _ hbc ih => exact hc _ ih _ hbc

@[simp] theorem entered_nil : entered [] = [] := rfl
@[simp] theorem entered_enter (n : String) (es : List Event) :
    entered (.enter n :: es) = n :: entered es := rfl
@[simp] theorem entered_leave (n : String) (es : List Event) :
    entered (.leave n :: es) = entered es := rfl
@[simp] theorem entered_loop (p : List String) (es : List Event) :
    entered (.loop p :: es) = entered es := rfl
@[simp] theorem left_nil : left [] = [] := rfl
@[simp] theorem left_enter (n : String) (es : List Event) :
    left (.enter n :: es) = left es := rfl
@[simp] theorem left_leave (n : String) (es : List Event) :
    left (.leave n :: es) = n :: left es := rfl
@[simp] theorem left_loop (p : List String) (es : List Event) :
    left (.loop p :: es) = left es := rfl
@[simp] theorem loops_nil : loops [] = [] := rfl
@[simp] theorem loops_enter (n : String) (es : List Event) :
    loops (.enter n :: es) = loops es := rfl
@[simp] theorem loops_leave (n : String) (es : List Event) :
    loops (.leave n :: es) = loops es := rfl
@[simp] theorem loops_loop (p : List String) (es : List Event) :
    loops (.loop p :: es) = p :: loops es := rfl

/-! ### A walk from a stack of frames -/

/-- The names entered are those fresh before and not after. -/
theorem walk_entered (successors : String → List String) (fresh : List String)
    (frames : List Frame) :
    (entered (walk successors fresh frames).1 ++ (walk successors fresh frames).2).Perm fresh := by
  fun_induction walk successors fresh frames with
  | case1 => exact List.Perm.refl _
  | case2 _ _ _ _ _ h ih => rw [h] at ih; exact ih
  | case3 _ _ _ _ _ _ _ _ h ih => rw [h] at ih; exact ih
  | case4 fresh n c cs r _ hc events rest h ih =>
    rw [h] at ih
    have hm : c ∈ fresh := by simpa using hc
    exact (ih.cons c).trans (List.perm_cons_erase hm).symm
  | case5 _ _ _ _ _ _ _ ih => exact ih

/-- Every name that is entered or was on the stack is left. -/
theorem walk_left (successors : String → List String) (fresh : List String)
    (frames : List Frame) :
    (left (walk successors fresh frames).1).Perm
      (entered (walk successors fresh frames).1 ++ frames.map Prod.fst) := by
  fun_induction walk successors fresh frames with
  | case1 => exact List.Perm.refl _
  | case2 _ n _ _ _ h ih => rw [h] at ih; exact (ih.cons n).trans List.perm_middle.symm
  | case3 _ _ _ _ _ _ _ _ h ih => rw [h] at ih; exact ih
  | case4 _ _ c _ _ _ _ _ _ h ih => rw [h] at ih; exact ih.trans List.perm_middle
  | case5 _ _ _ _ _ _ _ ih => exact ih

/-- The names on the stack are not fresh, and what a name that is not fresh still has to enter is
left to its frame. -/
structure Pending (successors : String → List String) (fresh : List String) (frames : List Frame) :
    Prop where
  nodup : fresh.Nodup
  entered : ∀ f ∈ frames, f.1 ∉ fresh
  kept : ∀ x, x ∉ fresh → ∀ y ∈ successors x, y ∈ fresh → ∃ f ∈ frames, f.1 = x ∧ y ∈ f.2

/-- A child that is not fresh may be passed over. -/
theorem Pending.skip {successors : String → List String} {fresh cs : List String} {n c : String}
    {r : List Frame} (h : Pending successors fresh ((n, c :: cs) :: r)) (hc : c ∉ fresh) :
    Pending successors fresh ((n, cs) :: r) := by
  refine ⟨h.nodup, ?_, fun x hx y hy hyf => ?_⟩
  · intro f hf
    rcases List.mem_cons.1 hf with rfl | hf
    · exact h.entered (n, c :: cs) List.mem_cons_self
    · exact h.entered f (List.mem_cons_of_mem _ hf)
  · obtain ⟨f, hf, hfx, hyf'⟩ := h.kept x hx y hy hyf
    rcases List.mem_cons.1 hf with rfl | hf
    · rcases List.mem_cons.1 hyf' with rfl | hyc
      · exact absurd hyf hc
      · exact ⟨(n, cs), List.mem_cons_self, hfx, hyc⟩
    · exact ⟨f, List.mem_cons_of_mem _ hf, hfx, hyf'⟩

/-- A fresh child is entered. -/
theorem Pending.enter {successors : String → List String} {fresh cs : List String} {n c : String}
    {r : List Frame} (h : Pending successors fresh ((n, c :: cs) :: r)) :
    Pending successors (fresh.erase c) ((c, successors c) :: (n, cs) :: r) := by
  have hce : c ∉ fresh.erase c := fun hm => (h.nodup.mem_erase_iff.1 hm).1 rfl
  refine ⟨h.nodup.erase c, ?_, fun x hx y hy hyf => ?_⟩
  · intro f hf
    rcases List.mem_cons.1 hf with rfl | hf
    · exact hce
    rcases List.mem_cons.1 hf with rfl | hf
    · exact fun hm => h.entered (n, c :: cs) List.mem_cons_self (List.mem_of_mem_erase hm)
    · exact fun hm => h.entered f (List.mem_cons_of_mem _ hf) (List.mem_of_mem_erase hm)
  · by_cases hxc : x = c
    · subst hxc
      exact ⟨_, List.mem_cons_self, rfl, hy⟩
    have hxf : x ∉ fresh := fun hm => hx (h.nodup.mem_erase_iff.2 ⟨hxc, hm⟩)
    obtain ⟨f, hf, hfx, hyf'⟩ := h.kept x hxf y hy (List.mem_of_mem_erase hyf)
    rcases List.mem_cons.1 hf with rfl | hf
    · rcases List.mem_cons.1 hyf' with rfl | hyc
      · exact absurd hyf hce
      · exact ⟨(n, cs), by simp, hfx, hyc⟩
    · exact ⟨f, by simp [hf], hfx, hyf'⟩

/-- When the walk ends, no name that is not fresh refers to a fresh one. -/
theorem walk_closed (successors : String → List String) (fresh : List String)
    (frames : List Frame) (h : Pending successors fresh frames) :
    Closed successors (walk successors fresh frames).2 := by
  fun_induction walk successors fresh frames with
  | case1 fresh =>
    intro x hx y hy hyf
    obtain ⟨f, hf, -⟩ := h.kept x hx y hy hyf
    exact absurd hf List.not_mem_nil
  | case2 fresh n r _ _ hw ih =>
    rw [hw] at ih
    refine ih ⟨h.nodup, fun f hf => h.entered f (List.mem_cons_of_mem _ hf), ?_⟩
    intro x hx y hy hyf
    obtain ⟨f, hf, hfx, hyf'⟩ := h.kept x hx y hy hyf
    rcases List.mem_cons.1 hf with rfl | hf
    · exact absurd hyf' List.not_mem_nil
    · exact ⟨f, hf, hfx, hyf'⟩
  | case3 fresh n c cs r hc _ _ hw ih =>
    rw [hw] at ih
    refine ih (h.skip fun hm => ?_)
    obtain ⟨f, hf, rfl⟩ := List.mem_map.1 (List.contains_iff_mem.1 hc)
    exact h.entered f hf hm
  | case4 fresh n c cs r _ _ _ _ hw ih =>
    rw [hw] at ih
    exact ih h.enter
  | case5 fresh n c cs r _ hc ih => exact ih (h.skip fun hm => hc (by simpa using hm))

/-! ### Paths back -/

/-- The names on the stack are different and each refers to the one above it; what is still to be
followed are references of the frame's name. -/
structure Upright (successors : String → List String) (frames : List Frame) : Prop where
  nodup : (frames.map Prod.fst).Nodup
  chain : (frames.map Prod.fst).IsChain fun upper lower => Follows successors lower upper
  kept : ∀ f ∈ frames, ∀ y ∈ f.2, y ∈ successors f.1

theorem Upright.skip {successors : String → List String} {cs : List String} {n c : String}
    {r : List Frame} (h : Upright successors ((n, c :: cs) :: r)) :
    Upright successors ((n, cs) :: r) := by
  refine ⟨h.nodup, h.chain, fun f hf y hy => ?_⟩
  rcases List.mem_cons.1 hf with rfl | hf
  · exact h.kept (n, c :: cs) List.mem_cons_self y (List.mem_cons_of_mem _ hy)
  · exact h.kept f (List.mem_cons_of_mem _ hf) y hy

theorem Upright.enter {successors : String → List String} {cs : List String} {n c : String}
    {r : List Frame} (h : Upright successors ((n, c :: cs) :: r))
    (hc : c ∉ ((n, c :: cs) :: r).map Prod.fst) :
    Upright successors ((c, successors c) :: (n, cs) :: r) := by
  refine ⟨List.nodup_cons.2 ⟨hc, h.nodup⟩, ?_, fun f hf y hy => ?_⟩
  · exact h.chain.cons_cons (h.kept (n, c :: cs) List.mem_cons_self c List.mem_cons_self)
  · rcases List.mem_cons.1 hf with rfl | hf
    · exact hy
    · exact h.skip.kept f hf y hy

/-- The part of the stack above a name to which its top refers is a cycle. -/
theorem Upright.pathFrom_isCycle {successors : String → List String} {cs : List String}
    {n c : String} {r : List Frame} (h : Upright successors ((n, c :: cs) :: r))
    (hc : c ∈ ((n, c :: cs) :: r).map Prod.fst) :
    IsCycle (Follows successors) (pathFrom c ((n, cs) :: r)) := by
  have hnc : Follows successors n c := h.kept (n, c :: cs) List.mem_cons_self c List.mem_cons_self
  obtain ⟨rest, hr⟩ := takeWhile_ne_append hc
  set upper := (((n, c :: cs) :: r).map Prod.fst).takeWhile (· != c) with hu
  have hp : pathFrom c ((n, cs) :: r) = (upper ++ [c]).reverse := by
    rw [List.reverse_append]; rfl
  have hpre : upper ++ [c] <+: ((n, c :: cs) :: r).map Prod.fst := ⟨rest, by rw [hr]; simp⟩
  have hhead : (upper ++ [c]).head? = some n := by
    rw [List.prefix_iff_eq_take.1 hpre, List.head?_take]
    simp
  rw [hp]
  refine ⟨by simp, List.nodup_reverse.2 (h.nodup.sublist hpre.sublist), ?_, ?_⟩
  · have hc := List.IsChain.prefix h.chain hpre
    exact List.isChain_reverse.2 hc
  · intro a ha b hb
    rw [List.getLast?_reverse, hhead] at ha
    rw [List.head?_reverse, List.getLast?_append] at hb
    cases ha
    cases hb
    exact hnc

/-- Every path back that a walk meets is a cycle. -/
theorem walk_loops (successors : String → List String) (fresh : List String)
    (frames : List Frame) (h : Upright successors frames) :
    ∀ p ∈ loops (walk successors fresh frames).1, IsCycle (Follows successors) p := by
  fun_induction walk successors fresh frames with
  | case1 => simp
  | case2 fresh n r _ _ hw ih =>
    rw [hw] at ih
    exact ih ⟨(List.nodup_cons.1 h.nodup).2, h.chain.tail,
      fun f hf => h.kept f (List.mem_cons_of_mem _ hf)⟩
  | case3 fresh n c cs r hc _ _ hw ih =>
    rw [hw] at ih
    intro p hp
    rcases List.mem_cons.1 hp with rfl | hp
    · exact h.pathFrom_isCycle (List.contains_iff_mem.1 hc)
    · exact ih h.skip p hp
  | case4 fresh n c cs r hc _ _ _ hw ih =>
    rw [hw] at ih
    exact ih (h.enter fun hm => hc (List.contains_iff_mem.2 hm))
  | case5 fresh n c cs r _ _ ih => exact ih h.skip

/-! ### Searches one after another -/

section Explore

variable {successors : String → List String}

variable (successors) in
theorem walkFrom_entered {fresh : List String} {start : String} (hs : start ∈ fresh) :
    (entered (walkFrom successors fresh start).1 ++ (walkFrom successors fresh start).2).Perm
      fresh :=
  ((walk_entered successors (fresh.erase start) [(start, successors start)]).cons start).trans
    (List.perm_cons_erase hs).symm

theorem walkFrom_closed {fresh : List String} (start : String) (hn : fresh.Nodup)
    (hc : Closed successors fresh) : Closed successors (walkFrom successors fresh start).2 := by
  refine walk_closed successors _ _ ⟨hn.erase start, ?_, fun x hx y hy hyf => ?_⟩
  · intro f hf hm
    rw [List.mem_singleton.1 hf] at hm
    exact (hn.mem_erase_iff.1 hm).1 rfl
  · by_cases hxs : x = start
    · exact ⟨_, List.mem_singleton.2 rfl, hxs.symm, hxs ▸ hy⟩
    · have hxf : x ∉ fresh := fun hm => hx (hn.mem_erase_iff.2 ⟨hxs, hm⟩)
      exact absurd (List.mem_of_mem_erase hyf) (hc x hxf y hy)

theorem walkFrom_left {fresh : List String} {start : String} {n : String}
    (hm : n ∈ entered (walkFrom successors fresh start).1) :
    n ∈ left (walkFrom successors fresh start).1 := by
  have hp := walk_left successors (fresh.erase start) [(start, successors start)]
  have hm' : n ∈ start :: entered (walk successors (fresh.erase start)
    [(start, successors start)]).1 := hm
  refine hp.mem_iff.2 ?_
  rcases List.mem_cons.1 hm' with rfl | hm'
  · exact List.mem_append_right _ (List.mem_singleton.2 rfl)
  · exact List.mem_append_left _ hm'

variable (successors) in
theorem walkFrom_loops (fresh : List String) (start : String) :
    ∀ p ∈ loops (walkFrom successors fresh start).1, IsCycle (Follows successors) p := by
  refine walk_loops successors _ _ ⟨by simp, by simp, fun f hf y hy => ?_⟩
  rw [List.mem_singleton.1 hf] at hy ⊢
  exact hy

variable (successors) in
/-- Names that are fresh when a search begins and not when it ends have been entered by it. -/
theorem mem_walkFrom_entered {fresh : List String} {start n : String} (hs : start ∈ fresh)
    (hn : n ∈ fresh) (hn' : n ∉ (walkFrom successors fresh start).2) :
    n ∈ entered (walkFrom successors fresh start).1 :=
  (List.mem_append.1 ((walkFrom_entered successors hs).mem_iff.2 hn)).resolve_right hn'

variable (successors) in
theorem nodup_walkFrom {fresh : List String} {start : String} (hn : fresh.Nodup)
    (hs : start ∈ fresh) :
    (entered (walkFrom successors fresh start).1 ++ (walkFrom successors fresh start).2).Nodup :=
  (walkFrom_entered successors hs).nodup_iff.2 hn

/-- Each search enters different names, all of them fresh at the beginning. -/
theorem explore_fresh {fresh starts : List String} (hn : fresh.Nodup) :
    ∀ es ∈ explore successors fresh starts, (entered es).Nodup ∧ ∀ n ∈ entered es, n ∈ fresh := by
  fun_induction explore successors fresh starts with
  | case1 => simp
  | case2 fresh s r hs es rest hw ih =>
    have hs' : s ∈ fresh := by simpa using hs
    have hp := walkFrom_entered successors hs'
    have hnd := nodup_walkFrom successors hn hs'
    rw [hw] at hp hnd
    intro es' hes
    rcases List.mem_cons.1 hes with rfl | hes
    · exact ⟨(List.nodup_append.1 hnd).1, fun n hm => hp.mem_iff.1 (List.mem_append_left _ hm)⟩
    · obtain ⟨h₁, h₂⟩ := ih (List.nodup_append.1 hnd).2.1 es' hes
      exact ⟨h₁, fun n hm => hp.mem_iff.1 (List.mem_append_right _ (h₂ n hm))⟩
  | case3 fresh s r _ ih => exact ih hn

variable (successors) in
/-- Every start that is fresh at the beginning is entered. -/
theorem explore_entered {fresh starts : List String} {n : String} (hn : n ∈ fresh)
    (hs : n ∈ starts) : ∃ es ∈ explore successors fresh starts, n ∈ entered es := by
  fun_induction explore successors fresh starts with
  | case1 => exact absurd hs List.not_mem_nil
  | case2 fresh s r hsf es rest hw ih =>
    have hs' : s ∈ fresh := by simpa using hsf
    have hself : s ∈ entered es := by
      have : s ∈ entered (walkFrom successors fresh s).1 := List.mem_cons_self
      rwa [hw] at this
    rcases List.mem_cons.1 hs with rfl | hr
    · exact ⟨es, List.mem_cons_self, hself⟩
    by_cases hrest : n ∈ rest
    · obtain ⟨es', hes', hm⟩ := ih hrest hr
      exact ⟨es', List.mem_cons_of_mem _ hes', hm⟩
    · have hm := mem_walkFrom_entered successors hs' hn (by rw [hw]; exact hrest)
      rw [hw] at hm
      exact ⟨es, List.mem_cons_self, hm⟩
  | case3 fresh s r hsf ih =>
    refine ih hn ((List.mem_cons.1 hs).resolve_left ?_)
    rintro rfl
    exact hsf (by simpa using hn)

/-- **Names that reach one another are entered by the same search.** -/
theorem explore_together {fresh starts : List String} (hn : fresh.Nodup)
    (hc : Closed successors fresh) {a b : String}
    (hab : Relation.ReflTransGen (Follows successors) a b)
    (hba : Relation.ReflTransGen (Follows successors) b a) :
    ∀ es ∈ explore successors fresh starts, a ∈ entered es → b ∈ entered es := by
  fun_induction explore successors fresh starts with
  | case1 => simp
  | case2 fresh s r hs es rest hw ih =>
    have hs' : s ∈ fresh := by simpa using hs
    have hp := walkFrom_entered successors hs'
    have hnd := nodup_walkFrom successors hn hs'
    have hcl := walkFrom_closed s hn hc
    have hm := mem_walkFrom_entered successors (n := b) hs'
    rw [hw] at hp hnd hcl hm
    intro es' hes ha
    rcases List.mem_cons.1 hes with rfl | hes
    · have haf : a ∈ fresh := hp.mem_iff.1 (List.mem_append_left _ ha)
      have har : a ∉ rest := fun h => List.disjoint_of_nodup_append hnd ha h
      have hbf : b ∈ fresh := by
        by_contra hb
        exact hc.reach hba hb haf
      exact hm hbf (hcl.reach hab har)
    · exact ih (List.nodup_append.1 hnd).2.1 hcl es' hes ha
  | case3 fresh s r _ ih => exact ih hn hc

/-- Every name that a search enters it also leaves. -/
theorem explore_left {fresh starts : List String} {n : String} :
    ∀ es ∈ explore successors fresh starts, n ∈ entered es → n ∈ left es := by
  fun_induction explore successors fresh starts with
  | case1 => simp
  | case2 fresh s r _ es rest hw ih =>
    intro es' hes hm
    rcases List.mem_cons.1 hes with rfl | hes
    · have hl : n ∈ entered (walkFrom successors fresh s).1 →
          n ∈ left (walkFrom successors fresh s).1 := walkFrom_left
      rw [hw] at hl
      exact hl hm
    · exact ih es' hes hm
  | case3 fresh s r _ ih => exact ih

/-- **Every path back that a search meets is a cycle.** -/
theorem explore_loops {fresh starts : List String} :
    ∀ es ∈ explore successors fresh starts, ∀ p ∈ loops es, IsCycle (Follows successors) p := by
  fun_induction explore successors fresh starts with
  | case1 => simp
  | case2 fresh s r _ es rest hw ih =>
    intro es' hes
    rcases List.mem_cons.1 hes with rfl | hes
    · have := walkFrom_loops successors fresh s
      rwa [hw] at this
    · exact ih es' hes
  | case3 fresh s r _ ih => exact ih

end Explore

end Graph
end Stencil
