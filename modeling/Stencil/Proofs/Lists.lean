/-
# Facts about lists

Where a list is cut at an element, how an element joins a list without
repetitions, or one in which elements have keys, the first element without a
property, the least element of a list, the elements of a list each once, and
rotations.

Key definition: `FirstSeen`.
Key theorems: `takeWhile_ne_append`, `nodup_insert`, `map_put`, `eq_of_first`,
`foldl_least_le`, `firstSeen_eraseDups`, `eq_of_isRotated`.
-/
import Mathlib.Data.List.Chain
import Mathlib.Data.List.Rotate
import Mathlib.Order.Lattice

namespace Stencil
namespace ListFacts

open List

theorem takeWhile_ne_append {α : Type*} [DecidableEq α] {c : α} {l : List α} (h : c ∈ l) :
    ∃ rest, l = l.takeWhile (· != c) ++ c :: rest := by
  induction l with
  | nil => exact absurd h List.not_mem_nil
  | cons a l ih =>
    by_cases hac : a = c
    · subst hac
      exact ⟨l, by simp⟩
    · obtain ⟨rest, hr⟩ := ih ((List.mem_cons.1 h).resolve_left (Ne.symm hac))
      refine ⟨rest, ?_⟩
      rw [List.takeWhile_cons_of_pos (by simpa using hac), List.cons_append, ← hr]

theorem dropWhile_ne_cons {α : Type*} [DecidableEq α] {c : α} {l : List α} (h : c ∈ l) :
    ∃ rest, l.dropWhile (· != c) = c :: rest := by
  obtain ⟨rest, hr⟩ := takeWhile_ne_append h
  have hd := List.takeWhile_append_dropWhile (p := (· != c)) (l := l)
  exact ⟨rest, List.append_cancel_left (hd.trans hr)⟩

/-- An element put at the end of a list that does not hold it yet leaves the list without
repetitions. -/
theorem nodup_insert {α : Type*} [DecidableEq α] {a : α} {l : List α} (h : l.Nodup) :
    (if a ∈ l then l else l ++ [a]).Nodup := by
  split_ifs with ha
  · exact h
  · rw [List.nodup_append]
    refine ⟨h, by simp, ?_⟩
    rintro x hx y hy rfl
    exact ha (List.mem_singleton.1 hy ▸ hx)

theorem mem_insert {α : Type*} [DecidableEq α] {a b : α} {l : List α} :
    b ∈ (if a ∈ l then l else l ++ [a]) ↔ b ∈ l ∨ b = a := by
  split_ifs with ha
  · exact ⟨.inl, fun h => h.elim id fun he => he ▸ ha⟩
  · simp

/-- The keys of a list in which an element is put in the place of the first with its key, or at the
end if there is none. -/
theorem map_put {α β : Type*} [DecidableEq β] {key : α → β} {k : β} (put : List α → List α)
    (hnil : (put []).map key = [k])
    (hcons : ∀ a l, (put (a :: l)).map key =
      if key a = k then k :: l.map key else key a :: (put l).map key) (l : List α) :
    (put l).map key = if k ∈ l.map key then l.map key else l.map key ++ [k] := by
  induction l with
  | nil => exact hnil
  | cons a l ih =>
    rw [hcons, List.map_cons]
    by_cases ha : key a = k
    · rw [if_pos ha, if_pos (by simp [ha]), ha]
    · rw [if_neg ha, ih]
      by_cases hl : k ∈ l.map key
      · rw [if_pos hl, if_pos (List.mem_cons_of_mem _ hl)]
      · rw [if_neg hl, if_neg (by simp [Ne.symm ha, hl]), List.cons_append]

/-- The first element without a property is the same however the list is cut at it. -/
theorem eq_of_first {α : Type*} {p : α → Prop} {before before' after after' : List α} {a a' : α}
    (h : before ++ a :: after = before' ++ a' :: after') (hb : ∀ x ∈ before, p x)
    (hb' : ∀ x ∈ before', p x) (ha : ¬ p a) (ha' : ¬ p a') : a = a' := by
  induction before generalizing before' with
  | nil =>
    cases before' with
    | nil => exact (List.cons.inj h).1
    | cons x xs => exact absurd ((List.cons.inj h).1 ▸ hb' x List.mem_cons_self) ha
  | cons x xs ih =>
    cases before' with
    | nil => exact absurd ((List.cons.inj h).1 ▸ hb x List.mem_cons_self) ha'
    | cons y ys =>
      exact ih (List.cons.inj h).2 (fun z hz => hb z (List.mem_cons_of_mem _ hz))
        fun z hz => hb' z (List.mem_cons_of_mem _ hz)

theorem foldl_least_mem {α : Type*} [LinearOrder α] (n : α) (r : List α) :
    r.foldl (fun m x => if x < m then x else m) n ∈ n :: r := by
  induction r generalizing n with
  | nil => exact List.mem_singleton.2 rfl
  | cons a r ih =>
    rw [List.foldl_cons]
    rcases List.mem_cons.1 (ih (if a < n then a else n)) with h | h
    · rw [h]
      split_ifs
      · simp
      · simp
    · exact List.mem_cons_of_mem _ (List.mem_cons_of_mem _ h)

theorem foldl_least_le {α : Type*} [LinearOrder α] (n : α) (r : List α) :
    ∀ x ∈ n :: r, r.foldl (fun m x => if x < m then x else m) n ≤ x := by
  induction r generalizing n with
  | nil => simp
  | cons a r ih =>
    intro x hx
    rw [List.foldl_cons]
    have h := ih (if a < n then a else n)
    have hle : (if a < n then a else n) ≤ a ∧ (if a < n then a else n) ≤ n := by
      split_ifs with han
      · exact ⟨le_refl _, le_of_lt han⟩
      · exact ⟨le_of_not_gt han, le_refl _⟩
    have hm := h _ List.mem_cons_self
    rcases List.mem_cons.1 hx with rfl | hx
    · exact hm.trans hle.2
    rcases List.mem_cons.1 hx with rfl | hx
    · exact hm.trans hle.1
    · exact h x (List.mem_cons_of_mem _ hx)

/-! ### Each element once -/

/-- The list holds the elements of another one, each once, in the order in which they first appear
there. -/
structure FirstSeen {α : Type*} [BEq α] (ms l : List α) : Prop where
  mem : ∀ m, m ∈ ms ↔ m ∈ l
  order : ms.Pairwise fun a b => l.idxOf a < l.idxOf b

theorem FirstSeen.nodup {α : Type*} [BEq α] {ms l : List α} (h : FirstSeen ms l) : ms.Nodup :=
  h.order.imp fun {a b} (hlt : l.idxOf a < l.idxOf b) (he : a = b) => Nat.lt_irrefl _ (he ▸ hlt)

theorem firstSeen_eraseDups {α : Type*} [BEq α] [LawfulBEq α] (l : List α) :
    FirstSeen l.eraseDups l := by
  refine ⟨fun m => mem_eraseDups, ?_⟩
  induction l using List.reverseRecOn with
  | nil => exact .nil
  | append_singleton l a ih =>
    have hl : l.eraseDups.Pairwise fun x y => (l ++ [a]).idxOf x < (l ++ [a]).idxOf y := by
      refine ih.imp_of_mem fun hx hy hlt => ?_
      rwa [idxOf_append_of_mem (mem_eraseDups.1 hx), idxOf_append_of_mem (mem_eraseDups.1 hy)]
    rw [eraseDups_append]
    by_cases ha : a ∈ l
    · have hnone : [a].removeAll l = [] := by simp [removeAll, ha]
      rw [hnone, eraseDups_nil, append_nil]
      exact hl
    · have hone : ([a].removeAll l).eraseDups = [a] := by simp [removeAll, ha, eraseDups_cons]
      rw [hone]
      refine pairwise_append.2 ⟨hl, pairwise_singleton _ _, fun x hx y hy => ?_⟩
      obtain rfl := mem_singleton.1 hy
      have hx := mem_eraseDups.1 hx
      rw [idxOf_append_of_mem hx, idxOf_append_of_notMem ha]
      exact Nat.lt_of_lt_of_le (idxOf_lt_length_of_mem hx) (Nat.le_add_right _ _)

/-! ### Rotations -/

/-- A rotation of a list without repetitions is known by its head. -/
theorem eq_of_isRotated {α : Type*} {m : α} {r r' : List α} (hn : (m :: r).Nodup)
    (h : (m :: r) ~r (m :: r')) : m :: r = m :: r' := by
  obtain ⟨k, hk⟩ := List.isRotated_iff_mod.1 h
  rw [← hk.2]
  rcases hk.1.lt_or_eq with hlt | heq
  · have hh := List.head?_rotate hlt
    rw [hk.2] at hh
    have h0 : (m :: r)[0]? = (m :: r)[k]? := hh
    rw [(List.getElem?_inj (by simp) hn).1 h0 |>.symm, List.rotate_zero]
  · rw [heq, List.rotate_length]

end ListFacts
end Stencil
