/-
# Marks with a cache and without

The marks of two expansions of one template, one with a cache and one without,
tally if they are the same for all names but the plain ones. Of these, which
are never marked as failed, the one with a cache may mark fewer, since an entry
stands for all that lies below it.

Key definitions: `Pass.others`, `Tallies`.
Key theorems: `Tallies.setResolved`, `Tallies.setFailed`, `Tallies.more`.
-/
import Stencil.Proofs.Expansion.Plain

namespace Stencil

open Template Context

namespace Pass

open Ledger

/-- The marks of names that are not plain. -/
noncomputable def others (p : Pass) (status : List (String × Bool)) : List (String × Bool) :=
  open scoped Classical in status.filter fun s => decide ¬ p.IsPlain s.1

variable {p : Pass} {n : String} {status : List (String × Bool)}

theorem others_append (a b : List (String × Bool)) : p.others (a ++ b) = p.others a ++ p.others b :=
  List.filter_append ..

theorem others_plain (ms : List String) (h : ∀ m ∈ ms, p.IsPlain m) :
    p.others (ms.map fun m => (m, true)) = [] := by
  refine List.filter_eq_nil_iff.2 fun s hs => ?_
  obtain ⟨m, hm, rfl⟩ := List.mem_map.1 hs
  simpa using h m hm

theorem mem_others {s : String × Bool} : s ∈ p.others status ↔ s ∈ status ∧ ¬ p.IsPlain s.1 := by
  unfold others
  rw [List.mem_filter]
  simp

theorem mem_names_setFailed {m : String} :
    m ∈ (setFailed n status).map Prod.fst ↔ m ∈ status.map Prod.fst ∨ m = n := by
  induction status with
  | nil => simp [setFailed]
  | cons s r ih =>
    obtain ⟨k, ok⟩ := s
    rw [setFailed]
    split_ifs with hk
    · rw [beq_iff_eq] at hk
      subst hk
      rw [List.map_cons, List.map_cons, List.mem_cons]
      tauto
    · rw [List.map_cons, List.map_cons, List.mem_cons, List.mem_cons, ih, or_assoc]

theorem mem_setFailed {s : String × Bool} (h : s.1 ≠ n) : s ∈ setFailed n status ↔ s ∈ status := by
  induction status with
  | nil =>
    rw [setFailed, List.mem_singleton]
    exact ⟨fun he => absurd (by rw [he]) h, fun he => absurd he List.not_mem_nil⟩
  | cons t r ih =>
    obtain ⟨k, ok⟩ := t
    rw [setFailed]
    split_ifs with hk
    · rw [beq_iff_eq] at hk
      subst hk
      have hne : ∀ b, s ≠ (k, b) := fun b he => h (by rw [he])
      rw [List.mem_cons, List.mem_cons]
      simp [hne]
    · rw [List.mem_cons, List.mem_cons, ih]

theorem others_setFailed (hn : ¬ p.IsPlain n) :
    p.others (setFailed n status) = setFailed n (p.others status) := by
  unfold others
  induction status with
  | nil => simp [setFailed, hn]
  | cons s r ih =>
    obtain ⟨k, ok⟩ := s
    rw [setFailed]
    by_cases hk : k = n
    · subst hk
      rw [if_pos (beq_self_eq_true k), List.filter_cons_of_pos (by simpa using hn),
        List.filter_cons_of_pos (by simpa using hn), setFailed, if_pos (beq_self_eq_true k)]
    · rw [if_neg (by simpa using hk)]
      by_cases hp : p.IsPlain k
      · rw [List.filter_cons_of_neg (by simpa using hp),
          List.filter_cons_of_neg (by simpa using hp), ih]
      · rw [List.filter_cons_of_pos (by simpa using hp),
          List.filter_cons_of_pos (by simpa using hp), ih, setFailed,
          if_neg (by simpa using hk)]

theorem others_setResolved (hn : ¬ p.IsPlain n) :
    p.others (setResolved n status) = setResolved n (p.others status) := by
  have hm : n ∈ (p.others status).map Prod.fst ↔ n ∈ status.map Prod.fst := by
    constructor
    · intro h
      obtain ⟨s, hs, rfl⟩ := List.mem_map.1 h
      exact List.mem_map_of_mem (mem_others.1 hs).1
    · intro h
      obtain ⟨s, hs, rfl⟩ := List.mem_map.1 h
      exact List.mem_map_of_mem (mem_others.2 ⟨hs, hn⟩)
  rw [setResolved_eq, setResolved_eq]
  simp only [hm]
  split_ifs
  · rfl
  · rw [others_append]
    congr 1
    exact List.filter_cons_of_pos (by simpa using hn)

theorem others_setResolved_plain (hn : p.IsPlain n) :
    p.others (setResolved n status) = p.others status := by
  rw [setResolved_eq]
  split_ifs
  · rfl
  · have h : p.others [(n, true)] = [] := others_plain [n] (by simpa using hn)
    rw [others_append, h, List.append_nil]

theorem mem_setResolved {s : String × Bool} :
    s ∈ setResolved n status ↔ s ∈ status ∨ (n ∉ status.map Prod.fst ∧ s = (n, true)) := by
  rw [setResolved_eq]
  split_ifs with h
  · simp [h]
  · simp [h]

/-- The marks `marks` of an expansion with a cache beside those, `marks₀`, of one without. -/
structure Tallies (p : Pass) (isFresh : Prop) (marks marks₀ : List (String × Bool)) : Prop where
  others : p.others marks = p.others marks₀
  resolved : ∀ s ∈ marks₀, p.IsPlain s.1 → s.2 = true
  fewer : ∀ s ∈ marks, p.IsPlain s.1 → s ∈ marks₀
  same : isFresh → ∀ s ∈ marks₀, p.IsPlain s.1 → s ∈ marks

namespace Tallies

variable {isFresh : Prop} {marks marks₀ : List (String × Bool)}

theorem start : Tallies p isFresh [] [] := ⟨rfl, by simp, by simp, by simp⟩

/-- A plain name that was met is resolved. -/
theorem plain_mem (h : Tallies p isFresh marks marks₀) (hn : p.IsPlain n)
    (hm : n ∈ marks₀.map Prod.fst) : (n, true) ∈ marks₀ := by
  obtain ⟨s, hs, rfl⟩ := List.mem_map.1 hm
  rw [← h.resolved s hs hn]
  exact hs

theorem setFailed (h : Tallies p isFresh marks marks₀) (hn : ¬ p.IsPlain n) :
    Tallies p isFresh (setFailed n marks) (setFailed n marks₀) := by
  have hne : ∀ s : String × Bool, p.IsPlain s.1 → s.1 ≠ n := fun s hs he => hn (he ▸ hs)
  refine ⟨?_, fun s hs hp => ?_, fun s hs hp => ?_, fun hf s hs hp => ?_⟩
  · rw [others_setFailed hn, others_setFailed hn, h.others]
  · exact h.resolved s ((mem_setFailed (hne s hp)).1 hs) hp
  · rw [mem_setFailed (hne s hp)] at hs ⊢
    exact h.fewer s hs hp
  · rw [mem_setFailed (hne s hp)] at hs ⊢
    exact h.same hf s hs hp

/-- A plain name that the expansion without a cache has met is marked in the other one. -/
theorem catchUp (h : Tallies p isFresh marks marks₀) (hn : p.IsPlain n)
    (hm : n ∈ marks₀.map Prod.fst) : Tallies p isFresh (setResolved n marks) marks₀ := by
  refine ⟨?_, h.resolved, fun s hs hp => ?_, fun hf s hs hp => ?_⟩
  · rw [others_setResolved_plain hn, h.others]
  · rcases mem_setResolved.1 hs with hs | ⟨-, rfl⟩
    · exact h.fewer s hs hp
    · exact h.plain_mem hn hm
  · exact mem_setResolved.2 (.inl (h.same hf s hs hp))

/-- The expansion without a cache marks plain names; if the other one began with an empty cache it
has met them. -/
theorem more (h : Tallies p isFresh marks marks₀) (ms : List String)
    (hp : ∀ m ∈ ms, p.IsPlain m) (hm : isFresh → ∀ m ∈ ms, m ∈ marks₀.map Prod.fst) :
    Tallies p isFresh marks (marks₀ ++ ms.map fun m => (m, true)) := by
  refine ⟨?_, fun s hs hx => ?_, fun s hs hx => ?_, fun hf s hs hx => ?_⟩
  · rw [others_append, others_plain ms hp, List.append_nil, h.others]
  · rcases List.mem_append.1 hs with hs | hs
    · exact h.resolved s hs hx
    · obtain ⟨m, -, rfl⟩ := List.mem_map.1 hs
      rfl
  · exact List.mem_append_left _ (h.fewer s hs hx)
  · rcases List.mem_append.1 hs with hs | hs
    · exact h.same hf s hs hx
    · obtain ⟨m, hmm, rfl⟩ := List.mem_map.1 hs
      exact h.same hf _ (h.plain_mem (hp m hmm) (hm hf m hmm)) hx

theorem setResolved (h : Tallies p isFresh marks marks₀) (n : String) :
    Tallies p isFresh (setResolved n marks) (setResolved n marks₀) := by
  by_cases hn : p.IsPlain n
  · have hmem : n ∈ (Ledger.setResolved n marks₀).map Prod.fst := by
      rw [setResolved_eq]
      split_ifs with hx
      · exact hx
      · simp
    have h₀ : Tallies p False marks (Ledger.setResolved n marks₀) := by
      rw [setResolved_eq]
      split_ifs
      · exact ⟨h.others, h.resolved, h.fewer, False.elim⟩
      · exact Tallies.more ⟨h.others, h.resolved, h.fewer, False.elim⟩ [n]
          (by simpa using hn) False.elim
    have h₁ := h₀.catchUp hn hmem
    refine ⟨h₁.others, h₁.resolved, h₁.fewer, fun hf s hs hp => ?_⟩
    rcases mem_setResolved.1 hs with hs | ⟨hx₀, rfl⟩
    · exact mem_setResolved.2 (.inl (h.same hf s hs hp))
    · refine mem_setResolved.2 (.inr ⟨fun hx => ?_, rfl⟩)
      obtain ⟨t, ht, rfl⟩ := List.mem_map.1 hx
      exact hx₀ (List.mem_map_of_mem (h.fewer t ht hn))
  · have hne : ∀ s : String × Bool, p.IsPlain s.1 → s ≠ (n, true) := by
      rintro s hs rfl
      exact hn hs
    have hmem : ∀ (st : List (String × Bool)) (s : String × Bool), p.IsPlain s.1 →
        (s ∈ Ledger.setResolved n st ↔ s ∈ st) := fun st s hs => by
      rw [mem_setResolved]
      exact ⟨fun hx => hx.elim id fun hx => absurd hx.2 (hne s hs), .inl⟩
    refine ⟨?_, fun s hs hp => ?_, fun s hs hp => ?_, fun hf s hs hp => ?_⟩
    · rw [others_setResolved hn, others_setResolved hn, h.others]
    · exact h.resolved s ((hmem _ s hp).1 hs) hp
    · exact (hmem _ s hp).2 (h.fewer s ((hmem _ s hp).1 hs) hp)
    · exact (hmem _ s hp).2 (h.same hf s ((hmem _ s hp).1 hs) hp)

end Tallies

end Pass
end Stencil
