/-
# The sequence of a tree

A tree lists its names, each once (`sequence_perm`). Without cycles it lists them
against the order of its graph, so every name comes after those it refers to
(`sequence_after`), and a name to which none refers after those to which some do
(`sequence_last`). With cycles it sorts them by their places. The names that were
met have different places, none of which exceeds the number of entries; so these
names come first, in the order in which they were met, and those never met, which are
sorted by a greater number, come last (`sequence_met`).

Key definitions: `place?`, `Precedes`.
Key theorems: `Placed.place?_eq`, `sequence_perm`, `sequence_after`,
`sequence_last`, `sequence_met`.
-/
import Stencil.Proofs.Tree.Entries

namespace Stencil
namespace Tree

/-- The place that a tree records for a name, if it records one. -/
def place? (t : Tree) (name : String) : Option Nat := (t.find? name).bind Entry.order

/-- If the tree records a place for `b`, it records an earlier one for `a`. -/
def Precedes (t : Tree) (a b : String) : Prop :=
  ∀ j, t.place? b = some j → ∃ i, t.place? a = some i ∧ i < j

variable {t : Tree} {trace : Trace} {steps : List Step} {a b n : String}

/-! ### Places -/

theorem placeOf_eq_some {i : Nat} :
    placeOf steps n = some i ↔ n ∈ metNames steps ∧ (metNames steps).idxOf n + 1 = i := by
  unfold placeOf
  split_ifs with h <;> simp [h]

/-- No place exceeds the number of names that are met. -/
theorem placeOf_le {i : Nat} (h : placeOf steps n = some i) : i ≤ (metNames steps).length := by
  obtain ⟨hn, rfl⟩ := placeOf_eq_some.1 h
  exact List.idxOf_lt_length_iff.2 hn

/-- Different names have different places. -/
theorem placeOf_inj {i : Nat} (ha : placeOf steps a = some i) (hb : placeOf steps b = some i) :
    a = b := by
  obtain ⟨hmem, hi⟩ := placeOf_eq_some.1 ha
  obtain ⟨-, hj⟩ := placeOf_eq_some.1 hb
  exact (List.idxOf_inj hmem).1 (Nat.succ.inj (hi.trans hj.symm))

/-- There is an entry for each place. -/
theorem Placed.length_le (h : Placed steps t) : (metNames steps).length ≤ t.entries.length := by
  calc (metNames steps).length
    _ ≤ t.names.length := ((metNames_nodup steps).subperm h.named).length_le
    _ = t.entries.length := List.length_map _

/-- **The place that a tree records for a name is the one at which it was first met.** -/
theorem Placed.place?_eq (h : Placed steps t) (n : String) : t.place? n = placeOf steps n := by
  unfold place?
  cases hf : t.find? n with
  | none =>
    have hn : n ∉ metNames steps := by
      intro hm
      have hc := contains_iff.2 (h.named hm)
      rw [contains, hf] at hc
      cases hc
    exact (if_neg hn).symm
  | some x =>
    unfold find? at hf
    have hname := List.find?_some hf
    obtain rfl : x.name = n := beq_iff_eq.1 hname
    exact h.order x (List.mem_of_find?_eq_some hf)

/-! ### The sequence -/

/-- **A sequence lists the names of its tree, each once.** -/
theorem sequence_perm (h : t.IsSound) : t.sequence.Perm t.names := by
  unfold sequence
  cases hc : t.hasCycles with
  | true => exact (List.mergeSort_perm _ _).map Entry.name
  | false =>
    rw [hasCycles, Bool.not_eq_false'] at hc
    rw [if_neg Bool.false_ne_true, ← h.names]
    exact (List.reverse_perm _).trans (Graph.sourceOrder_perm h.wellFormed h.isSimple hc)

/-- **Without cycles a name comes after those it refers to.** -/
theorem sequence_after (h : t.IsSound) (hc : t.hasCycles = false) (he : t.graph.Edge a b) :
    [b, a].Sublist t.sequence := by
  unfold sequence
  rw [hc, if_neg Bool.false_ne_true]
  rw [hasCycles, Bool.not_eq_false'] at hc
  exact (Graph.sublist_sourceOrder h.wellFormed h.isSimple hc he).reverse

/-- **Without cycles a name to which none refers comes after all names to which some do.** -/
theorem sequence_last (h : t.IsSound) (hc : t.hasCycles = false) (ha : a ∈ t.names)
    (hlast : ∀ x, ¬ t.graph.Edge x a) (he : ∃ x, t.graph.Edge x b) : [b, a].Sublist t.sequence := by
  unfold sequence
  rw [hc, if_neg Bool.false_ne_true]
  rw [hasCycles, Bool.not_eq_false'] at hc
  have hb : b ∈ t.graph.sourceOrder := by
    obtain ⟨x, hx⟩ := he
    rw [(Graph.sourceOrder_perm h.wellFormed h.isSimple hc).mem_iff]
    exact (h.wellFormed.ends _ hx).2
  exact (Graph.source_sublist (h.names ▸ ha) hlast hb he).reverse

/-- A list is sorted by numbers given to its elements. -/
theorem pairwise_mergeSort_le {α : Type} (key : α → Nat) (l : List α) :
    (l.mergeSort fun x y => decide (key x ≤ key y)).Pairwise fun x y => key x ≤ key y := by
  have htrans : ∀ x y z : α, decide (key x ≤ key y) = true → decide (key y ≤ key z) = true →
      decide (key x ≤ key z) = true := by
    intro x y z hxy hyz
    rw [decide_eq_true_eq] at hxy hyz ⊢
    exact hxy.trans hyz
  have htotal : ∀ x y : α, (decide (key x ≤ key y) || decide (key y ≤ key x)) = true := by
    intro x y
    rw [Bool.or_eq_true, decide_eq_true_eq, decide_eq_true_eq]
    exact Nat.le_total _ _
  exact (List.pairwise_mergeSort htrans htotal l).imp of_decide_eq_true

/-- **With cycles the names that were met come first**, in the order of their places. -/
theorem sequence_met (h : Placed steps t) (hc : t.hasCycles = true) :
    t.sequence.Pairwise t.Precedes := by
  let key (x : Entry) : Nat := x.order.getD (t.entries.length + 1)
  let sorted := t.entries.mergeSort fun x y => decide (key x ≤ key y)
  have hseq : t.sequence = sorted.map Entry.name := by
    unfold sequence
    rw [hc, if_pos rfl]
  have hperm : sorted.Perm t.entries := List.mergeSort_perm _ _
  have hnames : sorted.Pairwise fun x y => x.name ≠ y.name :=
    List.pairwise_map.1 ((hperm.map Entry.name).nodup_iff.2 h.nodup)
  rw [hseq, List.pairwise_map]
  have hpairs := (pairwise_mergeSort_le key t.entries).and hnames
  refine hpairs.imp_of_mem fun {x y} hx hy ⟨hle, hne⟩ j hj => ?_
  have hxo := h.order x (hperm.mem_iff.1 hx)
  have hyo := h.order y (hperm.mem_iff.1 hy)
  rw [h.place?_eq] at hj ⊢
  have hroom := placeOf_le hj
  have hlength := h.length_le
  have hykey : key y = j := by rw [show key y = y.order.getD _ from rfl, hyo, hj, Option.getD_some]
  cases hi : placeOf steps x.name with
  | none =>
    -- a name without a place is sorted by a number greater than all places
    have hxkey : key x = t.entries.length + 1 := by
      rw [show key x = x.order.getD _ from rfl, hxo, hi, Option.getD_none]
    omega
  | some i =>
    have hxkey : key x = i := by
      rw [show key x = x.order.getD _ from rfl, hxo, hi, Option.getD_some]
    have hij : i ≠ j := fun he => hne (placeOf_inj hi (he ▸ hj))
    exact ⟨i, rfl, by omega⟩

end Tree
end Stencil
