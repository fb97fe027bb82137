/-
# Keys that can be told

Unknown keys of a mapping are told in order. So they have to be of one family,
in which any two have an order (`less?_isSome_iff`), and each of them has to be
writable (`allowOnly_reads`).

Key definitions: `Value.family?`, `Value.HaveOrder`, `Value.CanBeTold`,
`Value.Told`.
Key theorems: `Value.less?_isSome_iff`, `Value.sortedKeys_cases`,
`Value.sortedKeys_told`, `Value.allowOnly_reads`.
-/
import Mathlib.Data.List.Pairwise
import Stencil.Proofs.Reading
import Stencil.Value.Keys

namespace Stencil
namespace Value

/-- What a key is compared as. -/
inductive Family where
  | number
  | text
  | date
  /-- The distance from universal time is told, or it is not. -/
  | timestamp (isPlaced : Bool)
deriving DecidableEq

/-- The family of a key; collections have none, nor has the empty value. -/
def family? : Value → Option Family
  | bool _ => some .number
  | int _ => some .number
  | float _ => some .number
  | text _ => some .text
  | date _ => some .date
  | timestamp t => some (.timestamp t.offset.isSome)
  | _ => none

/-- Two keys are of one family. -/
def HaveOrder (a b : Value) : Prop := ∃ f, a.family? = some f ∧ b.family? = some f

/-- Keys that can be put in order, and then be written. -/
structure CanBeTold (keys : List Value) : Prop where
  ordered : keys.Pairwise HaveOrder
  writable : ∀ k ∈ keys, k.isWritable = true

variable {a b c : Value} {keys sorted : List Value}

/-- There is nothing to tell. -/
theorem canBeTold_nil : CanBeTold [] := ⟨.nil, fun _ h => absurd h List.not_mem_nil⟩

theorem HaveOrder.symm (h : HaveOrder a b) : HaveOrder b a := by
  obtain ⟨f, ha, hb⟩ := h
  exact ⟨f, hb, ha⟩

theorem HaveOrder.trans (h : HaveOrder a b) (h' : HaveOrder b c) : HaveOrder a c := by
  obtain ⟨f, ha, hb⟩ := h
  obtain ⟨g, hb', hc⟩ := h'
  obtain rfl : f = g := Option.some.inj (hb.symm.trans hb')
  exact ⟨f, ha, hc⟩

/-- **Two keys can be compared just where they are of one family.** -/
theorem less?_isSome_iff : (a.less? b).isSome = true ↔ HaveOrder a b := by
  unfold HaveOrder
  cases a <;> cases b <;> simp [less?, number?, family?, Calendar.Timestamp.isBefore?]
  case timestamp.timestamp => exact eq_comm

/-- The first key has an order with each other one just where any two have one. -/
theorem pairwise_haveOrder_cons :
    (a :: keys).Pairwise HaveOrder ↔ ∀ k ∈ keys, HaveOrder k a := by
  rw [List.pairwise_cons]
  refine ⟨fun h k hk => (h.1 k hk).symm, fun h => ⟨fun k hk => (h k hk).symm, ?_⟩⟩
  exact List.pairwise_of_forall_mem_list fun k hk l hl => (h k hk).trans (h l hl).symm

/-- **Keys of which any two have an order are sorted, and no others.** -/
theorem sortedKeys_cases (keys : List Value) :
    (keys.Pairwise HaveOrder ∧ ∃ sorted, sortedKeys keys = .ok sorted ∧ sorted.Perm keys) ∨
      (¬ keys.Pairwise HaveOrder ∧ ∃ i, sortedKeys keys = .error i) := by
  cases keys with
  | nil => exact .inl ⟨.nil, [], rfl, .nil⟩
  | cons first keys =>
    rw [pairwise_haveOrder_cons, sortedKeys]
    cases hf : foreignKey? first keys with
    | some k =>
      have hnone : (k.less? first).isNone = true := by
        unfold foreignKey? at hf
        simpa using List.find?_some hf
      refine .inr ⟨fun h => ?_, _, rfl⟩
      have hsome := less?_isSome_iff.2 (h k (List.mem_of_find?_eq_some hf))
      rw [Option.isNone_iff_eq_none] at hnone
      rw [hnone] at hsome
      cases hsome
    | none =>
      refine .inl ⟨fun k hk => less?_isSome_iff.1 ?_, _, rfl, List.mergeSort_perm _ _⟩
      simpa [Option.isSome_iff_ne_none] using List.find?_eq_none.1 hf k hk

/-- What comes of keys that are to be told: there are none, or they are in order, or they have no
order. -/
inductive Told (keys : List Value) : Except Incomparable (List Value) → Prop where
  | none (h : keys = []) : Told keys (.ok [])
  | some {k : Value} {ks : List Value} (h : keys ≠ [])
      (hw : (k :: ks).all isWritable = true ↔ CanBeTold keys) : Told keys (.ok (k :: ks))
  | disordered {i : Incomparable} (h : keys ≠ []) (ht : ¬ CanBeTold keys) : Told keys (.error i)

theorem sortedKeys_told (keys : List Value) : Told keys (sortedKeys keys) := by
  rcases sortedKeys_cases keys with ⟨hord, sorted, hs, hperm⟩ | ⟨hord, i, hs⟩
  · rw [hs]
    cases sorted with
    | nil => exact .none (List.nil_perm.1 hperm)
    | cons k ks =>
      refine .some ?_ ?_
      · rintro rfl
        exact List.cons_ne_nil k ks (List.perm_nil.1 hperm)
      · rw [List.all_eq_true]
        exact ⟨fun h => ⟨hord, fun x hx => h x (hperm.mem_iff.2 hx)⟩,
          fun h x hx => h.writable x (hperm.mem_iff.1 hx)⟩
  · rw [hs]
    refine .disordered ?_ fun h => hord h.ordered
    rintro rfl
    exact hord .nil

/-- **Unknown keys are told if they have an order and can be written.** -/
theorem allowOnly_reads {S F : Type} {IsSound Breaks : S → Prop} {isReported : F → Bool} {s : S}
    {incomparable : Incomparable → F} {told : List Value → F} {allowed : List String}
    {entries : List (Value × Value)} (hs : IsSound s ↔ unknownKeys allowed entries = [])
    (hb : Breaks s ↔ ¬ CanBeTold (unknownKeys allowed entries))
    (hi : ∀ i, isReported (incomparable i) = false)
    (ht : ∀ keys, isReported (told keys) = keys.all isWritable) :
    Reads IsSound Breaks isReported [s] (allowOnly incomparable told allowed entries) := by
  have htold := sortedKeys_told (unknownKeys allowed entries)
  unfold allowOnly
  generalize sortedKeys (unknownKeys allowed entries) = sorted at htold
  cases htold with
  | none h => exact .cons (hs.2 h) .nil
  | disordered h hn => exact .broken (fun hx => h (hs.1 hx)) (hb.2 hn) (hi _)
  | some h hw =>
    refine .head (fun hx => h (hs.1 hx)) ?_
    rw [ht, hb, ← hw, Bool.not_eq_true]

end Value
end Stencil
