/-
# A cache with room for all

A cache without a time to live that has room for all the names it is given
never loses an entry. What it holds is then the set of the names that were put,
and a lookup finds a name just if it is one of them.

Key definition: `Holds`.
Key theorems: `Holds.findNow`, `Holds.putNow`.
-/
import Mathlib.Data.Finset.Card
import Mathlib.Data.Finset.Dedup
import Stencil.Cache
import Stencil.Proofs.Cache.Indexes

namespace Stencil
namespace Cache

/-- The cache has one entry for each of the names `kept`, all in a context with the fingerprint
`f`, and may have one for each of `room` names, for ever. -/
structure Holds (room : Nat) (f : String) (kept : Finset String) (c : Cache) : Prop where
  lifetime : c.lifetime = none
  capacity : (Number.int room).le c.capacity = true
  nodup : (c.entries.map Prod.fst).Nodup
  keys : ∀ k, k ∈ c.entries.map Prod.fst ↔ k.fingerprint = f ∧ k.name ∈ kept

variable {room : Nat} {f n : String} {kept : Finset String} {c c' : Cache} {e : Entry}
  {e? : Option Entry} {s s' : Sources}

theorem holds_empty (hl : c.lifetime = none) (hc : (Number.int room).le c.capacity = true)
    (he : c.entries = []) : c.Holds room f ∅ where
  lifetime := hl
  capacity := hc
  nodup := by rw [he]; exact .nil
  keys k := by simp [he]

/-- There are as many entries as names. -/
theorem Holds.length (h : c.Holds room f kept) : c.entries.length = kept.card := by
  have himage : (c.entries.map Prod.fst).toFinset = kept.image fun n => (⟨n, f⟩ : Key) := by
    ext k
    rw [List.mem_toFinset, h.keys, Finset.mem_image]
    constructor
    · rintro ⟨rfl, hk⟩
      exact ⟨k.name, hk, rfl⟩
    · rintro ⟨n, hn, rfl⟩
      exact ⟨rfl, hn⟩
  rw [← List.length_map Prod.fst, ← List.toFinset_card_of_nodup h.nodup, himage,
    Finset.card_image_of_injective _ fun a b hab => congrArg Key.name hab]

/-- A lookup moves the entry that it finds, and finds one for each name that is kept. -/
theorem Holds.find (h : c.Holds room f kept) (n : String) (now : Number) :
    (c.find ⟨n, f⟩ now).2.Holds room f kept ∧
      ((c.find ⟨n, f⟩ now).1.isSome = true ↔ n ∈ kept) := by
  have hkept : n ∈ kept ↔ (c.entry? ⟨n, f⟩).isSome = true := by
    rw [← mem_keys_iff, h.keys]
    simp
  cases he : c.entry? ⟨n, f⟩ with
  | none =>
    rw [find_of_none he, hkept, Cache.find, he]
    exact ⟨⟨h.lifetime, h.capacity, h.nodup, h.keys⟩, Iff.rfl⟩
  | some e =>
    have hfresh : ¬ c.isExpired now e = true := by
      unfold isExpired
      rw [h.lifetime]
      exact Bool.false_ne_true
    have hmap : (without ⟨n, f⟩ c.entries ++ [((⟨n, f⟩ : Key), { e with hits := e.hits + 1 })]).map
        Prod.fst = (c.entries.map Prod.fst).filter (· != ⟨n, f⟩) ++ [⟨n, f⟩] := by
      rw [List.map_append, map_without]
      rfl
    refine ⟨?_, ?_⟩
    · rw [find_of_fresh he hfresh]
      refine ⟨h.lifetime, h.capacity, ?_, fun k => ?_⟩
      · rw [hmap, List.nodup_append]
        exact ⟨h.nodup.filter _, List.nodup_singleton _, by simp⟩
      · rw [hmap, List.mem_append, List.mem_filter, h.keys, List.mem_singleton, bne_iff_ne]
        by_cases hk : k = ⟨n, f⟩
        · subst hk
          simp [hkept, he]
        · simp [hk]
    · rw [hkept, Cache.find, he]
      dsimp only
      rw [if_neg hfresh]
      simp

/-- **A name is found just if it is kept.** -/
theorem Holds.findNow (h : c.Holds room f kept)
    (hf : c.findNow ⟨n, f⟩ s = .ok (e?, c', s')) :
    c'.Holds room f kept ∧ (e?.isSome = true ↔ n ∈ kept) := by
  have hneeds : c.needsTime ⟨n, f⟩ = false := by
    unfold needsTime
    rw [h.lifetime]
    rfl
  unfold Cache.findNow at hf
  rw [if_neg (by rw [hneeds]; exact Bool.false_ne_true)] at hf
  cases hf
  exact h.find n s.now

/-- Nothing is evicted as long as there is room. -/
theorem evict_of_fits {es : List (Key × Entry)}
    (h : ¬ c.capacity.lt (.int (es.length : Nat)) = true) :
    c.evict es = { c with entries := es } := by
  cases es with
  | nil => rfl
  | cons x r => exact if_neg h

/-- A new name is kept beside the others, as long as there is room. -/
theorem Holds.put (h : c.Holds room f kept) (hf : e.fingerprint = f) (hn : e.name ∉ kept)
    (hr : kept.card < room) : (c.put e).Holds room f (insert e.name kept) := by
  have hnone : e.key ∉ c.entries.map Prod.fst := fun hk => hn ((h.keys _).1 hk).2
  have hvacate : c.vacate e.key = c := if_neg fun hs => hnone (mem_keys_iff.2 hs)
  have hfits : ¬ c.capacity.lt (.int (c.entries.length + 1 : Nat)) = true := fun hlt =>
    Number.not_le_of_lt hlt (Number.int_le_of_le h.capacity (by rw [h.length]; omega))
  have hput : c.put e =
      { c with index := addKey e.key c.index, entries := c.entries ++ [(e.key, e)] } := by
    rw [put_eq, hvacate]
    exact evict_of_fits (c := { c with index := addKey e.key c.index })
      (by rwa [List.length_append])
  rw [hput]
  refine ⟨h.lifetime, h.capacity, ?_, fun k => ?_⟩
  · rw [List.map_append, List.nodup_append]
    refine ⟨h.nodup, List.nodup_singleton _, fun k hk j hj => ?_⟩
    obtain rfl := List.mem_singleton.1 hj
    rintro rfl
    exact hnone hk
  · rw [List.map_append, List.mem_append, h.keys, Finset.mem_insert]
    have hkey : k ∈ [(e.key, e)].map Prod.fst ↔ k.fingerprint = f ∧ k.name = e.name := by
      rw [List.map_singleton, List.mem_singleton]
      constructor
      · rintro rfl
        exact ⟨hf, rfl⟩
      · rintro ⟨hk, hk'⟩
        obtain ⟨name, fingerprint⟩ := k
        obtain rfl : name = e.name := hk'
        obtain rfl : fingerprint = e.fingerprint := hk.trans hf.symm
        rfl
    rw [hkey]
    tauto

/-- **What is put stays.** -/
theorem Holds.putNow (h : c.Holds room f kept) (hf : e.fingerprint = f) (hn : e.name ∉ kept)
    (hr : kept.card < room) (hp : c.putNow e s = (.ok s', c')) :
    c'.Holds room f (insert e.name kept) := by
  unfold Cache.putNow at hp
  split_ifs at hp
  · rcases ht : s.readTime with r | ⟨now, s₁⟩
    · rw [ht] at hp
      cases hp
    · rw [ht] at hp
      cases hp
      exact Holds.put (e := { e with created := now }) h hf hn hr
  · cases hp
    exact h.put hf hn hr

end Cache
end Stencil
