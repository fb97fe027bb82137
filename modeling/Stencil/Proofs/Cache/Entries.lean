/-
# What the entries of a cache say

A cache makes nothing up: what holds of each entry's key, value and height
goes on to hold whatever is looked up, put, evicted or removed, as long as it
holds of each entry that is put. A cache with no room keeps nothing at all.

Key definitions: `Cache.All`, `Cache.IsIdle`.
Key theorems: `All.findNow`, `All.putNow`, `IsIdle.findNow`, `IsIdle.putNow`.
-/
import Mathlib.Data.List.Basic
import Stencil.Cache
import Stencil.Proofs.Sources

namespace Stencil

namespace Cache

/-- Each entry's key, value and height satisfy `Q`. -/
def All (Q : Key → String → Int → Prop) (c : Cache) : Prop :=
  ∀ x ∈ c.entries, Q x.1 x.2.value x.2.height

variable {Q : Key → String → Int → Prop} {c : Cache} {k : Key} {s : Sources}

theorem All.mono {Q' : Key → String → Int → Prop} (h : c.All Q)
    (hq : ∀ k v n, Q k v n → Q' k v n) : c.All Q' := fun x hx => hq _ _ _ (h x hx)

theorem entry?_mem {e : Entry} (h : c.entry? k = some e) : (k, e) ∈ c.entries := by
  obtain ⟨⟨k', e'⟩, hf, rfl⟩ := Option.map_eq_some_iff.1 h
  have hk : k' = k := by simpa using List.find?_some hf
  exact hk ▸ List.mem_of_find?_eq_some hf

theorem All.remove (h : c.All Q) (k : Key) : (c.remove k).All Q :=
  fun x hx => h x (List.mem_filter.1 hx).1

theorem All.clear (c : Cache) : c.clear.All Q := fun _ hx => absurd hx List.not_mem_nil

theorem All.invalidate (h : c.All Q) (name : String) : (c.invalidate name).2.All Q := by
  have hf : ∀ (ks : List Key) (c : Cache), c.All Q → (ks.foldl Cache.remove c).All Q := by
    intro ks
    induction ks with
    | nil => exact fun c hc => hc
    | cons k ks ih => exact fun c hc => ih _ (hc.remove k)
  exact hf _ c h

theorem All.find (h : c.All Q) (k : Key) (now : Number) :
    (c.find k now).2.All Q ∧ ∀ e, (c.find k now).1 = some e → Q k e.value e.height := by
  unfold Cache.find
  cases he : c.entry? k with
  | none => exact ⟨h, fun e he => by cases he⟩
  | some e =>
    have hq : Q k e.value e.height := h _ (entry?_mem he)
    by_cases hx : c.isExpired now e = true
    · simp only [hx, if_true]
      exact ⟨h.remove k, fun e he => by cases he⟩
    · simp only [hx]
      refine ⟨fun x hx => ?_, fun e' he' => ?_⟩
      · rcases List.mem_append.1 hx with hx | hx
        · exact h x (List.mem_filter.1 hx).1
        · rw [List.mem_singleton.1 hx]
          exact hq
      · cases he'
        exact hq

theorem All.evict (c : Cache) {es : List (Key × Entry)}
    (h : ∀ x ∈ es, Q x.1 x.2.value x.2.height) : (c.evict es).All Q := by
  induction es generalizing c with
  | nil => exact h
  | cons x r ih =>
    rw [Cache.evict]
    split_ifs
    · exact ih _ fun y hy => h y (List.mem_cons_of_mem _ hy)
    · exact h

theorem All.put (h : c.All Q) {e : Entry} (he : Q ⟨e.name, e.fingerprint⟩ e.value e.height) :
    (c.put e).All Q := by
  unfold Cache.put
  refine All.evict _ fun x hx => ?_
  rcases List.mem_append.1 hx with hx | hx
  · split_ifs at hx
    · exact h.remove _ x hx
    · exact h x hx
  · rw [List.mem_singleton.1 hx]
    exact he

/-! ### With the time -/

theorem All.of_findNow (h : c.All Q) {e? : Option Entry} {c' : Cache} {s' : Sources}
    (hf : c.findNow k s = .ok (e?, c', s')) :
    c'.All Q ∧ ∀ e, e? = some e → Q k e.value e.height := by
  unfold Cache.findNow at hf
  split_ifs at hf
  · rcases ht : s.readTime with r | ⟨now, s₁⟩
    · rw [ht] at hf
      cases hf
    · rw [ht] at hf
      cases hf
      exact h.find k now
  · cases hf
    exact h.find k s.now

theorem All.putNow_cache (h : c.All Q) {e : Entry}
    (he : Q ⟨e.name, e.fingerprint⟩ e.value e.height) (s : Sources) :
    (c.putNow e s).2.All Q := by
  unfold Cache.putNow
  split_ifs
  · rcases s.readTime with r | ⟨now, s₁⟩
    · exact h.remove _
    · exact h.put he
  · exact h.put he

theorem All.of_putNow (h : c.All Q) {e : Entry} {s : Sources} {o : Except Refusal Sources}
    {c' : Cache} (he : Q ⟨e.name, e.fingerprint⟩ e.value e.height)
    (hk : c.putNow e s = (o, c')) : c'.All Q := by
  have hput := h.putNow_cache he s
  rwa [hk] at hput

/-- With a steady clock looking an entry up always succeeds, and leaves the sources as they are. -/
theorem All.findNow (h : c.All Q) (k : Key) (hs : s.IsSteady) :
    ∃ e? c', c.findNow k s = .ok (e?, c', s) ∧ c'.All Q ∧
      ∀ e, e? = some e → Q k e.value e.height := by
  obtain ⟨e?, c', hf⟩ : ∃ e? c', c.findNow k s = .ok (e?, c', s) := by
    obtain ⟨t, ht⟩ := hs
    unfold Cache.findNow
    split_ifs
    · exact ⟨_, _, by rw [ht]; rfl⟩
    · exact ⟨_, _, rfl⟩
  exact ⟨e?, c', hf, h.of_findNow hf⟩

/-- With a steady clock putting an entry always succeeds, and leaves the sources as they are. -/
theorem All.putNow (h : c.All Q) {e : Entry} (he : Q ⟨e.name, e.fingerprint⟩ e.value e.height)
    (hs : s.IsSteady) : ∃ c', c.putNow e s = (.ok s, c') ∧ c'.All Q := by
  have hp : (c.putNow e s).1 = .ok s := by
    obtain ⟨t, ht⟩ := hs
    unfold Cache.putNow
    split_ifs
    · rw [ht]
    · rfl
  exact ⟨(c.putNow e s).2, Prod.ext hp rfl, h.putNow_cache he s⟩

/-- Where the time can be read, looking an entry up always succeeds. -/
theorem findNow_readable {T : Sources → Prop} (hT : Sources.IsReadable T) (c : Cache) (k : Key)
    (hs : T s) : ∃ e? c' s', c.findNow k s = .ok (e?, c', s') ∧ T s' := by
  unfold Cache.findNow
  split_ifs
  · obtain ⟨t, s', ht, hs'⟩ := hT s hs
    exact ⟨_, _, s', by rw [ht]; rfl, hs'⟩
  · exact ⟨_, _, s, rfl, hs⟩

/-- Where the time can be read, putting an entry always succeeds. -/
theorem putNow_readable {T : Sources → Prop} (hT : Sources.IsReadable T) (c : Cache) (e : Entry)
    (hs : T s) : ∃ s' c', c.putNow e s = (.ok s', c') ∧ T s' := by
  unfold Cache.putNow
  split_ifs
  · obtain ⟨t, s', ht, hs'⟩ := hT s hs
    exact ⟨s', _, by rw [ht], hs'⟩
  · exact ⟨s, _, rfl, hs⟩

/-! ### A cache with no room -/

/-- A cache that never holds an entry. -/
structure IsIdle (c : Cache) : Prop where
  entries : c.entries = []
  capacity : c.capacity = .int 0
  isDated : c.isDated = false

theorem isIdle_ofCapacity : (ofCapacity 0).IsIdle := ⟨rfl, rfl, rfl⟩

theorem IsIdle.entry? (h : c.IsIdle) (k : Key) : c.entry? k = none := by
  rw [Cache.entry?, h.entries]
  rfl

theorem IsIdle.findNow (h : c.IsIdle) (k : Key) (s : Sources) :
    ∃ c', c.findNow k s = .ok (none, c', s) ∧ c'.IsIdle := by
  unfold Cache.findNow needsTime Cache.find
  rw [h.entry? k, Option.isSome_none, Bool.and_false]
  exact ⟨_, rfl, h.entries, h.capacity, h.isDated⟩

theorem lt_zero (n : Nat) : (Number.int 0).lt (.int (n + 1 : Nat)) = true := by
  have h : compare (0 : Int) ((n + 1 : Nat) : Int) = .lt := Int.compare_eq_lt.2 (by omega)
  unfold Number.lt Number.compare?
  dsimp only
  rw [h]
  rfl

theorem evict_idle (es : List (Key × Entry)) {c : Cache} (hc : c.capacity = .int 0)
    (hd : c.isDated = false) : (c.evict es).IsIdle := by
  induction es generalizing c with
  | nil => exact ⟨rfl, hc, hd⟩
  | cons x r ih =>
    have hl : c.capacity.lt (.int (r.length + 1 : Nat)) = true := hc ▸ lt_zero r.length
    rw [Cache.evict, if_pos hl]
    exact ih hc hd

theorem IsIdle.putNow (h : c.IsIdle) (e : Entry) (s : Sources) :
    ∃ c', c.putNow e s = (.ok s, c') ∧ c'.IsIdle := by
  unfold Cache.putNow
  rw [h.isDated]
  refine ⟨_, rfl, ?_⟩
  unfold Cache.put
  simp only [h.entry?, Option.isSome_none]
  exact evict_idle _ h.capacity h.isDated

/-! ### What is counted -/

/-- Looking an entry up counts as one hit or one miss. -/
theorem find_counts (c : Cache) (k : Key) (now : Number) :
    (c.find k now).2.hits = c.hits + (c.find k now).1.toList.length ∧
      (c.find k now).2.misses + (c.find k now).1.toList.length = c.misses + 1 := by
  unfold Cache.find
  cases c.entry? k with
  | none => exact ⟨rfl, rfl⟩
  | some e =>
    dsimp only
    split_ifs <;> exact ⟨rfl, rfl⟩

theorem findNow_counts {e? : Option Entry} {c' : Cache} {s' : Sources}
    (hf : c.findNow k s = .ok (e?, c', s')) :
    c'.hits = c.hits + e?.toList.length ∧ c'.misses + e?.toList.length = c.misses + 1 := by
  unfold Cache.findNow at hf
  split_ifs at hf
  · rcases ht : s.readTime with r | ⟨now, s₁⟩
    · rw [ht] at hf
      cases hf
    · rw [ht] at hf
      cases hf
      exact find_counts c k now
  · cases hf
    exact find_counts c k s.now

theorem evict_counts (es : List (Key × Entry)) (c : Cache) :
    (c.evict es).hits = c.hits ∧ (c.evict es).misses = c.misses := by
  induction es generalizing c with
  | nil => exact ⟨rfl, rfl⟩
  | cons x r ih =>
    rw [Cache.evict]
    split_ifs
    · exact ih _
    · exact ⟨rfl, rfl⟩

/-- Putting an entry counts neither as a hit nor as a miss. -/
theorem put_counts (c : Cache) (e : Entry) :
    (c.put e).hits = c.hits ∧ (c.put e).misses = c.misses := by
  unfold Cache.put
  dsimp only
  refine ⟨(evict_counts _ _).1.trans ?_, (evict_counts _ _).2.trans ?_⟩ <;>
    (dsimp only; split_ifs <;> rfl)

theorem putNow_counts (c : Cache) (e : Entry) (s : Sources) :
    (c.putNow e s).2.hits = c.hits ∧ (c.putNow e s).2.misses = c.misses := by
  unfold Cache.putNow
  split_ifs
  · rcases s.readTime with r | ⟨now, s₁⟩
    · exact ⟨rfl, rfl⟩
    · exact put_counts c _
  · exact put_counts c e

end Cache
end Stencil
