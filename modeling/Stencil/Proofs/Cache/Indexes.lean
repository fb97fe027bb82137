/-
# The two indexes of a cache

A cache knows its entries twice: by key, in the order of use, and by name. An
entry leaves through one of five doors: it is found too old, replaced, evicted,
invalidated, or cleared away. Each door leaves both indexes with the same keys,
and every entry that came in is still there or was counted at its door.

Key definitions: `Cache.Agree`, `Cache.IsCoherent`, `Cache.Operation`,
`Cache.Tally`, `Cache.run`.
Key theorems: `Agree.remove`, `Agree.insert`, `evict_agree`,
`IsCoherent.invalidate`, `InOrder.step`, `indexes_agree`.
-/
import Mathlib.Data.List.Nodup
import Mathlib.Data.List.Perm.Lattice
import Mathlib.Tactic.SplitIfs
import Stencil.Cache
import Stencil.Proofs.Lists
import Stencil.Proofs.Number.Order

namespace Stencil

namespace Cache

/-- The key that an entry belongs to. -/
def Entry.key (e : Entry) : Key := ⟨e.name, e.fingerprint⟩

variable {es : List (Key × Entry)} {ix : List (String × List Key)} {c : Cache} {k : Key}
  {e : Entry} {name : String}

/-! ### The index of names -/

/-- The keys that an index has for a name. -/
def keysIn (name : String) (ix : List (String × List Key)) : List Key :=
  ((ix.find? fun e => e.1 == name).map Prod.snd).getD []

theorem keysOf_eq (c : Cache) (name : String) : c.keysOf name = keysIn name c.index := rfl

theorem keysIn_cons (name n : String) (ks : List Key) (ix : List (String × List Key)) :
    keysIn name ((n, ks) :: ix) = if n = name then ks else keysIn name ix := by
  unfold keysIn
  rw [List.find?_cons]
  by_cases h : n = name
  · simp [h]
  · simp [h, beq_eq_false_iff_ne.2 h]

theorem keysIn_eq_nil (h : name ∉ ix.map Prod.fst) : keysIn name ix = [] := by
  unfold keysIn
  rw [List.find?_eq_none.2 fun x hx hn => h (List.mem_map.2 ⟨x, hx, by simpa using hn⟩)]
  rfl

theorem keysIn_eq_of_mem (h : (ix.map Prod.fst).Nodup) {x : String × List Key} (hx : x ∈ ix) :
    keysIn x.1 ix = x.2 := by
  induction ix with
  | nil => exact absurd hx List.not_mem_nil
  | cons y ix ih =>
    rw [List.map_cons, List.nodup_cons] at h
    rw [keysIn_cons]
    rcases List.mem_cons.1 hx with rfl | hx
    · exact if_pos rfl
    · have hy : y.1 ≠ x.1 := fun hy => h.1 (hy ▸ List.mem_map_of_mem hx)
      rw [if_neg hy]
      exact ih h.2 hx

theorem names_addKey (k : Key) (ix : List (String × List Key)) :
    (addKey k ix).map Prod.fst =
      if k.name ∈ ix.map Prod.fst then ix.map Prod.fst else ix.map Prod.fst ++ [k.name] := by
  fun_induction addKey k ix with
  | case1 => rfl
  | case2 n ks r h =>
    have hn : n = k.name := beq_iff_eq.1 h
    simp [hn]
  | case3 n ks r h ih =>
    have hn : ¬ k.name = n := fun hn => h (by simp [hn])
    rw [List.map_cons, ih]
    by_cases hr : k.name ∈ r.map Prod.fst
    · simp [hr]
    · simp [hr, hn]

theorem keysIn_addKey (name : String) (k : Key) (ix : List (String × List Key)) :
    keysIn name (addKey k ix) =
      if name = k.name then
        if k ∈ keysIn name ix then keysIn name ix else keysIn name ix ++ [k]
      else keysIn name ix := by
  fun_induction addKey k ix with
  | case1 =>
    rw [keysIn_cons]
    by_cases h : name = k.name
    · simp [h, keysIn]
    · simp [h, Ne.symm h]
  | case2 n ks r h =>
    have hn : n = k.name := beq_iff_eq.1 h
    rw [keysIn_cons, keysIn_cons]
    by_cases hk : name = k.name
    · simp [hk, hn]
    · simp [hk, hn, Ne.symm hk]
  | case3 n ks r h ih =>
    have hn : ¬ n = k.name := fun hn => h (by simp [hn])
    rw [keysIn_cons, keysIn_cons, ih]
    by_cases hk : name = k.name
    · simp [hk, hn]
    · simp [hk]

theorem addKey_nonempty (k : Key) (h : ∀ x ∈ ix, x.2 ≠ []) : ∀ x ∈ addKey k ix, x.2 ≠ [] := by
  fun_induction addKey k ix with
  | case1 => simp
  | case2 n ks r _ =>
    rw [List.forall_mem_cons] at h ⊢
    refine ⟨?_, h.2⟩
    split_ifs
    · exact h.1
    · simp
  | case3 n ks r _ ih =>
    rw [List.forall_mem_cons] at h ⊢
    exact ⟨h.1, ih h.2⟩

theorem names_dropKey (k : Key) (ix : List (String × List Key)) :
    ((dropKey k ix).map Prod.fst).Sublist (ix.map Prod.fst) := by
  fun_induction dropKey k ix with
  | case1 => exact List.Sublist.refl _
  | case2 n ks r => exact List.sublist_cons_self _ _
  | case3 n ks r => exact List.Sublist.refl _
  | case4 n ks r _ ih => exact ih.cons_cons _

theorem keysIn_dropKey (name : String) (k : Key) (h : (ix.map Prod.fst).Nodup) :
    keysIn name (dropKey k ix) =
      if name = k.name then (keysIn name ix).filter (· != k) else keysIn name ix := by
  fun_induction dropKey k ix with
  | case1 => simp [keysIn]
  | case2 n ks r hn hf =>
    -- the name's last key goes, and its name with it
    have hn : n = k.name := beq_iff_eq.1 hn
    have hr : k.name ∉ r.map Prod.fst := hn ▸ (List.nodup_cons.1 h).1
    rw [keysIn_cons]
    by_cases hk : name = k.name
    · rw [if_pos hk, if_pos (hn.trans hk.symm), hf, hk]
      exact keysIn_eq_nil hr
    · simp [hk, hn, Ne.symm hk]
  | case3 n ks r hn =>
    have hn : n = k.name := beq_iff_eq.1 hn
    rw [keysIn_cons, keysIn_cons]
    by_cases hk : name = k.name
    · simp [hk, hn]
    · simp [hk, hn, Ne.symm hk]
  | case4 n ks r hn ih =>
    have hn : ¬ n = k.name := fun hx => hn (by simp [hx])
    rw [keysIn_cons, keysIn_cons, ih (List.nodup_cons.1 h).2]
    by_cases hk : name = k.name
    · simp [hk, hn]
    · simp [hk]

theorem dropKey_nonempty (k : Key) (h : ∀ x ∈ ix, x.2 ≠ []) : ∀ x ∈ dropKey k ix, x.2 ≠ [] := by
  fun_induction dropKey k ix with
  | case1 => exact h
  | case2 n ks r => exact (List.forall_mem_cons.1 h).2
  | case3 n ks r _ hf =>
    rw [List.forall_mem_cons] at h ⊢
    exact ⟨hf, h.2⟩
  | case4 n ks r _ ih =>
    rw [List.forall_mem_cons] at h ⊢
    exact ⟨h.1, ih h.2⟩

/-- Only the key's own name is touched. -/
theorem filter_dropKey (k : Key) (ix : List (String × List Key)) :
    (dropKey k ix).filter (fun x => x.1 != k.name) = ix.filter fun x => x.1 != k.name := by
  fun_induction dropKey k ix with
  | case1 => rfl
  | case2 n ks r hn => simp [beq_iff_eq.1 hn]
  | case3 n ks r hn => simp [beq_iff_eq.1 hn]
  | case4 n ks r hn ih => rw [List.filter_cons, List.filter_cons, ih]

/-! ### Both indexes -/

/-- The entries by key and the index by name hold the same keys: an entry is under its own key, a
key is there once, and the keys of a name, if it has any, are those of the entries of that name. -/
structure Agree (es : List (Key × Entry)) (ix : List (String × List Key)) : Prop where
  keys_nodup : (es.map Prod.fst).Nodup
  own : ∀ x ∈ es, x.1 = x.2.key
  names_nodup : (ix.map Prod.fst).Nodup
  nonempty : ∀ x ∈ ix, x.2 ≠ []
  keysIn_nodup : ∀ name, (keysIn name ix).Nodup
  mem_keysIn : ∀ name k, k ∈ keysIn name ix ↔ k.name = name ∧ k ∈ es.map Prod.fst

theorem Agree.nil : Agree [] [] where
  keys_nodup := List.nodup_nil
  own := by simp
  names_nodup := List.nodup_nil
  nonempty := by simp
  keysIn_nodup _ := List.nodup_nil
  mem_keysIn := by simp [keysIn]

/-- The entries without that of a key. -/
def without (k : Key) (es : List (Key × Entry)) : List (Key × Entry) := es.filter fun x => x.1 != k

theorem map_without (k : Key) (es : List (Key × Entry)) :
    (without k es).map Prod.fst = (es.map Prod.fst).filter (· != k) := by
  rw [without, List.filter_map]
  rfl

theorem without_eq_self (h : k ∉ es.map Prod.fst) : without k es = es :=
  List.filter_eq_self.2 fun x hx => by
    have hk : x.1 ≠ k := fun hk => h (hk ▸ List.mem_map_of_mem hx)
    simpa using hk

/-- Where a key is there once, one entry goes with it. -/
theorem length_without (h : (es.map Prod.fst).Nodup) (hk : k ∈ es.map Prod.fst) :
    (without k es).length + 1 = es.length := by
  have he := List.Nodup.erase_eq_filter h k
  have hl := List.length_erase_of_mem hk
  have hp : 0 < (es.map Prod.fst).length := List.length_pos_of_mem hk
  rw [he, ← map_without, List.length_map, List.length_map] at hl
  rw [List.length_map] at hp
  omega

theorem Agree.remove (h : Agree es ix) (k : Key) : Agree (without k es) (dropKey k ix) where
  keys_nodup := by
    rw [map_without]
    exact h.keys_nodup.filter _
  own x hx := h.own x (List.mem_filter.1 hx).1
  names_nodup := h.names_nodup.sublist (names_dropKey k ix)
  nonempty := dropKey_nonempty k h.nonempty
  keysIn_nodup name := by
    rw [keysIn_dropKey name k h.names_nodup]
    split_ifs
    · exact (h.keysIn_nodup name).filter _
    · exact h.keysIn_nodup name
  mem_keysIn name k' := by
    rw [keysIn_dropKey name k h.names_nodup, map_without, List.mem_filter]
    split_ifs with hn
    · rw [List.mem_filter, h.mem_keysIn, and_assoc]
    · rw [h.mem_keysIn]
      have hk : k'.name = name → k' ≠ k := fun hk' hk => hn (hk ▸ hk'.symm)
      simp only [bne_iff_ne]
      tauto

theorem Agree.insert (h : Agree es ix) (he : e.key ∉ es.map Prod.fst) :
    Agree (es ++ [(e.key, e)]) (addKey e.key ix) where
  keys_nodup := by
    have hn := ListFacts.nodup_insert (a := e.key) h.keys_nodup
    rw [if_neg he] at hn
    rwa [List.map_append]
  own x hx := by
    rcases List.mem_append.1 hx with hx | hx
    · exact h.own x hx
    · rw [List.mem_singleton.1 hx]
  names_nodup := by
    rw [names_addKey]
    exact ListFacts.nodup_insert h.names_nodup
  nonempty := addKey_nonempty _ h.nonempty
  keysIn_nodup name := by
    rw [keysIn_addKey]
    by_cases hn : name = e.key.name
    · rw [if_pos hn]
      exact ListFacts.nodup_insert (h.keysIn_nodup name)
    · rw [if_neg hn]
      exact h.keysIn_nodup name
  mem_keysIn name k' := by
    rw [keysIn_addKey, List.map_append, List.mem_append]
    by_cases hn : name = e.key.name
    · rw [if_pos hn, ListFacts.mem_insert, h.mem_keysIn]
      have hk : k' = e.key → k'.name = name := fun hk => hk ▸ hn.symm
      simp only [List.map_cons, List.map_nil, List.mem_singleton]
      tauto
    · rw [if_neg hn, h.mem_keysIn]
      have hk : k'.name = name → k' ≠ e.key := fun hk' hk => hn (hk ▸ hk'.symm)
      simp only [List.map_cons, List.map_nil, List.mem_singleton]
      tauto

/-- An entry that counts as used changes its place, its key stays. -/
theorem Agree.touch (h : Agree es ix) (hk : k ∈ es.map Prod.fst) (he : e.key = k) :
    Agree (without k es ++ [(k, e)]) ix where
  keys_nodup := by
    rw [List.map_append, map_without, List.nodup_append]
    refine ⟨h.keys_nodup.filter _, List.nodup_singleton _, ?_⟩
    rintro a ha b hb rfl
    simp_all
  own x hx := by
    rcases List.mem_append.1 hx with hx | hx
    · exact h.own x (List.mem_filter.1 hx).1
    · rw [List.mem_singleton.1 hx]
      exact he.symm
  names_nodup := h.names_nodup
  nonempty := h.nonempty
  keysIn_nodup := h.keysIn_nodup
  mem_keysIn name k' := by
    rw [h.mem_keysIn, List.map_append, map_without, List.mem_append, List.mem_filter]
    by_cases hk' : k' = k
    · simp [hk', hk]
    · simp [hk']

/-! ### One cache -/

/-- A cache whose two indexes agree. -/
abbrev IsCoherent (c : Cache) : Prop := Agree c.entries c.index

theorem mem_keys_iff : k ∈ c.entries.map Prod.fst ↔ (c.entry? k).isSome = true := by
  unfold entry?
  simp

theorem IsCoherent.key_eq (h : c.IsCoherent) (he : c.entry? k = some e) : e.key = k := by
  obtain ⟨x, hx, rfl⟩ := Option.map_eq_some_iff.1 he
  have hk : x.1 = k := by simpa using List.find?_some hx
  exact (h.own x (List.mem_of_find?_eq_some hx)).symm.trans hk

/-- Evicting takes entries from the front until the cache is within its bound, counts each one, and
changes nothing else. -/
theorem evict_agree (c : Cache) (h : Agree es c.index) (hb : (Number.int 1).le c.capacity = true) :
    (c.evict es).IsCoherent ∧ (Number.int (c.evict es).size).le c.capacity = true ∧
      (c.evict es).size + (c.evict es).evictions = es.length + c.evictions ∧
      ∃ es' ix n, c.evict es = { c with entries := es', index := ix, evictions := n } := by
  induction es generalizing c with
  | nil => exact ⟨h, Number.int_le_of_le hb Int.one_nonneg, rfl, [], c.index, c.evictions, rfl⟩
  | cons x r ih =>
    obtain ⟨k, e⟩ := x
    rw [evict]
    by_cases hl : c.capacity.lt (.int (r.length + 1 : Nat)) = true
    · rw [if_pos hl]
      have hr : without k ((k, e) :: r) = r := by
        rw [without, List.filter_cons_of_neg (by simp)]
        exact without_eq_self (List.nodup_cons.1 h.keys_nodup).1
      obtain ⟨hc, hs, hn, es', ix, n, he⟩ :=
        ih { c with index := dropKey k c.index, evictions := c.evictions + 1 } (hr ▸ h.remove k) hb
      refine ⟨hc, hs, ?_, es', ix, n, he⟩
      rw [hn, List.length_cons]
      dsimp only
      omega
    · rw [if_neg hl]
      exact ⟨h, Number.int_le_of_not_lt hb hl, rfl, _, c.index, c.evictions, rfl⟩

/-! ### Invalidation -/

theorem filter_not_contains_cons (k : Key) (ks : List Key) (es : List (Key × Entry)) :
    (es.filter fun x => !(k :: ks).contains x.1) =
      (without k es).filter fun x => !ks.contains x.1 := by
  rw [without, List.filter_filter]
  congr 1
  funext x
  rw [List.contains_cons, Bool.not_or, Bool.and_comm]
  rfl

theorem foldl_remove (ks : List Key) (c : Cache) :
    ks.foldl remove c =
      { c with
        entries := c.entries.filter fun x => !ks.contains x.1
        index := ks.foldl (fun ix k => dropKey k ix) c.index } := by
  induction ks generalizing c with
  | nil => simp
  | cons k ks ih =>
    rw [List.foldl_cons, ih, filter_not_contains_cons]
    rfl

theorem Agree.foldl_dropKey (ks : List Key) (h : Agree es ix) :
    Agree (es.filter fun x => !ks.contains x.1) (ks.foldl (fun ix k => dropKey k ix) ix) := by
  induction ks generalizing es ix with
  | nil => simpa using h
  | cons k ks ih =>
    rw [filter_not_contains_cons]
    exact ih (h.remove k)

theorem filter_foldl_dropKey {ks : List Key} (h : ∀ k ∈ ks, k.name = name)
    (ix : List (String × List Key)) :
    (ks.foldl (fun ix k => dropKey k ix) ix).filter (fun x => x.1 != name) =
      ix.filter fun x => x.1 != name := by
  induction ks generalizing ix with
  | nil => rfl
  | cons k ks ih =>
    rw [List.forall_mem_cons] at h
    rw [List.foldl_cons, ih h.2, ← h.1, filter_dropKey]

/-- The keys of a name are as many as the entries of that name. -/
theorem IsCoherent.length_keysOf (h : c.IsCoherent) (name : String) :
    (c.keysOf name).length = c.entries.countP fun x => x.1.name == name := by
  have hp : (c.keysOf name).Perm ((c.entries.map Prod.fst).filter fun k => k.name == name) :=
    (List.perm_ext_iff_of_nodup (h.keysIn_nodup name) (h.keys_nodup.filter _)).2 fun k =>
      (h.mem_keysIn name k).trans <| by
        rw [List.mem_filter, beq_iff_eq]
        exact And.comm
  rw [hp.length_eq, ← List.countP_eq_length_filter, List.countP_map]
  rfl

/-- Invalidating a name removes its entries, tells their number, and leaves all others as they are
and in their order. -/
theorem IsCoherent.invalidate (h : c.IsCoherent) (name : String) :
    c.invalidate name =
      (c.entries.countP fun x => x.1.name == name,
        { c with
          entries := c.entries.filter fun x => x.1.name != name
          index := c.index.filter fun x => x.1 != name
          invalidations := c.invalidations + 1 }) := by
  have hks : ∀ k ∈ c.keysOf name, k.name = name := fun k hk => ((h.mem_keysIn name k).1 hk).1
  have hes : (c.entries.filter fun x => !(c.keysOf name).contains x.1) =
      c.entries.filter fun x => x.1.name != name := by
    refine List.filter_congr fun x hx => ?_
    have hm := h.mem_keysIn name x.1
    have hx' : x.1 ∈ c.entries.map Prod.fst := List.mem_map_of_mem hx
    by_cases hn : x.1.name = name
    · simp [hn, keysOf_eq, hm.2 ⟨hn, hx'⟩]
    · have hk : x.1 ∉ keysIn name c.index := fun hk => hn (hm.1 hk).1
      simp [hn, keysOf_eq, hk]
  have ha := h.foldl_dropKey (c.keysOf name)
  set ix := (c.keysOf name).foldl (fun ix k => dropKey k ix) c.index with hix
  -- no key of the name is left, so the name is gone from the index
  have hgone : name ∉ ix.map Prod.fst := by
    intro hn
    obtain ⟨x, hx, rfl⟩ := List.mem_map.1 hn
    obtain ⟨k, hk⟩ := List.exists_mem_of_ne_nil _ (ha.nonempty x hx)
    rw [← keysIn_eq_of_mem ha.names_nodup hx, ha.mem_keysIn] at hk
    obtain ⟨y, hy, rfl⟩ := List.mem_map.1 hk.2
    rw [hes, List.mem_filter] at hy
    simp [hk.1] at hy
  have hself : ix = c.index.filter fun x => x.1 != name := by
    rw [← filter_foldl_dropKey hks, ← hix, List.filter_eq_self.2]
    intro x hx
    have hn : x.1 ≠ name := fun hn => hgone (hn ▸ List.mem_map_of_mem hx)
    simpa using hn
  dsimp only [Cache.invalidate]
  rw [foldl_remove, hes, ← hix, hself, h.length_keysOf]

theorem IsCoherent.of_invalidate (h : c.IsCoherent) (name : String) :
    (c.invalidate name).2.IsCoherent := by
  dsimp only [Cache.invalidate]
  rw [foldl_remove]
  exact h.foldl_dropKey (c.keysOf name)

/-- Those of a name and the others are all entries. -/
theorem countP_name_add (name : String) (es : List (Key × Entry)) :
    (es.filter fun x => x.1.name != name).length + es.countP (fun x => x.1.name == name) =
      es.length := by
  have h := List.length_eq_countP_add_countP (fun x : Key × Entry => x.1.name == name) (l := es)
  rw [h, Nat.add_comm, ← List.countP_eq_length_filter]
  simp only [bne, Bool.not_eq_true, Bool.decide_eq_false]

/-! ### What is done with a cache -/

/-- What can be asked of a cache. Each lookup happens at a moment of its own. -/
inductive Operation where
  | get (k : Key) (now : Number)
  | getEntry (k : Key) (now : Number)
  | put (e : Entry)
  /-- A variable was written, in a scope and by an owner. -/
  | invalidate (name : String) (scope : Option Scope) (owner : Option String)
  | clear

/-- What a cache says to it. -/
inductive Answer where
  | value (v : Option String)
  | entry (e : Option Entry)
  | count (n : Nat)
  | done

/-- Does what is asked. A write removes the entries of the name, whatever the scope and the owner. -/
def perform (c : Cache) : Operation → Answer × Cache
  | .get k now =>
    let (e, c) := c.find k now
    (.value (e.map Entry.value), c)
  | .getEntry k now =>
    let (e, c) := c.find k now
    (.entry e, c)
  | .put e => (.done, c.put e)
  | .invalidate name _ _ =>
    let (n, c) := c.invalidate name
    (.count n, c)
  | .clear => (.done, c.clear)

/-- What an observer counts who sees what is asked and the entries before it. -/
structure Tally where
  lookups : Nat := 0
  /-- How often an entry was put where its key had none. -/
  added : Nat := 0
  /-- How many entries were looked up and too old. -/
  expired : Nat := 0
  invalidated : Nat := 0
  cleared : Nat := 0

/-- Whether a key has an entry that is too old. -/
def isStale (c : Cache) (k : Key) (now : Number) : Bool := (c.entry? k).any (c.isExpired now)

/-- Counts an operation on a cache. -/
def Tally.count (t : Tally) (c : Cache) : Operation → Tally
  | .get k now | .getEntry k now =>
    { t with lookups := t.lookups + 1, expired := t.expired + (c.isStale k now).toNat }
  | .put e => { t with added := t.added + (c.entry? e.key).isNone.toNat }
  | .invalidate name _ _ =>
    { t with invalidated := t.invalidated + c.entries.countP fun x => x.1.name == name }
  | .clear => { t with cleared := t.cleared + c.size }

/-- A cache and what was counted, after some operations. -/
def run : List Operation → Cache × Tally → Cache × Tally
  | [], s => s
  | o :: rest, (c, t) => run rest ((c.perform o).2, t.count c o)

/-! ### What stays true -/

/-- A cache in order: its indexes agree, it is within its bound, and what was counted adds up. -/
structure InOrder (capacity : Number) (c : Cache) (t : Tally) : Prop where
  coherent : c.IsCoherent
  capacity_eq : c.capacity = capacity
  bounded : (Number.int c.size).le capacity = true
  lookups : c.hits + c.misses = t.lookups
  added : t.added = c.size + c.evictions + t.expired + t.invalidated + t.cleared

variable {capacity : Number} {lifetime : Option Number} {t : Tally} {now : Number}

theorem find_of_none (h : c.entry? k = none) (now : Number) :
    (c.find k now).2 = { c with misses := c.misses + 1 } := by
  rw [find, h]

theorem find_of_expired (h : c.entry? k = some e) (hx : c.isExpired now e = true) :
    (c.find k now).2 = { c.remove k with misses := c.misses + 1 } := by
  rw [find, h]
  dsimp only
  rw [if_pos hx]
  rfl

theorem find_of_fresh (h : c.entry? k = some e) (hx : ¬ c.isExpired now e = true) :
    (c.find k now).2 =
      { c with
        entries := without k c.entries ++ [(k, { e with hits := e.hits + 1 })]
        hits := c.hits + 1 } := by
  rw [find, h]
  dsimp only
  rw [if_neg hx]
  rfl

theorem InOrder.find (h : InOrder capacity c t) (k : Key) (now : Number) :
    InOrder capacity (c.find k now).2
      { t with lookups := t.lookups + 1, expired := t.expired + (c.isStale k now).toNat } := by
  have hl := h.lookups
  have ha := h.added
  unfold isStale
  unfold size at ha
  cases he : c.entry? k with
  | none =>
    rw [find_of_none he]
    exact ⟨h.coherent, h.capacity_eq, h.bounded, by dsimp only; omega, ha⟩
  | some e =>
    have hk : k ∈ c.entries.map Prod.fst := mem_keys_iff.2 (he ▸ rfl)
    have hs := length_without h.coherent.keys_nodup hk
    rw [Option.any_some]
    by_cases hx : c.isExpired now e = true
    · have hle : (without k c.entries).length ≤ c.entries.length := by omega
      rw [find_of_expired he hx, hx]
      refine ⟨h.coherent.remove k, h.capacity_eq, ?_, ?_, ?_⟩
      · exact Number.int_le_of_le h.bounded (Int.ofNat_le.2 hle)
      · dsimp only [Cache.remove]
        omega
      · change t.added = (without k c.entries).length + c.evictions + (t.expired + 1) +
          t.invalidated + t.cleared
        omega
    · have hsize : (without k c.entries ++ [(k, { e with hits := e.hits + 1 })]).length =
          c.entries.length := by rw [List.length_append, ← hs]; rfl
      have hown : ({ e with hits := e.hits + 1 } : Entry).key = k :=
        show e.key = k from h.coherent.key_eq he
      rw [find_of_fresh he hx, Bool.eq_false_iff.2 hx]
      refine ⟨h.coherent.touch hk hown, h.capacity_eq, ?_, ?_, ?_⟩
      · exact (congrArg (fun n : Nat => (Number.int n).le capacity) hsize).trans h.bounded
      · dsimp only
        omega
      · dsimp only [size]
        rw [hsize]
        exact ha

/-- The cache in which a key has no entry. -/
def vacate (c : Cache) (k : Key) : Cache := if (c.entry? k).isSome then c.remove k else c

theorem put_eq (c : Cache) (e : Entry) :
    c.put e = evict { c.vacate e.key with index := addKey e.key (c.vacate e.key).index }
      ((c.vacate e.key).entries ++ [(e.key, e)]) := rfl

/-- The key's entry is gone, and nothing else has changed. -/
theorem IsCoherent.vacate (h : c.IsCoherent) (k : Key) :
    (c.vacate k).IsCoherent ∧ k ∉ (c.vacate k).entries.map Prod.fst ∧
      (c.vacate k).size + 1 = c.size + (c.entry? k).isNone.toNat ∧
      ∃ es ix, c.vacate k = { c with entries := es, index := ix } := by
  unfold Cache.vacate
  cases he : c.entry? k with
  | none =>
    have hk : k ∉ c.entries.map Prod.fst := fun hk => by simpa [he] using mem_keys_iff.1 hk
    exact ⟨h, hk, rfl, _, _, rfl⟩
  | some e =>
    have hk : k ∈ c.entries.map Prod.fst := mem_keys_iff.2 (he ▸ rfl)
    refine ⟨h.remove k, ?_, length_without h.keys_nodup hk, _, _, rfl⟩
    change k ∉ (without k c.entries).map Prod.fst
    simp [map_without]

theorem InOrder.put (h : InOrder capacity c t) (hb : (Number.int 1).le capacity = true)
    (e : Entry) :
    InOrder capacity (c.put e) { t with added := t.added + (c.entry? e.key).isNone.toNat } := by
  obtain ⟨hc, hk, hs, es, ix, hv⟩ := h.coherent.vacate e.key
  rw [put_eq]
  rw [hv] at hc hk hs ⊢
  obtain ⟨hc', hle, hn, es', ix', n, he⟩ :=
    evict_agree { c with entries := es, index := addKey e.key ix } (hc.insert hk)
      (h.capacity_eq ▸ hb)
  have ha := h.added
  refine ⟨hc', ?_, h.capacity_eq ▸ hle, ?_, ?_⟩
  · exact (congrArg Cache.capacity he).trans h.capacity_eq
  · exact (congrArg (fun c => c.hits + c.misses) he).trans h.lookups
  · change es.length + 1 = c.size + _ at hs
    rw [List.length_append] at hn
    dsimp only [List.length_singleton] at hn ⊢
    omega

theorem InOrder.invalidate (h : InOrder capacity c t) (name : String) :
    InOrder capacity (c.invalidate name).2
      { t with invalidated := t.invalidated + c.entries.countP fun x => x.1.name == name } := by
  have hc := h.coherent.of_invalidate name
  have hn := countP_name_add name c.entries
  have ha := h.added
  rw [h.coherent.invalidate name] at hc ⊢
  refine ⟨hc, h.capacity_eq, ?_, h.lookups, ?_⟩
  · exact Number.int_le_of_le h.bounded (Int.ofNat_le.2 (Nat.le_of_add_right_le hn.le))
  · unfold size at ha ⊢
    dsimp only
    omega

theorem InOrder.clear (h : InOrder capacity c t) :
    InOrder capacity c.clear { t with cleared := t.cleared + c.size } where
  coherent := Agree.nil
  capacity_eq := h.capacity_eq
  bounded := Number.int_le_of_le h.bounded (Int.natCast_nonneg _)
  lookups := h.lookups
  added := by
    have ha := h.added
    change t.added = 0 + c.evictions + t.expired + t.invalidated + (t.cleared + c.size)
    omega

/-- Each operation leaves a cache in order. -/
theorem InOrder.step (h : InOrder capacity c t) (hb : (Number.int 1).le capacity = true)
    (o : Operation) : InOrder capacity (c.perform o).2 (t.count c o) := by
  cases o with
  | get k now => exact h.find k now
  | getEntry k now => exact h.find k now
  | put e => exact h.put hb e
  | invalidate name => exact h.invalidate name
  | clear => exact h.clear

theorem InOrder.run (h : InOrder capacity c t) (hb : (Number.int 1).le capacity = true)
    (os : List Operation) : InOrder capacity (run os (c, t)).1 (run os (c, t)).2 := by
  induction os generalizing c t with
  | nil => exact h
  | cons o os ih => exact ih (h.step hb o)

theorem create_eq (hc : create capacity lifetime = .ok c) : c = { capacity, lifetime } := by
  unfold create at hc
  split_ifs at hc
  cases lifetime with
  | none => exact (Except.ok.inj hc).symm
  | some t =>
    dsimp only at hc
    split_ifs at hc
    exact (Except.ok.inj hc).symm

theorem create_inOrder (hb : (Number.int 1).le capacity = true)
    (hc : create capacity lifetime = .ok c) : InOrder capacity c {} := by
  obtain rfl := create_eq hc
  exact ⟨Agree.nil, rfl, Number.int_le_of_le hb Int.one_nonneg, rfl, rfl⟩

/-- Whatever is done with a new cache that may hold an entry: it keeps to its bound; the index has
for each name the keys of the entries of that name, each once, and no name without keys; an entry is
under its own key; each lookup is a hit or a miss; invalidating a name, whatever the scope and the
owner, removes the entries of that name, tells their number and leaves the others as they are and in
their order; and the entries added are those still there and those counted on their way out. -/
theorem indexes_agree {c₀ : Cache} (hb : (Number.int 1).le capacity = true)
    (hc : create capacity lifetime = .ok c₀) (operations : List Operation)
    (hr : run operations (c₀, {}) = (c, t)) :
    (Number.int c.size).le capacity = true ∧
      ((∀ name k, k ∈ c.keysOf name ↔ k.name = name ∧ (c.entry? k).isSome = true) ∧
        (∀ name, (c.keysOf name).Nodup) ∧ (c.index.map Prod.fst).Nodup ∧
        ∀ x ∈ c.index, x.2 ≠ []) ∧
      ((c.entries.map Prod.fst).Nodup ∧ ∀ x ∈ c.entries, x.1 = ⟨x.2.name, x.2.fingerprint⟩) ∧
      c.hits + c.misses = t.lookups ∧
      (∀ name scope owner,
        c.perform (.invalidate name scope owner) =
          (.count (c.entries.countP fun x => x.1.name == name),
            { c with
              entries := c.entries.filter fun x => x.1.name != name
              index := c.index.filter fun x => x.1 != name
              invalidations := c.invalidations + 1 })) ∧
      t.added = c.size + c.evictions + t.expired + t.invalidated + t.cleared := by
  have h := (create_inOrder hb hc).run hb operations
  rw [hr] at h
  have hk := h.coherent.mem_keysIn
  refine ⟨h.bounded, ⟨fun name k => ?_, h.coherent.keysIn_nodup, h.coherent.names_nodup,
    h.coherent.nonempty⟩, ⟨h.coherent.keys_nodup, h.coherent.own⟩, h.lookups,
    fun name scope owner => ?_, h.added⟩
  · rw [← mem_keys_iff]
    exact hk name k
  · dsimp only [perform]
    rw [h.coherent.invalidate name]

/-- What is done with a cache for two entries that last ten seconds: the third entry evicts the
first, the second is found once and then too old, the third is invalidated, and one that was put
twice is cleared away. -/
def throughAllDoors : List Operation :=
  let e (name : String) (now : Int) : Entry :=
    { name, fingerprint := "f", value := "", scope := none, owner := none, height := 0,
      created := .int now }
  [.put (e "a" 0), .put (e "b" 1), .put (e "c" 2), .get ⟨"a", "f"⟩ (.int 3),
    .get ⟨"b", "f"⟩ (.int 4), .getEntry ⟨"b", "f"⟩ (.int 11), .invalidate "c" (some .rule) none,
    .put (e "a" 12), .put (e "a" 13), .clear, .put (e "b" 14)]

theorem all_doors_counted :
    let s := run throughAllDoors ({ capacity := .int 2, lifetime := some (.int 10) }, {})
    (s.1.size = 1 ∧ s.1.evictions = 1 ∧ s.2.expired = 1 ∧ s.2.invalidated = 1 ∧ s.2.cleared = 1) ∧
      s.2.added = s.1.size + s.1.evictions + s.2.expired + s.2.invalidated + s.2.cleared ∧
      s.1.hits + s.1.misses = s.2.lookups ∧ s.1.keysOf "a" = [] ∧
      ∀ k, k ∈ s.1.keysOf "b" ↔ k.name = "b" ∧ (Cache.entry? s.1 k).isSome = true := by
  intro s
  have hc : create (.int 2) (some (.int 10)) =
      .ok { capacity := .int 2, lifetime := some (.int 10) } := rfl
  obtain ⟨-, ⟨hk, -⟩, -, hl, -, ha⟩ :=
    indexes_agree (by decide : (Number.int 1).le (.int 2) = true) hc throughAllDoors
      (rfl : _ = (s.1, s.2))
  exact ⟨by decide, ha, hl, by decide, hk "b"⟩

end Cache
end Stencil
