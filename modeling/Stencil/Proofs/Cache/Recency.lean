/-
# What a cache gives back

A cache gives back the value that was put last for a key, as long as nothing
has removed it and it is not too old, and it keeps the entries that were used
last. The first half follows the entries back to where they were put. The second
follows one entry: behind it stand only entries whose keys were put or found
since it was, so it leaves only after as many other keys as the cache may hold
entries.

Key definitions: `Cache.after`, `Cache.usedSince`, `Cache.Standing`,
`Cache.IsFresh`, `Cache.IsBefore`.
Key theorems: `perform_entries`, `stems_after`, `IsBefore.step`,
`isBefore_after`, `gives_latest`.
-/
import Mathlib.Data.Finset.Card
import Mathlib.Data.Finset.Dedup
import Stencil.Proofs.Cache.Entries
import Stencil.Proofs.Cache.Indexes
import Stencil.Proofs.Number.Clock

namespace Stencil
namespace Cache

/-! ### What was done -/

/-- The moment at which an operation happens, if it depends on it. -/
def Operation.time? : Operation → Option Number
  | .get _ now | .getEntry _ now => some now
  | .put e => some e.created
  | .invalidate .. | .clear => none

/-- An operation neither puts the key nor removes its entry, unless that is too old or the least
recently used. -/
def Operation.Spares (k : Key) : Operation → Prop
  | .get .. | .getEntry .. => True
  | .put e => e.key ≠ k
  | .invalidate name _ _ => name ≠ k.name
  | .clear => False

/-- The cache after some operations. -/
def after (c : Cache) (os : List Operation) : Cache := os.foldl (fun c o => (c.perform o).2) c

/-- The key that an operation puts or finds. -/
def used? (c : Cache) : Operation → Option Key
  | .get k now | .getEntry k now => (c.find k now).1.map fun _ => k
  | .put e => some e.key
  | .invalidate .. | .clear => none

/-- The keys that operations put or find, the last one first. -/
def uses (c : Cache) : List Operation → List Key
  | [] => []
  | o :: os => uses (c.perform o).2 os ++ (c.used? o).toList

/-- The keys put or found since a key was put or found. -/
def usedSince (c : Cache) (os : List Operation) (k : Key) : List Key :=
  (c.uses os).takeWhile (· != k)

/-- The entry was the last to be put for its key, and was neither invalidated nor cleared away
since. -/
def Standing (os : List Operation) (e : Entry) : Prop :=
  ∃ before since, os = before ++ .put e :: since ∧ ∀ o ∈ since, o.Spares e.key

/-- At the moment `now` the entry is younger than the time to live. -/
def IsFresh (lifetime : Option Number) (now : Number) (e : Entry) : Prop :=
  ∀ t ∈ lifetime, (now.sub e.created).lt t = true

/-- The time to live is not a number, as a double may be, so that no time reaches it. -/
def IsEndless (lifetime : Option Number) : Prop :=
  ∃ x : Float, lifetime = some (.float x) ∧ x.isNaN = true

variable {c : Cache} {k : Key} {e e' : Entry} {o : Operation} {os : List Operation} {n : Nat}
  {lifetime : Option Number} {now : Number}

theorem after_concat (c : Cache) (os : List Operation) (o : Operation) :
    c.after (os ++ [o]) = ((c.after os).perform o).2 := by
  unfold after
  rw [List.foldl_append]
  rfl

theorem uses_concat (c : Cache) (os : List Operation) (o : Operation) :
    c.uses (os ++ [o]) = ((c.after os).used? o).toList ++ c.uses os := by
  induction os generalizing c with
  | nil => simp [uses, after]
  | cons p os ih =>
    rw [List.cons_append, uses, ih, List.append_assoc]
    rfl

/-- A use of the key itself starts the count again, any other one adds to it. -/
theorem usedSince_concat (c : Cache) (os : List Operation) (o : Operation) (k : Key) :
    c.usedSince (os ++ [o]) k =
      if (c.after os).used? o = some k then []
      else ((c.after os).used? o).toList ++ c.usedSince os k := by
  unfold usedSince
  rw [uses_concat]
  cases (c.after os).used? o with
  | none => rfl
  | some j =>
    by_cases hj : j = k
    · simp [hj]
    · simp [hj]

theorem standing_concat_iff :
    Standing (os ++ [o]) e ↔ o = .put e ∨ (o.Spares e.key ∧ Standing os e) := by
  constructor
  · rintro ⟨before, since, hos, hs⟩
    rcases List.eq_nil_or_concat' since with rfl | ⟨since, p, rfl⟩
    · exact .inl (List.singleton_inj.1 (List.append_inj' hos rfl).2)
    · rw [← List.cons_append, ← List.append_assoc] at hos
      obtain ⟨rfl, ho⟩ := List.append_inj' hos rfl
      cases ho
      exact .inr ⟨hs o (by simp), before, since, rfl, fun p hp => hs p (by simp [hp])⟩
  · rintro (rfl | ⟨ho, before, since, rfl, hs⟩)
    · exact ⟨os, [], rfl, by simp⟩
    · refine ⟨before, since ++ [o], by simp, fun p hp => ?_⟩
      rcases List.mem_append.1 hp with hp | hp
      · exact hs p hp
      · exact List.mem_singleton.1 hp ▸ ho

/-- Only one entry stands for a key. -/
theorem Standing.unique (h : Standing os e) (h' : Standing os e') (hk : e.key = e'.key) :
    e = e' := by
  induction os using List.reverseRecOn with
  | nil =>
    obtain ⟨before, since, hos, -⟩ := h
    simp at hos
  | append_singleton os o ih =>
    rcases standing_concat_iff.1 h with rfl | ⟨ho, h⟩ <;>
      rcases standing_concat_iff.1 h' with ho' | ⟨ho', h'⟩
    · cases ho'
      rfl
    · exact absurd hk ho'
    · subst ho'
      exact absurd hk.symm ho
    · exact ih h h'

/-! ### What the operations leave -/

/-- Evicting leaves as many of the last entries as the cache may hold. -/
theorem evict_entries (es : List (Key × Entry)) (c : Cache) (hc : c.capacity = .int n) :
    (c.evict es).entries = es.drop (es.length - n) := by
  induction es generalizing c with
  | nil => exact (List.drop_nil).symm
  | cons x r ih =>
    have hlt : c.capacity.lt (.int (r.length + 1 : Nat)) = decide (n < r.length + 1) := by
      rw [hc, Number.int_lt_int, decide_eq_decide]
      omega
    rw [evict, hlt, List.length_cons]
    by_cases hn : n < r.length + 1
    · rw [if_pos (by simpa using hn), Nat.sub_add_comm (Nat.lt_succ_iff.1 hn)]
      exact ih _ hc
    · rw [if_neg (by simpa using hn), Nat.sub_eq_zero_of_le (Nat.le_of_not_lt hn)]
      rfl

theorem vacate_entries (c : Cache) (k : Key) : (c.vacate k).entries = without k c.entries := by
  unfold vacate
  split_ifs with h
  · rfl
  · exact (without_eq_self fun hk => h (mem_keys_iff.1 hk)).symm

theorem put_entries (e : Entry) (hc : c.capacity = .int n) :
    (c.put e).entries =
      (without e.key c.entries ++ [(e.key, e)]).drop ((without e.key c.entries).length + 1 - n) := by
  have hv : (c.vacate e.key).capacity = c.capacity := by
    unfold vacate
    split_ifs <;> rfl
  rw [put_eq, evict_entries _ { c.vacate e.key with index := addKey e.key (c.vacate e.key).index }
    (hv.trans hc), vacate_entries, List.length_append]
  rfl

/-- A lookup finds the entry of the key, unless that is too old. -/
theorem find_fst (c : Cache) (k : Key) (now : Number) :
    (c.find k now).1 =
      ((c.entry? k).filter fun e => !c.isExpired now e).map fun e =>
        { e with hits := e.hits + 1 } := by
  unfold Cache.find
  cases c.entry? k with
  | none => rfl
  | some e => by_cases hold : c.isExpired now e = true <;> simp [hold]

theorem mem_without {x : Key × Entry} {es : List (Key × Entry)} :
    x ∈ without k es ↔ x ∈ es ∧ x.1 ≠ k := by
  rw [without, List.mem_filter, bne_iff_ne]

/-- An entry that is there after a lookup was there before; it may have been found once more. -/
theorem find_entries {x : Key × Entry} (hx : x ∈ (c.find k now).2.entries) :
    ∃ y ∈ c.entries, y.1 = x.1 ∧ ∃ m, x.2 = { y.2 with hits := m } := by
  cases he : c.entry? k with
  | none =>
    rw [find_of_none he] at hx
    exact ⟨x, hx, rfl, _, rfl⟩
  | some e =>
    by_cases hold : c.isExpired now e = true
    · rw [find_of_expired he hold] at hx
      exact ⟨x, (mem_without.1 hx).1, rfl, _, rfl⟩
    · rw [find_of_fresh he hold] at hx
      rcases List.mem_append.1 hx with hx | hx
      · exact ⟨x, (mem_without.1 hx).1, rfl, _, rfl⟩
      · rw [List.mem_singleton.1 hx]
        exact ⟨(k, e), entry?_mem he, rfl, _, rfl⟩

/-- An entry that is there after an operation was put by it, or was there before and was spared. -/
theorem perform_entries (h : c.IsCoherent) (hc : c.capacity = .int n) {x : Key × Entry}
    (hx : x ∈ (c.perform o).2.entries) :
    (∃ e, o = .put e ∧ x = (e.key, e)) ∨
      (o.Spares x.1 ∧ ∃ y ∈ c.entries, y.1 = x.1 ∧ ∃ m, x.2 = { y.2 with hits := m }) := by
  cases o with
  | get k now => exact .inr ⟨trivial, find_entries hx⟩
  | getEntry k now => exact .inr ⟨trivial, find_entries hx⟩
  | put e =>
    change x ∈ (c.put e).entries at hx
    rw [put_entries e hc] at hx
    rcases List.mem_append.1 (List.mem_of_mem_drop hx) with hx | hx
    · obtain ⟨hx, hk⟩ := mem_without.1 hx
      exact .inr ⟨Ne.symm hk, x, hx, rfl, _, rfl⟩
    · exact .inl ⟨e, rfl, List.mem_singleton.1 hx⟩
  | invalidate name scope owner =>
    change x ∈ (c.invalidate name).2.entries at hx
    rw [h.invalidate name] at hx
    obtain ⟨hx, hn⟩ := List.mem_filter.1 hx
    exact .inr ⟨Ne.symm (bne_iff_ne.1 hn), x, hx, rfl, _, rfl⟩
  | clear => exact absurd hx List.not_mem_nil

theorem evict_lifetime (es : List (Key × Entry)) (c : Cache) :
    (c.evict es).lifetime = c.lifetime := by
  induction es generalizing c with
  | nil => rfl
  | cons x r ih =>
    rw [evict]
    split_ifs
    · exact ih _
    · rfl

theorem perform_lifetime (c : Cache) (o : Operation) : (c.perform o).2.lifetime = c.lifetime := by
  have hfind : ∀ k now, (c.find k now).2.lifetime = c.lifetime := by
    intro k now
    cases he : c.entry? k with
    | none => rw [find_of_none he]
    | some e =>
      by_cases hold : c.isExpired now e = true
      · rw [find_of_expired he hold]
        rfl
      · rw [find_of_fresh he hold]
  cases o with
  | get k now => exact hfind k now
  | getEntry k now => exact hfind k now
  | put e =>
    change (c.put e).lifetime = _
    have hv : (c.vacate e.key).lifetime = c.lifetime := by
      unfold vacate
      split_ifs <;> rfl
    rw [put_eq, evict_lifetime]
    exact hv
  | invalidate name scope owner =>
    change ((c.keysOf name).foldl remove c).lifetime = _
    rw [foldl_remove]
  | clear => rfl

/-! ### Where the entries come from -/

/-- A new cache that may hold `n` entries is in order, and so is what becomes of it. -/
theorem after_inOrder {c₀ : Cache} (hc : create (.int n) lifetime = .ok c₀)
    (os : List Operation) : ∃ t, InOrder (.int n) (c₀.after os) t := by
  have hb : (Number.int 1).le (.int n) = true := by
    have hn : ¬ (Number.int n).lt (.int 1) = true := fun hn => by
      unfold create at hc
      rw [if_pos hn] at hc
      cases hc
    rw [Number.int_lt_int, decide_eq_true_eq] at hn
    rw [Number.int_le_int, decide_eq_true_eq]
    omega
  induction os using List.reverseRecOn with
  | nil => exact ⟨{}, create_inOrder hb hc⟩
  | append_singleton os o ih =>
    obtain ⟨t, ht⟩ := ih
    rw [after_concat]
    exact ⟨_, ht.step hb o⟩

theorem after_lifetime {c₀ : Cache} (hc : create (.int n) lifetime = .ok c₀)
    (os : List Operation) : (c₀.after os).lifetime = lifetime := by
  induction os using List.reverseRecOn with
  | nil => rw [create_eq hc]; rfl
  | append_singleton os o ih => rw [after_concat, perform_lifetime, ih]

/-- Each entry is one that stands, whatever the number of times it was found. -/
theorem stems_after {c₀ : Cache} (hc : create (.int n) lifetime = .ok c₀) {x : Key × Entry}
    (hx : x ∈ (c₀.after os).entries) :
    ∃ e, Standing os e ∧ e.key = x.1 ∧ ∃ m, x.2 = { e with hits := m } := by
  induction os using List.reverseRecOn generalizing x with
  | nil =>
    obtain rfl := create_eq hc
    exact absurd hx List.not_mem_nil
  | append_singleton os o ih =>
    obtain ⟨t, ht⟩ := after_inOrder hc os
    rw [after_concat] at hx
    rcases perform_entries ht.coherent ht.capacity_eq hx with ⟨e, rfl, rfl⟩ | ⟨ho, y, hy, hk, m, hm⟩
    · exact ⟨e, standing_concat_iff.2 (.inl rfl), rfl, _, rfl⟩
    · obtain ⟨e, he, hke, m', hm'⟩ := ih hy
      have hxe : e.key = x.1 := hke.trans hk
      exact ⟨e, standing_concat_iff.2 (.inr ⟨hxe ▸ ho, he⟩), hxe, m, by rw [hm, hm']⟩

/-- The entry found for a key is the one that stands for it. -/
theorem entry?_after {c₀ : Cache} (hc : create (.int n) lifetime = .ok c₀)
    (hs : Standing os e) (he : Cache.entry? (c₀.after os) e.key = some e') :
    ∃ m, e' = { e with hits := m } := by
  obtain ⟨d, hd, hk, m, hm⟩ := stems_after hc (entry?_mem he)
  obtain rfl := hs.unique hd hk.symm
  exact ⟨m, hm⟩

/-- The entry found for a key is too old just if the one that stands for it is. -/
theorem isExpired_after {c₀ : Cache} (hc : create (.int n) lifetime = .ok c₀)
    (hs : Standing os e) (he : Cache.entry? (c₀.after os) e.key = some e') (now : Number) :
    (c₀.after os).isExpired now e' = true ↔ ∃ t ∈ lifetime, t.le (now.sub e.created) = true := by
  obtain ⟨m, rfl⟩ := entry?_after hc hs he
  unfold isExpired
  rw [after_lifetime hc]
  cases lifetime <;> simp

/-! ### Who comes after an entry -/

/-- The key has an entry, and the entries used since are of keys in `ks`. -/
def IsBefore (c : Cache) (k : Key) (ks : List Key) : Prop :=
  ∃ before behind, c.entries.map Prod.fst = before ++ k :: behind ∧ ∀ j ∈ behind, j ∈ ks

variable {ks : List Key} {j : Key}

/-- The entry used last has none behind it. -/
theorem isBefore_last {es : List (Key × Entry)} (h : c.entries = es ++ [(k, e)]) :
    c.IsBefore k [] :=
  ⟨es.map Prod.fst, [], by rw [h, List.map_append]; rfl, by simp⟩

/-- Entries of other keys may go. -/
theorem IsBefore.filter (h : c.IsBefore k ks) {p : Key → Bool} (hp : p k = true) :
    ∃ before behind, (c.entries.filter fun x => p x.1).map Prod.fst = before ++ k :: behind ∧
      ∀ j ∈ behind, j ∈ ks := by
  obtain ⟨before, behind, hes, hks⟩ := h
  refine ⟨before.filter p, behind.filter p, ?_, fun j hj => hks j (List.mem_filter.1 hj).1⟩
  rw [← List.filter_cons_of_pos hp, ← List.filter_append, ← hes, List.filter_map]
  rfl

/-- A lookup leaves an entry that is not too old, and puts the one that it finds behind it. -/
theorem IsBefore.find (h : c.IsBefore k ks) (hj : (c.find j now).1.isSome = true → j ≠ k)
    (hx : c.isStale k now = false) :
    (c.find j now).2.IsBefore k (((c.find j now).1.map fun _ => j).toList ++ ks) := by
  cases he : c.entry? j with
  | none =>
    rw [find_fst, find_of_none he, he]
    exact h
  | some e =>
    by_cases hold : c.isExpired now e = true
    · have hne : k ≠ j := by
        rintro rfl
        rw [isStale, he, Option.any_some, hold] at hx
        cases hx
      have hnone : (c.find j now).1 = none := by simp [find_fst, he, hold]
      rw [find_of_expired he hold, hnone]
      exact h.filter (p := (· != j)) (bne_iff_ne.2 hne)
    · have hsome : (c.find j now).1 = some { e with hits := e.hits + 1 } := by
        rw [Cache.find, he]
        dsimp only
        rw [if_neg hold]
      have hne : j ≠ k := hj (by rw [hsome]; rfl)
      obtain ⟨before, behind, hes, hks⟩ := h.filter (p := (· != j)) (bne_iff_ne.2 hne.symm)
      rw [find_of_fresh he hold, hsome]
      refine ⟨before, behind ++ [j], ?_, fun i hi => ?_⟩
      · change (without j c.entries ++ [_]).map Prod.fst = _
        rw [List.map_append, without, hes, List.append_assoc]
        rfl
      · rcases List.mem_append.1 hi with hi | hi
        · exact List.mem_append_right _ (hks i hi)
        · exact List.mem_append_left _ hi

/-- An entry stays when another one is put, as long as the cache may hold all that come after it. -/
theorem IsBefore.put (hco : c.IsCoherent) (hc : c.capacity = .int n) (h : c.IsBefore k ks)
    (hk : e.key ≠ k) (hn : (e.key :: ks).toFinset.card < n) :
    (c.put e).IsBefore k (e.key :: ks) := by
  obtain ⟨before, behind, hes, hks⟩ := h.filter (p := (· != e.key)) (bne_iff_ne.2 hk.symm)
  have hkeys : (without e.key c.entries ++ [(e.key, e)]).map Prod.fst =
      before ++ k :: (behind ++ [e.key]) := by
    rw [List.map_append, without, hes, List.append_assoc]
    rfl
  have hsub : ∀ j ∈ behind ++ [e.key], j ∈ e.key :: ks := by
    intro j hj
    rcases List.mem_append.1 hj with hj | hj
    · exact List.mem_cons_of_mem _ (hks j hj)
    · exact List.mem_singleton.1 hj ▸ List.mem_cons_self
  have hnodup : (before ++ k :: (behind ++ [e.key])).Nodup := by
    rw [← hkeys, List.map_append, map_without, List.nodup_append]
    exact ⟨hco.keys_nodup.filter _, List.nodup_singleton _, by simp⟩
  have hbehind : (behind ++ [e.key]).Nodup := ((List.nodup_append.1 hnodup).2.1).tail
  have hlen : (behind ++ [e.key]).length < n := by
    rw [← List.toFinset_card_of_nodup hbehind]
    refine (Finset.card_le_card fun j hj => ?_).trans_lt hn
    exact List.mem_toFinset.2 (hsub j (List.mem_toFinset.1 hj))
  refine ⟨before.drop ((without e.key c.entries).length + 1 - n), behind ++ [e.key], ?_, hsub⟩
  have hle : (without e.key c.entries).length + 1 - n ≤ before.length := by
    have := congrArg List.length hkeys
    simp at this hlen
    omega
  rw [put_entries e hc, List.map_drop, hkeys, List.drop_append_of_le_length hle]

/-- What an operation leaves behind an entry: what was there, and the key that it uses. The entry
stays unless it is too old, the operation removes it, or there are too many keys by now. -/
theorem IsBefore.step (hco : c.IsCoherent) (hc : c.capacity = .int n) (h : c.IsBefore k ks)
    (ho : o.Spares k) (hused : c.used? o ≠ some k) (hx : ∀ t ∈ o.time?, c.isStale k t = false)
    (hn : ((c.used? o).toList ++ ks).toFinset.card < n) :
    (c.perform o).2.IsBefore k ((c.used? o).toList ++ ks) := by
  have hfind : ∀ j now, c.used? (.get j now) ≠ some k → (c.find j now).1.isSome = true → j ≠ k := by
    rintro j now hu hs rfl
    obtain ⟨e, he⟩ := Option.isSome_iff_exists.1 hs
    exact hu (by rw [used?, he]; rfl)
  cases o with
  | get j now => exact h.find (hfind j now hused) (hx now rfl)
  | getEntry j now => exact h.find (hfind j now hused) (hx now rfl)
  | put e => exact h.put hco hc ho hn
  | invalidate name scope owner =>
    change (c.invalidate name).2.IsBefore k ks
    rw [hco.invalidate name]
    exact h.filter (p := (·.name != name)) (bne_iff_ne.2 (Ne.symm ho))
  | clear => exact ho.elim

/-- The key that an operation uses has the last entry. -/
theorem isBefore_used (hc : c.capacity = .int n) (hn : 0 < n) (hused : c.used? o = some k) :
    (c.perform o).2.IsBefore k [] := by
  have hfind : ∀ j now, ((c.find j now).1.map fun _ => j) = some k →
      (c.find j now).2.IsBefore k [] := by
    intro j now hu
    obtain ⟨e', he', rfl⟩ := Option.map_eq_some_iff.1 hu
    rw [find_fst] at he'
    obtain ⟨e, he, -⟩ := Option.map_eq_some_iff.1 he'
    obtain ⟨he, hold⟩ := Option.filter_eq_some_iff.1 he
    exact isBefore_last (congrArg Cache.entries (find_of_fresh he (by simpa using hold)))
  cases o with
  | get j now => exact hfind j now hused
  | getEntry j now => exact hfind j now hused
  | put e =>
    obtain rfl : e.key = k := Option.some.inj hused
    have hlast := put_entries e hc
    rw [List.drop_append_of_le_length (by omega)] at hlast
    exact isBefore_last hlast
  | invalidate name scope owner => cases hused
  | clear => cases hused

/-- The entry that stands for a key is there as long as it was young enough whenever something was
asked, and fewer other keys were used since than the cache may hold. -/
theorem isBefore_after {c₀ : Cache} (hc : create (.int n) lifetime = .ok c₀) (hn : 0 < n)
    (hs : Standing os e)
    (hyoung : ∀ t ∈ os.filterMap Operation.time?, ∀ l ∈ lifetime, ¬ l.le (t.sub e.created) = true)
    (hused : (c₀.usedSince os e.key).toFinset.card < n) :
    (c₀.after os).IsBefore e.key (c₀.usedSince os e.key) := by
  induction os using List.reverseRecOn with
  | nil =>
    obtain ⟨before, since, hos, -⟩ := hs
    simp at hos
  | append_singleton os o ih =>
    obtain ⟨t, ht⟩ := after_inOrder hc os
    rw [after_concat]
    rw [usedSince_concat] at hused ⊢
    by_cases hu : (c₀.after os).used? o = some e.key
    · rw [if_pos hu]
      exact isBefore_used ht.capacity_eq hn hu
    rw [if_neg hu] at hused ⊢
    rcases standing_concat_iff.1 hs with rfl | ⟨ho, hs⟩
    · exact absurd rfl hu
    rw [List.filterMap_append, List.forall_mem_append] at hyoung
    refine (ih hs hyoung.1 ?_).step ht.coherent ht.capacity_eq ho hu (fun now hnow => ?_) hused
    · refine (Finset.card_le_card fun j hj => ?_).trans_lt hused
      exact List.mem_toFinset.2 (List.mem_append_right _ (List.mem_toFinset.1 hj))
    · -- whenever the key was asked for, its entry was young enough
      refine Bool.eq_false_iff.2 fun hstale => ?_
      obtain ⟨e', he, hold⟩ := (Option.any_eq_true _ _).1 hstale
      obtain ⟨l, hl, hle⟩ := (isExpired_after hc hs he now).1 hold
      exact hyoung.2 now (by simpa using hnow) l hl hle

/-! ### What is given back -/

theorem get_eq_value (c : Cache) (k : Key) (now : Number) (v : String) :
    (c.perform (.get k now)).1 = .value (some v) ↔
      ∃ e, c.entry? k = some e ∧ ¬ c.isExpired now e = true ∧ e.value = v := by
  change Answer.value ((c.find k now).1.map Entry.value) = _ ↔ _
  rw [find_fst, Answer.value.injEq]
  cases c.entry? k with
  | none => simp
  | some e => by_cases hold : c.isExpired now e = true <;> simp [hold]

/-- The time to live was not reached: the entry is younger than that, or it is not a number. -/
theorem not_le_elapsed_iff {ts : List Number} (hclock : Number.IsClock ts) (hnow : now ∈ ts)
    (hcreated : e.created ∈ ts) :
    (∀ t ∈ lifetime, ¬ t.le (now.sub e.created) = true) ↔
      IsFresh lifetime now e ∨ IsEndless lifetime := by
  constructor
  · intro h
    cases lifetime with
    | none => exact .inl nofun
    | some t =>
      cases ht : t.extent? with
      | none =>
        obtain ⟨x, rfl, hx⟩ := (Number.extent?_eq_none_iff t).1 ht
        exact .inr ⟨x, rfl, hx⟩
      | some u =>
        refine .inl fun t' ht' => ?_
        cases ht'
        exact (hclock.le_or_lt_elapsed hnow hcreated ht).resolve_left (h t rfl)
  · rintro (hfresh | ⟨x, rfl, hx⟩) t ht hle
    · exact Number.not_le_of_lt (hfresh t ht) hle
    · cases ht
      obtain ⟨u, hu, -⟩ := (Number.le_iff _ _).1 hle
      cases hu.symm.trans ((Number.extent?_eq_none_iff _).2 ⟨x, rfl, hx⟩)

/-- **What a key gives.** Whatever was put, looked up, invalidated and cleared away, with a clock
that does not go back, it is the value that was last put for the key, which nothing removed since
and which is younger than the time to live, however often it was found. Conversely that value is
given if fewer other keys than the cache may hold were put or found since the key was. **A time to
live that is not a number is none**: with such a one an entry may be as old as it likes. -/
theorem gives_latest {c₀ : Cache} (hc : create (.int n) lifetime = .ok c₀)
    {operations : List Operation}
    (hclock : Number.IsClock (operations.filterMap Operation.time? ++ [now])) (k : Key) :
    (∀ v, ((c₀.after operations).perform (.get k now)).1 = .value (some v) →
      ∃ e, Standing operations e ∧ e.key = k ∧ e.value = v ∧
        (IsFresh lifetime now e ∨ IsEndless lifetime)) ∧
    ∀ e, Standing operations e → e.key = k → IsFresh lifetime now e ∨ IsEndless lifetime →
      (c₀.usedSince operations k).toFinset.card < n →
        ((c₀.after operations).perform (.get k now)).1 = .value (some e.value) := by
  have hnow : now ∈ operations.filterMap Operation.time? ++ [now] := by simp
  have hcreated : ∀ {e}, Standing operations e →
      e.created ∈ operations.filterMap Operation.time? ++ [now] := by
    rintro e ⟨before, since, rfl, -⟩
    simp [Operation.time?]
  constructor
  · intro v hv
    obtain ⟨e', he, hold, rfl⟩ := (get_eq_value _ _ _ _).1 hv
    obtain ⟨e, hs, rfl, m, rfl⟩ := stems_after hc (entry?_mem he)
    refine ⟨e, hs, rfl, rfl, (not_le_elapsed_iff hclock hnow (hcreated hs)).1 fun t ht hle => ?_⟩
    exact hold ((isExpired_after hc hs he now).2 ⟨t, ht, hle⟩)
  · rintro e hs rfl hage hused
    have hyoung := (not_le_elapsed_iff hclock hnow (hcreated hs)).2 hage
    -- an entry that is young enough now was so whenever it was asked for
    have hwas : ∀ s ∈ operations.filterMap Operation.time?, ∀ t ∈ lifetime,
        ¬ t.le (s.sub e.created) = true := by
      intro s hmem t ht hle
      have hsn : s.le now = true :=
        (List.pairwise_append.1 hclock.sorted).2.2 s hmem now List.mem_cons_self
      exact hyoung t ht
        (hclock.elapsed_mono (List.mem_append_left _ hmem) hnow (hcreated hs) hsn hle)
    obtain ⟨before, behind, hes, -⟩ := isBefore_after hc (by omega) hs hwas hused
    have hk : e.key ∈ (c₀.after operations).entries.map Prod.fst := by
      rw [hes]
      simp
    obtain ⟨e', he⟩ := Option.isSome_iff_exists.1 (mem_keys_iff.1 hk)
    obtain ⟨m, rfl⟩ := entry?_after hc hs he
    refine (get_eq_value _ _ _ _).2 ⟨_, he, fun hold => ?_, rfl⟩
    obtain ⟨t, ht, hle⟩ := (isExpired_after hc hs he now).1 hold
    exact hyoung t ht hle

/-- Three keys in a cache for two: the first one is found before the third is put. -/
def foundBefore : List Operation :=
  let e (name value : String) (now : Float) : Entry :=
    { name, fingerprint := "f", value, scope := none, owner := none, height := 0,
      created := .float now }
  [.put (e "a" "1" 0.5), .put (e "b" "2" 1.5), .get ⟨"a", "f"⟩ (.float 2.5), .put (e "c" "3" 3.5)]

theorem found_stays :
    let c (lifetime : Number) : Cache := { capacity := .int 2, lifetime := some lifetime }
    let get (lifetime : Number) (name : String) :=
      (((c lifetime).after foundBefore).perform (.get ⟨name, "f"⟩ (.float 10.25))).1
    get (.int 10) "a" = .value (some "1") ∧ get (.int 10) "b" = .value none ∧
      (∃ e, Standing foundBefore e ∧ e.key = ⟨"a", "f"⟩ ∧ e.value = "1" ∧
        (IsFresh (some (.int 10)) (.float 10.25) e ∨ IsEndless (some (.int 10)))) ∧
      get (.float (0 / 0)) "a" = .value (some "1") ∧
        ∀ e, ¬ IsFresh (some (.float (0 / 0))) (.float 10.25) e := by
  intro c get
  have hclock : Number.IsClock (foundBefore.filterMap Operation.time? ++ [.float 10.25]) := by
    refine ⟨.inr fun t ht => ?_, by decide +kernel⟩
    simp only [foundBefore, Operation.time?, List.filterMap_cons, List.filterMap_nil,
      List.cons_append, List.nil_append, List.mem_cons, List.not_mem_nil, or_false] at ht
    rcases ht with rfl | rfl | rfl | rfl | rfl <;> exact ⟨_, rfl, by decide +kernel⟩
  have hten := gives_latest (rfl : create (.int (2 : Nat)) (some (.int 10)) = .ok (c (.int 10)))
    hclock ⟨"a", "f"⟩
  have hnan := gives_latest
    (rfl : create (.int (2 : Nat)) (some (.float (0 / 0))) = .ok (c (.float (0 / 0))))
    hclock ⟨"a", "f"⟩
  have hstanding : Standing foundBefore
      { name := "a", fingerprint := "f", value := "1", scope := none, owner := none, height := 0,
        created := .float 0.5 } := ⟨[], _, rfl, by simp [Operation.Spares, Entry.key]⟩
  have hget : get (.int 10) "a" = .value (some "1") :=
    hten.2 _ hstanding rfl
      (.inl (by simp only [IsFresh, Option.mem_some_iff, forall_eq']; decide +kernel))
      (by decide +kernel)
  refine ⟨hget, rfl, hten.1 _ hget, hnan.2 _ hstanding rfl (.inr ⟨_, rfl, ?_⟩) (by decide +kernel),
    fun e he => ?_⟩
  · decide +kernel
  · obtain ⟨-, -, u, hu, -⟩ := (Number.lt_iff _ _).1 (he _ rfl)
    cases hu.symm.trans ((Number.extent?_eq_none_iff _).2 ⟨_, rfl, by decide +kernel⟩)

end Cache
end Stencil
