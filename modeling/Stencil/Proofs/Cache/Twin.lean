/-
# Caches for two contexts

Two runs in different contexts keep their entries under different fingerprints.
As long as each keeps the same values under the same names, in the same order,
their caches answer alike and go on to be alike. Of the sources no more is asked
than that neither the functions nor the cache can tell them apart: where entries
expire the times must be the same, elsewhere it must only be possible to read
them.

Key definitions: `Sources.Twin`, `Cache.Twin`, `Cache.FoundAlike`.
Key theorems: `Sources.Twin.of_pure`, `Twin.findNow`, `Twin.putNow`.
-/
import Mathlib.Data.List.Forall2
import Stencil.Proofs.Cache.Entries
import Stencil.Proofs.Cache.Indexes
import Stencil.Proofs.Function

namespace Stencil

namespace Sources

/-- Readings of two clocks, with the same time if that matters and with sources that `S` relates. -/
inductive ReadAlike (expires : Prop) (S : Sources → Sources → Prop) :
    Except Refusal (Number × Sources) → Except Refusal (Number × Sources) → Prop where
  | ok {t t' : Number} {s s' : Sources} (ht : expires → t = t') (hs : S s s') :
      ReadAlike expires S (.ok (t, s)) (.ok (t', s'))
  | error (r : Refusal) : ReadAlike expires S (.error r) (.error r)

/-- The functions of the library and the clock give the same for sources that `S` relates, and leave
sources that it relates. -/
structure Matches (L : Library) (expires : Prop) (S : Sources → Sources → Prop) : Prop where
  invoke : ∀ {s s'}, S s s' → ∀ name arguments,
    (L.invoke name arguments s).1 = (L.invoke name arguments s').1 ∧
      S (L.invoke name arguments s).2 (L.invoke name arguments s').2
  readTime : ∀ {s s'}, S s s' → ReadAlike expires S s.readTime s'.readTime

/-- Neither the functions of the library nor, as far as it matters, the clock tell the sources
apart. -/
def Twin (L : Library) (expires : Prop) (s s' : Sources) : Prop :=
  ∃ S, Matches L expires S ∧ S s s'

/-- The same sources give the same, whatever the functions do. -/
theorem Matches.eq (L : Library) (expires : Prop) : Matches L expires Eq := by
  refine ⟨?_, ?_⟩
  · rintro s _ rfl name arguments
    exact ⟨rfl, rfl⟩
  · rintro s _ rfl
    cases s.readTime with
    | error r => exact .error r
    | ok x => exact .ok (fun _ => rfl) rfl

theorem Twin.refl (L : Library) (expires : Prop) (s : Sources) : Twin L expires s s :=
  ⟨Eq, .eq L expires, rfl⟩

/-- Where functions depend on their arguments only, any sources with clocks that can be read are
twins, if nothing expires or the clocks agree. -/
theorem Twin.of_pure {L : Library} {expires : Prop} {T : Sources → Prop} (hp : L.IsPure)
    (hk : L.Keeps T) (hT : IsReadable T)
    (hnow : expires → ∀ s s', T s → T s' → s.now = s'.now) {s s' : Sources} (hs : T s)
    (hs' : T s') : Twin L expires s s' := by
  refine ⟨fun s s' => T s ∧ T s', ⟨?_, ?_⟩, hs, hs'⟩
  · rintro s s' ⟨hs, hs'⟩ name arguments
    have hout := hp.gives s'
    exact ⟨hout ⟨name, some arguments, "", ⟨0, 0⟩⟩ s, hk.invoke name arguments hs,
      hk.invoke name arguments hs'⟩
  · rintro s s' ⟨hs, hs'⟩
    obtain ⟨t, s₁, ht, hs₁⟩ := hT s hs
    obtain ⟨t', s₁', ht', hs₁'⟩ := hT s' hs'
    have hread : ∀ {s : Sources} {t s₁}, s.readTime = .ok (t, s₁) → t = s.now := by
      intro s t s₁ h
      unfold readTime at h
      split at h
      · cases h
        rfl
      · cases h
    rw [ht, ht']
    refine .ok (fun he => ?_) ⟨hs₁, hs₁'⟩
    rw [hread ht, hread ht', hnow he s s' hs hs']

end Sources

namespace Cache

/-- Entries of one name with one value and height, and of one moment if they may expire. -/
structure Entry.Twin (expires : Prop) (e e' : Entry) : Prop where
  value : e.value = e'.value
  height : e.height = e'.height
  created : expires → e.created = e'.created

/-- Whether entries grow too old. -/
def Expires (c : Cache) : Prop := c.lifetime.isSome = true

/-- Entries that are kept under one name, with the fingerprints `f` and `f'`. -/
def KeptAlike (f f' : String) (expires : Prop) (x x' : Key × Entry) : Prop :=
  ∃ n, x.1 = ⟨n, f⟩ ∧ x'.1 = ⟨n, f'⟩ ∧ x.2.Twin expires x'.2

/-- The caches keep the same under the fingerprints `f` and `f'`, and nothing else. -/
structure Twin (f f' : String) (c c' : Cache) : Prop where
  capacity : c.capacity = c'.capacity
  lifetime : c.lifetime = c'.lifetime
  isDated : c.isDated = c'.isDated
  entries : List.Forall₂ (KeptAlike f f' c.Expires) c.entries c'.entries

/-- What two caches give for a name: nothing, or entries that are alike. -/
inductive FoundAlike (expires : Prop) : Option Entry → Option Entry → Prop where
  | none : FoundAlike expires none none
  | some {e e' : Entry} (h : e.Twin expires e') : FoundAlike expires (some e) (some e')

section Entries

variable {f f' n : String} {expires : Prop} {es es' : List (Key × Entry)}

theorem find?_alike (h : List.Forall₂ (KeptAlike f f' expires) es es') (n : String) :
    FoundAlike expires ((es.find? fun x => x.1 == ⟨n, f⟩).map Prod.snd)
      ((es'.find? fun x => x.1 == ⟨n, f'⟩).map Prod.snd) := by
  induction h with
  | nil => exact .none
  | @cons x x' _ _ hx _ ih =>
    obtain ⟨m, hk, hk', he⟩ := hx
    by_cases hm : m = n
    · subst hm
      rw [List.find?_cons_of_pos (by simp [hk]), List.find?_cons_of_pos (by simp [hk'])]
      exact .some he
    · rw [List.find?_cons_of_neg (by simp [hk, hm]), List.find?_cons_of_neg (by simp [hk', hm])]
      exact ih

theorem filter_alike (h : List.Forall₂ (KeptAlike f f' expires) es es') (n : String) :
    List.Forall₂ (KeptAlike f f' expires) (es.filter fun x => x.1 != ⟨n, f⟩)
      (es'.filter fun x => x.1 != ⟨n, f'⟩) := by
  induction h with
  | nil => exact .nil
  | @cons x x' _ _ hx _ ih =>
    obtain ⟨m, hk, hk', he⟩ := hx
    by_cases hm : m = n
    · subst hm
      rw [List.filter_cons_of_neg (by simp [hk]), List.filter_cons_of_neg (by simp [hk'])]
      exact ih
    · rw [List.filter_cons_of_pos (by simp [hk, hm]), List.filter_cons_of_pos (by simp [hk', hm])]
      exact .cons ⟨m, hk, hk', he⟩ ih

end Entries

namespace Twin

variable {f f' : String} {c c' : Cache} {n : String} {e e' : Entry}

theorem entry? (h : Twin f f' c c') (n : String) :
    FoundAlike c.Expires (c.entry? ⟨n, f⟩) (c'.entry? ⟨n, f'⟩) := find?_alike h.entries n

theorem remove (h : Twin f f' c c') (n : String) :
    Twin f f' (c.remove ⟨n, f⟩) (c'.remove ⟨n, f'⟩) :=
  ⟨h.capacity, h.lifetime, h.isDated, filter_alike h.entries n⟩

theorem isExpired (h : Twin f f' c c') {now now' : Number} (hnow : c.Expires → now = now')
    (he : e.Twin c.Expires e') : c.isExpired now e = c'.isExpired now' e' := by
  unfold Cache.isExpired
  rw [← h.lifetime]
  cases hl : c.lifetime with
  | none => rfl
  | some t =>
    have hx : c.Expires := by rw [Expires, hl]; rfl
    dsimp only
    rw [hnow hx, he.created hx]

/-- Caches that are alike give entries that are alike, and stay alike. -/
theorem find (h : Twin f f' c c') (n : String) {now now' : Number}
    (hnow : c.needsTime ⟨n, f⟩ = true → now = now') :
    FoundAlike c.Expires (c.find ⟨n, f⟩ now).1 (c'.find ⟨n, f'⟩ now').1 ∧
      Twin f f' (c.find ⟨n, f⟩ now).2 (c'.find ⟨n, f'⟩ now').2 := by
  have hentry := h.entry? n
  unfold Cache.needsTime at hnow
  unfold Cache.find
  generalize c.entry? ⟨n, f⟩ = e? at hentry hnow
  generalize c'.entry? ⟨n, f'⟩ = e?' at hentry
  cases hentry with
  | none => exact ⟨.none, h.capacity, h.lifetime, h.isDated, h.entries⟩
  | @some e e' he =>
    rw [Option.isSome_some, Bool.and_true] at hnow
    dsimp only
    rw [← h.isExpired hnow he]
    split_ifs
    · exact ⟨.none, h.capacity, h.lifetime, h.isDated, filter_alike h.entries n⟩
    · refine ⟨.some ⟨he.value, he.height, he.created⟩, h.capacity, h.lifetime, h.isDated, ?_⟩
      exact List.rel_append (filter_alike h.entries n)
        (.cons ⟨n, rfl, rfl, he.value, he.height, he.created⟩ .nil)

theorem evict {es es' : List (Key × Entry)} {expires : Prop} (h : Twin f f' c c')
    (hx : c.Expires = expires) (hes : List.Forall₂ (KeptAlike f f' expires) es es') :
    Twin f f' (c.evict es) (c'.evict es') := by
  induction hes generalizing c c' with
  | nil => exact ⟨h.capacity, h.lifetime, h.isDated, .nil⟩
  | @cons x x' r r' hk hr ih =>
    by_cases hlt : c.capacity.lt (.int (r.length + 1 : Nat)) = true
    · have hlt' : c'.capacity.lt (.int (r'.length + 1 : Nat)) = true := by
        rwa [← h.capacity, ← hr.length_eq]
      rw [Cache.evict, Cache.evict, if_pos hlt, if_pos hlt']
      exact ih ⟨h.capacity, h.lifetime, h.isDated, h.entries⟩ hx
    · have hlt' : ¬ c'.capacity.lt (.int (r'.length + 1 : Nat)) = true := by
        rwa [← h.capacity, ← hr.length_eq]
      rw [Cache.evict, Cache.evict, if_neg hlt, if_neg hlt']
      subst hx
      exact ⟨h.capacity, h.lifetime, h.isDated, .cons hk hr⟩

theorem vacate (h : Twin f f' c c') (n : String) :
    Twin f f' (c.vacate ⟨n, f⟩) (c'.vacate ⟨n, f'⟩) := by
  have hentry := h.entry? n
  unfold Cache.vacate
  generalize c.entry? ⟨n, f⟩ = e? at hentry
  generalize c'.entry? ⟨n, f'⟩ = e?' at hentry
  cases hentry with
  | none => exact h
  | some => exact h.remove n

theorem vacate_expires (c : Cache) (k : Key) : (c.vacate k).Expires = c.Expires := by
  unfold Cache.vacate
  split_ifs <;> rfl

/-- Caches stay alike when the same is put into both. -/
theorem put (h : Twin f f' c c') (hn : e'.name = e.name) (hf : e.fingerprint = f)
    (hf' : e'.fingerprint = f') (he : e.Twin c.Expires e') : Twin f f' (c.put e) (c'.put e') := by
  have hv := h.vacate e.name
  have hx := vacate_expires c ⟨e.name, f⟩
  have hk : e.key = ⟨e.name, f⟩ := by rw [Entry.key, hf]
  have hk' : e'.key = ⟨e.name, f'⟩ := by rw [Entry.key, hf', hn]
  have hlast : List.Forall₂ (KeptAlike f f' c.Expires) [(⟨e.name, f⟩, e)] [(⟨e.name, f'⟩, e')] :=
    .cons ⟨e.name, rfl, rfl, he⟩ .nil
  rw [put_eq, put_eq, hk, hk']
  exact Twin.evict ⟨hv.capacity, hv.lifetime, hv.isDated, hv.entries⟩ hx
    (List.rel_append (hx ▸ hv.entries) hlast)

end Twin

/-! ### With the time -/

/-- Two lookups: refused alike, or with what is alike in caches and sources that are. -/
inductive LookupAlike (f f' : String) (expires : Prop) (S : Sources → Sources → Prop) :
    Except Refusal (Option Entry × Cache × Sources) →
      Except Refusal (Option Entry × Cache × Sources) → Prop where
  | ok {e? e?' : Option Entry} {c c' : Cache} {s s' : Sources} (he : FoundAlike expires e? e?')
      (hx : c.Expires = expires) (hc : Twin f f' c c') (hs : S s s') :
      LookupAlike f f' expires S (.ok (e?, c, s)) (.ok (e?', c', s'))
  | error (r : Refusal) : LookupAlike f f' expires S (.error r) (.error r)

/-- Two attempts to keep an entry: both fail alike or none does, and the caches are alike. -/
inductive KeepAlike (f f' : String) (expires : Prop) (S : Sources → Sources → Prop) :
    Except Refusal Sources × Cache → Except Refusal Sources × Cache → Prop where
  | ok {c c' : Cache} {s s' : Sources} (hx : c.Expires = expires) (hc : Twin f f' c c')
      (hs : S s s') : KeepAlike f f' expires S (.ok s, c) (.ok s', c')
  | error (r : Refusal) {c c' : Cache} (hx : c.Expires = expires) (hc : Twin f f' c c') :
      KeepAlike f f' expires S (.error r, c) (.error r, c')

namespace Twin

variable {f f' : String} {c c' : Cache} {n : String} {e e' : Entry} {L : Library}
  {S : Sources → Sources → Prop} {s s' : Sources}

theorem find_expires (c : Cache) (k : Key) (now : Number) :
    (c.find k now).2.Expires = c.Expires := by
  unfold Cache.find
  split
  · rfl
  · split_ifs <;> rfl

theorem evict_expires (es : List (Key × Entry)) (c : Cache) :
    (c.evict es).Expires = c.Expires := by
  induction es generalizing c with
  | nil => rfl
  | cons x r ih =>
    rw [Cache.evict]
    split_ifs
    · exact ih _
    · rfl

theorem put_expires (c : Cache) (e : Entry) : (c.put e).Expires = c.Expires := by
  rw [put_eq, evict_expires]
  exact vacate_expires c e.key

theorem needsTime (h : Twin f f' c c') (n : String) :
    c.needsTime ⟨n, f⟩ = c'.needsTime ⟨n, f'⟩ := by
  have hentry := h.entry? n
  unfold Cache.needsTime
  rw [← h.lifetime]
  generalize c.entry? ⟨n, f⟩ = e? at hentry
  generalize c'.entry? ⟨n, f'⟩ = e?' at hentry
  cases hentry <;> rfl

/-- **Caches that are alike answer alike**, and stay alike. -/
theorem findNow (h : Twin f f' c c') (hS : Sources.Matches L c.Expires S) (n : String)
    (hs : S s s') :
    LookupAlike f f' c.Expires S (c.findNow ⟨n, f⟩ s) (c'.findNow ⟨n, f'⟩ s') := by
  unfold Cache.findNow
  rw [← h.needsTime n]
  split_ifs with ht
  · have hread := hS.readTime hs
    generalize s.readTime = x at hread
    generalize s'.readTime = x' at hread
    cases hread with
    | error r => exact .error r
    | ok htime hs =>
      obtain ⟨he, hc⟩ := h.find n fun hy => htime (Bool.and_eq_true_iff.1 hy).1
      exact .ok he (find_expires c _ _) hc hs
  · obtain ⟨he, hc⟩ := h.find n fun hy => absurd hy ht
    exact .ok he (find_expires c _ _) hc hs

/-- **Caches stay alike when the same is put into both**, whatever the fingerprints are. -/
theorem putNow (h : Twin f f' c c') (hS : Sources.Matches L c.Expires S)
    (hn : e'.name = e.name) (hf : e.fingerprint = f) (hf' : e'.fingerprint = f')
    (he : e.Twin c.Expires e') (hs : S s s') :
    KeepAlike f f' c.Expires S (c.putNow e s) (c'.putNow e' s') := by
  unfold Cache.putNow
  rw [← h.isDated]
  split_ifs
  · have hread := hS.readTime hs
    generalize s.readTime = x at hread
    generalize s'.readTime = x' at hread
    cases hread with
    | error r =>
      rw [hf, hf', hn]
      exact .error r rfl (h.remove e.name)
    | ok ht hs =>
      exact .ok (put_expires c _) (h.put hn hf hf' ⟨he.value, he.height, ht⟩) hs
  · exact .ok (put_expires c _) (h.put hn hf hf' he) hs

end Twin
end Cache
end Stencil
