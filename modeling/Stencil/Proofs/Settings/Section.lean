/-
# What is accepted as settings

A section is read spot by spot (`spots`), up to the first spot that is not sound. What is
found there is told as a fault of the settings, unless that spot breaks
(`Spot.Breaks`): what stands in place of the section is no mapping and no list of
pairs, unknown keys have no order or cannot be written, or the bound on the depth
is infinite.

What is accepted are the values as they are given, but for the bound on the depth,
of which the integer is taken. All of them are within their bounds; but they have
their types only if they were given so (`ofSection_validates`).

Key definitions: `IsSection`, `Spot`, `Spot.IsSound`, `Spot.Breaks`, `spots`,
`IsGiven`, `HasTypes`, `IsValid`.
Key theorems: `sectionEntries_ok_iff`, `ofSection_reads`, `ofSection_validates`.
-/
import Stencil.Proofs.Declarations
import Stencil.Proofs.Number.Order
import Stencil.Proofs.Reading
import Stencil.Proofs.Value.Keys
import Stencil.Settings.Environment

namespace Stencil
namespace Settings

open Declarations (entriesAt entriesIn)
open Float.Model (UnpackedFloat)
open Value (unknownKeys lookup? CanBeTold)

/-! ### What is read -/

/-- Two items, of which the first is a key. -/
def IsPair (item : Value) : Prop := ∃ k v, pairItems? item = some [k, v] ∧ isKey k = true

/-- A value that stands for a mapping: an empty one, a mapping, or a list of pairs. -/
def IsSection (v : Value) : Prop :=
  v.isTrue = false ∨ (∃ entries, v = .map entries) ∨
    ∃ items, v = .list items ∧ ∀ item ∈ items, IsPair item

/-- A place of a section at which something is asked of it. -/
inductive Spot where
  /-- All of the section. -/
  | whole (v : Value)
  /-- The keys of a mapping, where only some are allowed. -/
  | keys (allowed : List String) (entries : List (Value × Value))
  /-- A part of the section. -/
  | part (v? : Option Value)
  | depth (v : Value)
  | capacity (v : Value)
  | lifetime (v : Value)
  | maxSteps (v : Value)

/-- What is asked for at a spot is there. -/
def Spot.IsSound : Spot → Prop
  | whole v => IsSection v
  | keys allowed entries => unknownKeys allowed entries = []
  | part v? => ∀ v, v? = some v → v.isTrue = true → ∃ entries, v = .map entries
  | depth v => ∃ i, integerOf v = .ok i ∧ 1 ≤ i
  | capacity v => ∃ n, v.number? = some n ∧ n.lt (.int 1) = false
  | lifetime v => v = .null ∨ ∃ n, v.number? = some n ∧ n.le (.int 0) = false
  | maxSteps v => ∃ n, v.number? = some n ∧ n.lt (.int 0) = false

/-- What is wrong at a spot is not told as a fault of the settings. -/
def Spot.Breaks : Spot → Prop
  | whole v => ¬ IsSection v
  | keys allowed entries => ¬ CanBeTold (unknownKeys allowed entries)
  | depth v => ∃ x : Float, v = .float x ∧ x.isInf = true
  | _ => False

/-- The keys of a section. -/
def sectionKeys : List String := ["max_depth", "cache", "tracking"]

/-- The entries that are given in a section. -/
def given (v : Value) : List (Value × Value) := (sectionEntries v).toOption.getD []

/-- The spots of a section, in the order in which they are read. -/
def spots (v : Value) : List Spot :=
  let entries := given v
  let cache := entriesAt entries "cache"
  let tracking := entriesAt entries "tracking"
  [.whole v, .keys sectionKeys entries,
    .part (lookup? entries "cache"), .keys cacheKeys cache,
    .part (lookup? entries "tracking"), .keys trackingKeys tracking,
    .depth (valueOr entries "max_depth" (.int 10)),
    .capacity (CacheSettings.ofEntries cache).capacity,
    .lifetime (CacheSettings.ofEntries cache).lifetime,
    .maxSteps (TrackingSettings.ofEntries tracking).maxSteps]

/-! ### What is accepted -/

/-- The values that only are true or false. -/
def switches (s : Settings) : List Value :=
  [s.cache.isEnabled, s.tracking.isEnabled, s.tracking.keepsCache, s.tracking.keepsTiming,
    s.tracking.keepsDetails]

/-- The settings are those that are given, with defaults for what is not. -/
structure IsGiven (entries : List (Value × Value)) (s : Settings) : Prop where
  depth : integerOf (valueOr entries "max_depth" (.int 10)) = .ok s.maxDepth
  cache : s.cache = .ofEntries (entriesAt entries "cache")
  tracking : s.tracking = .ofEntries (entriesAt entries "tracking")

/-- All settings have the types that are declared for them, and a time to live is a number. -/
structure HasTypes (s : Settings) : Prop where
  capacity : ∃ i, s.cache.capacity = .int i
  lifetime : s.cache.lifetime = .null ∨ ∃ n, s.cache.lifetime = .ofNumber n ∧
    ∀ x : Float, n = .float x → x.isNaN = false
  maxSteps : ∃ i, s.tracking.maxSteps = .int i
  switches : ∀ v ∈ s.switches, ∃ b, v = .bool b

/-- All settings have the types that are declared for them, and are within their bounds. -/
structure IsValid (s : Settings) : Prop where
  depth : 1 ≤ s.maxDepth
  capacity : ∃ i, s.cache.capacity = .int i ∧ 1 ≤ i
  lifetime : s.cache.lifetime = .null ∨ ∃ n, s.cache.lifetime = .ofNumber n ∧
    (Number.int 0).lt n = true
  maxSteps : ∃ i, s.tracking.maxSteps = .int i ∧ 0 ≤ i
  switches : ∀ v ∈ s.switches, ∃ b, v = .bool b

/-- The outcome of reading spots in their order. -/
abbrev ReadsSpots {α : Type} (spots : List Spot) (a : Except Fault α) : Prop :=
  Reads Spot.IsSound Spot.Breaks Fault.isReported spots a

variable {v : Value} {entries es : List (Value × Value)} {s : Settings}

/-! ### Sections -/

theorem ofPairs_ok_iff (items : List Value) (place : Nat) :
    (∃ entries, ofPairs place items = .ok entries) ↔ ∀ item ∈ items, IsPair item := by
  induction items generalizing place with
  | nil => exact ⟨fun _ item h => absurd h List.not_mem_nil, fun _ => ⟨[], rfl⟩⟩
  | cons item items ih =>
    rw [List.forall_mem_cons, ← ih (place + 1), ofPairs]
    unfold IsPair
    split
    · rename_i hnone
      rw [hnone]
      simp
    · rename_i k w hpair
      rw [hpair]
      split_ifs with hk
      · cases ofPairs (place + 1) items <;> simp [Except.map, hk]
      · simp [hk]
    · rename_i items hlength hsome
      rw [hsome]
      simp only [reduceCtorEq, exists_false, false_iff, not_and]
      rintro ⟨k, w, hkw, -⟩
      exact absurd (Option.some.inj hkw) (hlength k w)

/-- Items that are made a mapping: just those of which each is a pair. -/
theorem map_ofPairs_ok_iff (items : List Value) :
    (∃ entries, (ofPairs 0 items).map Value.mapOf = .ok entries) ↔ ∀ item ∈ items, IsPair item := by
  rw [← ofPairs_ok_iff items 0]
  cases ofPairs 0 items <;> simp [Except.map]

/-- A single character is no pair. -/
theorem not_isPair_singleton (c : Char) : ¬ IsPair (.text (String.singleton c)) := by
  rintro ⟨k, w, h, -⟩
  simp [pairItems?] at h

/-- **Just an empty value, a mapping and a list of pairs stand for a mapping.** -/
theorem sectionEntries_ok_iff : (∃ entries, sectionEntries v = .ok entries) ↔ IsSection v := by
  unfold sectionEntries IsSection
  cases ht : v.isTrue with
  | false => simp
  | true =>
    rw [if_neg (by decide)]
    cases v with
    | map entries => simp
    | list items =>
      rw [map_ofPairs_ok_iff]
      simp
    | text s =>
      -- a text has characters for its items, so only the empty one would do
      rw [map_ofPairs_ok_iff]
      refine iff_of_false (fun h => ?_) (by simp)
      cases hs : s.toList with
      | nil =>
        rw [String.toList_eq_nil_iff.1 hs] at ht
        cases ht
      | cons c cs =>
        rw [hs] at h
        exact not_isPair_singleton c (h _ List.mem_cons_self)
    | _ => simp

theorem sectionEntries_reads (v : Value) :
    ReadsSpots [.whole v] ((sectionEntries v).mapError Fault.misfit) := by
  have hiff := sectionEntries_ok_iff (v := v)
  cases h : sectionEntries v with
  | ok entries => exact .cons (hiff.1 ⟨entries, h⟩) .nil
  | error m =>
    have hn : ¬ IsSection v := fun hs => by
      obtain ⟨entries, he⟩ := hiff.2 hs
      cases h.symm.trans he
    exact .broken hn hn rfl

theorem sectionEntries_ok (h : (sectionEntries v).mapError Fault.misfit = .ok entries) :
    entries = given v := by
  unfold given
  cases hv : sectionEntries v with
  | ok es =>
    rw [hv] at h
    cases h
    rfl
  | error m =>
    rw [hv] at h
    cases h

/-- Unknown keys are told if they have an order and can be written. -/
theorem checkKeys_reads (place : String) (allowed : List String) (entries : List (Value × Value)) :
    ReadsSpots [.keys allowed entries] (checkKeys place allowed entries) := by
  refine Value.allowOnly_reads Iff.rfl Iff.rfl (fun _ => rfl) fun keys => ?_
  cases hw : keys.all Value.isWritable <;> rfl

theorem part_reads (entries : List (Value × Value)) (name : String) :
    ReadsSpots [.part (lookup? entries name)] (part entries name) :=
  .mapping Iff.rfl id rfl

theorem part_ok {name : String} (h : part entries name = .ok es) : es = entriesAt entries name :=
  Declarations.entriesAt_ok h

/-! ### Values -/

/-- Just the infinite doubles are infinite. -/
theorem truncate_infinite_iff (x : Float) :
    (Number.float x).truncate = .error .infinite ↔ x.isInf = true := by
  unfold Number.truncate
  dsimp only
  cases Binary64.decoded x with
  | notANumber hd hu =>
    have hn : x.isNaN = true := (congrArg UnpackedFloat.isNaN hu :)
    have hi : x.isInf = false := (congrArg UnpackedFloat.isInf hu :)
    rw [hd, hi, hn]
    exact ⟨fun h => (nomatch h), fun h => (nomatch h)⟩
  | infinity s hd hu =>
    have hn : x.isNaN = false := (congrArg UnpackedFloat.isNaN hu :)
    have hi : x.isInf = true := (congrArg UnpackedFloat.isInf hu :)
    rw [hd, hi, hn]
    exact ⟨fun _ => rfl, fun _ => rfl⟩
  | zero p hp he hd hu =>
    have hi : x.isInf = false := (congrArg UnpackedFloat.isInf hu :)
    rw [hd, hi]
    exact ⟨fun h => (nomatch h), fun h => (nomatch h)⟩
  | finite p hp hf he hd hu =>
    have hi : x.isInf = false := (congrArg UnpackedFloat.isInf hu :)
    rw [hd, hi]
    exact ⟨fun h => (nomatch h), fun h => (nomatch h)⟩

theorem integerOf_infinite {x : Float} (h : x.isInf = true) :
    integerOf (.float x) = .error (.misfit .infinite) := by
  unfold integerOf
  dsimp only [Value.number?]
  rw [(truncate_infinite_iff x).2 h]

/-- A bound on the depth is refused as a fault of the settings, unless it is infinite. -/
theorem integerOf_error {f : Fault} (h : integerOf v = .error f) :
    f.isReported = false ↔ (Spot.depth v).Breaks := by
  unfold integerOf at h
  split at h
  · rename_i n hn
    split at h
    · cases h
    · -- no number at all, so not an infinite one
      rename_i hnan
      cases h
      refine ⟨fun hr => (nomatch hr), ?_⟩
      rintro ⟨x, rfl, hx⟩
      obtain rfl := Option.some.inj hn
      cases hnan.symm.trans ((truncate_infinite_iff x).2 hx)
    · rename_i hinf
      cases h
      refine ⟨fun _ => ?_, fun _ => rfl⟩
      cases v with
      | float x =>
        obtain rfl := Option.some.inj hn
        exact ⟨x, rfl, (truncate_infinite_iff x).1 hinf⟩
      | bool b =>
        obtain rfl := Option.some.inj hn
        cases hinf
      | int i =>
        obtain rfl := Option.some.inj hn
        cases hinf
      | _ => cases hn
  · rename_i hnone
    have hb : ¬ (Spot.depth v).Breaks := by
      rintro ⟨x, rfl, -⟩
      cases hnone
    have hr : f.isReported = true := by
      split at h
      · split at h <;> cases h <;> rfl
      · cases h
        rfl
    exact ⟨fun hf => absurd (hr.symm.trans hf) (by decide), fun hf => absurd hf hb⟩

theorem checkDepth_cases (i : Int) :
    (1 ≤ i ∧ checkDepth i = .ok i) ∨
      (¬ 1 ≤ i ∧ ∃ f, checkDepth i = .error f ∧ f.isReported = true) := by
  unfold checkDepth naming
  split_ifs with h
  · exact .inr ⟨by omega, _, rfl, rfl⟩
  · exact .inr ⟨by omega, _, rfl, rfl⟩
  · exact .inl ⟨by omega, rfl⟩

theorem depth_reads (v : Value) : ReadsSpots [.depth v] (integerOf v >>= checkDepth) := by
  cases hv : integerOf v with
  | error f =>
    refine .head (fun h => ?_) (integerOf_error hv)
    obtain ⟨i, hi, -⟩ := h
    cases hv.symm.trans hi
  | ok i =>
    show ReadsSpots [.depth v] (checkDepth i)
    rcases checkDepth_cases i with ⟨hi, hok⟩ | ⟨hi, f, hf, hr⟩
    · rw [hok]
      exact .cons ⟨i, hv, hi⟩ .nil
    · rw [hf]
      refine .reported (fun h => ?_) (fun h => ?_) hr
      · obtain ⟨j, hj, hle⟩ := h
        cases hv.symm.trans hj
        exact hi hle
      · obtain ⟨x, rfl, hx⟩ := h
        cases hv.symm.trans (integerOf_infinite hx)

/-- A fault that names a value is one of the settings whether or not the value can be written. -/
theorem naming_isReported {f : Fault} (v : Value) (h : f.isReported = true) :
    (naming v f).isReported = true := by
  unfold naming
  split_ifs
  · exact h
  · rfl

/-- A value that has to be a number, and one that is not beyond a bound. -/
theorem bounded_reads {α : Type} {s : Spot} {ss : List Spot} {f : Fault} {a : Except Fault α}
    {bad : Number → Bool} (comparison : String)
    (hs : s.IsSound ↔ ∃ n, v.number? = some n ∧ bad n = false) (hb : ¬ s.Breaks)
    (hf : f.isReported = true) (ha : ReadsSpots ss a) :
    ReadsSpots (s :: ss)
      (comparable comparison v >>= fun n => if bad n = true then .error f else a) := by
  unfold comparable
  cases hn : v.number? with
  | none =>
    refine .reported (fun h => ?_) hb rfl
    obtain ⟨n, hsome, -⟩ := hs.1 h
    cases hn.symm.trans hsome
  | some n =>
    show ReadsSpots (s :: ss) (if bad n = true then .error f else a)
    split_ifs with hbad
    · refine .reported (fun h => ?_) hb hf
      obtain ⟨m, hm, hgood⟩ := hs.1 h
      obtain rfl := Option.some.inj (hn.symm.trans hm)
      exact absurd (hbad.symm.trans hgood) (by decide)
    · exact .cons (hs.2 ⟨n, hn, eq_false_of_ne_true hbad⟩) ha

theorem lifetime_sound_iff (h : v ≠ .null) :
    (Spot.lifetime v).IsSound ↔ ∃ n, v.number? = some n ∧ n.le (.int 0) = false :=
  or_iff_right h

theorem cache_reads (c : CacheSettings) :
    ReadsSpots [.capacity c.capacity, .lifetime c.lifetime] c.check := by
  unfold CacheSettings.check
  refine bounded_reads "<" Iff.rfl id (naming_isReported _ rfl) ?_
  split
  · rename_i hl
    rw [hl]
    exact .cons (.inl rfl) .nil
  · rename_i hl
    exact bounded_reads "<=" (lifetime_sound_iff hl) id (naming_isReported _ rfl) .nil

theorem tracking_reads (t : TrackingSettings) : ReadsSpots [.maxSteps t.maxSteps] t.check :=
  bounded_reads "<" Iff.rfl id (naming_isReported _ rfl) .nil

/-- A value of which the number is not beyond a bound. -/
theorem comparable_bind_ok {α : Type} {comparison : String} {bad : Number → Bool} {f : Fault}
    {a : Except Fault α} {y : α}
    (h : (comparable comparison v >>= fun n => if bad n = true then .error f else a) = .ok y) :
    a = .ok y := by
  unfold comparable at h
  cases hn : v.number? with
  | none =>
    rw [hn] at h
    cases h
  | some n =>
    rw [hn] at h
    change (if bad n = true then .error f else a) = .ok y at h
    split_ifs at h
    exact h

theorem cache_ok {c c' : CacheSettings} (h : c.check = .ok c') : c' = c := by
  unfold CacheSettings.check at h
  have hl := comparable_bind_ok h
  split at hl
  · exact (Except.ok.inj hl).symm
  · exact (Except.ok.inj (comparable_bind_ok hl)).symm

theorem tracking_ok {t t' : TrackingSettings} (h : t.check = .ok t') : t' = t :=
  (Except.ok.inj (comparable_bind_ok h)).symm

/-! ### All of a section -/

/-- **A section is read spot by spot.** -/
theorem ofSection_reads (v : Value) : ReadsSpots (spots v) (ofSection v) := by
  unfold ofSection spots
  refine (sectionEntries_reads v).bind fun entries hentries => ?_
  obtain rfl := sectionEntries_ok hentries
  refine (checkKeys_reads "engine" _ _).bind fun _ _ => ?_
  refine (part_reads _ "cache").bind fun cache hcache => ?_
  obtain rfl := part_ok hcache
  refine (checkKeys_reads "engine.cache" _ _).bind fun _ _ => ?_
  refine (part_reads _ "tracking").bind fun tracking htracking => ?_
  obtain rfl := part_ok htracking
  refine (checkKeys_reads "engine.tracking" _ _).bind fun _ _ => ?_
  rw [← bind_assoc]
  refine (depth_reads _).bind fun _ _ => ?_
  refine (cache_reads _).bind fun _ _ => ?_
  exact (tracking_reads _).map

/-- A spot that breaks is not sound. -/
theorem Spot.Breaks.not_isSound {x : Spot} (h : x.Breaks) : ¬ x.IsSound := by
  cases x with
  | whole v => exact h
  | keys allowed entries =>
    intro hs
    rw [Spot.IsSound] at hs
    exact h (hs ▸ Value.canBeTold_nil)
  | depth v =>
    obtain ⟨x, rfl, hx⟩ := h
    rintro ⟨i, hi, -⟩
    cases hi.symm.trans (integerOf_infinite hx)
  | _ => exact h.elim

theorem checkDepth_ok {i j : Int} (h : checkDepth i = .ok j) : j = i := by
  rcases checkDepth_cases i with ⟨-, hok⟩ | ⟨-, f, hf, -⟩
  · exact (Except.ok.inj (hok.symm.trans h)).symm
  · cases hf.symm.trans h

/-- **What is accepted are the settings that are given.** -/
theorem isGiven_of_ok (h : ofSection v = .ok s) : s.IsGiven (given v) := by
  unfold ofSection at h
  obtain ⟨entries, hentries, h⟩ := ok_of_bind h
  obtain rfl := sectionEntries_ok hentries
  obtain ⟨-, -, h⟩ := ok_of_bind h
  obtain ⟨cache, hcache, h⟩ := ok_of_bind h
  obtain rfl := part_ok hcache
  obtain ⟨-, -, h⟩ := ok_of_bind h
  obtain ⟨tracking, htracking, h⟩ := ok_of_bind h
  obtain rfl := part_ok htracking
  obtain ⟨-, -, h⟩ := ok_of_bind h
  obtain ⟨depth, hdepth, h⟩ := ok_of_bind h
  obtain ⟨maxDepth, hmax, h⟩ := ok_of_bind h
  obtain ⟨c, hc, h⟩ := ok_of_bind h
  obtain ⟨t, ht, h⟩ := ok_of_bind h
  cases h
  exact ⟨checkDepth_ok hmax ▸ hdepth, cache_ok hc, tracking_ok ht⟩

/-! ### Types and bounds -/

theorem depth_of_sound (hs : ∀ x ∈ spots v, x.IsSound) (hg : s.IsGiven (given v)) :
    1 ≤ s.maxDepth := by
  have hd : (Spot.depth (valueOr (given v) "max_depth" (.int 10))).IsSound :=
    hs _ (by simp [spots])
  obtain ⟨i, hi, hle⟩ := hd
  rwa [Except.ok.inj (hg.depth.symm.trans hi)]

theorem capacity_of_sound (hs : ∀ x ∈ spots v, x.IsSound) (hg : s.IsGiven (given v)) :
    (Spot.capacity s.cache.capacity).IsSound := by
  rw [hg.cache]
  exact hs _ (by simp [spots])

theorem lifetime_of_sound (hs : ∀ x ∈ spots v, x.IsSound) (hg : s.IsGiven (given v)) :
    (Spot.lifetime s.cache.lifetime).IsSound := by
  rw [hg.cache]
  exact hs _ (by simp [spots])

theorem maxSteps_of_sound (hs : ∀ x ∈ spots v, x.IsSound) (hg : s.IsGiven (given v)) :
    (Spot.maxSteps s.tracking.maxSteps).IsSound := by
  rw [hg.tracking]
  exact hs _ (by simp [spots])

/-- An integer that is no less than a bound. -/
theorem le_of_not_lt {i j : Int} (h : ∃ n, (Value.int i).number? = some n ∧ n.lt (.int j) = false) :
    j ≤ i := by
  obtain ⟨n, hn, hlt⟩ := h
  obtain rfl := Option.some.inj hn
  rw [Number.int_lt_int, decide_eq_false_iff_not] at hlt
  exact Int.not_lt.1 hlt

/-- A number is above a bound if it is a number at all and not within it. -/
theorem lt_of_not_le {n : Number} {i : Int} (hn : ∀ x : Float, n = .float x → x.isNaN = false)
    (h : n.le (.int i) = false) : (Number.int i).lt n = true := by
  cases he : n.extent? with
  | none =>
    obtain ⟨x, hx, hnan⟩ := (Number.extent?_eq_none_iff n).1 he
    cases hnan.symm.trans (hn x hx)
  | some u =>
    rcases Number.le_or_lt he (Number.extent?_int i) with hle | hlt
    · cases hle.symm.trans h
    · exact hlt

/-- What is above a bound is a number. -/
theorem isNaN_of_lt {n : Number} {i : Int} (h : (Number.int i).lt n = true) (x : Float)
    (hx : n = .float x) : x.isNaN = false := by
  obtain ⟨-, -, u, hu, -⟩ := (Number.lt_iff _ _).1 h
  refine eq_false_of_ne_true fun hnan => ?_
  cases hu.symm.trans ((Number.extent?_eq_none_iff n).2 ⟨x, hx, hnan⟩)

theorem number?_ofNumber (n : Number) : (Value.ofNumber n).number? = some n := by
  cases n <;> rfl

/-- **Settings that are accepted are valid if only they have their types.** -/
theorem isValid_iff_hasTypes (hs : ∀ x ∈ spots v, x.IsSound) (hg : s.IsGiven (given v)) :
    s.IsValid ↔ s.HasTypes := by
  constructor
  · intro h
    obtain ⟨i, hi, -⟩ := h.capacity
    obtain ⟨j, hj, -⟩ := h.maxSteps
    refine ⟨⟨i, hi⟩, ?_, ⟨j, hj⟩, h.switches⟩
    refine h.lifetime.imp_right ?_
    rintro ⟨n, hn, hlt⟩
    exact ⟨n, hn, isNaN_of_lt hlt⟩
  · intro h
    refine ⟨depth_of_sound hs hg, ?_, ?_, ?_, h.switches⟩
    · obtain ⟨i, hi⟩ := h.capacity
      have hc := capacity_of_sound hs hg
      rw [hi] at hc
      exact ⟨i, hi, le_of_not_lt hc⟩
    · refine h.lifetime.imp_right ?_
      rintro ⟨n, hn, hnan⟩
      refine ⟨n, hn, ?_⟩
      rcases lifetime_of_sound hs hg with hnull | ⟨m, hm, hle⟩
      · cases n <;> cases hn.symm.trans hnull
      · rw [hn, number?_ofNumber] at hm
        obtain rfl := Option.some.inj hm
        exact lt_of_not_le hnan hle
    · obtain ⟨i, hi⟩ := h.maxSteps
      have ht := maxSteps_of_sound hs hg
      rw [hi] at ht
      exact ⟨i, hi, le_of_not_lt ht⟩

/-- **What a section of settings comes to.** It is accepted just where all of its spots are sound,
and refused with something else than a fault of the settings just where the first one that is not
breaks. What is accepted is what was given; it is valid where it was given with its types. -/
theorem ofSection_validates (v : Value) :
    ((∃ s, ofSection v = .ok s) ↔ ∀ x ∈ spots v, x.IsSound) ∧
    ((∃ f, ofSection v = .error f ∧ f.isReported = false) ↔
      ∃ before x after, spots v = before ++ x :: after ∧ (∀ y ∈ before, y.IsSound) ∧ x.Breaks) ∧
    ∀ s, ofSection v = .ok s →
      s.IsGiven (given v) ∧ 1 ≤ s.maxDepth ∧ (s.IsValid ↔ s.HasTypes) := by
  have hreads := ofSection_reads v
  refine ⟨hreads.ok_iff, hreads.unreported_iff fun _ => Spot.Breaks.not_isSound, fun s hs => ?_⟩
  have hsound := hreads.ok_iff.1 ⟨s, hs⟩
  have hg := isGiven_of_ok hs
  exact ⟨hg, depth_of_sound hsound hg, isValid_iff_hasTypes hsound hg⟩

/-- An infinite bound on the depth. -/
example : ofSection (.map [(.text "max_depth", .float Binary64.infinity)]) =
    .error (.misfit .infinite) :=
  rfl

/-- A text in the place of a truth value. -/
example : ∃ s, ofSection (.map [(.text "cache", .map [(.text "enabled", .text "no")])]) = .ok s ∧
    s.cache.isEnabled = .text "no" :=
  ⟨_, rfl, rfl⟩

end Settings
end Stencil
