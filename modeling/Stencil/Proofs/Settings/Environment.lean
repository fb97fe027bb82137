/-
# Settings in layers

A setting is what its variable of the environment denotes, if that is set, else
what the section says, else its default (`IsLayered`). Settings within their bounds
can be overridden just where the outcome is within them as well
(`withEnvironment_ok_iff`): what is overridden is checked again, and what is kept
has been checked before. Settings within bounds always make an engine, which has
the bound on the depth, the tracking and the cache that they describe
(`exists_engine`).

Key definitions: `Chosen`, `DenotesInteger`, `DenotesTruth`, `DenotesLifetime`,
`IsLayered`, `IsWithinBounds`, `Describes`.
Key theorems: `cache_withEnvironment_ok_iff`, `withEnvironment_ok_iff`,
`exists_engine`, `withEnvironment_layers`.
-/
import Stencil.Proofs.Settings.Section

namespace Stencil
namespace Settings

open Declarations (entriesAt)

/-! ### Layers -/

/-- What a text denotes, if there is one, else what lies below. -/
def Chosen {α : Type} (text? : Option String) (Denotes : String → α → Prop) (Below : α → Prop)
    (x : α) : Prop :=
  match text? with
  | some text => Denotes text x
  | none => Below x

def DenotesInteger (text : String) (i : Int) : Prop :=
  Numeral.readInteger (Text.strip text) = .ok i

/-- Four words for each truth value, in any letter case. -/
def DenotesTruth (text : String) (b : Bool) : Prop :=
  Text.lower (Text.strip text) ∈
    if b then ["1", "true", "yes", "on"] else ["0", "false", "no", "off"]

/-- An empty text denotes that there is no limit. -/
def DenotesLifetime (text : String) (v : Value) : Prop :=
  if Text.strip text = "" then v = .null
  else ∃ x, Numeral.readReal? (Text.strip text) = some x ∧ v = .float x

/-- Settings that come from the environment, from the entries of a section, and from defaults. -/
structure IsLayered (env : Environment) (entries : List (Value × Value)) (t : Settings) : Prop where
  depth : Chosen (env depthName) DenotesInteger
    (fun i => integerOf (valueOr entries "max_depth" (.int 10)) = .ok i) t.maxDepth
  isEnabled : Chosen (env enabledName) (fun text v => ∃ b, DenotesTruth text b ∧ v = .bool b)
    (· = valueOr (entriesAt entries "cache") "enabled" (.bool true)) t.cache.isEnabled
  capacity : Chosen (env capacityName) (fun text v => ∃ i, DenotesInteger text i ∧ v = .int i)
    (· = valueOr (entriesAt entries "cache") "max_size" (.int 1000)) t.cache.capacity
  lifetime : Chosen (env lifetimeName) DenotesLifetime
    (· = valueOr (entriesAt entries "cache") "ttl_seconds" .null) t.cache.lifetime
  tracking : t.tracking = .ofEntries (entriesAt entries "tracking")

/-- All that is checked of the settings in a section holds. -/
structure IsWithinBounds (s : Settings) : Prop where
  depth : 1 ≤ s.maxDepth
  capacity : (Spot.capacity s.cache.capacity).IsSound
  lifetime : (Spot.lifetime s.cache.lifetime).IsSound
  maxSteps : (Spot.maxSteps s.tracking.maxSteps).IsSound

/-- An engine has what the settings say: their bound on the depth, their tracking, and, if they enable
one, an empty cache with their bounds. -/
structure Describes (s : Settings) (e : Engine) : Prop where
  depth : (e.maxDepth : Int) = s.maxDepth
  tracking : e.tracking = s.tracking.tracking
  cache : s.cache.isEnabled.isTrue = true → ∃ capacity, s.cache.capacity.number? = some capacity ∧
    e.cache = some { capacity, lifetime := s.cache.lifetime.number? }
  noCache : s.cache.isEnabled.isTrue = false → e.cache = none

variable {v : Value} {s t : Settings} {c c' : CacheSettings} {env : Environment} {name text : String}

/-! ### Reading the environment -/

theorem Chosen.congr {α : Type} {text? : Option String} {Denotes : String → α → Prop}
    {Below Below' : α → Prop} {x : α} (h : Below x ↔ Below' x) :
    Chosen text? Denotes Below x ↔ Chosen text? Denotes Below' x := by
  cases text? with
  | none => exact h
  | some text => exact Iff.rfl

theorem override_ok_iff {α : Type} {read : String → Except Fault α} {value x : α} :
    override env name read value = .ok x ↔
      Chosen (env name) (fun text x => read text = .ok x) (· = value) x := by
  unfold override
  cases env name with
  | none => exact ⟨fun h => (Except.ok.inj h).symm, fun h => congrArg _ (Eq.symm h)⟩
  | some text => exact Iff.rfl

theorem readInteger_ok_iff {i : Int} : readInteger name text = .ok i ↔ DenotesInteger text i := by
  unfold readInteger DenotesInteger
  cases Numeral.readInteger (Text.strip text) with
  | ok j => exact ⟨fun h => congrArg _ (Except.ok.inj h), fun h => congrArg _ (Except.ok.inj h)⟩
  | error e => exact ⟨fun h => (nomatch h), fun h => (nomatch h)⟩

theorem readTruth_ok_iff {b : Bool} : readTruth name text = .ok b ↔ DenotesTruth text b := by
  have hapart : ∀ w ∈ ["1", "true", "yes", "on"], w ∉ ["0", "false", "no", "off"] := by decide
  unfold readTruth DenotesTruth
  dsimp only
  generalize Text.lower (Text.strip text) = word
  simp only [List.contains_iff_mem]
  split_ifs with htrue hb hfalse hb hb
  · exact iff_of_true (congrArg _ hb.symm) htrue
  · exact iff_of_false (fun h => hb (Except.ok.inj h).symm) (hapart word htrue)
  · exact iff_of_false (fun h => (nomatch (Except.ok.inj h).trans hb)) htrue
  · exact iff_of_true (congrArg _ (eq_false_of_ne_true hb).symm) hfalse
  · exact iff_of_false (fun h => nomatch h) htrue
  · exact iff_of_false (fun h => nomatch h) hfalse

theorem readLifetime_ok_iff : readLifetime text = .ok v ↔ DenotesLifetime text v := by
  unfold readLifetime readReal DenotesLifetime
  dsimp only
  simp only [String.isEmpty_iff]
  split_ifs
  · exact ⟨fun h => (Except.ok.inj h).symm, fun h => congrArg _ (Eq.symm h)⟩
  · cases Numeral.readReal? (Text.strip text) with
    | none => exact ⟨fun h => (nomatch h), fun ⟨_, h, _⟩ => (nomatch h)⟩
    | some x =>
      constructor
      · exact fun h => ⟨x, rfl, (Except.ok.inj h).symm⟩
      · rintro ⟨y, hy, rfl⟩
        cases hy
        rfl

/-! ### Cache settings -/

/-- What the environment makes of cache settings, bounds left aside. -/
structure CacheSettings.IsOver (c' : CacheSettings) (env : Environment) (c : CacheSettings) :
    Prop where
  isEnabled : Chosen (env enabledName) (fun text v => ∃ b, DenotesTruth text b ∧ v = .bool b)
    (· = c.isEnabled) c'.isEnabled
  capacity : Chosen (env capacityName) (fun text v => ∃ i, DenotesInteger text i ∧ v = .int i)
    (· = c.capacity) c'.capacity
  lifetime : Chosen (env lifetimeName) DenotesLifetime (· = c.lifetime) c'.lifetime

/-- The cache settings allow a cache. -/
def CacheSettings.IsSound (c : CacheSettings) : Prop :=
  (Spot.capacity c.capacity).IsSound ∧ (Spot.lifetime c.lifetime).IsSound

/-- Cache settings are accepted just where they allow a cache, and as they are. -/
theorem cache_check_ok_iff : c.check = .ok c' ↔ c' = c ∧ c.IsSound := by
  have hsound := (cache_reads c).ok_iff
  simp only [List.forall_mem_cons, List.not_mem_nil, false_imp_iff, implies_true, and_true] at hsound
  constructor
  · exact fun h => ⟨cache_ok h, hsound.1 ⟨c', h⟩⟩
  · rintro ⟨rfl, h⟩
    obtain ⟨c'', hc⟩ := hsound.2 h
    rw [hc, cache_ok hc]

/-- A setting that the environment does not give stays. -/
theorem Chosen.eq_of_none {α : Type} {Denotes : String → α → Prop} {text? : Option String} {x y : α}
    (h : Chosen text? Denotes (· = y) x) (hn : text?.isNone = true) : x = y := by
  cases text? with
  | none => exact h
  | some text => cases hn

/-- Where the environment gives no cache setting they all stay. -/
theorem CacheSettings.IsOver.eq_of_silent (h : c'.IsOver env c)
    (hs : ([enabledName, capacityName, lifetimeName].all fun n => (env n).isNone) = true) :
    c' = c := by
  simp only [List.all_cons, List.all_nil, Bool.and_true, Bool.and_eq_true] at hs
  cases c'
  cases c
  rw [CacheSettings.mk.injEq]
  exact ⟨h.isEnabled.eq_of_none hs.1, h.capacity.eq_of_none hs.2.1, h.lifetime.eq_of_none hs.2.2⟩

/-- **Cache settings are overridden just where the outcome allows a cache.** If nothing is given they
are not checked, but then they are those that were accepted before. -/
theorem cache_withEnvironment_ok_iff (hc : c.IsSound) :
    c.withEnvironment env = .ok c' ↔ c'.IsOver env c ∧ c'.IsSound := by
  have hover : ∀ e k l, (override env enabledName (fun t => (readTruth enabledName t).map .bool)
      c.isEnabled = .ok e ∧ override env capacityName (fun t => (readInteger capacityName t).map .int)
      c.capacity = .ok k ∧ override env lifetimeName readLifetime c.lifetime = .ok l) ↔
      CacheSettings.IsOver ⟨e, k, l⟩ env c := by
    intro e k l
    simp only [override_ok_iff, map_eq_ok_iff, readTruth_ok_iff, readInteger_ok_iff,
      readLifetime_ok_iff]
    exact ⟨fun ⟨he, hk, hl⟩ => ⟨he, hk, hl⟩, fun h => ⟨h.isEnabled, h.capacity, h.lifetime⟩⟩
  have hlast : ∀ d : CacheSettings, d.IsOver env c →
      ((if ([enabledName, capacityName, lifetimeName].all fun n => (env n).isNone) = true
        then return c else d.check) = Except.ok (ε := Fault) c' ↔ c' = d ∧ d.IsSound) := by
    intro d hd
    split_ifs with hsilent
    · obtain rfl := hd.eq_of_silent hsilent
      exact ⟨fun h => ⟨(Except.ok.inj h).symm, hc⟩, fun h => congrArg _ h.1.symm⟩
    · exact cache_check_ok_iff
  unfold CacheSettings.withEnvironment
  simp only [bind_eq_ok_iff]
  constructor
  · rintro ⟨e, he, k, hk, l, hl, h⟩
    have hd := (hover e k l).1 ⟨he, hk, hl⟩
    obtain ⟨rfl, hs⟩ := (hlast _ hd).1 h
    exact ⟨hd, hs⟩
  · rintro ⟨hd, hs⟩
    obtain ⟨e, k, l⟩ := c'
    obtain ⟨he, hk, hl⟩ := (hover e k l).2 hd
    exact ⟨e, he, k, hk, l, hl, (hlast _ hd).2 ⟨rfl, hs⟩⟩

/-! ### All settings -/

theorem checkDepth_ok_iff {i j : Int} : checkDepth i = .ok j ↔ j = i ∧ 1 ≤ i := by
  rcases checkDepth_cases i with ⟨hi, hok⟩ | ⟨hi, f, hf, -⟩
  · rw [hok]
    exact ⟨fun h => ⟨(Except.ok.inj h).symm, hi⟩, fun h => congrArg _ h.1.symm⟩
  · rw [hf]
    exact ⟨fun h => (nomatch h), fun h => absurd h.2 hi⟩

theorem depth_override_ok_iff {i j : Int} (hi : 1 ≤ i) :
    override env depthName (fun t => do checkDepth (← readInteger depthName t)) i = .ok j ↔
      Chosen (env depthName) DenotesInteger (· = i) j ∧ 1 ≤ j := by
  rw [override_ok_iff]
  unfold Chosen
  cases env depthName with
  | none =>
    refine ⟨fun h => ⟨h, ?_⟩, And.left⟩
    rwa [show j = i from h]
  | some text =>
    simp only [bind_eq_ok_iff, readInteger_ok_iff, checkDepth_ok_iff]
    constructor
    · rintro ⟨k, hk, rfl, hle⟩
      exact ⟨hk, hle⟩
    · rintro ⟨hj, hle⟩
      exact ⟨j, hj, rfl, hle⟩

/-- **Settings in bounds are overridden just where the outcome is in bounds.** -/
theorem withEnvironment_ok_iff (hs : s.IsWithinBounds) :
    s.withEnvironment env = .ok t ↔
      (Chosen (env depthName) DenotesInteger (· = s.maxDepth) t.maxDepth ∧
        t.cache.IsOver env s.cache ∧ t.tracking = s.tracking) ∧ t.IsWithinBounds := by
  unfold withEnvironment
  simp only [bind_eq_ok_iff, depth_override_ok_iff hs.depth,
    cache_withEnvironment_ok_iff ⟨hs.capacity, hs.lifetime⟩]
  constructor
  · rintro ⟨depth, ⟨hd, hle⟩, cache, ⟨hc, hsound⟩, h⟩
    obtain rfl := Except.ok.inj h
    exact ⟨⟨hd, hc, rfl⟩, hle, hsound.1, hsound.2, hs.maxSteps⟩
  · rintro ⟨⟨hd, hc, ht⟩, hb⟩
    obtain ⟨depth, cache, tracking⟩ := t
    obtain rfl : tracking = s.tracking := ht
    exact ⟨depth, ⟨hd, hb.depth⟩, cache, ⟨hc, hb.capacity, hb.lifetime⟩, rfl⟩

/-- What a section gives is within bounds. -/
theorem isWithinBounds_of_ok (h : ofSection v = .ok s) : s.IsWithinBounds := by
  have hsound := (ofSection_reads v).ok_iff.1 ⟨s, h⟩
  have hg := isGiven_of_ok h
  exact ⟨depth_of_sound hsound hg, capacity_of_sound hsound hg, lifetime_of_sound hsound hg,
    maxSteps_of_sound hsound hg⟩

/-- The layers below the environment are those of the section. -/
theorem isLayered_iff (hg : s.IsGiven (given v)) : t.IsLayered env (given v) ↔
    Chosen (env depthName) DenotesInteger (· = s.maxDepth) t.maxDepth ∧
      t.cache.IsOver env s.cache ∧ t.tracking = s.tracking := by
  have hdepth : Chosen (env depthName) DenotesInteger (· = s.maxDepth) t.maxDepth ↔
      Chosen (env depthName) DenotesInteger
        (fun i => integerOf (valueOr (given v) "max_depth" (.int 10)) = .ok i) t.maxDepth := by
    refine Chosen.congr ?_
    rw [hg.depth]
    exact ⟨fun h => congrArg _ (Eq.symm h), fun h => (Except.ok.inj h).symm⟩
  rw [hdepth, hg.tracking, hg.cache]
  exact ⟨fun h => ⟨h.depth, ⟨h.isEnabled, h.capacity, h.lifetime⟩, h.tracking⟩,
    fun ⟨hd, hc, ht⟩ => ⟨hd, hc.isEnabled, hc.capacity, hc.lifetime, ht⟩⟩

/-! ### Engines -/

theorem create_of_bounds {capacity : Number} {lifetime : Option Number}
    (hc : capacity.lt (.int 1) = false) (hl : ∀ n, lifetime = some n → n.le (.int 0) = false) :
    Cache.create capacity lifetime = .ok { capacity, lifetime } := by
  unfold Cache.create
  rw [if_neg (by rw [hc]; exact Bool.false_ne_true)]
  cases lifetime with
  | none => rfl
  | some n => exact if_neg (by rw [hl n rfl]; exact Bool.false_ne_true)

/-- Settings that allow a cache make one with their bounds, if they enable it. -/
theorem cache?_of_isSound (h : c.IsSound) : c.cache? = .ok (if c.isEnabled.isTrue then
    some { capacity := numberOf c.capacity, lifetime := c.lifetime.number? } else none) := by
  obtain ⟨⟨n, hn, hlt⟩, hl⟩ := h
  have hnumber : numberOf c.capacity = n := by rw [numberOf, hn, Option.getD_some]
  have hlifetime : ∀ m, c.lifetime.number? = some m → m.le (.int 0) = false := by
    intro m hm
    rcases hl with hnull | ⟨k, hk, hle⟩
    · rw [hnull] at hm
      cases hm
    · exact Option.some.inj (hk.symm.trans hm) ▸ hle
  unfold CacheSettings.cache?
  rw [hnumber, create_of_bounds hlt hlifetime]
  cases c.isEnabled.isTrue <;> rfl

/-- **Settings within bounds make an engine**, which has what they describe. -/
theorem exists_engine (h : s.IsWithinBounds) (library : Library) (sources : Sources) :
    ∃ e, s.engine library sources = .ok e ∧ s.Describes e ∧ e.library = library ∧
      e.sources = sources := by
  have hpos : 0 < s.maxDepth := h.depth
  unfold engine
  rw [cache?_of_isSound ⟨h.capacity, h.lifetime⟩]
  dsimp only
  unfold Engine.create
  rw [dif_pos hpos]
  refine ⟨_, rfl, ⟨Int.toNat_of_nonneg (by omega), rfl, fun he => ?_, fun he => ?_⟩, rfl, rfl⟩
  · obtain ⟨n, hn, -⟩ := h.capacity
    refine ⟨n, hn, ?_⟩
    rw [if_pos he, numberOf, hn, Option.getD_some]
  · exact if_neg (by rw [he]; exact Bool.false_ne_true)

/-- **Settings are layered and always usable.** What a section gives is overridden by an environment
just where the outcome, layer by layer, is within bounds, and it stays as it is if none of the four
variables is set. The outcome makes an engine with just what it describes. -/
theorem withEnvironment_layers (h : ofSection v = .ok s) (env : Environment) :
    (∀ t, s.withEnvironment env = .ok t ↔ t.IsLayered env (given v) ∧ t.IsWithinBounds) ∧
    ((∀ name ∈ variableNames, env name = none) → s.withEnvironment env = .ok s) ∧
    ∀ t, s.withEnvironment env = .ok t → ∀ library sources, ∃ e,
      t.engine library sources = .ok e ∧ t.Describes e ∧ e.library = library ∧ e.sources = sources := by
  have hs := isWithinBounds_of_ok h
  have hiff : ∀ t, s.withEnvironment env = .ok t ↔
      t.IsLayered env (given v) ∧ t.IsWithinBounds := fun t => by
    rw [withEnvironment_ok_iff hs, isLayered_iff (isGiven_of_ok h)]
  refine ⟨hiff, fun hnone => ?_, fun t ht => exists_engine ((hiff t).1 ht).2⟩
  simp only [variableNames, List.forall_mem_cons, List.not_mem_nil, false_imp_iff, implies_true,
    and_true] at hnone
  obtain ⟨hdepth, henabled, hcapacity, hlifetime⟩ := hnone
  refine (withEnvironment_ok_iff hs).2 ⟨⟨?_, ⟨?_, ?_, ?_⟩, rfl⟩, hs⟩
  · rw [hdepth]
    rfl
  · rw [henabled]
    rfl
  · rw [hcapacity]
    rfl
  · rw [hlifetime]
    rfl

/-- A text in place of a truth value stays, and an empty text takes the limit away again. -/
theorem layers_without_limit :
    let v : Value := .map [(.text "max_depth", .text "5"),
      (.text "cache", .map [(.text "enabled", .text "no"), (.text "ttl_seconds", .int 60)])]
    let env : Environment := fun n =>
      if n = depthName then some " 7 " else if n = lifetimeName then some "" else none
    let s : Settings := { maxDepth := 5, cache := { isEnabled := .text "no", lifetime := .int 60 } }
    let t : Settings := { maxDepth := 7, cache := { isEnabled := .text "no" } }
    ofSection v = .ok s ∧ s.withEnvironment env = .ok t ∧ ∀ library sources, ∃ e,
      t.engine library sources = .ok e ∧ t.Describes e ∧ e.library = library ∧
        e.sources = sources := by
  intro v env s t
  have h : ofSection v = .ok s := rfl
  have ht : s.withEnvironment env = .ok t := rfl
  exact ⟨h, ht, (withEnvironment_layers h env).2.2 t ht⟩

end Settings
end Stencil
