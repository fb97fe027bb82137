/-
# The views of a context

What a name means is told in three ways: by looking it up, scope after scope
from the highest precedence down; by laying the scopes over one another from
the lowest up; and by the definitions that lose. All three come from the first
enabled variables of the name (`Agrees`). A context built without its disabled
variables tells the same as one that holds them (`views_agree`).

Key definitions: `IsFirst`, `Wins`, `IsRanked`, `Agrees`.
Key theorems: `find?_eq_some_iff`, `lookup?_eq_some_iff`, `isRanked_matching`,
`views_agree`.
-/
import Stencil.Proofs.Context.Secret

namespace Stencil
namespace Context

variable {c : Context} {s : Scope} {n : String} {v : Variable}

/-- `v` is the first enabled variable called `n` in a list. -/
def IsFirst (vs : List Variable) (n : String) (v : Variable) : Prop :=
  ∃ before after, vs = before ++ v :: after ∧ v.isEnabled = true ∧ v.name = n ∧
    ∀ w ∈ before, w.isEnabled = true → w.name ≠ n

/-- `v`, in the scope `s`, is the first enabled variable called `n`, and no scope of a higher
precedence has one. -/
def Wins (c : Context) (n : String) (s : Scope) (v : Variable) : Prop :=
  ∃ higher lower, Scope.precedence = higher ++ s :: lower ∧ IsFirst (c.inScope s) n v ∧
    ∀ t ∈ higher, ∀ w, ¬ IsFirst (c.inScope t) n w

/-- The first enabled variables called `n` of all scopes that have one, in order of precedence. -/
structure IsRanked (c : Context) (n : String) (ds : List (Scope × Variable)) : Prop where
  ordered : (ds.map Prod.fst).Sublist Scope.precedence
  mem_iff : ∀ s v, (s, v) ∈ ds ↔ IsFirst (c.inScope s) n v

/-- The views of a context tell the same of a name. -/
structure Agrees (c : Context) (n : String) : Prop where
  /-- Laid over one another the scopes hold a name once. -/
  names_nodup : (c.effective.map Variable.name).Nodup
  found_iff : (c.lookup? n).isSome = true ↔ n ∈ c.effective.map Variable.name
  effective : c.effective.find? (fun v => v.name == n) = (c.lookup? n).map Prod.snd
  winner : ∀ s v, c.lookup? n = some (s, v) ↔ c.Wins n s v
  ranked : ∃ ds, c.IsRanked n ds ∧
    ((c.lookup? n).map Prod.snd).toList ++ c.shadowed n = ds.map Prod.snd

/-! ### First enabled variables -/

theorem find?_eq_some_iff : c.find? s n = some v ↔ IsFirst (c.inScope s) n v := by
  unfold find? IsFirst
  rw [List.find?_eq_some_iff_append]
  constructor
  · rintro ⟨hv, before, after, hs, hb⟩
    rw [Bool.and_eq_true, beq_iff_eq] at hv
    refine ⟨before, after, hs, hv.1, hv.2, fun w hw he hn => ?_⟩
    have h := hb w hw
    rw [he, beq_iff_eq.2 hn] at h
    exact absurd h (by decide)
  · rintro ⟨before, after, hs, he, hn, hb⟩
    refine ⟨by rw [he, beq_iff_eq.2 hn]; rfl, before, after, hs, fun w hw => ?_⟩
    cases hw' : w.isEnabled with
    | false => rfl
    | true => rw [beq_eq_false_iff_ne.2 (hb w hw hw')]; rfl

theorem find?_eq_none_iff : c.find? s n = none ↔ ∀ v, ¬ IsFirst (c.inScope s) n v := by
  constructor
  · intro h v hv
    rw [← find?_eq_some_iff, h] at hv
    cases hv
  · intro h
    cases hf : c.find? s n with
    | none => rfl
    | some v => exact absurd (find?_eq_some_iff.1 hf) (h v)

/-- Looking a name up asks one scope after the other. -/
theorem lookup?_eq_findSome? (c : Context) (n : String) :
    c.lookup? n = Scope.precedence.findSome? fun s => (c.find? s n).map fun v => (s, v) :=
  List.head?_filterMap

/-- **A name means the first enabled variable in the scope of the highest precedence.** -/
theorem lookup?_eq_some_iff : c.lookup? n = some (s, v) ↔ c.Wins n s v := by
  rw [lookup?_eq_findSome?, List.findSome?_eq_some_iff]
  constructor
  · rintro ⟨higher, t, lower, hp, hf, hh⟩
    obtain ⟨w, hw, he⟩ := Option.map_eq_some_iff.1 hf
    cases he
    exact ⟨higher, lower, hp, find?_eq_some_iff.1 hw, fun u hu =>
      find?_eq_none_iff.1 (Option.map_eq_none_iff.1 (hh u hu))⟩
  · rintro ⟨higher, lower, hp, hf, hh⟩
    refine ⟨higher, s, lower, hp, by rw [find?_eq_some_iff.2 hf]; rfl, fun u hu => ?_⟩
    rw [find?_eq_none_iff.2 (hh u hu)]
    rfl

/-! ### All definitions of a name -/

theorem matching_scopes (c : Context) (n : String) :
    (c.matching n).map Prod.fst = Scope.precedence.filter fun s => (c.find? s n).isSome := by
  unfold matching
  rw [List.map_filterMap, ← List.filterMap_eq_filter]
  congr 1
  funext s
  cases h : c.find? s n with
  | none => simp [Option.guard, h]
  | some v => simp [Option.guard, h]

theorem mem_matching : (s, v) ∈ c.matching n ↔ c.find? s n = some v := by
  unfold matching
  rw [List.mem_filterMap]
  constructor
  · rintro ⟨t, -, ht⟩
    obtain ⟨w, hw, he⟩ := Option.map_eq_some_iff.1 ht
    cases he
    exact hw
  · intro h
    exact ⟨s, mem_precedence s, by rw [h]; rfl⟩

/-- The visible variables of a name are the first enabled ones, in order of precedence. -/
theorem isRanked_matching (c : Context) (n : String) : c.IsRanked n (c.matching n) where
  ordered := by
    rw [matching_scopes]
    exact List.filter_sublist
  mem_iff := fun s v => mem_matching.trans find?_eq_some_iff

theorem lookup?_append_shadowed (c : Context) (n : String) :
    ((c.lookup? n).map Prod.snd).toList ++ c.shadowed n = (c.matching n).map Prod.snd := by
  unfold lookup? shadowed
  cases c.matching n with
  | nil => rfl
  | cons d ds => rfl

theorem mem_effective_iff (c : Context) (n : String) :
    (c.lookup? n).isSome = true ↔ n ∈ c.effective.map Variable.name := by
  rw [← Option.isSome_map (f := Prod.snd), ← effective_find?, List.find?_isSome, List.mem_map]
  simp only [beq_iff_eq]

theorem agrees (c : Context) (n : String) : c.Agrees n where
  names_nodup := c.definedNames_nodup
  found_iff := mem_effective_iff c n
  effective := effective_find? c n
  winner := fun _ _ => lookup?_eq_some_iff
  ranked := ⟨c.matching n, isRanked_matching c n, lookup?_append_shadowed c n⟩

/-! ### Contexts without disabled variables -/

theorem inScope_build (c : Context) (s : Scope) :
    c.build.inScope s = (c.inScope s).filter Variable.isEnabled := by
  cases s <;> rfl

theorem find?_build (c : Context) (s : Scope) (n : String) : c.build.find? s n = c.find? s n := by
  have h := find?_enabled (c.inScope s) n
  unfold find?
  rw [← h, inScope_build, ← find?_enabled, List.filter_filter]
  simp only [Bool.and_self]

theorem matching_build (c : Context) (n : String) : c.build.matching n = c.matching n := by
  unfold matching
  simp only [find?_build]

theorem visible_build (c : Context) (s : Scope) : c.build.visible s = c.visible s := by
  unfold visible
  rw [inScope_build, List.filter_filter]
  simp only [Bool.and_self]

theorem effective_build (c : Context) : c.build.effective = c.effective := by
  unfold effective
  rw [show c.build.visible = c.visible from funext (visible_build c)]

theorem fingerprint_build (c : Context) : c.build.fingerprint = c.fingerprint := by
  unfold fingerprint mappings mapping
  simp only [visible_build]

theorem variablesOf_variables (fault : String → Fault) (vs : List Variable) :
    variablesOf fault (vs.map .variable) = .ok vs := by
  induction vs with
  | nil => rfl
  | cons v vs ih => rw [List.map_cons, variablesOf, ih]; rfl

/-- **All views of a context agree, whether it is made of the given lists as they are or of their
enabled variables only.** -/
theorem views_agree (system global profile rule : List Variable) :
    ∃ c b : Context,
      ofEntries (system.map .variable) (global.map .variable) (profile.map .variable)
        (rule.map .variable) = .ok c ∧
      buildEntries (system.map .variable) (global.map .variable) (profile.map .variable)
        (rule.map .variable) = .ok b ∧
      c = { system, global, profile, rule } ∧
      (∀ n, c.Agrees n ∧ b.Agrees n ∧ b.lookup? n = c.lookup? n ∧ b.shadowed n = c.shadowed n) ∧
      b.effective = c.effective ∧ b.fingerprint = c.fingerprint := by
  let c : Context := { system, global, profile, rule }
  refine ⟨c, c.build, ?_, ?_, rfl, fun n => ?_, effective_build c, fingerprint_build c⟩
  · unfold ofEntries
    simp only [variablesOf_variables]
    rfl
  · unfold buildEntries
    simp only [variablesOf_variables]
    rfl
  · refine ⟨agrees c n, agrees c.build n, ?_, ?_⟩
    · rw [lookup?, matching_build]
      rfl
    · rw [shadowed, matching_build]
      rfl

end Context
end Stencil
