/-
# What a fingerprint separates

What is digested for a context of text values is the same for two contexts
just if they show the same: if in each scope every name has the same visible
value in both. The order of the variables, hidden ones, what is known of a
variable beside its name and value, the owners and the request do not matter.

Key definitions: `Context.SameView`.
Key theorems: `mapping_names_nodup`, `mapping_sorted`, `SameView.mapping_eq`,
`digested_iff_sameView`.
-/
import Mathlib.Data.List.Nodup
import Mathlib.Order.Lattice
import Stencil.Proofs.Context.Fingerprint

namespace Stencil
namespace Context

variable {c d : Context} {s : Scope}

/-- In each scope the same names are visible, with the same values. -/
def SameView (c d : Context) : Prop :=
  ∀ s name, (c.find? s name).map Variable.value = (d.find? s name).map Variable.value

/-! ### One order for each mapping -/

theorem firstOfName_nodup (vs : List Variable) : ((firstOfName vs).map Variable.name).Nodup := by
  induction vs with
  | nil => exact List.nodup_nil
  | cons v r ih =>
    rw [firstOfName, List.map_cons, List.nodup_cons]
    refine ⟨fun h => ?_, ih.sublist (List.filter_sublist.map _)⟩
    obtain ⟨w, hw, hn⟩ := List.mem_map.1 h
    simpa [hn] using (List.mem_filter.1 hw).2

theorem mapping_perm (c : Context) (s : Scope) :
    (c.mapping s).Perm ((c.visible s).map fun v => (v.name, v.value)) := List.mergeSort_perm _ _

/-- A name stands in a mapping once. -/
theorem mapping_names_nodup (c : Context) (s : Scope) : ((c.mapping s).map Prod.fst).Nodup := by
  rw [((mapping_perm c s).map Prod.fst).nodup_iff, List.map_map]
  exact firstOfName_nodup _

/-- The names of a mapping stand in order. -/
theorem mapping_sorted (c : Context) (s : Scope) :
    (c.mapping s).Pairwise fun a b => a.1 ≤ b.1 := by
  have h := @List.pairwise_mergeSort (String × Value) (fun a b => !decide (b.1 < a.1))
    (fun a b c hab hbc => by
      simp only [Bool.not_eq_true', decide_eq_false_iff_not, String.not_lt] at hab hbc ⊢
      exact String.le_trans hab hbc)
    (fun a b => by
      simp only [Bool.or_eq_true, Bool.not_eq_true', decide_eq_false_iff_not, String.not_lt]
      exact String.le_total a.1 b.1) ((c.visible s).map fun v => (v.name, v.value))
  refine h.imp fun hab => ?_
  simpa only [Bool.not_eq_true', decide_eq_false_iff_not, String.not_lt] using hab

/-- What a context shows in a scope has one mapping. -/
theorem SameView.mapping_eq (h : SameView c d) (s : Scope) : c.mapping s = d.mapping s := by
  have hp : (c.mapping s).Perm (d.mapping s) :=
    (List.perm_ext_iff_of_nodup (mapping_names_nodup c s).of_map
      (mapping_names_nodup d s).of_map).2 fun x => by rw [mem_mapping, h, mem_mapping]
  refine List.Perm.eq_of_pairwise (fun x y hx hy hxy hyx => ?_) (mapping_sorted c s)
    (mapping_sorted d s) hp
  -- the same name twice has its value twice
  have hn : x.1 = y.1 := String.le_antisymm hxy hyx
  obtain ⟨n, v⟩ := x
  obtain ⟨m, w⟩ := y
  subst hn
  rw [mem_mapping] at hx hy
  rw [h s n] at hx
  exact Prod.ext rfl (Option.some.inj (hx.symm.trans hy))

/-- Contexts show the same just if, scope by scope, the first enabled variables of the names are the
same up to their order, as far as name and value go. -/
theorem sameView_iff_perm :
    SameView c d ↔ ∀ s, ((c.visible s).map fun v => (v.name, v.value)).Perm
      ((d.visible s).map fun v => (v.name, v.value)) := by
  constructor
  · intro h s
    exact (mapping_perm c s).symm.trans (h.mapping_eq s ▸ mapping_perm d s)
  · refine fun h s name => Option.ext fun x => ?_
    rw [← mem_mapping, ← mem_mapping, (mapping_perm c s).mem_iff, (mapping_perm d s).mem_iff,
      (h s).mem_iff]

theorem SameView.mappings_eq (h : SameView c d) : c.mappings = d.mappings := by
  unfold mappings
  simp only [h.mapping_eq]

/-- **The text that is digested separates exactly what contexts of text values show.** Where the
digest has no collision, so does the fingerprint. -/
theorem digested_iff_sameView (hc : c.HasTexts) (hd : d.HasTexts) :
    (Text.utf8 c.mappings.json = Text.utf8 d.mappings.json ↔ SameView c d) ∧
      (SameView c d → c.fingerprint = d.fingerprint) ∧
      ∀ U : Context → Prop, CollisionFree U → U c → U d →
        c.fingerprint = d.fingerprint → SameView c d := by
  have hb : Text.utf8 c.mappings.json = Text.utf8 d.mappings.json → SameView c d := fun h =>
    find?_value_eq (mapping_eq_of_mappings
      ((mappings_textual hc).eq_of_json (mappings_textual hd) (Text.utf8_injective h)))
  exact ⟨⟨hb, fun h => by rw [h.mappings_eq]⟩,
    fun h => by rw [fingerprint, fingerprint, h.mappings_eq],
    fun U hU huc hud h => hb (hU c d huc hud h)⟩

/-- A context with two variables. -/
def twoNames : Context where
  profile := [{ name := "b", value := .text "2" }]
  rule := [{ name := "a", value := .text "1" }]

/-- The same two, with hidden ones beside them and more known of them. -/
def twoNamesHidden : Context where
  profile := [{ name := "b", value := .text "2", isSecret := true, usageCount := 3 }]
  rule := [
    { name := "a", value := .text "0", isEnabled := false },
    { name := "a", value := .text "1", description := .text "the first" },
    { name := "a", value := .text "later" }]
  profileId := some "p"

/-- One variable, whose value looks like the end of its scope and another one with a variable. -/
def oneCrafted : Context where
  rule := [{ name := "a", value := .text "1\"]]],[\"profile\",[[\"b\",\"2" }]

/-- Hidden variables and what else is known of a variable do not show in the digested text, and a
value that looks like two variables is not taken for them. -/
theorem crafted_separated :
    twoNames.fingerprint = twoNamesHidden.fingerprint ∧
      Text.utf8 twoNames.mappings.json ≠ Text.utf8 oneCrafted.mappings.json ∧
      (CollisionFree (fun c => c = twoNames ∨ c = oneCrafted) →
        twoNames.fingerprint ≠ oneCrafted.fingerprint) := by
  have hsame : SameView twoNames twoNamesHidden :=
    sameView_iff_perm.2 fun s => by cases s <;> exact List.Perm.refl _
  have hother : ¬ SameView twoNames oneCrafted := fun h => by
    have hb := h .profile "b"
    simp [twoNames, oneCrafted, find?, inScope] at hb
  obtain ⟨-, hf, -⟩ :=
    digested_iff_sameView (c := twoNames) (d := twoNamesHidden) (by decide) (by decide)
  obtain ⟨hb, -, hU⟩ := digested_iff_sameView (c := twoNames) (d := oneCrafted) (by decide) (by decide)
  exact ⟨hf hsame, fun h => hother (hb.1 h),
    fun hfree h => hother (hU _ hfree (.inl rfl) (.inr rfl) h)⟩

end Context
end Stencil
