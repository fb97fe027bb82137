/-
# The variables that names mean

Laying the scopes over one another, from the lowest precedence up, leaves each
name with the variable that looking it up gives (`effective_find?`). So the
secret names of a context are those that mean a secret variable.

Key theorems: `effective_find?`, `mem_secretNames`.
-/
import Mathlib.Data.List.Nodup
import Stencil.Proofs.Context.Fingerprint
import Stencil.Proofs.Context.Reference

namespace Stencil
namespace Context

variable {c : Context} {n : String} {v : Variable}

theorem find?_override (v : Variable) (vs : List Variable) (n : String) :
    (override v vs).find? (fun w => w.name == n) =
      if v.name = n then some v else vs.find? fun w => w.name == n := by
  induction vs with
  | nil =>
    rw [override, List.find?_cons]
    split_ifs with hn
    · rw [beq_iff_eq.2 hn]
    · rw [beq_eq_false_iff_ne.2 hn]
  | cons w r ih =>
    rw [override]
    by_cases hw : w.name = v.name
    · rw [if_pos (beq_iff_eq.2 hw), List.find?_cons, List.find?_cons, hw]
      split_ifs with hn
      · rw [beq_iff_eq.2 hn]
      · rw [beq_eq_false_iff_ne.2 hn]
    · rw [if_neg (by simpa using hw), List.find?_cons, ih, List.find?_cons]
      by_cases hn : w.name = n
      · rw [beq_iff_eq.2 hn]
        exact (if_neg fun h => hw (hn.trans h.symm)).symm
      · rw [beq_eq_false_iff_ne.2 hn]

/-- Of the variables laid over others, the last of a name wins. -/
theorem find?_foldl_override (ws vs : List Variable) (n : String) :
    (ws.foldl (fun vs v => override v vs) vs).find? (fun w => w.name == n) =
      ((ws.filter fun w => w.name == n).getLast?).or (vs.find? fun w => w.name == n) := by
  induction ws generalizing vs with
  | nil => rfl
  | cons w ws ih =>
    rw [List.foldl_cons, ih, find?_override, List.filter_cons]
    by_cases hw : w.name = n
    · rw [if_pos hw, if_pos (beq_iff_eq.2 hw), List.getLast?_cons]
      cases (ws.filter fun w => w.name == n).getLast? <;> rfl
    · rw [if_neg hw, if_neg (by simpa using hw)]

theorem filter_firstOfName (vs : List Variable) (n : String) :
    (firstOfName vs).filter (fun w => w.name == n) =
      (vs.find? fun w => w.name == n).toList := by
  induction vs with
  | nil => rfl
  | cons v r ih =>
    rw [firstOfName, List.filter_cons, List.filter_filter, List.find?_cons]
    by_cases hv : v.name = n
    · rw [if_pos (beq_iff_eq.2 hv), beq_iff_eq.2 hv, List.filter_eq_nil_iff.2]
      · rfl
      · intro w _
        simp [hv]
    · rw [if_neg (by simpa using hv), beq_eq_false_iff_ne.2 hv]
      refine Eq.trans (List.filter_congr fun w _ => ?_) ih
      by_cases hw : w.name = n
      · simp [hw, Ne.symm hv]
      · simp [hw]

theorem filter_visible (c : Context) (s : Scope) (n : String) :
    (c.visible s).filter (fun w => w.name == n) = (c.find? s n).toList := by
  rw [visible, filter_firstOfName, find?_enabled]
  rfl

/-- Each name has the variable that looking it up gives. -/
theorem effective_find? (c : Context) (n : String) :
    c.effective.find? (fun w => w.name == n) = (c.lookup? n).map Prod.snd := by
  have hlast : ∀ ss : List Scope,
      (((ss.reverse.flatMap c.visible).filter fun w => w.name == n).getLast?) =
        ((ss.filterMap fun s => (c.find? s n).map fun v => (s, v)).head?).map Prod.snd := by
    intro ss
    induction ss with
    | nil => rfl
    | cons s ss ih =>
      rw [List.reverse_cons, List.flatMap_append, List.filter_append, List.flatMap_singleton,
        filter_visible, List.filterMap_cons]
      cases c.find? s n with
      | none => rw [Option.toList_none, List.append_nil, ih]; rfl
      | some v => rw [Option.toList_some, List.getLast?_concat]; rfl
  rw [effective, find?_foldl_override, hlast, List.find?_nil, Option.or_none]
  rfl

/-- **The secret names are those that mean a secret variable.** -/
theorem mem_secretNames :
    n ∈ c.secretNames ↔ ∃ s v, c.lookup? n = some (s, v) ∧ v.isSecret = true := by
  unfold secretNames Text.sorted
  rw [List.mem_mergeSort, List.mem_map]
  constructor
  · rintro ⟨v, hv, rfl⟩
    obtain ⟨hv, hs⟩ := List.mem_filter.1 hv
    have hsome : (c.effective.find? fun w => w.name == v.name).isSome :=
      List.find?_isSome.2 ⟨v, hv, beq_self_eq_true _⟩
    obtain ⟨w, hw⟩ := Option.isSome_iff_exists.1 hsome
    have hname : w.name = v.name := by simpa using List.find?_some hw
    -- no two variables of the laid over scopes have one name
    obtain rfl :=
      List.inj_on_of_nodup_map c.definedNames_nodup (List.mem_of_find?_eq_some hw) hv hname
    rw [effective_find?] at hw
    obtain ⟨⟨s, u⟩, hl, rfl⟩ := Option.map_eq_some_iff.1 hw
    exact ⟨s, u, hl, hs⟩
  · rintro ⟨s, v, hl, hs⟩
    have hf := effective_find? c n
    rw [hl] at hf
    have hn : v.name = n := by simpa using List.find?_some hf
    exact ⟨v, List.mem_filter.2 ⟨List.mem_of_find?_eq_some hf, hs⟩, hn⟩

end Context
end Stencil
