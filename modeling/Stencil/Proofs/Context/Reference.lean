/-
# References between the names of a context

A name refers to the names in its value, as far as the value can be read. A
name lies on a reference cycle if it reaches itself; it is reached from some
roots if a chain of references leads to it from one of them.

Key definitions: `Refers`, `OnCycle`, `Reached`.
Key theorems: `definedNames_nodup`, `mem_definedNames`.
-/
import Mathlib.Logic.Relation
import Stencil.Context.Definition
import Stencil.Proofs.Lists

namespace Stencil
namespace Context

open ListFacts

/-- The value of `a` refers to `b`. -/
def Refers (c : Context) (a b : String) : Prop :=
  ∃ d, c.define? a = .ok (some d) ∧ b ∈ d.references

/-- A name that refers to itself, directly or through others. -/
def OnCycle (c : Context) (n : String) : Prop := Relation.TransGen c.Refers n n

/-- A name that some of the roots refer to, directly or through others, or a root itself. -/
def Reached (c : Context) (roots : List String) (n : String) : Prop :=
  ∃ r ∈ roots, Relation.ReflTransGen c.Refers r n

theorem Reached.refers {c : Context} {roots : List String} {a b : String}
    (h : c.Reached roots a) (hr : c.Refers a b) : c.Reached roots b := by
  obtain ⟨r, hm, hra⟩ := h
  exact ⟨r, hm, hra.tail hr⟩

theorem Reached.trans {c : Context} {roots : List String} {a b : String}
    (h : c.Reached roots a) (hr : Relation.ReflTransGen c.Refers a b) : c.Reached roots b := by
  obtain ⟨r, hm, hra⟩ := h
  exact ⟨r, hm, hra.trans hr⟩

/-! ### Defined names -/

theorem override_names (v : Variable) (vs : List Variable) :
    (override v vs).map Variable.name =
      if v.name ∈ vs.map Variable.name then vs.map Variable.name
      else vs.map Variable.name ++ [v.name] := by
  refine map_put (override v) rfl (fun w r => ?_) vs
  rw [override]
  by_cases hw : w.name = v.name
  · rw [if_pos (beq_iff_eq.2 hw), if_pos hw, List.map_cons]
  · rw [if_neg (by simpa using hw), if_neg hw, List.map_cons]

theorem foldl_override_names (ws vs : List Variable) (h : (vs.map Variable.name).Nodup) :
    ((ws.foldl (fun vs v => override v vs) vs).map Variable.name).Nodup ∧
      ∀ n, n ∈ (ws.foldl (fun vs v => override v vs) vs).map Variable.name ↔
        n ∈ vs.map Variable.name ∨ n ∈ ws.map Variable.name := by
  induction ws generalizing vs with
  | nil => exact ⟨h, fun n => by simp⟩
  | cons w ws ih =>
    obtain ⟨h₁, h₂⟩ := ih (override w vs) (by rw [override_names]; exact nodup_insert h)
    refine ⟨h₁, fun n => ?_⟩
    rw [List.foldl_cons, h₂, override_names, mem_insert, List.map_cons, List.mem_cons, or_assoc]

theorem definedNames_nodup (c : Context) : c.definedNames.Nodup :=
  (foldl_override_names _ [] (by simp)).1

theorem mem_firstOfName {n : String} {vs : List Variable} (h : n ∈ vs.map Variable.name) :
    n ∈ (firstOfName vs).map Variable.name := by
  induction vs with
  | nil => exact h
  | cons v r ih =>
    rw [firstOfName, List.map_cons]
    by_cases hn : n = v.name
    · rw [hn]
      exact List.mem_cons_self
    · rw [List.map_cons] at h
      obtain ⟨w, hw, rfl⟩ := List.mem_map.1 (ih ((List.mem_cons.1 h).resolve_left hn))
      refine List.mem_cons_of_mem _ (List.mem_map.2 ⟨w, List.mem_filter.2 ⟨hw, ?_⟩, rfl⟩)
      simpa using hn

theorem mem_precedence (s : Scope) : s ∈ Scope.precedence := by cases s <;> decide

/-- Every name that has a meaning is one of the defined names. -/
theorem mem_definedNames {c : Context} {n : String} {d : Definition}
    (h : c.define? n = .ok (some d)) : n ∈ c.definedNames := by
  unfold define? at h
  split at h
  · cases h
  · rename_i s v hl
    have hm : (s, v) ∈ c.matching n := List.mem_of_head? hl
    obtain ⟨t, -, ht⟩ := List.mem_filterMap.1 hm
    obtain ⟨w, hw, he⟩ := Option.map_eq_some_iff.1 ht
    have hmem := List.mem_of_find?_eq_some hw
    have hp := List.find?_some hw
    rw [Bool.and_eq_true, beq_iff_eq] at hp
    have hv : n ∈ (c.visible t).map Variable.name := by
      refine mem_firstOfName (List.mem_map.2 ⟨w, List.mem_filter.2 ⟨hmem, hp.1⟩, hp.2⟩)
    refine ((foldl_override_names _ [] (by simp)).2 n).2 (.inr ?_)
    obtain ⟨u, hu, hun⟩ := List.mem_map.1 hv
    exact List.mem_map.2 ⟨u, List.mem_flatMap.2 ⟨t, List.mem_reverse.2 (mem_precedence t), hu⟩, hun⟩

end Context
end Stencil
