/-
# Libraries by what their names mean

A library is known by the function that each name means: a call needs nothing
else of it (`invoke_congr`). A function put into a library changes the meaning
of its own name only (`get?_replace`), and so the custom functions of one library
lie over another one (`get?_extend_custom`): a name means the custom function, if
there is one, and else what it meant before.

Key definitions: `Library.custom?`, `Function.Alike`.
Key theorems: `Library.get?_extend_custom`, `Library.invoke_congr`.
-/
import Mathlib.Data.Option.Basic
import Stencil.Proofs.Function

namespace Stencil

/-- Functions that calls cannot tell apart, whatever is said of them. -/
structure Function.Alike (f f' : Function) : Prop where
  name : f.name = f'.name
  parameters : f.parameters = f'.parameters
  run : ∀ values s, f.run values s = f'.run values s

theorem Function.Alike.refl (f : Function) : f.Alike f := ⟨rfl, rfl, fun _ _ => rfl⟩

theorem Function.Alike.rel_refl (f? : Option Function) : Option.Rel Function.Alike f? f? := by
  cases f? with
  | none => exact .none
  | some f => exact .some (.refl f)

theorem Function.Alike.invoke {f f' : Function} (h : f.Alike f') : f.invoke = f'.invoke := by
  funext arguments s
  unfold Function.invoke
  rw [Function.bind_congr h.name h.parameters, h.name]
  simp only [h.run]

namespace Library

variable {l k : Library} {f : Function} {fs : List Function} {n : String}

/-- The custom function that a name means. -/
def custom? (l : Library) (n : String) : Option Function :=
  (l.get? n).filter fun f => !f.isBuiltIn

theorem name_of_get? (h : l.get? n = some f) : f.name = n := by
  simpa using List.find?_some h

theorem custom?_eq_some_iff : l.custom? n = some f ↔ l.get? n = some f ∧ f.isBuiltIn = false := by
  simp [custom?, Option.filter_eq_some_iff]

/-- Libraries of built-in functions have no custom ones. -/
theorem custom?_of_builtIn (h : ∀ f ∈ l.functions, f.isBuiltIn = true) (n : String) :
    l.custom? n = none := by
  rw [Option.eq_none_iff_forall_ne_some]
  intro f hf
  obtain ⟨hg, hb⟩ := custom?_eq_some_iff.1 hf
  rw [h f (List.mem_of_find?_eq_some hg)] at hb
  cases hb

theorem mem_custom : f ∈ l.custom ↔ l.custom? f.name = some f := by
  rw [custom?_eq_some_iff]
  unfold custom list names Text.sorted
  rw [List.mem_filter, List.mem_filterMap]
  constructor
  · rintro ⟨⟨n, -, hf⟩, hb⟩
    rw [name_of_get? hf]
    exact ⟨hf, by simpa using hb⟩
  · rintro ⟨hf, hb⟩
    refine ⟨⟨f.name, ?_, hf⟩, by simpa using hb⟩
    exact List.mem_mergeSort.2 (List.mem_map_of_mem (List.mem_of_find?_eq_some hf))

/-! ### Functions put into a library -/

theorem find?_put (f : Function) (fs : List Function) (n : String) :
    (put f fs).find? (fun g => g.name == n) =
      if f.name = n then some f else fs.find? fun g => g.name == n := by
  induction fs with
  | nil => by_cases hf : f.name = n <;> simp [put, hf]
  | cons g r ih =>
    rw [put]
    split_ifs with hg hn hn
    · simp [hn]
    · rw [List.find?_cons_of_neg (by simpa using hn), List.find?_cons_of_neg]
      rw [beq_iff_eq] at hg
      simpa [hg] using hn
    · rw [List.find?_cons_of_neg, ih, if_pos hn]
      simpa [← hn] using hg
    · rw [List.find?_cons, List.find?_cons, ih, if_neg hn]

/-- A function that is put into a library changes the meaning of its own name only. -/
theorem get?_replace (l : Library) (f : Function) (n : String) :
    (l.replace f).get? n = if f.name = n then some f else l.get? n :=
  find?_put f l.functions n

theorem custom?_replace (l : Library) (hf : f.isBuiltIn = false) (n : String) :
    (l.replace f).custom? n = if f.name = n then some f else l.custom? n := by
  unfold custom?
  rw [get?_replace]
  split_ifs
  · simp [hf]
  · rfl

/-- The last function of a name prevails. -/
theorem get?_extend (l : Library) (fs : List Function) (n : String) :
    (l.extend fs).get? n = (fs.reverse.find? fun f => f.name == n).or (l.get? n) := by
  induction fs generalizing l with
  | nil => rfl
  | cons f r ih =>
    have hstep : l.extend (f :: r) = (l.replace f).extend r := rfl
    rw [hstep, ih, get?_replace, List.reverse_cons, List.find?_append, Option.or_assoc]
    congr 1
    by_cases hf : f.name = n <;> simp [hf]

theorem find?_custom (l : Library) (n : String) :
    (l.custom.reverse.find? fun f => f.name == n) = l.custom? n := by
  have hmem : ∀ f ∈ l.custom.reverse, f.name = n → l.custom? n = some f := by
    rintro f hf rfl
    exact mem_custom.1 (List.mem_reverse.1 hf)
  cases hf : l.custom.reverse.find? fun f => f.name == n with
  | some f =>
    exact (hmem f (List.mem_of_find?_eq_some hf) (by simpa using List.find?_some hf)).symm
  | none =>
    rw [List.find?_eq_none] at hf
    cases hl : l.custom? n with
    | none => rfl
    | some f =>
      have hn : f.name = n := name_of_get? (custom?_eq_some_iff.1 hl).1
      have hf' := hf f (List.mem_reverse.2 (mem_custom.2 (hn ▸ hl)))
      exact absurd (by simpa using hn) hf'

/-- The custom functions of a library lie over another one. -/
theorem get?_extend_custom (l k : Library) (n : String) :
    (l.extend k.custom).get? n = (k.custom? n).or (l.get? n) := by
  rw [get?_extend, find?_custom]

/-! ### Calls -/

/-- Libraries whose names mean functions that are alike answer all calls alike. -/
theorem invoke_congr (h : ∀ n, Option.Rel Function.Alike (l.get? n) (k.get? n)) :
    l.invoke = k.invoke := by
  funext n arguments s
  have hn := h n
  unfold invoke
  generalize l.get? n = a at hn
  generalize k.get? n = b at hn
  cases hn with
  | none => rfl
  | some hf => exact congrFun (congrFun hf.invoke arguments) s

end Library
end Stencil
