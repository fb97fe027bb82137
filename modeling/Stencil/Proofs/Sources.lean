/-
# Steady clocks

Reading the time hands on a clock that may have changed. On a steady one it
changes nothing, and no function of the standard library makes a clock
unsteady. A clock that shows a double can be read, and can be read again.

Key definitions: `Sources.IsSteady`, `Library.IsSteady`, `Library.Keeps`,
`Sources.IsReadable`, `Sources.HasTime`.
Key theorems: `Library.Keeps.invoke`, `standard_isSteady`, `hasTime_isReadable`.
-/
import Mathlib.Tactic.SplitIfs
import Stencil.Function.BuiltIn

namespace Stencil

/-- Reading the time leaves the sources as they are. -/
def Sources.IsSteady (s : Sources) : Prop := ∃ t, s.readTime = .ok (t, s)

theorem Sources.IsSteady.of_now {s s' : Sources} (h : s.IsSteady) (hn : s'.now = s.now) :
    s'.IsSteady := by
  obtain ⟨t, ht⟩ := h
  unfold readTime at ht
  cases hx : s.now.toFloat? with
  | none =>
    rw [hx] at ht
    cases ht
  | some x =>
    rw [hx] at ht
    injection ht with ht
    injection ht with ht hs
    have hnow : s'.now = .float (x + 0) := by rw [hn, ← hs]
    have hself : { s' with now := .float (x + 0) } = s' := by rw [← hnow]
    exact ⟨s.now, by simp only [readTime, hn, hx, hself]⟩

/-- No function of the library changes what reading the time does. -/
def Library.IsSteady (l : Library) : Prop :=
  ∀ f ∈ l.functions, ∀ arguments s, s.IsSteady → (f.run arguments s).2.IsSteady

/-- Every function of the library keeps a property of the sources. -/
def Library.Keeps (l : Library) (T : Sources → Prop) : Prop :=
  ∀ f ∈ l.functions, ∀ arguments s, T s → T (f.run arguments s).2

/-- What every function of a library keeps of the sources, a call keeps. -/
theorem Library.Keeps.invoke {T : Sources → Prop} {l : Library} (h : l.Keeps T) (name : String)
    (arguments : List Value) {s : Sources} (hs : T s) : T (l.invoke name arguments s).2 := by
  unfold Library.invoke
  cases hf : l.get? name with
  | none => exact hs
  | some f =>
    have hm := List.mem_of_find?_eq_some hf
    dsimp only [Function.invoke]
    split
    · exact hs
    · rename_i values _
      have hr := h f hm values s hs
      split <;> rename_i he <;> rw [he] at hr <;> exact hr

theorem Library.IsSteady.invoke {l : Library} (h : l.IsSteady) (name : String)
    (arguments : List Value) {s : Sources} (hs : s.IsSteady) :
    (l.invoke name arguments s).2.IsSteady := Keeps.invoke h name arguments hs

theorem withTime_steady {text : Number → Except Breakdown String} {s : Sources}
    (hs : s.IsSteady) : (Function.withTime text s).2.IsSteady := by
  obtain ⟨t, ht⟩ := id hs
  rw [Function.withTime, ht]
  exact hs

theorem randomText_steady {low high : Number} {s : Sources} (hs : s.IsSteady) :
    (Function.randomText low high s).2.IsSteady := by
  unfold Function.randomText
  split
  · exact hs
  · exact hs
  · split_ifs
    · split <;> exact hs
    · exact hs.of_now rfl

/-- No built-in function makes a clock unsteady. -/
theorem standard_isSteady : Library.standard.IsSteady := by
  intro f hf arguments s hs
  simp only [Library.standard, Function.builtIn, List.mem_cons, List.not_mem_nil, or_false] at hf
  rcases hf with rfl | rfl | rfl | rfl | rfl | rfl
  · exact withTime_steady hs
  · exact withTime_steady hs
  · exact hs.of_now rfl
  · exact randomText_steady hs
  · exact hs
  · exact withTime_steady hs

/-! ### Clocks that can be read -/

/-- Sources with the property `T` have a clock that can be read, and keep `T` when it is. -/
def Sources.IsReadable (T : Sources → Prop) : Prop :=
  ∀ s, T s → ∃ t s', s.readTime = .ok (t, s') ∧ T s'

/-- The time is among the doubles. -/
def Sources.HasTime (s : Sources) : Prop := ∃ x, s.now.toFloat? = some x

theorem hasTime_isReadable : Sources.IsReadable Sources.HasTime := by
  rintro s ⟨x, hx⟩
  exact ⟨s.now, { s with now := .float (x + 0) }, by rw [Sources.readTime, hx], x + 0, rfl⟩

theorem isSteady_isReadable : Sources.IsReadable Sources.IsSteady := by
  rintro s ⟨t, ht⟩
  exact ⟨t, s, ht, t, ht⟩

end Stencil
