/-
# What a clock tells

A clock that does not go back tells whole numbers or finite doubles. The time
between two readings is a number then, and it does not grow smaller when the
later one of them moves on, although a difference of doubles is rounded.

Key definitions: `Number.IsClock`.
Key theorems: `IsClock.elapsed_mono`, `IsClock.le_or_lt_elapsed`.
-/
import Stencil.Proofs.Number.Rounding

namespace Stencil
namespace Number

open Extent Binary64

/-- The readings of a clock: whole numbers or finite doubles, none less than one before it. -/
structure IsClock (ts : List Number) : Prop where
  kind : (∀ t ∈ ts, ∃ i, t = .int i) ∨ ∀ t ∈ ts, ∃ x : Float, t = .float x ∧ x.isFinite = true
  sorted : ts.Pairwise fun s t => s.le t = true

theorem extentOf_of_isFinite {x : Float} (h : x.isFinite = true) :
    ∃ i, extentOf x.toModel.unpack = some (finite i) := by
  change x.toModel.unpack.isFinite = true at h
  cases hu : x.toModel.unpack with
  | notANumber | infinity s => rw [hu] at h; cases h
  | zero s => exact ⟨0, rfl⟩
  | finite s m e hm => exact ⟨_, rfl⟩

variable {ts : List Number} {a b c t : Number}

/-- The time from one reading to another is the rounded difference of what they stand for. -/
theorem IsClock.elapsed (h : IsClock ts) : ∃ f : ℤ → Extent, Monotone f ∧
    ∀ a ∈ ts, ∀ c ∈ ts, ∃ i j, a.extent? = some (finite i) ∧ c.extent? = some (finite j) ∧
      (a.sub c).extent? = some (f (i - j)) := by
  rcases h.kind with hk | hk
  · refine ⟨finite, fun i j => finite_le.2, fun a ha c hc => ?_⟩
    obtain ⟨i, rfl⟩ := hk a ha
    obtain ⟨j, rfl⟩ := hk c hc
    exact ⟨_, _, rfl, rfl, congrArg (some ∘ finite) (Int.sub_mul i j unitsInOne)⟩
  · refine ⟨roundUnits, roundUnits_mono, fun a ha c hc => ?_⟩
    obtain ⟨x, rfl, hx⟩ := hk a ha
    obtain ⟨y, rfl, hy⟩ := hk c hc
    obtain ⟨i, hi⟩ := extentOf_of_isFinite hx
    obtain ⟨j, hj⟩ := extentOf_of_isFinite hy
    exact ⟨i, j, hi, hj, extentOf_sub hi hj⟩

/-- What has lasted for some time still has when the clock moves on. -/
theorem IsClock.elapsed_mono (h : IsClock ts) (ha : a ∈ ts) (hb : b ∈ ts) (hc : c ∈ ts)
    (hab : a.le b = true) (ht : t.le (a.sub c) = true) : t.le (b.sub c) = true := by
  obtain ⟨f, hf, helapsed⟩ := h.elapsed
  obtain ⟨i, k, hi, hk, hik⟩ := helapsed a ha c hc
  obtain ⟨j, k', hj, hk', hjk⟩ := helapsed b hb c hc
  cases hk.symm.trans hk'
  obtain ⟨u, hu, v, hv, huv⟩ := (le_iff a b).1 hab
  cases hi.symm.trans hu
  cases hj.symm.trans hv
  have hij : i - k ≤ j - k := Int.sub_le_sub_right (finite_le.1 huv) k
  exact le_trans ht ((le_iff _ _).2 ⟨_, hik, _, hjk, hf hij⟩)

/-- The time between two readings has reached another time, or it is less. -/
theorem IsClock.le_or_lt_elapsed (h : IsClock ts) (ha : a ∈ ts) (hc : c ∈ ts) {u : Extent}
    (ht : t.extent? = some u) : t.le (a.sub c) = true ∨ (a.sub c).lt t = true := by
  obtain ⟨f, -, helapsed⟩ := h.elapsed
  obtain ⟨_, _, _, _, hv⟩ := helapsed a ha c hc
  exact le_or_lt ht hv

end Number
end Stencil
