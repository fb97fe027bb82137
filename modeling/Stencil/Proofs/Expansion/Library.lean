/-
# What an expansion needs of a library

An expansion needs the answers of a library to calls and nothing else of it:
with a library that answers all calls alike it is the same, and ends with the
same ledger.

Key definition: `Pass.withLibrary`.
Key theorem: `expandTemplate_withLibrary`.
-/
import Stencil.Expansion

namespace Stencil
namespace Pass

/-- The pass with another library. -/
def withLibrary (p : Pass) (l : Library) : Pass := { p with library := l }

variable {p : Pass} {l : Library}

theorem expandCall_withLibrary (h : l.invoke = p.library.invoke) :
    (p.withLibrary l).expandCall = p.expandCall := by
  have hl : (p.withLibrary l).library.invoke = p.library.invoke := h
  funext depth call ledger
  unfold expandCall
  rw [hl]

theorem expandSegment_withLibrary {ε : Type} (h : l.invoke = p.library.invoke) :
    @expandSegment ε (p.withLibrary l) = p.expandSegment := by
  funext depth stop expand s ledger
  cases s with
  | literal text span => rfl
  | reference r => rw [expandSegment, expandSegment, expandCall_withLibrary h]

theorem expandAll_withLibrary {ε : Type} (h : l.invoke = p.library.invoke) :
    @expandAll ε (p.withLibrary l) = p.expandAll := by
  funext depth stop expand segments
  induction segments with
  | nil => rfl
  | cons s rest ih =>
    funext ledger
    rw [expandAll, expandAll, expandSegment_withLibrary h, ih]

theorem expandDefined_withLibrary (h : l.invoke = p.library.invoke) :
    (p.withLibrary l).expandDefined = p.expandDefined := by
  have hvalue : (p.withLibrary l).expandValue = p.expandValue := by
    funext depth expand name d segments ledger
    unfold expandValue
    rw [expandAll_withLibrary h]
    rfl
  funext depth expand name ledger
  unfold expandDefined
  rw [hvalue]
  rfl

theorem expandVariable_withLibrary (h : l.invoke = p.library.invoke) (left : Nat) :
    (p.withLibrary l).expandVariable left = p.expandVariable left := by
  induction left with
  | zero =>
    funext name ledger
    unfold expandVariable
    rfl
  | succ left ih =>
    funext name ledger
    unfold expandVariable
    rw [expandDefined_withLibrary h]
    simp only [ih]
    rfl

/-- **With a library that answers all calls alike, a template expands to the same.** -/
theorem expandTemplate_withLibrary (h : l.invoke = p.library.invoke) :
    (p.withLibrary l).expandTemplate = p.expandTemplate := by
  have htop : (p.withLibrary l).expandTop = p.expandTop := by
    funext name ledger
    unfold expandTop
    rw [expandVariable_withLibrary h]
    rfl
  funext segments ledger
  unfold expandTemplate
  rw [expandAll_withLibrary h, htop]
  rfl

end Pass
end Stencil
