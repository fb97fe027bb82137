/-
# Complete values

A value is complete for a name if all that the name refers to, directly or
through others, can be read, lies on no reference cycle and calls no function,
and the value is what the name stands for, whatever functions there are. Its
height is that of the longest chain of references from the name. The value of
a plain name is complete (`PlainName.complete`).

Key definition: `Complete`.
Key theorem: `PlainName.complete`.
-/
import Mathlib.Data.Int.Order.Basic
import Mathlib.Order.Bounds.Basic
import Stencil.Proofs.Context.Meaning

namespace Stencil
namespace Context

open Template

/-- A value that is complete for a name, with the length of the longest chain of references that
starts from the name. -/
structure Complete (c : Context) (n v : String) (height : Int) : Prop where
  reached : ∀ m, Relation.ReflTransGen c.Refers n m →
    ∃ segments, c.Opens m segments ∧ calls segments = []
  value : ∀ out w, c.NameMeans out n w ↔ w = v
  height : IsGreatest {k : Int | ∃ names, (n :: names).IsChain c.Refers ∧ k = names.length} height

variable {c : Context} {n v : String} {h : Nat} {segments : List Segment}

theorem Plain.calls_eq_nil (hp : c.Plain segments v h) : calls segments = [] := by
  refine List.filterMap_eq_nil_iff.2 fun s hs => ?_
  cases s with
  | literal => rfl
  | reference r => rw [Segment.call?, (hp.lower hs).1]; rfl

theorem PlainName.opens (hn : c.PlainName n v h) :
    ∃ segments, c.Opens n segments ∧ c.Plain segments v h := by
  obtain ⟨d, segments, hd, hp, hs⟩ := id hn
  exact ⟨segments, ⟨hn.not_onCycle, d, hd, hp⟩, hs⟩

/-- Whatever functions there are, a plain template stands for its text. -/
theorem Plain.means (out : Reference → Except CallStop String) (hp : c.Plain segments v h) :
    c.Means out segments v := by
  induction hp with
  | nil => exact .nil
  | literal _ ih => exact .literal ih
  | named hc hd hp hi _ ihi ihr =>
    have hn : c.PlainName _ _ _ := ⟨_, _, hd, hp, hi⟩
    exact .opened hc ⟨hn.not_onCycle, _, hd, hp⟩ ihi ihr

theorem PlainName.nameMeans_iff (out : Reference → Except CallStop String)
    (hn : c.PlainName n v h) {w : String} : c.NameMeans out n w ↔ w = v := by
  obtain ⟨segments, ho, hs⟩ := hn.opens
  constructor
  · rintro (⟨hb, -⟩ | ⟨inner, ho', hm⟩)
    · exact absurd hb ho.not_blocked
    · rw [ho'.unique ho] at hm
      exact hm.unique (hs.means out)
  · rintro rfl
    exact .inr ⟨segments, ho, hs.means out⟩

/-! ### The longest chain -/

/-- One of the variables of a plain template is just one level lower. -/
theorem Plain.highest (hp : c.Plain segments v (h + 1)) :
    ∃ r w, .reference r ∈ segments ∧ r.isCall = false ∧ c.PlainName r.name w h := by
  generalize hk : h + 1 = k at hp
  induction hp with
  | nil => cases hk
  | literal _ ih =>
    obtain ⟨r, w, hr, hw⟩ := ih hk
    exact ⟨r, w, List.mem_cons_of_mem _ hr, hw⟩
  | @named r d inner rest w t i j hc hd hp hi _ _ ih =>
    rcases Nat.le_total j (i + 1) with hm | hm
    · obtain rfl : h = i := by omega
      exact ⟨r, w, List.mem_cons_self, hc, d, inner, hd, hp, hi⟩
    · obtain ⟨r', w', hr, hw⟩ := ih (by omega)
      exact ⟨r', w', List.mem_cons_of_mem _ hr, hw⟩

theorem PlainName.exists_chain (hn : c.PlainName n v h) :
    ∃ names, (n :: names).IsChain c.Refers ∧ names.length = h := by
  induction h generalizing n v with
  | zero => exact ⟨[], .singleton n, rfl⟩
  | succ h ih =>
    obtain ⟨segments, ho, hs⟩ := hn.opens
    obtain ⟨r, w, hr, hc, hw⟩ := hs.highest
    obtain ⟨names, hchain, hl⟩ := ih hw
    exact ⟨r.name :: names, .cons_cons (ho.refers.2 ⟨r, hr, hc, rfl⟩) hchain, by simp [hl]⟩

theorem PlainName.chain_length_le {names : List String} (hn : c.PlainName n v h)
    (hc : (n :: names).IsChain c.Refers) : names.length ≤ h := by
  induction names generalizing n v h with
  | nil => exact Nat.zero_le _
  | cons m names ih =>
    cases hc with
    | cons_cons hr hc =>
      obtain ⟨w, k, hm, hk⟩ := hn.lower hr
      exact Nat.lt_of_le_of_lt (ih hm hc) hk

/-- **The value of a plain name is complete.** -/
theorem PlainName.complete (hn : c.PlainName n v h) : c.Complete n v h where
  reached m hm := by
    have hplain : ∃ w k, c.PlainName m w k := by
      rcases Relation.reflTransGen_iff_eq_or_transGen.1 hm with rfl | hm
      · exact ⟨v, h, hn⟩
      · obtain ⟨w, k, hw, -⟩ := hn.lower_trans hm
        exact ⟨w, k, hw⟩
    obtain ⟨w, k, hw⟩ := hplain
    obtain ⟨segments, ho, hs⟩ := hw.opens
    exact ⟨segments, ho, hs.calls_eq_nil⟩
  value out w := hn.nameMeans_iff out
  height := by
    constructor
    · obtain ⟨names, hc, hl⟩ := hn.exists_chain
      exact ⟨names, hc, by rw [hl]⟩
    · rintro k ⟨names, hc, rfl⟩
      exact Int.ofNat_le.2 (hn.chain_length_le hc)

end Context
end Stencil
