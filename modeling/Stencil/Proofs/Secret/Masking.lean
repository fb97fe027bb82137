/-
# Masked texts

Hiding values leaves a text as it is except that some of their occurrences, which
do not overlap, have become masks (`Masked`). One replacement after another keeps
to that: a value without `*` that occurs beside masks lies within a piece of the
text that was left as it was, so it occurred there in the text itself
(`Masked.split`), and replacing it masks one occurrence more (`Masked.replace`).

No value is left in the end, in whatever order the values are replaced and however
they overlap or lie within one another. So there is nothing left to hide
(`hide_clean`).

Key definition: `Masked`.
Key theorems: `Masked.split`, `Masked.replace`, `hide_clean`.
-/
import Stencil.Proofs.Secret.Hiding

namespace Stencil
namespace Secret

open Marker

/-- The second text is the first one with some occurrences of the values masked. -/
inductive Masked (values : List (List Char)) : List Char → List Char → Prop where
  | nil : Masked values [] []
  | keep (c : Char) {cs out : List Char} (h : Masked values cs out) :
      Masked values (c :: cs) (c :: out)
  | mask {v cs out : List Char} (hv : v ∈ values) (h : Masked values cs out) :
      Masked values (v ++ cs) (mask ++ out)

variable {values : List (List Char)} {v w cs out : List Char}

theorem Masked.refl (values : List (List Char)) (cs : List Char) : Masked values cs cs := by
  induction cs with
  | nil => exact .nil
  | cons c cs ih => exact .keep c ih

/-- A masked text that begins without `*` begins as the text does. -/
theorem Masked.split (hw : '*' ∉ w) (h : Masked values cs (w ++ out)) :
    ∃ rest, cs = w ++ rest ∧ Masked values rest out := by
  induction w generalizing cs with
  | nil => exact ⟨cs, rfl, h⟩
  | cons c w ih =>
    have hc : c ≠ '*' := fun he => hw (he ▸ List.mem_cons_self)
    have hrest : '*' ∉ w := fun hm => hw (List.mem_cons_of_mem _ hm)
    generalize htext : c :: w ++ out = text at h
    cases h with
    | nil => cases htext
    | keep d h =>
      obtain ⟨rfl, rfl⟩ := List.cons.inj htext
      obtain ⟨rest, rfl, hmasked⟩ := ih hrest h
      exact ⟨rest, rfl, hmasked⟩
    | mask hv h => exact absurd (List.cons.inj htext).1 hc

/-! ### One value -/

/-- A value without `*` does not begin at a `*`. -/
theorem replace_star (hw : '*' ∉ w) (hne : w ≠ []) (out : List Char) :
    replace w ('*' :: out) = '*' :: replace w out := by
  have hnone : dropStart? w ('*' :: out) = none := by
    cases w with
    | nil => exact absurd rfl hne
    | cons c w =>
      have hc : (c == '*') = false := beq_eq_false_iff_ne.2 fun he => hw (he ▸ List.mem_cons_self)
      rw [dropStart?, hc]
      rfl
  rw [replace]
  split
  · rename_i rest hsome
    rw [hnone] at hsome
    cases hsome
  · rfl

/-- A mask stays as it is. -/
theorem replace_mask (hw : '*' ∉ w) (hne : w ≠ []) (out : List Char) :
    replace w (mask ++ out) = mask ++ replace w out := by
  have hstars : ∀ k, replace w (List.replicate k '*' ++ out) =
      List.replicate k '*' ++ replace w out := by
    intro k
    induction k with
    | zero => rfl
    | succ k ih => rw [List.replicate_succ, List.cons_append, replace_star hw hne, ih]; rfl
  exact hstars 8

/-- **Replacing one of the values masks some more of its occurrences.** By induction on the length
of the masked text, as an occurrence goes on over many of its characters. -/
theorem Masked.replace (hm : w ∈ values) (hw : '*' ∉ w) (hne : w ≠ [])
    (h : Masked values cs out) : Masked values cs (replace w out) := by
  induction hn : out.length using Nat.strongRecOn generalizing cs out with
  | ind n ih =>
    cases h with
    | nil =>
      rw [Secret.replace]
      exact .nil
    | @keep c cs out h =>
      have hall : Masked values (c :: cs) (c :: out) := .keep c h
      rw [Secret.replace]
      split
      · -- the value occurs here, and so it does in the text
        rename_i rest hd
        have hlen := dropStart?_length hd
        have hpos := List.length_pos_iff.2 hne
        rw [dropStart?_eq_some hd] at hall
        obtain ⟨rest', hcs, hrest⟩ := hall.split hw
        rw [dif_neg hne, hcs]
        exact .mask hm (ih rest.length (by omega) hrest rfl)
      · exact .keep c (ih out.length (by rw [← hn, List.length_cons]; omega) h rfl)
    | @mask v cs out hv h =>
      rw [replace_mask hw hne]
      have hlt : out.length < n := by
        rw [← hn, List.length_append]
        exact Nat.lt_add_of_pos_left (by decide)
      exact .mask hv (ih out.length hlt h rfl)

/-! ### Several values -/

theorem Masked.foldl {hidden : List String}
    (h : ∀ v ∈ hidden, v.toList ∈ values ∧ '*' ∉ v.toList ∧ v.toList ≠ [])
    (hm : Masked values cs out) :
    Masked values cs (hidden.foldl (fun cs v => Secret.replace v.toList cs) out) := by
  induction hidden generalizing out with
  | nil => exact hm
  | cons v hidden ih =>
    obtain ⟨hv, hstar, hne⟩ := h v List.mem_cons_self
    exact ih (fun w hw => h w (List.mem_cons_of_mem _ hw)) (hm.replace hv hstar hne)

/-- **Hiding values leaves none of them.** What is shown is the text with occurrences of the values
masked; no value occurs in it any more, and hiding the values again changes nothing. -/
theorem hide_clean {values : List String} (h : ∀ v ∈ values, v ≠ "" ∧ '*' ∉ v.toList)
    (text : String) :
    (∀ v ∈ values, ¬ v.toList <:+: (hide values text).toList) ∧
      hide values (hide values text) = hide values text ∧
      Masked (values.map String.toList) text.toList (hide values text).toList := by
  have hgone : ∀ v ∈ values, ¬ v.toList <:+: (hide values text).toList :=
    fun v hv => hide_hides hv (h v hv).1 (h v hv).2 text
  refine ⟨hgone, hide_of_not_infix hgone, ?_⟩
  rw [hide, String.toList_ofList]
  refine Masked.foldl (fun v hv => ⟨List.mem_map_of_mem hv, (h v hv).2, fun he => ?_⟩) (.refl _ _)
  exact (h v hv).1 (String.toList_eq_nil_iff.1 he)

/-- Values that overlap, one of them within another: what is left of an occurrence that was cut is
no value. -/
theorem clean_overlapping :
    let values := ["aba", "bab", "ab"]
    (∀ v ∈ values, v ≠ "" ∧ '*' ∉ v.toList) ∧
      hide values "xababa ab" = "x********ba ********" ∧
      ∀ v ∈ values, ¬ v.toList <:+: "x********ba ********".toList := by
  intro values
  have hvalues : ∀ v ∈ values, v ≠ "" ∧ '*' ∉ v.toList := by decide
  have htext : hide values "xababa ab" = "x********ba ********" := by cbv
  exact ⟨hvalues, htext, htext ▸ (hide_clean hvalues "xababa ab").1⟩

end Secret
end Stencil
