/-
# Hidden values do not occur

A value without `*` cannot begin, end or lie within a mask. So it occurs in a
text where another was replaced only if it occurred before
(`infix_of_infix_replace`), and it does not occur once it has been replaced
itself, whatever is replaced before and after it (`hide_hides`).

Key theorems: `infix_of_infix_replace`, `replace_hides`, `hide_hides`.
-/
import Stencil.Secret

namespace Stencil

theorem Marker.dropStart?_eq_some {start cs rest : List Char}
    (h : dropStart? start cs = some rest) : cs = start ++ rest := by
  fun_induction dropStart? start cs with
  | case1 =>
    cases h
    rfl
  | case2 => cases h
  | case3 s start c cs hs ih => rw [ih h, beq_iff_eq.1 hs, List.cons_append]
  | case4 => cases h

theorem Marker.dropStart?_append (start rest : List Char) :
    dropStart? start (start ++ rest) = some rest := by
  induction start with
  | nil => rw [List.nil_append, dropStart?]
  | cons s start ih => rw [List.cons_append, dropStart?, if_pos (beq_self_eq_true s), ih]

namespace Secret

open Marker

variable {v w cs : List Char}

/-! ### Masks -/

/-- A value without `*` does not begin a text that begins with a mask. -/
theorem eq_nil_of_prefix_mask (hv : '*' ∉ v) (h : v <+: mask ++ cs) : v = [] := by
  obtain ⟨t, ht⟩ := h
  cases v with
  | nil => rfl
  | cons c v =>
    have hc : c = '*' := (List.cons.inj ht).1
    exact absurd (hc ▸ List.mem_cons_self) hv

/-- A value without `*` that occurs in a text after a mask occurs in the text. -/
theorem infix_of_infix_mask (hv : '*' ∉ v) (h : v <:+: mask ++ cs) : v <:+: cs := by
  have hstars : ∀ k, v <:+: List.replicate k '*' ++ cs → v <:+: cs := by
    intro k
    induction k with
    | zero => exact id
    | succ k ih =>
      rw [List.replicate_succ, List.cons_append, List.infix_cons_iff]
      rintro (⟨t, ht⟩ | h)
      · cases v with
        | nil => exact List.nil_infix
        | cons c v =>
          have hc : c = '*' := (List.cons.inj ht).1
          exact absurd (hc ▸ List.mem_cons_self) hv
      · exact ih h
  exact hstars 8 h

/-! ### One value -/

theorem prefix_cons_mono {c : Char} {a b : List Char}
    (hab : ∀ v, '*' ∉ v → v <+: a → v <+: b) (hv : '*' ∉ v) (h : v <+: c :: a) : v <+: c :: b := by
  cases v with
  | nil => exact List.nil_prefix
  | cons d v =>
    obtain ⟨rfl, hp⟩ := List.cons_prefix_cons.1 h
    exact List.cons_prefix_cons.2 ⟨rfl, hab v (fun hm => hv (List.mem_cons_of_mem _ hm)) hp⟩

/-- What a text begins with after a replacement, it began with before. -/
theorem prefix_of_prefix_replace (w cs v : List Char) (hv : '*' ∉ v) (h : v <+: replace w cs) :
    v <+: cs := by
  fun_induction replace w cs generalizing v with
  | case1 => exact h
  | case2 c r rest hd hw ih => exact prefix_cons_mono ih hv h
  | case3 c r rest hd hw ih =>
    rw [eq_nil_of_prefix_mask hv h]
    exact List.nil_prefix
  | case4 c r hd ih => exact prefix_cons_mono ih hv h

theorem infix_of_infix_cons {c : Char} (hv : '*' ∉ v) (h : v <:+: c :: replace w cs)
    (ih : v <:+: replace w cs → v <:+: cs) : v <:+: c :: cs := by
  rcases List.infix_cons_iff.1 h with h | h
  · exact (prefix_cons_mono (prefix_of_prefix_replace w cs) hv h).isInfix
  · exact List.infix_cons_iff.2 (.inr (ih h))

/-- **A value without `*` that occurs in a text after a replacement occurred in it before.** -/
theorem infix_of_infix_replace (hv : '*' ∉ v) (h : v <:+: replace w cs) : v <:+: cs := by
  fun_induction replace w cs with
  | case1 => exact h
  | case2 c r rest hd hw ih => exact infix_of_infix_cons hv h ih
  | case3 c r rest hd hw ih =>
    rw [dropStart?_eq_some hd]
    exact (ih (infix_of_infix_mask hv h)).trans (List.suffix_append w rest).isInfix
  | case4 c r hd ih => exact infix_of_infix_cons hv h ih

/-- **A value without `*` does not occur any more where it has been replaced.** -/
theorem replace_hides (hne : v ≠ []) (hv : '*' ∉ v) (cs : List Char) : ¬ v <:+: replace v cs := by
  intro h
  fun_induction replace v cs with
  | case1 => exact hne (List.infix_nil.1 h)
  | case2 c r rest hd hw ih => exact hne hw
  | case3 c r rest hd hw ih => exact ih (infix_of_infix_mask hv h)
  | case4 c r hd ih =>
    rcases List.infix_cons_iff.1 h with h | h
    · obtain ⟨t, ht⟩ := prefix_cons_mono (prefix_of_prefix_replace v r) hv h
      rw [← ht, dropStart?_append] at hd
      cases hd
    · exact ih h

/-- Where a value does not occur nothing is replaced. -/
theorem replace_of_not_infix (h : ¬ v <:+: cs) : replace v cs = cs := by
  fun_induction replace v cs with
  | case1 => rfl
  | case2 c r rest hd hv ih =>
    rw [hv] at h
    exact absurd List.nil_infix h
  | case3 c r rest hd hv ih =>
    rw [dropStart?_eq_some hd] at h
    exact absurd (List.prefix_append v rest).isInfix h
  | case4 c r hd ih => rw [ih fun hr => h (List.infix_cons hr)]

/-! ### Several values -/

theorem infix_of_infix_foldl {values : List String} (hv : '*' ∉ v)
    (h : v <:+: values.foldl (fun cs w => replace w.toList cs) cs) : v <:+: cs := by
  induction values generalizing cs with
  | nil => exact h
  | cons w values ih => exact infix_of_infix_replace hv (ih h)

/-- **A value without `*` does not occur in a text where it is one of those hidden.** -/
theorem hide_hides {values : List String} {value : String} (hm : value ∈ values)
    (hne : value ≠ "") (hv : '*' ∉ value.toList) (text : String) :
    ¬ value.toList <:+: (hide values text).toList := by
  have hne' : value.toList ≠ [] := fun h => hne (String.toList_eq_nil_iff.1 h)
  obtain ⟨before, after, rfl⟩ := List.append_of_mem hm
  intro h
  rw [hide, String.toList_ofList, List.foldl_append, List.foldl_cons] at h
  exact replace_hides hne' hv _ (infix_of_infix_foldl hv h)

/-- **A text is not changed where none of the values to hide occurs in it.** -/
theorem hide_of_not_infix {values : List String} {text : String}
    (h : ∀ value ∈ values, ¬ value.toList <:+: text.toList) : hide values text = text := by
  unfold hide
  induction values with
  | nil => exact String.ofList_toList
  | cons value values ih =>
    rw [List.foldl_cons, replace_of_not_infix (h value List.mem_cons_self)]
    exact ih fun w hw => h w (List.mem_cons_of_mem _ hw)

end Secret
end Stencil
