/-
# Markers in any text

The names of markers are read back whatever stands around the markers, as long
as no text between them has the opening of a marker in it. Such a text may end
with a part of the opening, or begin with a part of the closing. As no end of the
opening is a beginning of it (`opening_unbordered`), an opening that begins in a
text also ends there, so reading comes to the next marker and no other.

Key definition: `surrounded`.
Key theorems: `opening_unbordered`, `names_append`, `markedNames_surrounded`.
-/
import Stencil.Proofs.Marker

namespace Stencil
namespace Marker

/-- A text, and then markers, each of them followed by a text. -/
def surrounded (text : String) : List (String × String) → String
  | [] => text
  | (name, next) :: rest => text ++ marker name ++ surrounded next rest

variable {text cs u v : List Char}

/-! ### Where openings are -/

/-- An opening that is cut in two does not begin with its second part. -/
theorem opening_unbordered (h : opening = u ++ v) (hu : u ≠ []) (hv : v <+: opening) : v = [] := by
  have hall : ∀ k < opening.length, 0 < k → ¬ opening.drop k <+: opening := by decide
  have hdrop : opening.drop u.length = v := by rw [h, List.drop_left]
  have hlen : opening.length = u.length + v.length := by rw [h, List.length_append]
  by_contra hne
  have hpos := List.length_pos_of_ne_nil hne
  exact hall u.length (by omega) (List.length_pos_of_ne_nil hu) (hdrop ▸ hv)

/-- An opening at the start of a text that another opening follows lies in that text. -/
theorem prefix_of_prefix_append (ht : text ≠ []) (h : opening <+: text ++ (opening ++ cs)) :
    opening <+: text := by
  rcases List.prefix_or_prefix_of_prefix h (List.prefix_append _ _) with hin | ⟨v, hv⟩
  · exact hin
  · -- the opening would straddle the end of the text
    have hover : v <+: opening ++ cs := by
      rwa [← hv, List.prefix_append_right_inj, hv] at h
    have hlen : v.length ≤ opening.length := by rw [← hv, List.length_append]; omega
    have hnil : v = [] := opening_unbordered hv.symm ht
      (List.prefix_of_prefix_length_le hover (List.prefix_append _ _) hlen)
    rw [← hv, hnil, List.append_nil]

/-! ### Reading -/

/-- Nothing is read where no opening stands. -/
theorem readMarker_of_no_opening (h : ¬ opening <+: cs) : readMarker cs = none := by
  have hnone : dropStart? opening cs = none := by
    cases hd : dropStart? opening cs with
    | none => rfl
    | some rest => exact absurd (dropStart?_eq_some hd ▸ List.prefix_append _ _) h
  unfold readMarker
  rw [hnone]

/-- A text without an opening is passed over, up to the opening that follows it. -/
theorem names_append (h : ¬ opening <:+: text) :
    names (text ++ (opening ++ cs)) = names (opening ++ cs) := by
  induction text with
  | nil => rfl
  | cons c text ih =>
    have hnone : readMarker (c :: (text ++ (opening ++ cs))) = none := readMarker_of_no_opening
      fun hp => h (prefix_of_prefix_append (List.cons_ne_nil c text) hp).isInfix
    rw [List.cons_append, names_of_unread hnone]
    exact ih fun ht => h (List.infix_cons ht)

/-- In a text without an opening are no names. -/
theorem names_eq_nil (h : ¬ opening <:+: text) : names text = [] := by
  induction text with
  | nil => rw [names]
  | cons c text ih =>
    rw [names_of_unread (readMarker_of_no_opening fun hp => h hp.isInfix)]
    exact ih fun ht => h (List.infix_cons ht)

/-- **Markers are read back from any texts around them**, in order and as often as they stand
there, if no text has the opening of a marker in it. -/
theorem markedNames_surrounded (text : String) (rest : List (String × String))
    (hn : ∀ x ∈ rest, IsMarkable x.1) (htext : ¬ opening <:+: text.toList)
    (hrest : ∀ x ∈ rest, ¬ opening <:+: x.2.toList) :
    markedNames (surrounded text rest) = rest.map Prod.fst := by
  unfold markedNames
  induction rest generalizing text with
  | nil => exact names_eq_nil htext
  | cons x rest ih =>
    obtain ⟨name, next⟩ := x
    obtain ⟨hname, hn⟩ := List.forall_mem_cons.1 hn
    obtain ⟨hnext, hrest⟩ := List.forall_mem_cons.1 hrest
    have hchars : (surrounded text ((name, next) :: rest)).toList =
        text.toList ++ (opening ++ (name.toList ++ closing ++ (surrounded next rest).toList)) := by
      simp [surrounded, marker, chars]
    have hback : opening ++ (name.toList ++ closing ++ (surrounded next rest).toList) =
        chars name.toList ++ (surrounded next rest).toList := by simp [chars]
    calc names (surrounded text ((name, next) :: rest)).toList
        = names (chars name.toList ++ (surrounded next rest).toList) := by
          rw [hchars, names_append htext, hback]
      _ = name :: names (surrounded next rest).toList := names_chars hname _
      _ = ((name, next) :: rest).map Prod.fst := by rw [ih next hn hnext hrest]; rfl

/-- Texts that end with parts of the opening and begin with parts of the closing, around a name and
the call of a function, the name twice. -/
theorem markedNames_between_parts :
    let rest := [("host", "><<unresolved"), ("now()", ">>\x7b<<<"), ("host", "<<<unresolved :a>>")]
    markedNames (surrounded "<<unresolved<" rest) = ["host", "now()", "host"] := by
  intro rest
  have hname : IsMarkable "host" := ⟨"host", by decide, .inl rfl⟩
  have hcall : IsMarkable "now()" := ⟨"now", by decide, .inr rfl⟩
  refine markedNames_surrounded _ rest ?_ (by decide) ?_
  · simp only [rest, List.forall_mem_cons, List.not_mem_nil, false_imp_iff, implies_true, and_true]
    exact ⟨hname, hcall, hname⟩
  · decide

end Marker
end Stencil
