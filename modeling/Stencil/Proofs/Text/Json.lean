/-
# Texts can be read back

The JSON string of a text ends at its own closing quote, whatever follows, and
is the string of no other text. Bytes in UTF-8 come from one text only.

Key definitions: `letterEscapes`.
Key theorems: `jsonString_append_inj`, `utf8_injective`.
-/
import Mathlib.Data.List.Basic
import Stencil.Text.Bytes
import Stencil.Text.Quoted

namespace Stencil
namespace Text

/-! ### Characters in JSON -/

/-- The characters that are written as a letter after a backslash. -/
def letterEscapes : List (Char × Char) :=
  [('"', '"'), ('\\', '\\'), ('\n', 'n'), ('\r', 'r'), ('\t', 't'), ('\x08', 'b'), ('\x0c', 'f')]

theorem letterEscapes_inj :
    ∀ x ∈ letterEscapes, ∀ y ∈ letterEscapes, x.2 = y.2 → x.1 = y.1 := by
  decide

theorem letterEscapes_ne : ∀ x ∈ letterEscapes, x.2 ≠ 'u' := by decide

theorem hex_length : ∀ n < 32, (hex 4 n).length = 4 := by decide +kernel

theorem hex_inj : ∀ n < 32, ∀ m < 32, hex 4 n = hex 4 m → n = m := by decide +kernel

theorem eq_of_toNat {c d : Char} (h : c.toNat = d.toNat) : c = d :=
  Char.ext (UInt32.toNat_inj.1 h)

/-- A character is written by itself, as a letter after a backslash, or by its number. -/
theorem jsonChar_cases (c : Char) :
    (c ≠ '"' ∧ c ≠ '\\' ∧ jsonChar c = [c]) ∨
      (∃ e, (c, e) ∈ letterEscapes ∧ jsonChar c = ['\\', e]) ∨
      (c.toNat < 32 ∧ jsonChar c = '\\' :: 'u' :: hex 4 c.toNat) := by
  unfold jsonChar
  simp only [beq_iff_eq]
  split_ifs with h₁ h₂ h₃ h₄ h₅ h₆ h₇ h₈
  · exact .inr (.inl ⟨'"', by rw [h₁]; decide, rfl⟩)
  · exact .inr (.inl ⟨'\\', by rw [h₂]; decide, rfl⟩)
  · exact .inr (.inl ⟨'n', by rw [h₃]; decide, rfl⟩)
  · exact .inr (.inl ⟨'r', by rw [h₄]; decide, rfl⟩)
  · exact .inr (.inl ⟨'t', by rw [h₅]; decide, rfl⟩)
  · have h : c = '\x08' := eq_of_toNat h₆
    exact .inr (.inl ⟨'b', by rw [h]; decide, rfl⟩)
  · have h : c = '\x0c' := eq_of_toNat h₇
    exact .inr (.inl ⟨'f', by rw [h]; decide, rfl⟩)
  · exact .inr (.inr ⟨h₈, rfl⟩)
  · exact .inl ⟨h₁, h₂, rfl⟩

theorem jsonChar_head (c : Char) : ∃ a r, jsonChar c = a :: r ∧ a ≠ '"' := by
  rcases jsonChar_cases c with ⟨h, -, he⟩ | ⟨e, -, he⟩ | ⟨-, he⟩
  · exact ⟨c, [], he, h⟩
  · exact ⟨'\\', [e], he, by decide⟩
  · exact ⟨'\\', _, he, by decide⟩

theorem jsonChar_append_inj {c d : Char} {r s : List Char}
    (h : jsonChar c ++ r = jsonChar d ++ s) : c = d ∧ r = s := by
  rcases jsonChar_cases c with ⟨-, hc, he⟩ | ⟨e, hm, he⟩ | ⟨hn, he⟩ <;>
    rcases jsonChar_cases d with ⟨-, hd, hf⟩ | ⟨f, hm', hf⟩ | ⟨hn', hf⟩ <;>
    rw [he, hf] at h
  · exact List.cons.inj h
  · exact absurd (List.cons.inj h).1 hc
  · exact absurd (List.cons.inj h).1 hc
  · exact absurd (List.cons.inj h).1.symm hd
  · obtain ⟨hef, hrs⟩ := List.cons.inj (List.cons.inj h).2
    exact ⟨letterEscapes_inj _ hm _ hm' hef, hrs⟩
  · exact absurd (List.cons.inj (List.cons.inj h).2).1 (letterEscapes_ne _ hm)
  · exact absurd (List.cons.inj h).1.symm hd
  · exact absurd (List.cons.inj (List.cons.inj h).2).1.symm (letterEscapes_ne _ hm')
  · have hx : hex 4 c.toNat ++ r = hex 4 d.toNat ++ s := (List.cons.inj (List.cons.inj h).2).2
    have hl : (hex 4 c.toNat).length = (hex 4 d.toNat).length := by
      rw [hex_length _ hn, hex_length _ hn']
    obtain ⟨hcd, hrs⟩ := List.append_inj hx hl
    exact ⟨eq_of_toNat (hex_inj _ hn _ hn' hcd), hrs⟩

/-! ### Strings in JSON -/

theorem flatMap_jsonChar_inj {cs ds r s : List Char}
    (h : cs.flatMap jsonChar ++ '"' :: r = ds.flatMap jsonChar ++ '"' :: s) : cs = ds ∧ r = s := by
  induction cs generalizing ds with
  | nil =>
    cases ds with
    | nil => exact ⟨rfl, (List.cons.inj h).2⟩
    | cons d ds =>
      obtain ⟨a, t, he, ha⟩ := jsonChar_head d
      rw [List.flatMap_cons, he] at h
      exact absurd (List.cons.inj h).1.symm ha
  | cons c cs ih =>
    cases ds with
    | nil =>
      obtain ⟨a, t, he, ha⟩ := jsonChar_head c
      rw [List.flatMap_cons, he] at h
      exact absurd (List.cons.inj h).1 ha
    | cons d ds =>
      rw [List.flatMap_cons, List.flatMap_cons, List.append_assoc, List.append_assoc] at h
      obtain ⟨rfl, h'⟩ := jsonChar_append_inj h
      obtain ⟨rfl, hrs⟩ := ih h'
      exact ⟨rfl, hrs⟩

/-- **The JSON string of a text can be told from what follows, and from that of any other text.** -/
theorem jsonString_append_inj {s t : String} {r r' : List Char}
    (h : (jsonString s).toList ++ r = (jsonString t).toList ++ r') : s = t ∧ r = r' := by
  unfold jsonString jsonChars at h
  rw [String.toList_ofList, String.toList_ofList] at h
  simp only [List.cons_append, List.append_assoc, List.nil_append] at h
  obtain ⟨hst, hr⟩ := flatMap_jsonChar_inj (List.cons.inj h).2
  exact ⟨String.toList_inj.1 hst, hr⟩

theorem jsonString_head (s : String) : ∃ r, (jsonString s).toList = '"' :: r := by
  refine ⟨s.toList.flatMap jsonChar ++ ['"'], ?_⟩
  rw [jsonString, String.toList_ofList]
  rfl

/-! ### Bytes -/

theorem toList_loop (bs : ByteArray) (i : Nat) (r : List UInt8) :
    ByteArray.toList.loop bs i r = r.reverse ++ bs.data.toList.drop i := by
  fun_induction ByteArray.toList.loop bs i r with
  | case1 i r h ih =>
    have hi : i < bs.data.toList.length := by simpa using h
    rw [ih, List.drop_eq_getElem_cons hi, List.reverse_cons, List.append_assoc]
    congr 2
    simp [ByteArray.get!, getElem!_pos bs.data i (by simpa using h)]
  | case2 i r h =>
    have hi : bs.data.toList.length ≤ i := by simpa using h
    rw [List.drop_eq_nil_of_le hi, List.append_nil]

theorem utf8_injective {s t : String} (h : utf8 s = utf8 t) : s = t := by
  have hl : ∀ bs : ByteArray, bs.toList = bs.data.toList := fun bs => toList_loop bs 0 []
  unfold utf8 at h
  rw [hl, hl] at h
  exact String.toByteArray_inj.1 (ByteArray.ext (Array.toList_inj.1 h))

end Text
end Stencil
