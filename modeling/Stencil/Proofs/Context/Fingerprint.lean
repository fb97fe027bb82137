/-
# What a fingerprint tells

The text that is digested for a context of text values tells all names that
are visible in each scope, with their values. Where the digest has no
collision, two contexts with one fingerprint give every name the same meaning
(`reading_eq`).

Key definitions: `IsTextual`, `HasTexts`, `reading`, `CollisionFree`.
Key theorems: `json_append_inj`, `reading_eq`.
-/
import Stencil.Context.Fingerprint
import Stencil.Proofs.Text.Json

namespace Stencil

/-! ### Values in JSON -/

namespace Value

open Text

/-- A value made of texts and lists. -/
inductive IsTextual : Value → Prop where
  | text (s : String) : IsTextual (text s)
  | list {items : List Value} (h : ∀ x ∈ items, IsTextual x) : IsTextual (list items)

/-- A value that can be told, by its JSON, from every other one and from what follows. -/
def IsTold (v : Value) : Prop :=
  ∀ w r r', IsTextual w → v.json.toList ++ r = w.json.toList ++ r' → v = w ∧ r = r'

theorem json_list_cons (x : Value) (r : List Value) :
    (list (x :: r)).json.toList = '[' :: (x.json.toList ++ (jsonItems r).toList ++ [']']) := by
  simp [json]

theorem jsonItems_cons (x : Value) (r : List Value) :
    (jsonItems (x :: r)).toList = ',' :: (x.json.toList ++ (jsonItems r).toList) := by
  simp [jsonItems]

theorem json_text_head (s : String) : ∃ r, (text s).json.toList = '"' :: r := by
  rw [json]
  exact jsonString_head s

theorem json_list_head (items : List Value) : ∃ r, (list items).json.toList = '[' :: r := by
  cases items with
  | nil => exact ⟨[']'], by rw [json]; rfl⟩
  | cons x xs => exact ⟨_, json_list_cons x xs⟩

/-- Texts begin in another way than lists. -/
theorem json_text_ne_list (s : String) (items : List Value) (r r' : List Char) :
    (text s).json.toList ++ r ≠ (list items).json.toList ++ r' := by
  obtain ⟨a, ha⟩ := json_text_head s
  obtain ⟨b, hb⟩ := json_list_head items
  rw [ha, hb]
  exact fun h => absurd (List.cons.inj h).1 (by decide)

/-- No item begins as the end of a list does. -/
theorem IsTextual.json_ne_close {v : Value} (h : IsTextual v) (r r' : List Char) :
    v.json.toList ++ r ≠ ']' :: r' := by
  cases h with
  | text s =>
    obtain ⟨a, ha⟩ := json_text_head s
    rw [ha]
    exact fun h => absurd (List.cons.inj h).1 (by decide)
  | @list items _ =>
    obtain ⟨a, ha⟩ := json_list_head items
    rw [ha]
    exact fun h => absurd (List.cons.inj h).1 (by decide)

theorem jsonItems_inj {xs ys : List Value} {r r' : List Char} (hx : ∀ x ∈ xs, IsTold x)
    (hy : ∀ y ∈ ys, IsTextual y)
    (h : (jsonItems xs).toList ++ ']' :: r = (jsonItems ys).toList ++ ']' :: r') :
    xs = ys ∧ r = r' := by
  induction xs generalizing ys with
  | nil =>
    cases ys with
    | nil => exact ⟨rfl, (List.cons.inj h).2⟩
    | cons y ys =>
      rw [jsonItems_cons] at h
      exact absurd (List.cons.inj h).1 (by decide)
  | cons x xs ih =>
    cases ys with
    | nil =>
      rw [jsonItems_cons] at h
      exact absurd (List.cons.inj h).1 (by decide)
    | cons y ys =>
      rw [jsonItems_cons, jsonItems_cons, List.cons_append, List.cons_append, List.append_assoc,
        List.append_assoc] at h
      obtain ⟨rfl, h₂⟩ :=
        hx x List.mem_cons_self y _ _ (hy y List.mem_cons_self) (List.cons.inj h).2
      obtain ⟨rfl, hr⟩ := ih (fun x hm => hx x (List.mem_cons_of_mem _ hm))
        (fun y hm => hy y (List.mem_cons_of_mem _ hm)) h₂
      exact ⟨rfl, hr⟩

/-- A list is told by its items. -/
theorem isTold_list {items : List Value} (h : ∀ x ∈ items, IsTextual x)
    (ih : ∀ x ∈ items, IsTold x) : IsTold (list items) := by
  intro w r r' hw he
  cases hw with
  | text s => exact absurd he.symm (json_text_ne_list s items r' r)
  | @list ys hw =>
    cases items with
    | nil =>
      cases ys with
      | nil => exact ⟨rfl, List.append_cancel_left he⟩
      | cons y ys =>
        rw [json_list_cons, List.append_assoc, List.cons_append, List.append_assoc] at he
        exact absurd (List.cons.inj he).2.symm ((hw y List.mem_cons_self).json_ne_close _ _)
    | cons x xs =>
      cases ys with
      | nil =>
        rw [json_list_cons, List.append_assoc, List.cons_append, List.append_assoc] at he
        exact absurd (List.cons.inj he).2 ((h x List.mem_cons_self).json_ne_close _ _)
      | cons y ys =>
        rw [json_list_cons, json_list_cons] at he
        simp only [List.cons_append, List.append_assoc, List.nil_append] at he
        obtain ⟨rfl, h₂⟩ :=
          ih x List.mem_cons_self y _ _ (hw y List.mem_cons_self) (List.cons.inj he).2
        obtain ⟨rfl, hr⟩ := jsonItems_inj (fun x hm => ih x (List.mem_cons_of_mem _ hm))
          (fun y hm => hw y (List.mem_cons_of_mem _ hm)) h₂
        exact ⟨rfl, hr⟩

/-- **JSON tells values made of texts and lists apart, and each from what follows it.** -/
theorem IsTextual.isTold {v : Value} (h : IsTextual v) : IsTold v := by
  induction h with
  | text s =>
    intro w r r' hw he
    cases hw with
    | text t =>
      obtain ⟨rfl, hr⟩ := jsonString_append_inj (by simpa only [json] using he)
      exact ⟨rfl, hr⟩
    | list hw => exact absurd he (json_text_ne_list s _ r r')
  | list h ih => exact isTold_list h ih

/-- JSON tells values made of texts and lists apart. -/
theorem IsTextual.eq_of_json {v w : Value} (hv : v.IsTextual) (hw : w.IsTextual)
    (h : v.json = w.json) : v = w :=
  (hv.isTold w [] [] hw (by rw [h])).1

end Value

/-! ### What a context shows -/

namespace Context

/-- Every variable has a text for its value. -/
def HasTexts (c : Context) : Prop := ∀ s, ∀ v ∈ c.inScope s, ∃ t, v.value = .text t

instance (v : Value) : Decidable (∃ t, v = .text t) :=
  match v with
  | .text t => .isTrue ⟨t, rfl⟩
  | .null | .bool _ | .int _ | .float _ | .date _ | .timestamp _ | .list _ | .map _ =>
    .isFalse nofun

instance (c : Context) : Decidable c.HasTexts :=
  decidable_of_iff (∀ s ∈ Scope.precedence, ∀ v ∈ c.inScope s, ∃ t, v.value = .text t)
    ⟨fun h s => h s (by cases s <;> decide), fun h s _ => h s⟩

/-- What a name means, as far as expanding it goes: the scope where it was found and the value. -/
def reading (c : Context) (name : String) : Option (Scope × Value) :=
  (c.lookup? name).map fun x => (x.1, x.2.value)

theorem mem_firstOfName_iff {v : Variable} {vs : List Variable} :
    v ∈ firstOfName vs ↔ vs.find? (fun w => w.name == v.name) = some v := by
  induction vs with
  | nil => simp [firstOfName]
  | cons w r ih =>
    rw [firstOfName, List.mem_cons, List.mem_filter, ih, List.find?_cons]
    by_cases hn : w.name = v.name
    · rw [beq_iff_eq.2 hn]
      constructor
      · rintro (rfl | ⟨-, h⟩)
        · rfl
        · exact absurd hn.symm (by simpa using h)
      · intro h
        exact .inl (Option.some.inj h).symm
    · rw [beq_eq_false_iff_ne.2 hn]
      constructor
      · rintro (rfl | ⟨h, -⟩)
        · exact absurd rfl hn
        · exact h
      · intro h
        exact .inr ⟨h, by simpa using Ne.symm hn⟩

theorem find?_enabled (vs : List Variable) (name : String) :
    (vs.filter Variable.isEnabled).find? (fun w => w.name == name) =
      vs.find? fun w => w.isEnabled && w.name == name := by
  rw [List.find?_filter]
  congr 1
  funext w
  rw [Bool.decide_and, Bool.decide_eq_true, Bool.decide_eq_true]

/-- A scope's mapping holds just the names that are visible in it, with their values. -/
theorem mem_mapping {c : Context} {s : Scope} {name : String} {x : Value} :
    (name, x) ∈ c.mapping s ↔ (c.find? s name).map Variable.value = some x := by
  unfold mapping visible find?
  rw [List.mem_mergeSort, List.mem_map, ← find?_enabled]
  constructor
  · rintro ⟨v, hv, he⟩
    injection he with hn hx
    rw [mem_firstOfName_iff, hn] at hv
    rw [hv, Option.map_some, hx]
  · intro h
    obtain ⟨v, hv, hx⟩ := Option.map_eq_some_iff.1 h
    have hn : v.name = name := by simpa using List.find?_some hv
    refine ⟨v, mem_firstOfName_iff.2 ?_, by rw [hn, hx]⟩
    rw [hn]
    exact hv

theorem find?_value_eq {c d : Context} (h : ∀ s, c.mapping s = d.mapping s) (s : Scope)
    (name : String) :
    (c.find? s name).map Variable.value = (d.find? s name).map Variable.value := by
  refine Option.ext fun x => ?_
  rw [← mem_mapping, h, mem_mapping]

theorem matching_map {β : Type} (f : Scope → Value → β) (c : Context) (name : String) :
    ((c.matching name).map fun x => f x.1 x.2.value) =
      Scope.precedence.filterMap fun s => ((c.find? s name).map Variable.value).map (f s) := by
  unfold matching
  rw [List.map_filterMap]
  congr 1
  funext s
  cases c.find? s name <;> rfl

theorem reading_eq_of_mapping {c d : Context} (h : ∀ s, c.mapping s = d.mapping s)
    (name : String) : c.reading name = d.reading name := by
  unfold reading lookup?
  rw [← List.head?_map, ← List.head?_map, matching_map Prod.mk, matching_map Prod.mk]
  simp only [find?_value_eq h]

/-! ### Fingerprints -/

theorem mapping_textual {c : Context} (h : c.HasTexts) (s : Scope) :
    ∀ x ∈ c.mapping s, x.2.IsTextual := by
  rintro ⟨n, x⟩ hx
  obtain ⟨v, hv, rfl⟩ := Option.map_eq_some_iff.1 (mem_mapping.1 hx)
  obtain ⟨t, ht⟩ := h s v (List.mem_of_find?_eq_some hv)
  rw [ht]
  exact .text t

theorem mappings_textual {c : Context} (h : c.HasTexts) : c.mappings.IsTextual := by
  refine .list fun x hx => ?_
  obtain ⟨s, -, rfl⟩ := List.mem_map.1 hx
  refine .list fun y hy => ?_
  rcases List.mem_cons.1 hy with rfl | hy
  · exact .text _
  obtain rfl := List.mem_singleton.1 hy
  refine .list fun z hz => ?_
  obtain ⟨⟨n, v⟩, hm, rfl⟩ := List.mem_map.1 hz
  refine .list fun w hw => ?_
  rcases List.mem_cons.1 hw with rfl | hw
  · exact .text _
  obtain rfl := List.mem_singleton.1 hw
  exact mapping_textual h s _ hm

theorem mapping_eq_of_mappings {c d : Context} (h : c.mappings = d.mappings) (s : Scope) :
    c.mapping s = d.mapping s := by
  injection h with h
  have hs := List.map_inj_left.1 h s (by cases s <;> decide)
  injection hs with hs
  have hl := (List.cons.inj (List.cons.inj hs).2).1
  injection hl with hl
  refine List.map_injective_iff.2 ?_ hl
  rintro ⟨n, v⟩ ⟨m, w⟩ he
  injection he with he
  injection (List.cons.inj he).1 with hn
  rw [hn, (List.cons.inj (List.cons.inj he).2).1]

/-- No two contexts of `U` are digested to one fingerprint, unless the same text is digested. -/
def CollisionFree (U : Context → Prop) : Prop :=
  ∀ c d, U c → U d → c.fingerprint = d.fingerprint →
    Text.utf8 c.mappings.json = Text.utf8 d.mappings.json

theorem CollisionFree.single (c : Context) : CollisionFree (· = c) := by
  rintro _ _ rfl rfl _
  rfl

/-- **Where the digest has no collision, a fingerprint tells what every name means.** -/
theorem CollisionFree.reading_eq {U : Context → Prop} (hU : CollisionFree U) {c d : Context}
    (hc : U c) (hd : U d) (hct : c.HasTexts) (hdt : d.HasTexts)
    (h : c.fingerprint = d.fingerprint) (name : String) : c.reading name = d.reading name := by
  have hj := Text.utf8_injective (hU c d hc hd h)
  have hm := (mappings_textual hct).eq_of_json (mappings_textual hdt) hj
  exact reading_eq_of_mapping (mapping_eq_of_mappings hm) name

end Context
end Stencil
