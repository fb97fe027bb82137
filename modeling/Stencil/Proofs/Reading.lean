/-
# Reading up to the first fault

Data is read spot by spot, up to the first spot that is not sound; the fault
found there is what the reading comes to (`Reads`). A spot that breaks is one of
which the fault cannot be reported as one of the data. So a reading ends with
something else than such a fault just where the first spot that is not sound
breaks (`Reads.unreported_iff`).

Key definition: `Reads`.
Key theorems: `bind_eq_ok_iff`, `ok_of_shaped`, `Reads.bind`, `Reads.shaped`,
`Reads.ok_iff`, `Reads.unreported_iff`.
-/
import Stencil.Proofs.Lists
import Stencil.Value

namespace Stencil

/-- What comes of a step is made from what comes of the one before it. -/
theorem ok_of_bind {F α β : Type} {a : Except F α} {g : α → Except F β} {z : β}
    (h : (a >>= g) = .ok z) : ∃ y, a = .ok y ∧ g y = .ok z := by
  cases a with
  | error f => cases h
  | ok y => exact ⟨y, rfl, h⟩

/-- What is read in two steps. -/
theorem bind_eq_ok_iff {F α β : Type} {a : Except F α} {g : α → Except F β} {z : β} :
    (a >>= g) = .ok z ↔ ∃ y, a = .ok y ∧ g y = .ok z := by
  refine ⟨ok_of_bind, ?_⟩
  rintro ⟨y, rfl, h⟩
  exact h

/-- What is read is wrapped up. -/
theorem map_eq_ok_iff {F α β : Type} {a : Except F α} {f : α → β} {z : β} :
    a.map f = .ok z ↔ ∃ y, a = .ok y ∧ z = f y := by
  cases a with
  | error e => exact ⟨fun h => (nomatch h), fun ⟨_, h, _⟩ => (nomatch h)⟩
  | ok x =>
    constructor
    · exact fun h => ⟨x, rfl, (Except.ok.inj h).symm⟩
    · rintro ⟨y, hy, rfl⟩
      cases hy
      rfl

/-- What is read from a value that may be left out or empty: what nothing gives, or what the value
is read as. -/
theorem ok_of_shaped {F α : Type} {v? : Option Value} {read : Value → Except F α} {empty y : α}
    (h : (match v? with
      | none => .ok empty
      | some v => if !v.isTrue then .ok empty else read v) = Except.ok y) :
    y = empty ∧ (∀ v, v? = some v → v.isTrue = false) ∨
      ∃ v, v? = some v ∧ read v = .ok y := by
  cases v? with
  | none =>
    cases h
    exact .inl ⟨rfl, nofun⟩
  | some v =>
    dsimp only at h
    split_ifs at h with hv
    · cases h
      refine .inl ⟨rfl, ?_⟩
      rintro _ ⟨⟩
      simpa using hv
    · exact .inr ⟨v, rfl, h⟩

/-- The outcome of reading spots in their order: all are sound, or the fault is that of the first
one that is not, and it is reported unless that spot breaks. -/
inductive Reads {S F α : Type} (IsSound Breaks : S → Prop) (isReported : F → Bool)
    (spots : List S) : Except F α → Prop where
  | ok {y : α} (h : ∀ s ∈ spots, IsSound s) : Reads IsSound Breaks isReported spots (.ok y)
  | error {f : F} {before after : List S} {s : S} (hs : spots = before ++ s :: after)
      (hb : ∀ t ∈ before, IsSound t) (h : ¬ IsSound s) (hf : isReported f = false ↔ Breaks s) :
      Reads IsSound Breaks isReported spots (.error f)

namespace Reads

variable {S F α β : Type} {IsSound Breaks : S → Prop} {isReported : F → Bool} {s : S}
  {xs ys : List S} {a : Except F α} {y : α} {f : F}

theorem nil : Reads IsSound Breaks isReported [] (.ok y) :=
  .ok fun _ h => absurd h List.not_mem_nil

/-- The first spot is not sound. -/
theorem head (h : ¬ IsSound s) (hf : isReported f = false ↔ Breaks s) :
    Reads (α := α) IsSound Breaks isReported (s :: xs) (.error f) :=
  .error (List.nil_append _).symm (fun _ h => absurd h List.not_mem_nil) h hf

/-- The first spot is not sound, and cannot be told. -/
theorem broken (h : ¬ IsSound s) (hb : Breaks s) (hf : isReported f = false) :
    Reads (α := α) IsSound Breaks isReported (s :: xs) (.error f) :=
  .head h ⟨fun _ => hb, fun _ => hf⟩

/-- The first spot is not sound, and can be told. -/
theorem reported (h : ¬ IsSound s) (hb : ¬ Breaks s) (hf : isReported f = true) :
    Reads (α := α) IsSound Breaks isReported (s :: xs) (.error f) :=
  .head h ⟨fun hr => absurd (hf.symm.trans hr) (by decide), fun hr => absurd hr hb⟩

/-- The first spot is sound. -/
theorem cons (h : IsSound s) (ha : Reads IsSound Breaks isReported xs a) :
    Reads IsSound Breaks isReported (s :: xs) a := by
  cases ha with
  | ok hall => exact .ok (List.forall_mem_cons.2 ⟨h, hall⟩)
  | error hs hb hbad hf =>
    exact .error (congrArg (s :: ·) hs) (List.forall_mem_cons.2 ⟨h, hb⟩) hbad hf

/-- **A reading is followed by one that depends on what it gave.** -/
theorem bind {g : α → Except F β} (ha : Reads IsSound Breaks isReported xs a)
    (hg : ∀ y, a = .ok y → Reads IsSound Breaks isReported ys (g y)) :
    Reads IsSound Breaks isReported (xs ++ ys) (a >>= g) := by
  cases ha with
  | ok hall =>
    rename_i y
    have hrest := hg y rfl
    show Reads IsSound Breaks isReported (xs ++ ys) (g y)
    generalize g y = b at hrest
    cases hrest with
    | ok hrest => exact .ok (List.forall_mem_append.2 ⟨hall, hrest⟩)
    | error hs hb hbad hf =>
      exact .error (by rw [hs, List.append_assoc]) (List.forall_mem_append.2 ⟨hall, hb⟩) hbad hf
  | error hs hb hbad hf =>
    exact .error (by rw [hs, List.append_assoc, List.cons_append]) hb hbad hf

/-- A reading of which the outcome is changed. -/
theorem map {g : α → β} (ha : Reads IsSound Breaks isReported xs a) :
    Reads IsSound Breaks isReported xs (a >>= fun y => .ok (g y)) := by
  rw [← List.append_nil xs]
  exact ha.bind fun _ _ => nil

/-- A value that is left out or empty gives what nothing gives; any other has to have a shape. -/
theorem shaped {IsShape : Value → Prop} {v? : Option Value} {read : Value → Except F α} (empty : α)
    (hs : IsSound s ↔ ∀ v, v? = some v → v.isTrue = true → IsShape v) (hb : ¬ Breaks s)
    (hok : ∀ v, IsShape v → ∃ y, read v = .ok y)
    (herror : ∀ v, ¬ IsShape v → ∃ f, read v = .error f ∧ isReported f = true) :
    Reads IsSound Breaks isReported [s]
      (match v? with
        | none => .ok empty
        | some v => if !v.isTrue then .ok empty else read v) := by
  cases v? with
  | none => exact .cons (hs.2 fun v hv => nomatch hv) .nil
  | some v =>
    dsimp only
    cases ht : v.isTrue with
    | false =>
      refine .cons (hs.2 fun w hw hwt => ?_) .nil
      obtain rfl := Option.some.inj hw
      cases ht.symm.trans hwt
    | true =>
      rw [if_neg (by decide)]
      by_cases hv : IsShape v
      · obtain ⟨y, hy⟩ := hok v hv
        rw [hy]
        exact .cons (hs.2 fun w hw _ => Option.some.inj hw ▸ hv) .nil
      · obtain ⟨f, hf, hr⟩ := herror v hv
        rw [hf]
        exact .reported (fun h => hv (hs.1 h v rfl ht)) hb hr

/-- A value that is left out or empty gives no entries; any other has to be a mapping. -/
theorem mapping {v? : Option Value}
    (hs : IsSound s ↔ ∀ v, v? = some v → v.isTrue = true → ∃ entries, v = .map entries)
    (hb : ¬ Breaks s) (hf : isReported f = true) :
    Reads IsSound Breaks isReported [s]
      (match v? with
        | none => .ok []
        | some v =>
          if !v.isTrue then .ok []
          else
            match v with
            | .map entries => .ok entries
            | _ => .error f) := by
  refine .shaped [] hs hb ?_ fun v hv => ?_
  · rintro v ⟨entries, rfl⟩
    exact ⟨entries, rfl⟩
  · cases v with
    | map entries => exact absurd ⟨entries, rfl⟩ hv
    | _ => exact ⟨f, rfl, hf⟩

theorem ok_iff (h : Reads IsSound Breaks isReported xs a) :
    (∃ y, a = .ok y) ↔ ∀ s ∈ xs, IsSound s := by
  cases h with
  | ok hall => exact ⟨fun _ => hall, fun _ => ⟨_, rfl⟩⟩
  | error hs _ hbad _ =>
    refine ⟨fun ⟨_, hy⟩ => (nomatch hy), fun hall => absurd (hall _ ?_) hbad⟩
    rw [hs]
    exact List.mem_append_right _ List.mem_cons_self

/-- **A reading ends with a fault that is not reported just where the first spot that is not sound
breaks.** -/
theorem unreported_iff (hn : ∀ s, Breaks s → ¬ IsSound s)
    (h : Reads IsSound Breaks isReported xs a) :
    (∃ f, a = .error f ∧ isReported f = false) ↔
      ∃ before s after, xs = before ++ s :: after ∧ (∀ t ∈ before, IsSound t) ∧ Breaks s := by
  cases h with
  | ok hall =>
    refine ⟨fun ⟨f, hf, _⟩ => (nomatch hf), ?_⟩
    rintro ⟨before, s, after, hs, -, hbreaks⟩
    exact absurd (hall s (hs ▸ List.mem_append_right _ List.mem_cons_self)) (hn s hbreaks)
  | error hs hb hbad hf =>
    constructor
    · rintro ⟨g, hg, hr⟩
      cases hg
      exact ⟨_, _, _, hs, hb, hf.1 hr⟩
    · rintro ⟨before, s, after, hs', hb', hbreaks⟩
      obtain rfl := ListFacts.eq_of_first (hs.symm.trans hs') hb hb' hbad (hn s hbreaks)
      exact ⟨_, rfl, hf.2 hbreaks⟩

end Reads
end Stencil
