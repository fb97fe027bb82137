/-
# Plain templates

A template is plain in a context if it calls no function and every variable it
refers to, directly or through others, is defined by a plain value. A plain
template has a text and a height that the context alone decides; nothing that
a plain template refers to lies on a reference cycle.

Key definitions: `Plain`, `PlainName`.
Key theorems: `PlainName.lower`, `PlainName.not_onCycle`, `PlainName.of_reading`.
-/
import Stencil.Proofs.Context.Fingerprint
import Stencil.Proofs.Context.Reference
import Stencil.Proofs.Template.Read

namespace Stencil
namespace Context

open Template

/-- Segments without a call, all of whose variables have plain values; the text that they stand
for, and the number of levels of variables in them. -/
inductive Plain (c : Context) : List Segment → String → Nat → Prop where
  | nil : Plain c [] "" 0
  | literal {text : String} {span : Span} {rest : List Segment} {t : String} {h : Nat}
      (hr : Plain c rest t h) : Plain c (.literal text span :: rest) (text ++ t) h
  | named {r : Reference} {d : Definition} {inner rest : List Segment} {v t : String}
      {i h : Nat} (hc : r.isCall = false) (hd : c.define? r.name = .ok (some d))
      (hp : d.parsed = .ok inner) (hi : Plain c inner v i) (hr : Plain c rest t h) :
      Plain c (.reference r :: rest) (v ++ t) (max (i + 1) h)

/-- A name that is defined by a plain value. -/
def PlainName (c : Context) (n v : String) (h : Nat) : Prop :=
  ∃ d segments, c.define? n = .ok (some d) ∧ d.parsed = .ok segments ∧ c.Plain segments v h

variable {c : Context} {n v t : String} {h : Nat} {segments rest : List Segment}

theorem mem_variableNames {n : String} {segments : List Segment} :
    n ∈ variableNames segments ↔
      ∃ r, .reference r ∈ segments ∧ r.isCall = false ∧ r.name = n := by
  unfold variableNames
  rw [List.mem_eraseDups, List.mem_filterMap]
  constructor
  · rintro ⟨s, hs, he⟩
    cases s with
    | literal => cases he
    | reference r =>
      rw [Segment.variableName?] at he
      split_ifs at he with hc
      exact ⟨r, hs, by simpa using hc, Option.some.inj he⟩
  · rintro ⟨r, hr, hc, rfl⟩
    exact ⟨_, hr, by rw [Segment.variableName?, hc]; rfl⟩

/-- A name whose value can be read refers to the variables in it. -/
theorem refers_iff {d : Definition} {m : String} (hd : c.define? n = .ok (some d))
    (hp : d.parsed = .ok segments) : c.Refers n m ↔ m ∈ variableNames segments := by
  constructor
  · rintro ⟨e, he, hm⟩
    rw [hd] at he
    cases he
    rwa [Definition.references, hp] at hm
  · exact fun hm => ⟨d, hd, by rwa [Definition.references, hp]⟩

/-- What a plain template refers to is plain, and lower. -/
theorem Plain.lower {r : Reference} (hp : c.Plain segments v h) (hr : .reference r ∈ segments) :
    r.isCall = false ∧ ∃ w k, c.PlainName r.name w k ∧ k < h := by
  induction hp with
  | nil => exact absurd hr List.not_mem_nil
  | literal _ ih =>
    rcases List.mem_cons.1 hr with hr | hr
    · cases hr
    · exact ih hr
  | named hc hd hp hi _ _ ih =>
    rcases List.mem_cons.1 hr with hr | hr
    · cases hr
      exact ⟨hc, _, _, ⟨_, _, hd, hp, hi⟩, lt_of_lt_of_le (Nat.lt_succ_self _) (le_max_left _ _)⟩
    · obtain ⟨hc', w, k, hn, hk⟩ := ih hr
      exact ⟨hc', w, k, hn, lt_of_lt_of_le hk (le_max_right _ _)⟩

theorem PlainName.lower {m : String} (hn : c.PlainName n v h) (hr : c.Refers n m) :
    ∃ w k, c.PlainName m w k ∧ k < h := by
  obtain ⟨d, segments, hd, hp, hs⟩ := hn
  obtain ⟨r, hm, -, rfl⟩ := mem_variableNames.1 ((refers_iff hd hp).1 hr)
  exact (hs.lower hm).2

theorem PlainName.lower_trans {m : String} (hn : c.PlainName n v h)
    (hr : Relation.TransGen c.Refers n m) : ∃ w k, c.PlainName m w k ∧ k < h := by
  induction hr with
  | single hr => exact hn.lower hr
  | tail _ hr ih =>
    obtain ⟨w, k, hm, hk⟩ := ih
    obtain ⟨w', k', hm', hk'⟩ := hm.lower hr
    exact ⟨w', k', hm', hk'.trans hk⟩

/-- A plain name does not refer to itself: it would be lower than itself, again and again. -/
theorem PlainName.not_onCycle (hn : c.PlainName n v h) : ¬ c.OnCycle n := by
  intro ho
  induction h using Nat.strongRecOn generalizing v with
  | ind h ih =>
    obtain ⟨w, k, hm, hk⟩ := hn.lower_trans ho
    exact ih k hk hm

/-! ### Values without references -/

theorem Plain.of_literals (hs : ∀ s ∈ segments, s.isReference = false) :
    c.Plain segments (String.ofList (sources segments)) 0 := by
  induction segments with
  | nil => exact .nil
  | cons s rest ih =>
    have hr := ih fun s hm => hs s (List.mem_cons_of_mem _ hm)
    cases s with
    | literal text span =>
      rw [sources_cons, String.ofList_append, Segment.source, String.ofList_toList]
      exact .literal hr
    | reference r => exact absurd (hs _ List.mem_cons_self) (by simp [Segment.isReference])

theorem Plain.eq_of_literals (hp : c.Plain segments v h)
    (hs : ∀ s ∈ segments, s.isReference = false) :
    v = String.ofList (sources segments) ∧ h = 0 := by
  induction hp with
  | nil => exact ⟨rfl, rfl⟩
  | @literal text span rest t h hr ih =>
    obtain ⟨rfl, rfl⟩ := ih fun s hm => hs s (List.mem_cons_of_mem _ hm)
    rw [sources_cons, String.ofList_append, Segment.source, String.ofList_toList]
    exact ⟨rfl, rfl⟩
  | named =>
    exact absurd (hs _ List.mem_cons_self) (by simp [Segment.isReference])

/-! ### Definitions -/

theorem lookup?_mem {s : Scope} {v : Variable} (h : c.lookup? n = some (s, v)) :
    v ∈ c.inScope s := by
  obtain ⟨s', -, hs⟩ := List.mem_filterMap.1 (List.mem_of_head? h)
  obtain ⟨w, hw, hx⟩ := Option.map_eq_some_iff.1 hs
  cases hx
  exact List.mem_of_find?_eq_some hw

/-- A name that means a text is refused only for an integer literal with too many digits. -/
theorem define?_tooLong {r : Refusal} (ht : c.HasTexts) (h : c.define? n = .error r) :
    TooLong r := by
  unfold define? at h
  split at h
  · cases h
  · rename_i s v hv
    obtain ⟨text, htext⟩ := ht s v (lookup?_mem hv)
    rw [Variable.template?, htext] at h
    dsimp only [Value.template?] at h
    split at h
    · rename_i hp
      cases h
      exact parse_refused hp
    · cases h

theorem define?_parse {d : Definition} (hd : c.define? n = .ok (some d)) :
    Template.parse d.text = .ok d.parsed := by
  unfold define? at hd
  split at hd
  · cases hd
  · split at hd
    · cases hd
    · split at hd
      · cases hd
      · rename_i hp
        cases hd
        exact hp

/-- A value without references is its own text. -/
theorem define?_text {d : Definition} (hd : c.define? n = .ok (some d))
    (hp : d.parsed = .ok segments) : String.ofList (sources segments) = d.text := by
  have h := define?_parse hd
  rw [hp] at h
  rw [parse_source h, String.ofList_toList]

theorem define?_names {d : Definition} (hd : c.define? n = .ok (some d))
    (hp : d.parsed = .ok segments) :
    ∀ r, .reference r ∈ segments → isIdentifier r.name.toList = true := by
  have h := define?_parse hd
  rw [hp] at h
  exact parse_names h

/-- What a name is defined by depends on nothing but its reading. -/
theorem define?_of_reading {c' : Context} {d : Definition} (h : c.reading n = c'.reading n)
    (hd : c.define? n = .ok (some d)) :
    ∃ d', c'.define? n = .ok (some d') ∧ d'.parsed = d.parsed := by
  unfold reading at h
  unfold define? at hd ⊢
  cases hl : c.lookup? n with
  | none =>
    rw [hl] at hd
    cases hd
  | some x =>
    obtain ⟨s, w⟩ := x
    rw [hl, Option.map_some] at h
    obtain ⟨⟨s', w'⟩, hl', he⟩ := Option.map_eq_some_iff.1 h.symm
    injection he with hs hw
    dsimp only at hs hw
    rw [hl] at hd
    rw [hl']
    dsimp only [Variable.template?] at hd ⊢
    rw [hw]
    cases ht : w.value.template? with
    | error e =>
      rw [ht] at hd
      cases hd
    | ok text =>
      rw [ht] at hd
      dsimp only at hd ⊢
      cases hp : Template.parse text with
      | error e =>
        rw [hp] at hd
        cases hd
      | ok parsed =>
        rw [hp] at hd
        cases hd
        exact ⟨_, rfl, rfl⟩

theorem Plain.of_reading {c' : Context} (hr : ∀ n, c.reading n = c'.reading n)
    (hp : c.Plain segments v h) : c'.Plain segments v h := by
  induction hp with
  | nil => exact .nil
  | literal _ ih => exact .literal ih
  | named hc hd hp _ _ ihi ihr =>
    obtain ⟨d', hd', hp'⟩ := define?_of_reading (hr _) hd
    exact .named hc hd' (hp'.trans hp) ihi ihr

/-- Contexts that read alike have the same plain names. -/
theorem PlainName.of_reading {c' : Context} (hr : ∀ n, c.reading n = c'.reading n)
    (hn : c.PlainName n v h) : c'.PlainName n v h := by
  obtain ⟨d, segments, hd, hp, hs⟩ := hn
  obtain ⟨d', hd', hp'⟩ := define?_of_reading (hr n) hd
  exact ⟨d', segments, hd', hp'.trans hp, hs.of_reading hr⟩

end Context
end Stencil
