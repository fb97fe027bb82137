/-
# What templates mean

The text that a template stands for in a context, said without expanding it: a
call is its output or its marker; a name is its marker if it lies on a
reference cycle or cannot be opened, and else the meaning of its value. A name
that the template itself refers to is its marker as a whole if a chain of
references as long as the bound starts from it.

A template has one meaning at most (`TemplateMeans.unique`).

Key definitions: `Opens`, `Blocked`, `Means`, `Chains`, `TemplateMeans`,
`Faultless`, `Refuses`.
Key theorems: `Means.unique`, `TemplateMeans.unique`, `faultless_iff`,
`chains_succ`, `nameRefuses_succ`.
-/
import Stencil.Function.Library
import Stencil.Marker
import Stencil.Proofs.Context.Plain

namespace Stencil
namespace Context

open Template

/-- A name whose value can be read and that lies on no reference cycle; `segments` are those of its
value. -/
def Opens (c : Context) (n : String) (segments : List Segment) : Prop :=
  ¬ c.OnCycle n ∧ ∃ d, c.define? n = .ok (some d) ∧ d.parsed = .ok segments

/-- A name that lies on a reference cycle, is visible in no scope or has a malformed value. -/
def Blocked (c : Context) (n : String) : Prop :=
  c.OnCycle n ∨ c.define? n = .ok none ∨ ∃ d f, c.define? n = .ok (some d) ∧ d.parsed = .error f

/-- The text that segments stand for, where `out` is what each call comes to. -/
inductive Means (c : Context) (out : Reference → Except CallStop String) :
    List Segment → String → Prop where
  | nil : Means c out [] ""
  | literal {text : String} {span : Span} {rest : List Segment} {t : String}
      (ht : Means c out rest t) : Means c out (.literal text span :: rest) (text ++ t)
  | call {r : Reference} {rest : List Segment} {v t : String} (hr : r.isCall = true)
      (hv : out r = .ok v) (ht : Means c out rest t) :
      Means c out (.reference r :: rest) (v ++ t)
  | failed {r : Reference} {rest : List Segment} {f : Failure} {t : String}
      (hr : r.isCall = true) (hf : out r = .error (.failed f)) (ht : Means c out rest t) :
      Means c out (.reference r :: rest) (Marker.marker r.displayName ++ t)
  | blocked {r : Reference} {rest : List Segment} {t : String} (hr : r.isCall = false)
      (hb : c.Blocked r.name) (ht : Means c out rest t) :
      Means c out (.reference r :: rest) (Marker.marker r.name ++ t)
  | opened {r : Reference} {inner rest : List Segment} {v t : String} (hr : r.isCall = false)
      (ho : c.Opens r.name inner) (hv : Means c out inner v) (ht : Means c out rest t) :
      Means c out (.reference r :: rest) (v ++ t)

/-- The text that a name stands for. -/
def NameMeans (c : Context) (out : Reference → Except CallStop String) (n v : String) : Prop :=
  (c.Blocked n ∧ v = Marker.marker n) ∨ ∃ segments, c.Opens n segments ∧ c.Means out segments v

/-- There is a chain of `k` references from a name on, none of whose names lies on a reference
cycle. -/
def Chains (c : Context) : Nat → String → Prop
  | 0, n => ¬ c.OnCycle n
  | k + 1, n => ¬ c.OnCycle n ∧ ∃ m, c.Refers n m ∧ c.Chains k m

/-- A variable from which a chain of `k` references starts. -/
def IsDeep (c : Context) (k : Nat) (s : Segment) : Prop :=
  ∃ r, s = .reference r ∧ r.isCall = false ∧ c.Chains k r.name

/-- The text that a template stands for where chains of `m` references are too long. -/
inductive TemplateMeans (c : Context) (out : Reference → Except CallStop String) (m : Nat) :
    List Segment → String → Prop where
  | nil : TemplateMeans c out m [] ""
  | deep {r : Reference} {rest : List Segment} {t : String} (hr : r.isCall = false)
      (hd : c.Chains m r.name) (ht : TemplateMeans c out m rest t) :
      TemplateMeans c out m (.reference r :: rest) (Marker.marker r.name ++ t)
  | other {s : Segment} {rest : List Segment} {v t : String} (hd : ¬ c.IsDeep m s)
      (hv : c.Means out [s] v) (ht : TemplateMeans c out m rest t) :
      TemplateMeans c out m (s :: rest) (v ++ t)

/-- A name all of whose references, and theirs, are defined, well formed and on no cycle, and all
of whose calls succeed. -/
def Faultless (c : Context) (out : Reference → Except CallStop String) (n : String) : Prop :=
  ∀ m, Relation.ReflTransGen c.Refers n m → ∃ segments, c.Opens m segments ∧
    ∀ r, .reference r ∈ segments → r.isCall = true → ∃ v, out r = .ok v

/-- A call that succeeds, a variable that is faultless, or no reference. -/
def FaultlessSegment (c : Context) (out : Reference → Except CallStop String) (s : Segment) :
    Prop :=
  ∀ r, s = .reference r →
    (r.isCall = true → ∃ v, out r = .ok v) ∧ (r.isCall = false → c.Faultless out r.name)

/-- Where `k` levels of variables are allowed, a call that is refused is met before a chain that is
too deep ends the expansion. -/
inductive Refuses (c : Context) (out : Reference → Except CallStop String) :
    Nat → List Segment → Prop where
  | call {k : Nat} {r : Reference} {rest : List Segment} {e : Refusal} (hr : r.isCall = true)
      (he : out r = .error (.refused e)) : Refuses c out k (.reference r :: rest)
  | inside {k : Nat} {r : Reference} {inner rest : List Segment} (hr : r.isCall = false)
      (ho : c.Opens r.name inner) (hi : Refuses c out k inner) :
      Refuses c out (k + 1) (.reference r :: rest)
  | later {k : Nat} {s : Segment} {rest : List Segment} (hd : ¬ c.IsDeep k s)
      (hr : Refuses c out k rest) : Refuses c out k (s :: rest)

/-- A call that is refused is met below a name. -/
def NameRefuses (c : Context) (out : Reference → Except CallStop String) (k : Nat) (n : String) :
    Prop :=
  ∃ j segments, k = j + 1 ∧ c.Opens n segments ∧ c.Refuses out j segments

variable {c : Context} {out : Reference → Except CallStop String} {n v w t : String} {k m : Nat}
  {s : Segment} {r : Reference} {segments inner rest : List Segment}

/-! ### Names -/

theorem Opens.not_blocked (h : c.Opens n segments) : ¬ c.Blocked n := by
  obtain ⟨ho, d, hd, hp⟩ := h
  rintro (hc | hu | ⟨e, f, he, hf⟩)
  · exact ho hc
  · rw [hd] at hu
    cases hu
  · rw [hd] at he
    cases he
    rw [hp] at hf
    cases hf

theorem Opens.unique (h : c.Opens n segments) (h' : c.Opens n inner) : segments = inner := by
  obtain ⟨-, d, hd, hp⟩ := h
  obtain ⟨-, e, he, hp'⟩ := h'
  rw [hd] at he
  cases he
  rw [hp] at hp'
  exact Except.ok.inj hp'

theorem Opens.refers (h : c.Opens n segments) {x : String} :
    c.Refers n x ↔ ∃ r, .reference r ∈ segments ∧ r.isCall = false ∧ r.name = x := by
  obtain ⟨-, d, hd, hp⟩ := h
  rw [refers_iff hd hp, mem_variableNames]

theorem Chains.not_onCycle (h : c.Chains k n) : ¬ c.OnCycle n := by
  cases k with
  | zero => exact h
  | succ k => exact h.1

/-! ### Chains -/

theorem isDeep_variable (hr : r.isCall = false) :
    c.IsDeep k (.reference r) ↔ c.Chains k r.name := by
  constructor
  · rintro ⟨r', hr', -, hc⟩
    cases hr'
    exact hc
  · exact fun h => ⟨r, rfl, hr, h⟩

theorem not_isDeep_call (hr : r.isCall = true) : ¬ c.IsDeep k (.reference r) := by
  rintro ⟨r', hr', hc, -⟩
  cases hr'
  rw [hr] at hc
  cases hc

theorem chains_succ (ho : c.Opens n segments) :
    c.Chains (k + 1) n ↔ ∃ s ∈ segments, c.IsDeep k s := by
  rw [Chains]
  constructor
  · rintro ⟨-, m, hm, hc⟩
    obtain ⟨r, hr, hcall, rfl⟩ := ho.refers.1 hm
    exact ⟨_, hr, r, rfl, hcall, hc⟩
  · rintro ⟨s, hs, r, rfl, hcall, hc⟩
    exact ⟨ho.1, r.name, ho.refers.2 ⟨r, hs, hcall, rfl⟩, hc⟩

/-- A name that no scope defines or whose value is malformed starts no chain of references. -/
theorem not_chains (h : ∀ m, ¬ c.Refers n m) : ¬ c.Chains (k + 1) n := by
  rintro ⟨-, m, hm, -⟩
  exact h m hm

/-! ### One meaning -/

theorem Means.cons (hv : c.Means out [s] v) (ht : c.Means out rest t) :
    c.Means out (s :: rest) (v ++ t) := by
  cases hv with
  | literal h =>
    cases h
    rw [String.append_empty]
    exact .literal ht
  | call hr hv h =>
    cases h
    rw [String.append_empty]
    exact .call hr hv ht
  | failed hr hf h =>
    cases h
    rw [String.append_empty]
    exact .failed hr hf ht
  | blocked hr hb h =>
    cases h
    rw [String.append_empty]
    exact .blocked hr hb ht
  | opened hr ho hv h =>
    cases h
    rw [String.append_empty]
    exact .opened hr ho hv ht

theorem means_literal {text : String} {span : Span} :
    c.Means out [.literal text span] text := by
  have h : c.Means out [.literal text span] (text ++ "") := .literal .nil
  rwa [String.append_empty] at h

theorem means_call (hr : r.isCall = true) (hv : out r = .ok v) : c.Means out [.reference r] v := by
  have h : c.Means out [.reference r] (v ++ "") := .call hr hv .nil
  rwa [String.append_empty] at h

theorem means_failed {f : Failure} (hr : r.isCall = true) (hf : out r = .error (.failed f)) :
    c.Means out [.reference r] (Marker.marker r.displayName) := by
  have h : c.Means out [.reference r] (Marker.marker r.displayName ++ "") := .failed hr hf .nil
  rwa [String.append_empty] at h

theorem NameMeans.means (hr : r.isCall = false) (h : c.NameMeans out r.name v) :
    c.Means out [.reference r] v := by
  have hv : c.Means out [.reference r] (v ++ "") := by
    rcases h with ⟨hb, rfl⟩ | ⟨segments, ho, hv⟩
    · exact .blocked hr hb .nil
    · exact .opened hr ho hv .nil
  rwa [String.append_empty] at hv

theorem TemplateMeans.cons (hv : c.TemplateMeans out m [s] v) (ht : c.TemplateMeans out m rest t) :
    c.TemplateMeans out m (s :: rest) (v ++ t) := by
  cases hv with
  | deep hr hd h =>
    cases h
    rw [String.append_empty]
    exact .deep hr hd ht
  | other hd hv h =>
    cases h
    rw [String.append_empty]
    exact .other hd hv ht

/-- Segments stand for one text at most. -/
theorem Means.unique (h : c.Means out segments v) (h' : c.Means out segments w) : v = w := by
  induction h generalizing w with
  | nil =>
    cases h'
    rfl
  | literal _ ih =>
    cases h' with
    | literal ht => rw [ih ht]
  | call hr hv _ ih =>
    cases h' with
    | call _ hv' ht =>
      rw [hv] at hv'
      rw [ih ht, Except.ok.inj hv']
    | failed _ hf => rw [hv] at hf; cases hf
    | blocked hr' => rw [hr] at hr'; cases hr'
    | opened hr' => rw [hr] at hr'; cases hr'
  | failed hr hf _ ih =>
    cases h' with
    | call _ hv => rw [hf] at hv; cases hv
    | failed _ _ ht => rw [ih ht]
    | blocked hr' => rw [hr] at hr'; cases hr'
    | opened hr' => rw [hr] at hr'; cases hr'
  | blocked hr hb _ ih =>
    cases h' with
    | call hr' => rw [hr] at hr'; cases hr'
    | failed hr' => rw [hr] at hr'; cases hr'
    | blocked _ _ ht => rw [ih ht]
    | opened _ ho => exact absurd hb ho.not_blocked
  | opened hr ho _ _ ihv iht =>
    cases h' with
    | call hr' => rw [hr] at hr'; cases hr'
    | failed hr' => rw [hr] at hr'; cases hr'
    | blocked _ hb => exact absurd hb ho.not_blocked
    | opened _ ho' hv' ht' =>
      obtain rfl := ho.unique ho'
      rw [ihv hv', iht ht']

/-- **A template stands for one text at most.** -/
theorem TemplateMeans.unique (h : c.TemplateMeans out m segments v)
    (h' : c.TemplateMeans out m segments w) : v = w := by
  induction h generalizing w with
  | nil =>
    cases h'
    rfl
  | deep hr hd _ ih =>
    cases h' with
    | deep _ _ ht => rw [ih ht]
    | other hd' => exact absurd ⟨_, rfl, hr, hd⟩ hd'
  | other hd hv _ ih =>
    cases h' with
    | deep hr hd' => exact absurd ⟨_, rfl, hr, hd'⟩ hd
    | other _ hv' ht => rw [hv.unique hv', ih ht]

/-! ### Without a fault -/

/-- A name is faultless if its value is. -/
theorem faultless_iff :
    c.Faultless out n ↔ ∃ segments, c.Opens n segments ∧
      ∀ s ∈ segments, c.FaultlessSegment out s := by
  constructor
  · intro h
    obtain ⟨segments, ho, hc⟩ := h n .refl
    refine ⟨segments, ho, ?_⟩
    rintro s hs r rfl
    exact ⟨hc r hs, fun hr m hm => h m (.head (ho.refers.2 ⟨r, hs, hr, rfl⟩) hm)⟩
  · rintro ⟨segments, ho, hs⟩ m hm
    rcases Relation.ReflTransGen.cases_head hm with rfl | ⟨b, hb, hm⟩
    · exact ⟨segments, ho, fun r hr hc => (hs _ hr r rfl).1 hc⟩
    · obtain ⟨r, hr, hc, rfl⟩ := ho.refers.1 hb
      exact (hs _ hr r rfl).2 hc m hm

theorem forall_faultless (ho : c.Opens n segments) :
    (∀ s ∈ segments, c.FaultlessSegment out s) ↔ c.Faultless out n := by
  rw [faultless_iff]
  constructor
  · exact fun h => ⟨segments, ho, h⟩
  · rintro ⟨inner, ho', h⟩
    rwa [ho.unique ho']

theorem forall_faultless_call (hr : r.isCall = true) :
    (∀ s ∈ [Segment.reference r], c.FaultlessSegment out s) ↔ ∃ v, out r = .ok v := by
  constructor
  · exact fun h => (h _ (List.mem_singleton.2 rfl) r rfl).1 hr
  · rintro h s hs r' rfl
    cases List.mem_singleton.1 hs
    exact ⟨fun _ => h, fun hc => (by rw [hr] at hc; cases hc)⟩

theorem forall_faultless_variable (hr : r.isCall = false) :
    (∀ s ∈ [Segment.reference r], c.FaultlessSegment out s) ↔ c.Faultless out r.name := by
  constructor
  · exact fun h => (h _ (List.mem_singleton.2 rfl) r rfl).2 hr
  · rintro h s hs r' rfl
    cases List.mem_singleton.1 hs
    exact ⟨fun hc => (by rw [hr] at hc; cases hc), fun _ => h⟩

/-! ### Refused calls -/

theorem refuses_nil : ¬ c.Refuses out k [] := by
  intro h
  cases h

theorem refuses_cons :
    c.Refuses out k (s :: rest) ↔
      c.Refuses out k [s] ∨ (¬ c.IsDeep k s ∧ c.Refuses out k rest) := by
  constructor
  · intro h
    cases h with
    | call hr he => exact .inl (.call hr he)
    | inside hr ho hi => exact .inl (.inside hr ho hi)
    | later hd hr => exact .inr ⟨hd, hr⟩
  · rintro (h | ⟨hd, hr⟩)
    · cases h with
      | call hr he => exact .call hr he
      | inside hr ho hi => exact .inside hr ho hi
      | later _ hr => exact absurd hr refuses_nil
    · exact .later hd hr

theorem refuses_literal {text : String} {span : Span} :
    ¬ c.Refuses out k [.literal text span] := by
  intro h
  cases h with
  | later _ hr => exact refuses_nil hr

theorem refuses_call (hr : r.isCall = true) :
    c.Refuses out k [.reference r] ↔ ∃ e, out r = .error (.refused e) := by
  constructor
  · intro h
    cases h with
    | call _ he => exact ⟨_, he⟩
    | inside hr' => rw [hr] at hr'; cases hr'
    | later _ h => exact absurd h refuses_nil
  · rintro ⟨e, he⟩
    exact .call hr he

theorem refuses_variable (hr : r.isCall = false) :
    c.Refuses out k [.reference r] ↔ c.NameRefuses out k r.name := by
  constructor
  · intro h
    cases h with
    | call hr' => rw [hr] at hr'; cases hr'
    | inside _ ho hi => exact ⟨_, _, rfl, ho, hi⟩
    | later _ h => exact absurd h refuses_nil
  · rintro ⟨j, segments, rfl, ho, hi⟩
    exact .inside hr ho hi

theorem nameRefuses_succ (ho : c.Opens n segments) :
    c.NameRefuses out (k + 1) n ↔ c.Refuses out k segments := by
  constructor
  · rintro ⟨j, inner, hj, ho', hr⟩
    cases hj
    rwa [ho.unique ho']
  · exact fun hr => ⟨k, segments, rfl, ho, hr⟩

end Context
end Stencil
