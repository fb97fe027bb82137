/-
# Expanding gives the meaning

With a cache that keeps nothing, and functions whose outputs depend on their
arguments only, an expansion that is not refused gives the meaning of what is
expanded; it is too deep just where a chain of references is as long as there
are levels, refused just where a refused call is met, and lists no failure just
where nothing is at fault.

Key definitions: `Ready`, `Knows`, `NameAnswer`, `SegmentsAnswer`,
`TemplateAnswer`.
Key theorems: `expandVariable_answer`, `expandTemplate_answer`.
-/
import Stencil.Proofs.Context.Meaning
import Stencil.Proofs.Expansion.Plain
import Stencil.Proofs.Function

namespace Stencil

open Template Context

namespace Pass

open Ledger

/-- A ledger without a failure lists none as reported, and no name is circular. -/
structure Ready (p : Pass) (l : Ledger) : Prop where
  idle : l.cache.IsIdle
  tidy : l.recentFailures = [] → l.reported = [] ∧ p.circular = []

/-- Of a name and all that it refers to, a pass knows which lie on reference cycles, and that they
can be looked up. -/
def Knows (p : Pass) (n : String) : Prop :=
  ∀ m, Relation.ReflTransGen p.context.Refers n m →
    ((p.cycle? m).isSome ↔ p.context.OnCycle m) ∧ ∃ d?, p.context.define? m = .ok d?

/-- What the expansion of a name with `left` levels allowed comes to. -/
inductive NameAnswer (p : Pass) (out : Reference → Except CallStop String) (left : Nat) (n : String)
    (l : Ledger) : Except Stop Expansion × Ledger → Prop where
  | ok {x : Expansion} {l' : Ledger} (hd : ¬ p.context.Chains left n)
      (hr : ¬ p.context.NameRefuses out left n) (hm : p.context.NameMeans out n x.text)
      (hl : p.Ready l')
      (hf : l'.recentFailures = [] ↔ l.recentFailures = [] ∧ p.context.Faultless out n) :
      NameAnswer p out left n l (.ok x, l')
  | tooDeep {m : String} {inner : List String} {l' : Ledger} (hd : p.context.Chains left n)
      (hr : ¬ p.context.NameRefuses out left n) (hl : p.Ready l')
      (hf : l'.recentFailures = [] → l.recentFailures = []) :
      NameAnswer p out left n l (.error (.tooDeep m inner), l')
  | refused {r : Refusal} {l' : Ledger} (hr : p.context.NameRefuses out left n)
      (he : ∃ q, out q = .error (.refused r)) :
      NameAnswer p out left n l (.error (.refused r), l')

/-- What the expansion of segments with `left` levels allowed comes to. -/
inductive SegmentsAnswer (p : Pass) (out : Reference → Except CallStop String) (left : Nat)
    (segments : List Segment) (l : Ledger) : Except Stop Expansion × Ledger → Prop where
  | ok {x : Expansion} {l' : Ledger} (hd : ∀ s ∈ segments, ¬ p.context.IsDeep left s)
      (hr : ¬ p.context.Refuses out left segments) (hm : p.context.Means out segments x.text)
      (hl : p.Ready l')
      (hf : l'.recentFailures = [] ↔
        l.recentFailures = [] ∧ ∀ s ∈ segments, p.context.FaultlessSegment out s) :
      SegmentsAnswer p out left segments l (.ok x, l')
  | tooDeep {m : String} {inner : List String} {l' : Ledger}
      (hd : ∃ s ∈ segments, p.context.IsDeep left s)
      (hr : ¬ p.context.Refuses out left segments) (hl : p.Ready l')
      (hf : l'.recentFailures = [] → l.recentFailures = []) :
      SegmentsAnswer p out left segments l (.error (.tooDeep m inner), l')
  | refused {r : Refusal} {l' : Ledger} (hr : p.context.Refuses out left segments)
      (he : ∃ q, out q = .error (.refused r)) :
      SegmentsAnswer p out left segments l (.error (.refused r), l')

/-- What the expansion of a template comes to. -/
inductive TemplateAnswer (p : Pass) (out : Reference → Except CallStop String)
    (segments : List Segment) (l : Ledger) : Except Refusal Expansion × Ledger → Prop where
  | ok {x : Expansion} {l' : Ledger}
      (hr : ¬ ∃ s ∈ segments, p.context.Refuses out p.maxDepth [s])
      (hm : p.context.TemplateMeans out p.maxDepth segments x.text) (hl : p.Ready l')
      (hf : l'.recentFailures = [] ↔ l.recentFailures = [] ∧
        ∀ s ∈ segments, p.context.FaultlessSegment out s ∧ ¬ p.context.IsDeep p.maxDepth s) :
      TemplateAnswer p out segments l (.ok x, l')
  | refused {r : Refusal} {l' : Ledger}
      (hr : ∃ s ∈ segments, p.context.Refuses out p.maxDepth [s])
      (he : ∃ q, out q = .error (.refused r)) :
      TemplateAnswer p out segments l (.error r, l')

variable {p : Pass} {out : Reference → Except CallStop String} {left : Nat} {n : String}
  {l l' : Ledger} {s : Segment} {r : Reference} {segments rest : List Segment}

/-! ### Ledgers -/

theorem Ready.note (h : p.Ready l) (e : Event) : p.Ready (l.note e) := ⟨h.idle, h.tidy⟩

theorem Ready.of_failures {l' : Ledger} (hi : l'.cache.IsIdle) (h : l'.recentFailures ≠ []) :
    p.Ready l' := ⟨hi, fun hn => absurd hn h⟩

/-- Listing a failure leaves one listed, even if one of its kind was before. -/
theorem fail_ne_nil (h : l.recentFailures = [] → l.reported = []) (n : String) (f : Failure) :
    (l.fail n f).recentFailures ≠ [] := by
  unfold Ledger.fail
  split_ifs with hr
  · intro hn
    rw [h hn] at hr
    cases hr
  · exact List.cons_ne_nil _ _

theorem Ready.fail_ne_nil (h : p.Ready l) (n : String) (f : Failure) :
    (l.fail n f).recentFailures ≠ [] :=
  Pass.fail_ne_nil (fun hn => (h.tidy hn).1) n f

theorem Ready.fail (h : p.Ready l) (n : String) (f : Failure) : p.Ready (l.fail n f) :=
  .of_failures ((fail_cache l n f).symm ▸ h.idle) (h.fail_ne_nil n f)

/-! ### Calls and segments -/

theorem SegmentsAnswer.literal {text : String} {span : Span} (hl : p.Ready l) :
    SegmentsAnswer p out left [.literal text span] l (.ok { text }, l) := by
  have hd : ∀ s ∈ [Segment.literal text span], ¬ p.context.IsDeep left s := by
    rintro s hs ⟨r, rfl, -⟩
    cases List.mem_singleton.1 hs
  refine .ok hd refuses_literal means_literal hl ?_
  refine ⟨fun h => ⟨h, ?_⟩, And.left⟩
  rintro s hs r rfl
  cases List.mem_singleton.1 hs

/-- A call has its answer, whether it is a call of the template or of a value, unless it is
refused. -/
theorem expandCall_answer (hout : p.library.Gives out) (hr : r.isCall = true) (depth : Int)
    (hl : p.Ready l) :
    (∃ x l', p.expandCall depth r l = (.ok x, l') ∧
      SegmentsAnswer p out left [.reference r] l (.ok x, l')) ∨
    ∃ e l', p.expandCall depth r l = (.error e, l') ∧ out r = .error (.refused e) := by
  have ho : (p.library.invoke r.name r.arguments l.sources).1 = out r := hout r l.sources
  have hd : ∀ s ∈ [Segment.reference r], ¬ p.context.IsDeep left s := by
    intro s hs
    rw [List.mem_singleton.1 hs]
    exact not_isDeep_call hr
  have hgoes := expandCall_goes p depth r l
  generalize p.expandCall depth r l = a at hgoes
  cases hgoes with
  | @called text s hi =>
    rw [hi] at ho
    have hn : ¬ p.context.Refuses out left [.reference r] := by
      rw [refuses_call hr, ← ho]
      rintro ⟨e, he⟩
      cases he
    refine .inl ⟨_, _, rfl, .ok hd hn (means_call hr ho.symm) ⟨hl.idle, hl.tidy⟩
      ⟨fun h => ⟨h, ?_⟩, And.left⟩⟩
    rw [forall_faultless_call hr]
    exact ⟨text, ho.symm⟩
  | @failed f s hi =>
    rw [hi] at ho
    have hn : ¬ p.context.Refuses out left [.reference r] := by
      rw [refuses_call hr, ← ho]
      rintro ⟨e, he⟩
      cases he
    refine .inl ⟨_, _, rfl, .ok hd hn (means_failed hr ho.symm)
      (.of_failures hl.idle (List.cons_ne_nil _ _)) ⟨fun h => absurd h (List.cons_ne_nil _ _), ?_⟩⟩
    rw [forall_faultless_call hr, ← ho]
    rintro ⟨-, v, hv⟩
    cases hv
  | @refused e s hi =>
    rw [hi] at ho
    exact .inr ⟨e, _, rfl, ho.symm⟩

theorem NameAnswer.segment {a : Except Stop Expansion × Ledger} (hr : r.isCall = false)
    (ha : NameAnswer p out left r.name l a) : SegmentsAnswer p out left [.reference r] l a := by
  cases ha with
  | ok hd hr' hm hl hf =>
    refine .ok ?_ (by rwa [refuses_variable hr]) (hm.means hr) hl
      (by rw [forall_faultless_variable hr]; exact hf)
    intro s hs
    rw [List.mem_singleton.1 hs, isDeep_variable hr]
    exact hd
  | tooDeep hd hr' hl hf =>
    exact .tooDeep ⟨_, List.mem_singleton.2 rfl, (isDeep_variable hr).2 hd⟩
      (by rwa [refuses_variable hr]) hl hf
  | refused hr' he => exact .refused ((refuses_variable hr).2 hr') he

theorem expandSegment_answer (hout : p.library.Gives out) (depth : Int)
    {expand : String → Ledger → Except Stop Expansion × Ledger}
    (he : ∀ r, s = .reference r → r.isCall = false →
      NameAnswer p out left r.name l (expand r.name l)) (hl : p.Ready l) :
    SegmentsAnswer p out left [s] l (p.expandSegment depth .refused expand s l) := by
  cases s with
  | literal text span => exact .literal hl
  | reference r =>
    cases hr : r.isCall with
    | false =>
      rw [expandSegment_variable hr]
      exact (he r rfl hr).segment hr
    | true =>
      simp only [expandSegment, hr, if_true]
      rcases expandCall_answer hout hr depth hl with ⟨x, l', hx, ha⟩ | ⟨e, l', hx, hn⟩
      · rw [hx]
        exact ha
      · rw [hx]
        exact .refused ((refuses_call hr).2 ⟨e, hn⟩) ⟨r, hn⟩

/-- Segments are expanded one after another, up to the first that is too deep or refused. -/
theorem expandAll_answer (hout : p.library.Gives out) (depth : Int) (segments : List Segment)
    {expand : String → Ledger → Except Stop Expansion × Ledger}
    (he : ∀ r l, .reference r ∈ segments → r.isCall = false → p.Ready l →
      NameAnswer p out left r.name l (expand r.name l)) (hl : p.Ready l) :
    SegmentsAnswer p out left segments l (p.expandAll depth .refused expand segments l) := by
  induction segments generalizing l with
  | nil =>
    exact .ok (fun s hs => absurd hs List.not_mem_nil) refuses_nil .nil hl
      ⟨fun h => ⟨h, fun s hs => absurd hs List.not_mem_nil⟩, And.left⟩
  | cons s rest ih =>
    have hs := expandSegment_answer (s := s) hout depth
      (fun r hr hc => he r l (hr ▸ List.mem_cons_self) hc hl) hl
    generalize ha : p.expandSegment depth .refused expand s l = a at hs
    cases hs with
    | refused hr he =>
      rw [expandAll_head ha]
      exact .refused (refuses_cons.2 (.inl hr)) he
    | tooDeep hd hr hl' hf =>
      obtain ⟨s', hs', hd⟩ := hd
      obtain rfl := List.mem_singleton.1 hs'
      rw [expandAll_head ha]
      refine .tooDeep ⟨_, List.mem_cons_self, hd⟩ ?_ hl' hf
      rw [refuses_cons]
      rintro (h | ⟨h, -⟩)
      · exact hr h
      · exact h hd
    | ok hd hr hm hl' hf =>
      have hds := hd s (List.mem_singleton.2 rfl)
      have hrest := ih (fun r l hr => he r l (List.mem_cons_of_mem _ hr)) hl'
      rename_i x l'
      generalize hb : p.expandAll depth .refused expand rest l' = b at hrest
      cases hrest with
      | refused hr' he =>
        rw [expandAll_tail ha hb]
        exact .refused (refuses_cons.2 (.inr ⟨hds, hr'⟩)) he
      | tooDeep hd' hr' hl'' hf' =>
        obtain ⟨s', hs', hd'⟩ := hd'
        rw [expandAll_tail ha hb]
        refine .tooDeep ⟨s', List.mem_cons_of_mem _ hs', hd'⟩ ?_ hl'' fun h => (hf.1 (hf' h)).1
        rw [refuses_cons]
        rintro (h | ⟨-, h⟩)
        · exact hr h
        · exact hr' h
      | ok hd' hr' hm' hl'' hf' =>
        rw [expandAll_ok ha hb]
        refine .ok ?_ ?_ (hm.cons hm') hl'' ?_
        · rw [List.forall_mem_cons]
          exact ⟨hds, hd'⟩
        · rw [refuses_cons]
          rintro (h | ⟨-, h⟩)
          · exact hr h
          · exact hr' h
        · rw [hf', hf, List.forall_mem_singleton, List.forall_mem_cons, and_assoc]

/-! ### Variables -/

theorem settle_failures (p : Pass) (n : String) (d : Definition) (x : Expansion) (l : Ledger) :
    (p.settle n d x l).2.recentFailures = l.recentFailures ∧
      (p.settle n d x l).2.reported = l.reported := by
  have hs := settle_goes p n d x l
  generalize p.settle n d x l = a at hs ⊢
  cases hs <;> exact ⟨rfl, rfl⟩

theorem Ready.settle (h : p.Ready l) (n : String) (d : Definition) (x : Expansion) :
    ∃ l', p.settle n d x l = (.ok x, l') ∧ p.Ready l' ∧ l'.recentFailures = l.recentFailures := by
  obtain ⟨l', hs, hi⟩ := settle_idle p n d x h.idle
  obtain ⟨hf, hr⟩ := settle_failures p n d x l
  rw [hs] at hf hr
  exact ⟨l', hs, ⟨hi, by rw [hf, hr]; exact h.tidy⟩, hf⟩

/-- What becomes of a name once the expansion of its value is known. -/
theorem SegmentsAnswer.settle {x : Expansion} {l₀ l₁ : Ledger} (ho : p.context.Opens n segments)
    (ha : SegmentsAnswer p out left segments l₀ (.ok x, l₁))
    (h₀ : l₀.recentFailures = l.recentFailures) {l₂ : Ledger} (hl : p.Ready l₂)
    (h₂ : l₂.recentFailures = l₁.recentFailures) (d : Definition) :
    NameAnswer p out (left + 1) n l (p.settle n d x l₂) := by
  obtain ⟨l', hs, hr', hf'⟩ := hl.settle n d x
  rw [hs]
  cases ha with
  | ok hd hr hm _ hf =>
    refine .ok ?_ (by rwa [nameRefuses_succ ho]) (.inr ⟨segments, ho, hm⟩) hr' ?_
    · rw [chains_succ ho]
      rintro ⟨s, hs, hd'⟩
      exact hd s hs hd'
    · rw [hf', h₂, hf, h₀, forall_faultless ho]

theorem expandAll_literals {ε : Type} {stop : Refusal → ε} {depth : Int}
    {expand : String → Ledger → Except ε Expansion × Ledger}
    (hs : ∀ s ∈ segments, s.isReference = false) :
    p.expandAll depth stop expand segments l =
      (.ok { text := String.ofList (sources segments) }, l) := by
  induction segments with
  | nil => rfl
  | cons s rest ih =>
    cases s with
    | literal text span =>
      have hrest := ih fun s hm => hs s (List.mem_cons_of_mem _ hm)
      have hx : p.expandSegment depth stop expand (.literal text span) l = (.ok { text }, l) := rfl
      have ha := append_literal text (String.ofList (sources rest)) 0
      rw [expandAll_ok hx hrest, sources_cons, String.ofList_append, Segment.source,
        String.ofList_toList]
      exact congrArg (fun x => (Except.ok x, l)) ha
    | reference r => exact absurd (hs _ List.mem_cons_self) (by simp [Segment.isReference])

theorem expandValue_answer (hout : p.library.Gives out) {d : Definition} (depth : Int)
    {expand : String → Ledger → Except Stop Expansion × Ledger}
    (he : ∀ r l, .reference r ∈ segments → r.isCall = false → p.Ready l →
      NameAnswer p out left r.name l (expand r.name l))
    (hd : p.context.define? n = .ok (some d)) (hp : d.parsed = .ok segments)
    (hn : ¬ p.context.OnCycle n) {l₀ : Ledger} (hl : p.Ready l)
    (h₀ : l.recentFailures = l₀.recentFailures) :
    NameAnswer p out (left + 1) n l₀ (p.expandValue depth expand n d segments l) := by
  have ho : p.context.Opens n segments := ⟨hn, d, hd, hp⟩
  cases hr : segments.any Segment.isReference with
  | false =>
    have hall := expandAll_answer hout (depth + 1) segments he hl
    rw [expandAll_literals (by simpa using hr), define?_text hd hp] at hall
    rw [expandValue_literal hr]
    exact hall.settle ho h₀ (hl.note _) rfl d
  | true =>
    have hall := expandAll_answer hout (depth + 1) segments he
      (hl.note (p.lookupEvent n d true depth))
    generalize hx : p.expandAll (depth + 1) .refused expand segments
      (l.note (p.lookupEvent n d true depth)) = a at hall
    cases hall with
    | refused hr' he =>
      rw [expandValue_refused hr hx]
      exact .refused ((nameRefuses_succ ho).2 hr') he
    | tooDeep hd' hr' hl' hf =>
      rw [expandValue_tooDeep hr hx]
      exact .tooDeep ((chains_succ ho).2 hd') (by rwa [nameRefuses_succ ho]) hl' fun h => h₀ ▸ hf h
    | ok hd' hr' hm hl' hf =>
      rw [expandValue_ok hr hx]
      have ha : SegmentsAnswer p out left segments (l.note (p.lookupEvent n d true depth)) _ :=
        .ok hd' hr' hm hl' hf
      exact ha.settle ho h₀ (hl'.note _) rfl d

/-- A name that cannot be opened is its marker, and its failure is listed. -/
theorem NameAnswer.blocked (hb : p.context.Blocked n) (hd : ¬ p.context.Chains left n)
    (hl : p.Ready l') (hf : l'.recentFailures ≠ []) :
    NameAnswer p out left n l (.ok (.failed n), l') := by
  refine .ok hd ?_ (.inl ⟨hb, rfl⟩) hl ⟨fun h => absurd h hf, ?_⟩
  · rintro ⟨j, segments, -, ho, -⟩
    exact ho.not_blocked hb
  · rintro ⟨-, h⟩
    obtain ⟨segments, ho, -⟩ := h n .refl
    exact absurd hb ho.not_blocked

theorem NameAnswer.below {a : Except Stop Expansion × Ledger}
    (ha : NameAnswer p out left n l a) : NameAnswer p out left n l (below a) := by
  cases ha with
  | ok hd hr hm hl hf => exact .ok hd hr hm hl hf
  | tooDeep hd hr hl hf => exact .tooDeep hd hr hl hf
  | refused hr he => exact .refused hr he

theorem Knows.refers {m : String} (h : p.Knows n) (hr : p.context.Refers n m) : p.Knows m :=
  fun x hx => h x (.head hr hx)

theorem Knows.cycle?_eq_none (h : p.Knows n) : p.cycle? n = none ↔ ¬ p.context.OnCycle n := by
  rw [← (h n .refl).1, Option.not_isSome_iff_eq_none]

theorem circular_answer {cycle : List String} (hk : p.Knows n) (hl : p.Ready l)
    (hc : p.cycle? n = some cycle) :
    NameAnswer p out left n l (p.expandVariable left n l) := by
  have ho : p.context.OnCycle n := (hk n .refl).1.1 (by rw [hc]; rfl)
  have hf : l.recentFailures ≠ [] := by
    intro h
    rw [cycle?, (hl.tidy h).2] at hc
    cases hc
  rw [expandVariable_circular hc]
  exact .blocked (.inl ho) (fun h => h.not_onCycle ho) (hl.note _) hf

theorem expandDefined_answer (hout : p.library.Gives out) (hk : p.Knows n)
    (hn : ¬ p.context.OnCycle n) (depth : Int)
    {expand : String → Ledger → Except Stop Expansion × Ledger}
    (he : ∀ m l, p.Knows m → p.Ready l → NameAnswer p out left m l (expand m l)) {l₀ : Ledger}
    (hl : p.Ready l) (h₀ : l.recentFailures = l₀.recentFailures) :
    NameAnswer p out (left + 1) n l₀ (p.expandDefined depth expand n l) := by
  have ha := expandDefined_goes p depth expand n l
  generalize p.expandDefined depth expand n l = a at ha ⊢
  cases ha with
  | refused hd =>
    obtain ⟨d?, hd'⟩ := (hk n .refl).2
    cases hd.symm.trans hd'
  | undefined hd =>
    have hr := hl.note (undefinedEvent n depth)
    refine .blocked (.inr (.inl hd)) (not_chains ?_) (hr.fail _ _) (hr.fail_ne_nil _ _)
    rintro m ⟨e, he, -⟩
    cases hd.symm.trans he
  | @malformed d f hd hp =>
    have hr := hl.note (p.malformedEvent n d (.ofFault f) depth)
    refine .blocked (.inr (.inr ⟨d, f, hd, hp⟩)) (not_chains ?_) (hr.fail _ _)
      (hr.fail_ne_nil _ _)
    rintro m ⟨e, he, hm⟩
    cases hd.symm.trans he
    rw [Definition.references, hp] at hm
    cases hm
  | @value d segments hd hp =>
    have hrefers : ∀ r, .reference r ∈ segments → r.isCall = false → p.context.Refers n r.name :=
      fun r hr hc => (refers_iff hd hp).2 (mem_variableNames.2 ⟨r, hr, hc, rfl⟩)
    exact expandValue_answer hout depth
      (fun r l hr hc hl => he r.name l (hk.refers (hrefers r hr hc)) hl) hd hp hn hl h₀

/-- **The expansion of a variable gives the meaning of its name.** -/
theorem expandVariable_answer (left : Nat) (hout : p.library.Gives out) (hk : p.Knows n)
    (hl : p.Ready l) : NameAnswer p out left n l (p.expandVariable left n l) := by
  induction left generalizing n l with
  | zero =>
    cases hc : p.cycle? n with
    | some cycle => exact circular_answer hk hl hc
    | none =>
      have hn := hk.cycle?_eq_none.1 hc
      rw [expandVariable_zero hc]
      refine .tooDeep hn ?_ (hl.note _) id
      rintro ⟨j, segments, hj, -⟩
      cases hj
  | succ left ih =>
    cases hc : p.cycle? n with
    | some cycle => exact circular_answer hk hl hc
    | none =>
      have hn := hk.cycle?_eq_none.1 hc
      obtain ⟨c, hi, hx⟩ := expandVariable_idle left hc hl.idle
      have hl' : p.Ready { l with cache := c } := ⟨hi, hl.tidy⟩
      rw [hx]
      exact expandDefined_answer hout hk hn _ (fun m l hm hl => (ih hm hl).below) (hl'.note _) rfl

/-! ### Templates -/

theorem SegmentsAnswer.template {x : Expansion}
    (ha : SegmentsAnswer p out p.maxDepth [s] l (.ok x, l')) :
    TemplateAnswer p out [s] l (.ok x, l') := by
  cases ha with
  | ok hd hr hm hl hf =>
    rw [List.forall_mem_singleton] at hd
    have ht : p.context.TemplateMeans out p.maxDepth [s] (x.text ++ "") := .other hd hm .nil
    rw [String.append_empty] at ht
    refine .ok ?_ ht hl ?_
    · rintro ⟨s', hs, h⟩
      obtain rfl := List.mem_singleton.1 hs
      exact hr h
    · rw [hf, List.forall_mem_singleton, List.forall_mem_singleton]
      exact ⟨fun h => ⟨h.1, h.2, hd⟩, fun h => ⟨h.1, h.2.1⟩⟩

/-- A variable of the template that is too deep is its marker, and its failure is listed. -/
theorem expandTop_answer (hout : p.library.Gives out) (hk : p.Knows r.name)
    (hr : r.isCall = false) (hl : p.Ready l) :
    TemplateAnswer p out [.reference r] l (p.expandTop r.name l) := by
  have ha := (expandVariable_answer p.maxDepth hout hk hl).segment hr
  unfold expandTop
  generalize p.expandVariable p.maxDepth r.name l = a at ha ⊢
  cases ha with
  | ok hd hr' hm hl' hf =>
    have hok : SegmentsAnswer p out p.maxDepth [.reference r] l _ := .ok hd hr' hm hl' hf
    exact hok.template
  | refused hr' he => exact .refused ⟨_, List.mem_singleton.2 rfl, hr'⟩ he
  | tooDeep hd hr' hl' =>
    obtain ⟨s, hs, hd⟩ := hd
    obtain rfl := List.mem_singleton.1 hs
    have ht : p.context.TemplateMeans out p.maxDepth [.reference r] (Marker.marker r.name ++ "") :=
      .deep hr ((isDeep_variable hr).1 hd) .nil
    rw [String.append_empty] at ht
    refine .ok ?_ ht (hl'.fail _ _) ⟨fun h => absurd h (hl'.fail_ne_nil _ _), fun h => ?_⟩
    · rintro ⟨s', hs, h⟩
      obtain rfl := List.mem_singleton.1 hs
      exact hr' h
    · exact absurd hd (h.2 _ (List.mem_singleton.2 rfl)).2

theorem expandSegment_top (hout : p.library.Gives out)
    (hk : ∀ r, s = .reference r → r.isCall = false → p.Knows r.name) (hl : p.Ready l) :
    TemplateAnswer p out [s] l (p.expandSegment 0 id p.expandTop s l) := by
  cases s with
  | literal text span => exact (SegmentsAnswer.literal hl).template
  | reference r =>
    cases hr : r.isCall with
    | false =>
      rw [expandSegment_variable hr]
      exact expandTop_answer hout (hk r rfl hr) hr hl
    | true =>
      simp only [expandSegment, hr, if_true]
      rcases expandCall_answer hout hr 0 hl with ⟨x, l', hx, ha⟩ | ⟨e, l', hx, hn⟩
      · rw [hx]
        exact ha.template
      · rw [hx]
        exact .refused ⟨_, List.mem_singleton.2 rfl, (refuses_call hr).2 ⟨e, hn⟩⟩ ⟨r, hn⟩

/-- **The expansion of a template gives its meaning.** -/
theorem expandTemplate_answer (hout : p.library.Gives out)
    (hk : ∀ r, .reference r ∈ segments → r.isCall = false → p.Knows r.name)
    (hl : p.Ready (p.failCircular l)) :
    TemplateAnswer p out segments (p.failCircular l) (p.expandTemplate segments l) := by
  unfold expandTemplate
  generalize p.failCircular l = l at hl ⊢
  induction segments generalizing l with
  | nil =>
    refine .ok ?_ .nil hl ⟨fun h => ⟨h, fun s hs => absurd hs List.not_mem_nil⟩, And.left⟩
    rintro ⟨s, hs, -⟩
    exact absurd hs List.not_mem_nil
  | cons s rest ih =>
    have hs := expandSegment_top (s := s) hout
      (fun r hr hc => hk r (hr ▸ List.mem_cons_self) hc) hl
    generalize ha : p.expandSegment 0 id p.expandTop s l = a at hs
    cases hs with
    | refused hr he =>
      obtain ⟨s', hs', hr⟩ := hr
      obtain rfl := List.mem_singleton.1 hs'
      rw [expandAll_head ha]
      exact .refused ⟨_, List.mem_cons_self, hr⟩ he
    | @ok x l' hr hm hl' hf =>
      have hrest := ih (fun r hr => hk r (List.mem_cons_of_mem _ hr)) _ hl'
      generalize hb : p.expandAll 0 id p.expandTop rest l' = b at hrest
      cases hrest with
      | refused hr' he =>
        obtain ⟨s', hs', hr'⟩ := hr'
        rw [expandAll_tail ha hb]
        exact .refused ⟨s', List.mem_cons_of_mem _ hs', hr'⟩ he
      | ok hr' hm' hl'' hf' =>
        rw [expandAll_ok ha hb]
        refine .ok ?_ (TemplateMeans.cons hm hm') hl'' ?_
        · rintro ⟨s', hs', h⟩
          rcases List.mem_cons.1 hs' with rfl | hs'
          · exact hr ⟨_, List.mem_singleton.2 rfl, h⟩
          · exact hr' ⟨s', hs', h⟩
        · rw [hf', hf, List.forall_mem_singleton, List.forall_mem_cons, and_assoc]

/-! ### Circular names -/

/-- Listing the circular names as failed leaves a failure if there is such a name. -/
theorem failCircular_ne_nil (hr : l.recentFailures = [] → l.reported = [])
    (hc : p.circular ≠ []) : (p.failCircular l).recentFailures ≠ [] := by
  have hmore : ∀ {l : Ledger} (n : String) (f : Failure), l.recentFailures ≠ [] →
      (l.fail n f).recentFailures ≠ [] := by
    intro l n f h
    unfold Ledger.fail
    split_ifs
    · exact h
    · exact List.cons_ne_nil _ _
  unfold failCircular
  generalize p.circular = cs at hc
  cases cs with
  | nil => exact absurd rfl hc
  | cons c cs =>
    have h := fail_ne_nil hr c.1 (.circular c.1 c.2)
    rw [List.foldl_cons]
    change (List.foldl _ (l.fail c.1 (.circular c.1 c.2)) cs).recentFailures ≠ []
    clear hc
    generalize l.fail c.1 (.circular c.1 c.2) = l₁ at h ⊢
    induction cs generalizing l₁ with
    | nil => exact h
    | cons x cs ih => exact ih _ (hmore x.1 (.circular x.1 x.2) h)

/-- From a ledger without a failure, listing the circular names leaves one with a failure if there
is such a name. -/
theorem failCircular_ready (hi : l.cache.IsIdle) (hf : l.recentFailures = [])
    (hr : l.reported = []) :
    p.Ready (p.failCircular l) ∧ ((p.failCircular l).recentFailures = [] ↔ p.circular = []) := by
  have hcache : (p.failCircular l).cache.IsIdle := (failCircular_cache p l).symm ▸ hi
  cases hc : p.circular with
  | nil =>
    have he : p.failCircular l = l := by
      unfold failCircular
      rw [hc]
      rfl
    rw [he]
    exact ⟨⟨hi, fun _ => ⟨hr, hc⟩⟩, ⟨fun _ => rfl, fun _ => hf⟩⟩
  | cons c cs =>
    have hne : (p.failCircular l).recentFailures ≠ [] :=
      failCircular_ne_nil (fun _ => hr) (by rw [hc]; exact List.cons_ne_nil _ _)
    exact ⟨.of_failures hcache hne, fun h => absurd h hne,
      fun h => absurd h (List.cons_ne_nil _ _)⟩

end Pass
end Stencil
