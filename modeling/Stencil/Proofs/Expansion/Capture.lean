/-
# Failures are listed, never thrown

Whatever a cache holds and whatever functions do, an expansion that begins with
a clock that can be read has an answer, or is too deep, or meets a call whose
result cannot be written. Nothing else is refused on the way, and where
anything fails or is left unresolved, a failure is listed.

Key definitions: `Candid`, `Permits`, `Sees`, `Caught`.
Key theorems: `expandVariable_caught`, `expandTemplate_caught`.
-/
import Stencil.Proofs.Expansion.Meaning
import Stencil.Proofs.Template.Arguments

namespace Stencil

open Template Context

namespace Pass

open Ledger

/-- A ledger whose sources have the property `T`, and that lists a failure just where a name is
unresolved; where it lists none, no failure is reported and no name is circular. -/
structure Candid (p : Pass) (T : Sources → Prop) (l : Ledger) : Prop where
  time : T l.sources
  tidy : l.recentFailures = [] →
    l.reported = [] ∧ p.circular = [] ∧ ∀ s ∈ l.status, s.2 = true
  marked : l.recentFailures ≠ [] → ∃ s ∈ l.status, s.2 = false

/-- The only refusal that a pass may meet: the result of one of the calls `M` cannot be written. -/
def Permits (p : Pass) (M : Reference → Prop) (r : Refusal) : Prop :=
  r = .unwritable ∧ ∃ q, M q ∧ p.library.Unwritable q

/-- What may end the expansion of a variable. -/
def PermitsStop (p : Pass) (M : Reference → Prop) : Stop → Prop
  | .tooDeep .. => True
  | .refused r => p.Permits M r

/-- A pass knows a name and all that it refers to, and meets no calls below it but those of `M`. -/
def Sees (p : Pass) (M : Reference → Prop) (n : String) : Prop :=
  p.Knows n ∧ ∀ m inner q, Relation.ReflTransGen p.context.Refers n m →
    p.context.Opens m inner → .reference q ∈ inner → q.isCall = true → M q

/-- The answer of an expansion that began with the ledger `l`: one that lists a failure if anything
failed, or an end that `R` allows. -/
inductive Caught (p : Pass) (T : Sources → Prop) {ε : Type} (R : ε → Prop) (l : Ledger) :
    Except ε Expansion × Ledger → Prop where
  | ok {x : Expansion} {l' : Ledger} (hl : p.Candid T l')
      (hm : l.recentFailures ≠ [] → l'.recentFailures ≠ [])
      (hx : x.isOk = false → l'.recentFailures ≠ []) : Caught p T R l (.ok x, l')
  | error {e : ε} {l' : Ledger} (hl : p.Candid T l') (he : R e) : Caught p T R l (.error e, l')

variable {p : Pass} {T : Sources → Prop} {M : Reference → Prop} {n : String} {l l' : Ledger}
  {r : Reference} {segments : List Segment}

/-! ### Ledgers -/

namespace Candid

theorem note (h : p.Candid T l) (e : Event) : p.Candid T (l.note e) := ⟨h.time, h.tidy, h.marked⟩

theorem withSources (h : p.Candid T l) {c : Cache} {s : Sources} (hs : T s) :
    p.Candid T { l with cache := c, sources := s } := ⟨hs, h.tidy, h.marked⟩

theorem markResolved (h : p.Candid T l) (n : String) : p.Candid T (l.markResolved n) := by
  unfold Ledger.markResolved
  rw [setResolved_eq]
  refine ⟨h.time, fun hf => ?_, fun hf => ?_⟩
  · obtain ⟨hr, hc, hs⟩ := h.tidy hf
    refine ⟨hr, hc, fun s hm => ?_⟩
    dsimp only at hm
    split_ifs at hm
    · exact hs s hm
    · rcases List.mem_append.1 hm with hm | hm
      · exact hs s hm
      · rw [List.mem_singleton.1 hm]
  · obtain ⟨s, hm, hs⟩ := h.marked hf
    refine ⟨s, ?_, hs⟩
    dsimp only
    split_ifs
    · exact hm
    · exact List.mem_append_left _ hm

/-- Once a failure is listed any name may be marked. -/
theorem markFailed (ht : T l.sources) (hf : l.recentFailures ≠ []) (n : String) :
    p.Candid T (l.markFailed n) :=
  ⟨ht, fun h => absurd h hf, fun _ => ⟨(n, false), mem_setFailed_iff.2 (.inr rfl), rfl⟩⟩

theorem list (h : p.Candid T l) (n : String) (f : Failure) : p.Candid T (l.list n f) :=
  .markFailed (l := {
    l with
    recentFailures := f :: l.recentFailures
    reported := (f.typeName, n) :: l.reported }) h.time (List.cons_ne_nil _ _) n

theorem fail_ne_nil (h : p.Candid T l) (n : String) (f : Failure) :
    (l.fail n f).recentFailures ≠ [] := Pass.fail_ne_nil (fun hf => (h.tidy hf).1) n f

theorem fail (h : p.Candid T l) (n : String) (f : Failure) : p.Candid T (l.fail n f) := by
  have hf := h.fail_ne_nil n f
  unfold Ledger.fail at hf ⊢
  split_ifs at hf ⊢
  · exact .markFailed h.time hf n
  · exact h.list n f

/-- **Nothing is unresolved just where no failure is listed.** -/
theorem failures_eq_nil (h : p.Candid T l) : l.recentFailures = [] ↔ l.unresolved = [] := by
  rw [List.eq_nil_iff_forall_not_mem (l := l.unresolved)]
  simp only [mem_unresolved]
  constructor
  · intro hf n hn
    cases (h.tidy hf).2.2 _ hn
  · intro hu
    by_contra hf
    obtain ⟨⟨n, ok⟩, hm, rfl⟩ := h.marked hf
    exact hu n hm

end Candid

section

variable {ε : Type} {R : ε → Prop}

theorem Caught.mono {a : Except ε Expansion × Ledger} (h : Caught p T R l a)
    (hl : l'.recentFailures ≠ [] → l.recentFailures ≠ []) : Caught p T R l' a := by
  cases h with
  | ok hc hm hx => exact .ok hc (fun hf => hm (hl hf)) hx
  | error hc he => exact .error hc he

/-- A failure that has just been listed is the answer's. -/
theorem Caught.failed (h : p.Candid T l') (hf : l'.recentFailures ≠ []) (x : Expansion) :
    Caught p T R l (.ok x, l') := .ok h (fun _ => hf) fun _ => hf

/-! ### Calls and segments -/

theorem expandCall_caught (hlib : p.library.Keeps T) (hM : M r)
    (ha : ∀ v ∈ r.arguments, v.isWritable = true) (depth : Int) (hl : p.Candid T l) :
    Caught p T (p.Permits M) l (p.expandCall depth r l) := by
  have hs := hlib.invoke r.name r.arguments hl.time
  have hr : ∀ e, p.library.outcome l.sources r = .error (.refused e) → p.Permits M e :=
    fun e he => ⟨Library.outcome_refused he, r, hM, Library.outcome_unwritable ha he⟩
  have hgoes := expandCall_goes p depth r l
  generalize p.expandCall depth r l = a at hgoes ⊢
  cases hgoes with
  | called hi =>
    rw [hi] at hs
    exact .ok (((hl.withSources hs).note _).markResolved _) id fun hx => by cases hx
  | failed hi =>
    rw [hi] at hs
    exact .failed (((hl.withSources hs).note _).list _ _) (List.cons_ne_nil _ _) _
  | refused hi =>
    rw [hi] at hs
    exact .error (hl.withSources hs) (hr _ (congrArg Prod.fst hi))

theorem expandSegment_caught {stop : Refusal → ε} {s : Segment}
    {expand : String → Ledger → Except ε Expansion × Ledger} (hlib : p.library.Keeps T)
    (hstop : ∀ r, p.Permits M r → R (stop r)) (depth : Int)
    (hcall : ∀ r, s = .reference r → r.isCall = true →
      M r ∧ ∀ v ∈ r.arguments, v.isWritable = true)
    (he : ∀ r, s = .reference r → r.isCall = false → Caught p T R l (expand r.name l))
    (hl : p.Candid T l) : Caught p T R l (p.expandSegment depth stop expand s l) := by
  cases s with
  | literal text span => exact .ok hl id fun hx => by cases hx
  | reference r =>
    cases hr : r.isCall with
    | false =>
      rw [expandSegment_variable hr]
      exact he r rfl hr
    | true =>
      obtain ⟨hM, ha⟩ := hcall r rfl hr
      have hc := expandCall_caught hlib hM ha depth hl
      simp only [expandSegment, hr, if_true]
      generalize p.expandCall depth r l = a at hc ⊢
      cases hc with
      | ok hl' hm hx => exact .ok hl' hm hx
      | error hl' he => exact .error hl' (hstop _ he)

/-- Segments are expanded one after another; a failure that is listed stays so. -/
theorem expandAll_caught {stop : Refusal → ε}
    {expand : String → Ledger → Except ε Expansion × Ledger} (hlib : p.library.Keeps T)
    (hstop : ∀ r, p.Permits M r → R (stop r)) (depth : Int) (segments : List Segment)
    (hcall : ∀ r, .reference r ∈ segments → r.isCall = true →
      M r ∧ ∀ v ∈ r.arguments, v.isWritable = true)
    (he : ∀ r l, .reference r ∈ segments → r.isCall = false → p.Candid T l →
      Caught p T R l (expand r.name l)) (hl : p.Candid T l) :
    Caught p T R l (p.expandAll depth stop expand segments l) := by
  induction segments generalizing l with
  | nil => exact .ok hl id fun hx => by cases hx
  | cons s rest ih =>
    have hs := expandSegment_caught (s := s) hlib hstop depth
      (fun r hr => hcall r (hr ▸ List.mem_cons_self))
      (fun r hr hc => he r l (hr ▸ List.mem_cons_self) hc hl) hl
    generalize ha : p.expandSegment depth stop expand s l = a at hs
    cases hs with
    | error hl' hR =>
      rw [expandAll_head ha]
      exact .error hl' hR
    | @ok x l' hl' hm hx =>
      have hrest := ih (fun r hr => hcall r (List.mem_cons_of_mem _ hr))
        (fun r l hr => he r l (List.mem_cons_of_mem _ hr)) hl'
      generalize hb : p.expandAll depth stop expand rest l' = b at hrest
      cases hrest with
      | error hl'' hR =>
        rw [expandAll_tail ha hb]
        exact .error hl'' hR
      | @ok y l'' hl'' hm' hy =>
        rw [expandAll_ok ha hb]
        refine .ok hl'' (fun hf => hm' (hm hf)) fun hxy => ?_
        rcases Bool.and_eq_false_iff.1 hxy with hf | hf
        · exact hm' (hx hf)
        · exact hy hf

end

/-! ### Variables -/

theorem settle_caught (hT : Sources.IsReadable T) {d : Definition} {x : Expansion}
    (hl : p.Candid T l) (hx : x.isOk = false → l.recentFailures ≠ []) :
    Caught p T (p.PermitsStop M) l (p.settle n d x l) := by
  have hm := hl.markResolved n
  obtain ⟨s, c, hk, hs⟩ := Cache.putNow_readable hT l.cache (p.entry n d x) hl.time
  have hgoes := settle_goes p n d x l
  generalize p.settle n d x l = a at hgoes ⊢
  cases hgoes with
  | failed ho => exact .failed (.markFailed hl.time (hx ho) n) (hx ho) x
  | impure ho => exact .ok hm id fun hf => by cases ho.symm.trans hf
  | kept ho _ hk' =>
    cases hk.symm.trans hk'
    exact .ok (hm.withSources hs) id fun hf => by cases ho.symm.trans hf
  | refused _ _ hk' => cases hk.symm.trans hk'

theorem expandValue_caught {d : Definition} {depth : Int}
    {expand : String → Ledger → Except Stop Expansion × Ledger} (hT : Sources.IsReadable T)
    (hlib : p.library.Keeps T)
    (hcall : ∀ r, .reference r ∈ segments → r.isCall = true →
      M r ∧ ∀ v ∈ r.arguments, v.isWritable = true)
    (he : ∀ r l, .reference r ∈ segments → r.isCall = false → p.Candid T l →
      Caught p T (p.PermitsStop M) l (expand r.name l)) (hl : p.Candid T l) :
    Caught p T (p.PermitsStop M) l (p.expandValue depth expand n d segments l) := by
  cases hr : segments.any Segment.isReference with
  | false =>
    rw [expandValue_literal hr]
    have hs : Caught p T (p.PermitsStop M) _ _ :=
      settle_caught hT (n := n) (d := d) (x := { text := d.text })
        (hl.note (p.lookupEvent n d false depth)) fun hx => by cases hx
    exact hs.mono id
  | true =>
    have hstop : ∀ r, p.Permits M r → p.PermitsStop M (.refused r) := fun _ h => h
    have hall := expandAll_caught hlib hstop (depth + 1) segments hcall he
      (hl.note (p.lookupEvent n d true depth))
    generalize hx : p.expandAll (depth + 1) .refused expand segments
      (l.note (p.lookupEvent n d true depth)) = a at hall
    cases hall with
    | @error e l' hl' hR =>
      cases e with
      | tooDeep m inner =>
        rw [expandValue_tooDeep hr hx]
        exact .error hl' trivial
      | refused r =>
        rw [expandValue_refused hr hx]
        exact .error hl' hR
    | @ok x l' hl' hm hx' =>
      rw [expandValue_ok hr hx]
      have hs : Caught p T (p.PermitsStop M) _ _ :=
        settle_caught hT (n := n) (d := d) (hl'.note (nestedEvent n d x depth)) hx'
      exact hs.mono hm

theorem Caught.below {a : Except Stop Expansion × Ledger}
    (h : Caught p T (p.PermitsStop M) l a) : Caught p T (p.PermitsStop M) l (below a) := by
  cases h with
  | ok hl' hm hx => exact .ok hl' hm hx
  | error hl' hR => exact .error hl' hR

theorem Sees.refers {m : String} (h : p.Sees M n) (hr : p.context.Refers n m) : p.Sees M m :=
  ⟨h.1.refers hr, fun x inner q hx => h.2 x inner q (.head hr hx)⟩

theorem expandDefined_caught (depth : Int)
    {expand : String → Ledger → Except Stop Expansion × Ledger} (hT : Sources.IsReadable T)
    (hlib : p.library.Keeps T)
    (hn : p.Sees M n) (hc : ¬ p.context.OnCycle n)
    (he : ∀ m l, p.Sees M m → p.Candid T l → Caught p T (p.PermitsStop M) l (expand m l))
    (hl : p.Candid T l) : Caught p T (p.PermitsStop M) l (p.expandDefined depth expand n l) := by
  have hgoes := expandDefined_goes p depth expand n l
  generalize p.expandDefined depth expand n l = a at hgoes ⊢
  cases hgoes with
  | refused hd =>
    obtain ⟨d?, hd'⟩ := (hn.1 n .refl).2
    cases hd.symm.trans hd'
  | undefined hd =>
    have hf := hl.note (undefinedEvent n depth)
    exact .failed (hf.fail _ _) (hf.fail_ne_nil _ _) _
  | @malformed d f hd hp =>
    have hf := hl.note (p.malformedEvent n d (.ofFault f) depth)
    exact .failed (hf.fail _ _) (hf.fail_ne_nil _ _) _
  | @value d segments hd hp =>
    have ho : p.context.Opens n segments := ⟨hc, d, hd, hp⟩
    have hparse := define?_parse hd
    rw [hp] at hparse
    exact expandValue_caught hT hlib
      (fun r hr hcall => ⟨hn.2 n segments r .refl ho hr hcall, parse_arguments hparse hr⟩)
      (fun r l hr hcall hl => he r.name l (hn.refers (ho.refers.2 ⟨r, hr, hcall, rfl⟩)) hl) hl

/-- A name that a pass takes for circular has been listed as failed. -/
theorem Candid.circular {cycle : List String} (h : p.Candid T l) (hc : p.cycle? n = some cycle) :
    l.recentFailures ≠ [] := by
  intro hf
  rw [cycle?, (h.tidy hf).2.1] at hc
  cases hc

/-- The cache can be asked, and its sources go on to be readable. -/
theorem Candid.findNow (h : p.Candid T l) (hT : Sources.IsReadable T) {k : Cache.Key}
    {e? : Option Cache.Entry} {c : Cache} {s : Sources}
    (hf : l.cache.findNow k l.sources = .ok (e?, c, s)) :
    p.Candid T { l with cache := c, sources := s } := by
  obtain ⟨e?', c', s', hf', hs⟩ := Cache.findNow_readable hT l.cache k h.time
  cases hf.symm.trans hf'
  exact h.withSources hs

/-- **Whatever the cache holds, expanding a variable is refused only for a result that cannot be
written.** -/
theorem expandVariable_caught (left : Nat) (hT : Sources.IsReadable T)
    (hlib : p.library.Keeps T) (hn : p.Sees M n) (hl : p.Candid T l) :
    Caught p T (p.PermitsStop M) l (p.expandVariable left n l) := by
  induction left, n, l using p.expandVariable_induct with
  | circular left n l cycle hc => exact .failed (hl.note _) (hl.circular hc) _
  | bound n l hc => exact .error (hl.note _) trivial
  | refused left n l r hc hf =>
    obtain ⟨e?, c, s, hf', -⟩ := Cache.findNow_readable hT l.cache (p.key n) hl.time
    cases hf.symm.trans hf'
  | miss left n l c s hc hf ih =>
    have hnote := (hl.findNow hT hf).note (missEvent n (p.depthAt (left + 1)))
    have hx := expandDefined_caught (p.depthAt (left + 1)) hT hlib hn
      (hn.1.cycle?_eq_none.1 hc) (fun m l hm hl => (ih m l hm hl).below) hnote
    exact hx.mono id
  | tooDeep left n l e c s hc hf hh => exact .error ((hl.findNow hT hf).note _) trivial
  | hit left n l e c s hc hf hh =>
    exact .ok (((hl.findNow hT hf).note _).markResolved n) id fun hx => by cases hx

/-! ### Templates -/

theorem expandTop_caught (hT : Sources.IsReadable T) (hlib : p.library.Keeps T)
    (hn : p.Sees M n) (hl : p.Candid T l) :
    Caught p T (p.Permits M) l (p.expandTop n l) := by
  have hv := expandVariable_caught p.maxDepth hT hlib hn hl
  unfold expandTop
  generalize p.expandVariable p.maxDepth n l = a at hv ⊢
  cases hv with
  | ok hl' hm hx => exact .ok hl' hm hx
  | @error e l' hl' hR =>
    cases e with
    | tooDeep m inner => exact .failed (hl'.fail _ _) (hl'.fail_ne_nil _ _) _
    | refused r => exact .error hl' hR

/-- Where a failure is listed it does not matter which names are circular. -/
theorem Candid.of_failures {q : Pass} (h : q.Candid T l) (hf : l.recentFailures ≠ []) :
    p.Candid T l := ⟨h.time, fun hn => absurd hn hf, h.marked⟩

theorem Candid.failAll (h : p.Candid T l) (cycles : List (String × List String)) :
    p.Candid T ((p.listing cycles).failCircular l) := by
  induction cycles generalizing l with
  | nil => exact h
  | cons c cycles ih => exact ih (h.fail c.1 (.circular c.1 c.2))

/-- A ledger that lists nothing is candid once the circular names are listed. -/
theorem failCircular_candid (ht : T l.sources) (hf : l.recentFailures = [])
    (hr : l.reported = []) (hs : l.status = []) : p.Candid T (p.failCircular l) := by
  have hstart : (p.listing []).Candid T l :=
    ⟨ht, fun _ => ⟨hr, rfl, by simp [hs]⟩, fun h => absurd hf h⟩
  by_cases hc : p.circular = []
  · have hp : p.listing [] = p := by rw [← hc]; rfl
    exact (hp ▸ hstart).failAll p.circular
  · exact (hstart.failAll p.circular).of_failures (failCircular_ne_nil (fun _ => hr) hc)

/-- **Whatever the cache holds, expanding a template is refused only for a result that cannot be
written.** -/
theorem expandTemplate_caught (hT : Sources.IsReadable T) (hlib : p.library.Keeps T)
    (hcall : ∀ r, .reference r ∈ segments → r.isCall = true →
      M r ∧ ∀ v ∈ r.arguments, v.isWritable = true)
    (hn : ∀ r, .reference r ∈ segments → r.isCall = false → p.Sees M r.name)
    (hl : p.Candid T (p.failCircular l)) :
    Caught p T (p.Permits M) (p.failCircular l) (p.expandTemplate segments l) :=
  expandAll_caught hlib (fun _ h => h) 0 segments hcall
    (fun r _ hr hc hl => expandTop_caught hT hlib (hn r hr hc) hl) hl

end Pass
end Stencil
