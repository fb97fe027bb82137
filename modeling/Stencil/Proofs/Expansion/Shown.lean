/-
# Events show what names stand for

Each time a variable is expanded, an event shows the text that it stands for
then, unless the name has failed for good and stands for its marker. An
expansion found in the cache was put there in the same pass, so an earlier
event shows it. Events are never taken back, so at its end a pass has shown
every text that a name stood for.

Key definitions: `Event.Shows`, `Grows`, `Shown`, `Calls`, `Takes`.
Key theorems: `expandVariable_answered`, `Takes.shown`.
-/
import Stencil.Expansion
import Stencil.Proofs.Cache.Entries
import Stencil.Proofs.Expansion.Plain

namespace Stencil

open Template

/-- The event tells the text that a name stands for. -/
structure Event.Shows (e : Event) (n v : String) : Prop where
  name : e.name = n
  output : e.output = v
  error : e.error = none
  kind : e.kind.isOfCache = false

namespace Ledger

/-- What a ledger lists and which names have failed stays so. -/
structure Grows (l l' : Ledger) : Prop where
  events : l.recentEvents <:+ l'.recentEvents
  failed : ∀ n, (n, false) ∈ l.status → (n, false) ∈ l'.status

/-- An event of the ledger shows the text. -/
def Shows (l : Ledger) (n v : String) : Prop := ∃ e ∈ l.recentEvents, e.Shows n v

variable {l l' l'' : Ledger} {n m v : String}

namespace Grows

theorem refl (l : Ledger) : l.Grows l := ⟨List.suffix_rfl, fun _ h => h⟩

theorem trans (h : l.Grows l') (h' : l'.Grows l'') : l.Grows l'' :=
  ⟨h.events.trans h'.events, fun n hn => h'.failed n (h.failed n hn)⟩

theorem note (l : Ledger) (e : Event) : l.Grows (l.note e) :=
  ⟨List.suffix_cons _ _, fun _ h => h⟩

theorem with_cache (l : Ledger) (c : Cache) (s : Sources) :
    l.Grows { l with cache := c, sources := s } := ⟨List.suffix_rfl, fun _ h => h⟩

theorem markResolved (l : Ledger) (n : String) : l.Grows (l.markResolved n) := by
  refine ⟨List.suffix_rfl, fun m hm => ?_⟩
  unfold Ledger.markResolved setResolved
  split_ifs
  · exact hm
  · exact List.mem_append_left _ hm

theorem markFailed (l : Ledger) (n : String) : l.Grows (l.markFailed n) :=
  ⟨List.suffix_rfl, fun _ hm => mem_setFailed_iff.2 (.inl hm)⟩

theorem list (l : Ledger) (n : String) (f : Failure) : l.Grows (l.list n f) :=
  ⟨List.suffix_rfl, fun _ hm => mem_setFailed_iff.2 (.inl hm)⟩

theorem fail (l : Ledger) (n : String) (f : Failure) : l.Grows (l.fail n f) := by
  unfold Ledger.fail
  split_ifs
  · exact markFailed l n
  · exact list l n f

theorem shows (h : l.Grows l') (hs : l.Shows n v) : l'.Shows n v := by
  obtain ⟨e, he, hn⟩ := hs
  exact ⟨e, h.events.subset he, hn⟩

end Grows

theorem mem_status_fail (l : Ledger) (n : String) (f : Failure) :
    (n, false) ∈ (l.fail n f).status := by
  unfold Ledger.fail
  split_ifs
  · exact mem_setFailed_iff.2 (.inr rfl)
  · exact mem_setFailed_iff.2 (.inr rfl)

end Ledger

namespace Pass

open Ledger

/-- Each entry of the cache has been shown, and the circular names have failed. -/
structure Shown (p : Pass) (l : Ledger) : Prop where
  entries : l.cache.All fun k v _ => l.Shows k.name v
  circular : ∀ n, (p.cycle? n).isSome → (n, false) ∈ l.status

variable {p : Pass} {n v : String} {left : Nat} {l l' l₀ : Ledger} {segments rest : List Segment}

theorem Shown.grow (h : p.Shown l) (hg : l.Grows l') (hc : l'.cache = l.cache) : p.Shown l' :=
  ⟨hc ▸ h.entries.mono fun _ _ _ hs => hg.shows hs, fun n hn => hg.failed n (h.circular n hn)⟩

theorem Shown.note (h : p.Shown l) (e : Event) : p.Shown (l.note e) := h.grow (.note l e) rfl

/-- What an expansion comes to goes on from the ledger that it began with. -/
structure Advances {α : Type} (p : Pass) (l : Ledger) (a : α × Ledger) : Prop where
  grows : l.Grows a.2
  shown : p.Shown a.2

theorem Advances.refl {α : Type} {a : α} (h : p.Shown l) : Advances p l (a, l) := ⟨.refl l, h⟩

theorem Advances.of_grows {α : Type} {a : α} (h : p.Shown l) (hg : l.Grows l')
    (hc : l'.cache = l.cache) : Advances p l (a, l') := ⟨hg, h.grow hg hc⟩

/-! ### Segments -/

section Segments

variable {ε : Type} {depth : Int} {stop : Refusal → ε} {s : Segment} {r : Reference}
  {expand : String → Ledger → Except ε Expansion × Ledger}

theorem expandCall_advances (h : p.Shown l) : Advances p l (p.expandCall depth r l) := by
  have hgoes := expandCall_goes p depth r l
  generalize p.expandCall depth r l = a at hgoes ⊢
  cases hgoes with
  | @called text s hi =>
    refine .of_grows h ?_ rfl
    exact (Grows.with_cache l l.cache s).trans ((Grows.note _ _).trans (.markResolved _ _))
  | @failed f s hi =>
    refine .of_grows h ?_ rfl
    exact (Grows.with_cache l l.cache s).trans ((Grows.note _ _).trans (.list _ _ f))
  | @refused e s hi => exact .of_grows h (.with_cache l l.cache s) rfl

theorem expandSegment_advances (he : ∀ n l, p.Shown l → Advances p l (expand n l))
    (h : p.Shown l) : Advances p l (p.expandSegment depth stop expand s l) := by
  cases s with
  | literal text span => exact .refl h
  | reference r =>
    rw [expandSegment]
    split_ifs
    · exact ⟨(expandCall_advances h).grows, (expandCall_advances h).shown⟩
    · exact he r.name l h

theorem expandAll_advances (depth : Int) (stop : Refusal → ε)
    (he : ∀ n l, p.Shown l → Advances p l (expand n l)) (segments : List Segment) (h : p.Shown l) :
    Advances p l (p.expandAll depth stop expand segments l) := by
  induction segments generalizing l with
  | nil => exact .refl h
  | cons s rest ih =>
    have hs : Advances p l (p.expandSegment depth stop expand s l) := expandSegment_advances he h
    rcases hx : p.expandSegment depth stop expand s l with ⟨e | a, l₁⟩
    · rw [expandAll_head hx]
      rw [hx] at hs
      exact ⟨hs.grows, hs.shown⟩
    · rw [hx] at hs
      have hrest := ih hs.shown
      rcases hy : p.expandAll depth stop expand rest l₁ with ⟨e | b, l₂⟩
      · rw [expandAll_tail hx hy]
        rw [hy] at hrest
        exact ⟨hs.grows.trans hrest.grows, hrest.shown⟩
      · rw [expandAll_ok hx hy]
        rw [hy] at hrest
        exact ⟨hs.grows.trans hrest.grows, hrest.shown⟩

theorem expandAll_cons {a : Expansion} (hx : p.expandSegment depth stop expand s l = (.ok a, l')) :
    (p.expandAll depth stop expand (s :: rest) l).2 =
      (p.expandAll depth stop expand rest l').2 := by
  rcases hy : p.expandAll depth stop expand rest l' with ⟨e | b, l₂⟩
  · rw [expandAll_tail hx hy]
  · rw [expandAll_ok hx hy]

/-- What is done for segments comes after what is done for the first of them. -/
theorem grows_expandAll (he : ∀ n l, p.Shown l → Advances p l (expand n l)) (h : p.Shown l) :
    (p.expandSegment depth stop expand s l).2.Grows
      (p.expandAll depth stop expand (s :: rest) l).2 := by
  have hs : Advances p l (p.expandSegment depth stop expand s l) := expandSegment_advances he h
  rcases hx : p.expandSegment depth stop expand s l with ⟨e | a, l₁⟩
  · rw [expandAll_head hx]
    exact .refl _
  · rw [hx] at hs
    rw [expandAll_cons hx]
    exact (expandAll_advances depth stop he rest hs.shown).grows

theorem grows_expandAll_append {before : List Segment} {x : Expansion} (s : Segment)
    (after : List Segment) (he : ∀ n l, p.Shown l → Advances p l (expand n l)) (h : p.Shown l)
    (hb : p.expandAll depth stop expand before l = (.ok x, l')) :
    p.Shown l' ∧ (p.expandSegment depth stop expand s l').2.Grows
      (p.expandAll depth stop expand (before ++ s :: after) l).2 := by
  induction before generalizing l x with
  | nil =>
    cases hb
    exact ⟨h, grows_expandAll he h⟩
  | cons b before ih =>
    have hs : Advances p l (p.expandSegment depth stop expand b l) := expandSegment_advances he h
    rcases hx : p.expandSegment depth stop expand b l with ⟨e | a, l₁⟩
    · rw [expandAll_head hx] at hb
      cases hb
    · rw [hx] at hs
      rcases hy : p.expandAll depth stop expand before l₁ with ⟨e | y, l₂⟩
      · rw [expandAll_tail hx hy] at hb
        cases hb
      · rw [expandAll_ok hx hy] at hb
        cases hb
        rw [List.cons_append, expandAll_cons hx]
        exact ih hs.shown hy

end Segments

/-! ### Variables -/

/-- A name that comes to stand for a text has been shown to, or it has failed and stands for its
marker. -/
structure Answered (p : Pass) (n : String) (l : Ledger) (a : Except Stop Expansion × Ledger) :
    Prop extends Advances p l a where
  ok : ∀ x, a.1 = .ok x →
    ((n, false) ∈ a.2.status ∧ x.text = Marker.marker n) ∨ a.2.Shows n x.text

theorem Answered.error {e : Stop} (h : p.Shown l') (hg : l.Grows l') :
    Answered p n l (.error e, l') := ⟨⟨hg, h⟩, fun x hx => by cases hx⟩

theorem Answered.failed (h : p.Shown l') (hg : l.Grows l') (hf : (n, false) ∈ l'.status) :
    Answered p n l (.ok (.failed n), l') := by
  refine ⟨⟨hg, h⟩, fun x hx => ?_⟩
  cases hx
  exact .inl ⟨hf, rfl⟩

theorem Answered.shows {x : Expansion} (h : p.Shown l') (hg : l.Grows l')
    (hs : l'.Shows n x.text) : Answered p n l (.ok x, l') := by
  refine ⟨⟨hg, h⟩, fun y hy => ?_⟩
  cases hy
  exact .inr hs

theorem Answered.after {a : Except Stop Expansion × Ledger} (hg : l.Grows l')
    (h : Answered p n l' a) : Answered p n l a :=
  ⟨⟨hg.trans h.grows, h.shown⟩, h.ok⟩

theorem below_snd (a : Except Stop Expansion × Ledger) : (Pass.below a).2 = a.2 := rfl

theorem Answered.below {a : Except Stop Expansion × Ledger} (h : Answered p n l a) :
    Answered p n l (below a) := by
  obtain ⟨e | x, l'⟩ := a
  · exact .error h.shown h.grows
  · refine ⟨⟨h.grows, h.shown⟩, fun y hy => ?_⟩
    cases hy
    exact h.ok x rfl

theorem settle_grows (p : Pass) (n : String) (d : Definition) (x : Expansion) (l : Ledger) :
    l.Grows (p.settle n d x l).2 := by
  have hm : l.Grows (l.markResolved n) := .markResolved l n
  have hgoes := settle_goes p n d x l
  generalize p.settle n d x l = a at hgoes ⊢
  cases hgoes with
  | failed => exact .markFailed l n
  | impure => exact hm
  | kept => exact hm.trans (.with_cache _ _ _)
  | refused => exact hm.trans (.with_cache _ _ l.sources)

theorem settle_answered {d : Definition} {x : Expansion} (h : p.Shown l) (hs : l.Shows n x.text) :
    Answered p n l (p.settle n d x l) := by
  have hm : l.Grows (l.markResolved n) := .markResolved l n
  have hsm := h.grow hm rfl
  have hgoes := settle_goes p n d x l
  generalize p.settle n d x l = a at hgoes ⊢
  cases hgoes with
  | failed =>
    have hf : l.Grows (l.markFailed n) := .markFailed l n
    exact .shows (h.grow hf rfl) hf (hf.shows hs)
  | impure => exact .shows hsm hm (hm.shows hs)
  | @kept s c _ _ hk =>
    have hg : l.Grows { l.markResolved n with cache := c, sources := s } :=
      hm.trans (.with_cache _ c s)
    exact .shows ⟨hsm.entries.of_putNow (hm.shows hs) hk, hsm.circular⟩ hg (hg.shows hs)
  | @refused r c _ _ hk =>
    exact .error ⟨hsm.entries.of_putNow (hm.shows hs) hk, hsm.circular⟩
      (hm.trans (.with_cache _ c l.sources))

theorem expandValue_answered {depth : Int} {d : Definition}
    {expand : String → Ledger → Except Stop Expansion × Ledger}
    (he : ∀ n l, p.Shown l → Advances p l (expand n l)) (h : p.Shown l) :
    Answered p n l (p.expandValue depth expand n d segments l) := by
  cases hr : segments.any Segment.isReference with
  | false =>
    have hs : (l.note (p.lookupEvent n d false depth)).Shows n d.text :=
      ⟨_, List.mem_cons_self, rfl, rfl, rfl, rfl⟩
    rw [expandValue_literal hr]
    exact .after (.note l _) (settle_answered (h.note _) hs)
  | true =>
    have hlook : l.Grows (l.note (p.lookupEvent n d true depth)) := .note l _
    have hall := expandAll_advances (depth + 1) Stop.refused he segments
      (h.note (p.lookupEvent n d true depth))
    rcases hx : p.expandAll (depth + 1) .refused expand segments
      (l.note (p.lookupEvent n d true depth)) with ⟨(⟨m, inner⟩ | r) | x, l'⟩
    · rw [hx] at hall
      rw [expandValue_tooDeep hr hx]
      exact .error hall.shown (hlook.trans hall.grows)
    · rw [hx] at hall
      rw [expandValue_refused hr hx]
      exact .error hall.shown (hlook.trans hall.grows)
    · rw [hx] at hall
      have hs : (l'.note (nestedEvent n d x depth)).Shows n x.text :=
        ⟨_, List.mem_cons_self, rfl, rfl, rfl, rfl⟩
      rw [expandValue_ok hr hx]
      exact .after (hlook.trans (hall.grows.trans (.note l' _)))
        (settle_answered (hall.shown.note _) hs)

theorem expandDefined_answered {depth : Int}
    {expand : String → Ledger → Except Stop Expansion × Ledger}
    (he : ∀ n l, p.Shown l → Advances p l (expand n l)) (h : p.Shown l) :
    Answered p n l (p.expandDefined depth expand n l) := by
  have hfail : ∀ e f, Answered p n l (.ok (.failed n), (l.note e).fail n f) := fun e f =>
    have hg : l.Grows ((l.note e).fail n f) := (Grows.note l e).trans (.fail _ n f)
    .failed (h.grow hg (fail_cache _ n f)) hg (mem_status_fail _ n f)
  have hgoes := expandDefined_goes p depth expand n l
  generalize p.expandDefined depth expand n l = a at hgoes ⊢
  cases hgoes with
  | refused => exact .error h (.refl l)
  | undefined => exact hfail _ _
  | malformed => exact hfail _ _
  | value => exact expandValue_answered he h

/-- What is found in the cache has been shown, and it goes on to be so. -/
theorem Shown.findNow {k : Cache.Key} {e? : Option Cache.Entry} {c : Cache} {s : Sources}
    (h : p.Shown l) (hf : l.cache.findNow k l.sources = .ok (e?, c, s)) :
    p.Shown { l with cache := c, sources := s } ∧ ∀ e, e? = some e → l.Shows k.name e.value := by
  obtain ⟨hc, he⟩ := h.entries.of_findNow hf
  exact ⟨⟨hc, h.circular⟩, he⟩

/-- **A name that comes to stand for a text has been shown to, or it has failed and stands for its
marker.** -/
theorem expandVariable_answered (left : Nat) (n : String) (h : p.Shown l) :
    Answered p n l (p.expandVariable left n l) := by
  induction left, n, l using p.expandVariable_induct with
  | circular left n l cycle hc =>
    exact .failed (h.note _) (.note l _) (h.circular n (by rw [hc]; rfl))
  | bound n l hc => exact .error (h.note _) (.note l _)
  | refused left n l r hc hf => exact .error h (.refl l)
  | miss left n l c s hc hf ih =>
    obtain ⟨hs, -⟩ := h.findNow hf
    exact .after ((Grows.with_cache l c s).trans (.note _ _))
      (expandDefined_answered (fun m l hl => (ih m l hl).below.toAdvances) (hs.note _))
  | tooDeep left n l e c s hc hf hh =>
    obtain ⟨hs, -⟩ := h.findNow hf
    exact .error (hs.note _) ((Grows.with_cache l c s).trans (.note _ _))
  | hit left n l e c s hc hf hh =>
    -- the entry was made in this pass, so an event that stays shows its value
    obtain ⟨hs, hv⟩ := h.findNow hf
    have hnote : l.Grows ({ l with cache := c, sources := s }.note _) :=
      (Grows.with_cache l c s).trans (.note _ (p.hitEvent n e false (p.depthAt (left + 1))))
    have hg := hnote.trans (.markResolved _ n)
    exact .shows ((hs.note _).grow (.markResolved _ n) rfl) hg (hg.shows (hv e rfl))

/-! ### All calls of a pass -/

/-- In the pass over a template that begins with `l₀`, a name is expanded with `left` levels
allowed, the ledger being `l` at that time. -/
inductive Calls (p : Pass) (segments : List Segment) (l₀ : Ledger) :
    Nat → String → Ledger → Prop where
  | top {before after : List Segment} {r : Reference} {x : Expansion} {l : Ledger}
      (hs : segments = before ++ .reference r :: after) (hr : r.isCall = false)
      (hb : p.expandAll 0 id p.expandTop before (p.failCircular l₀) = (.ok x, l)) :
      Calls p segments l₀ p.maxDepth r.name l
  | inside {left : Nat} {n : String} {l l' : Ledger} {c : Cache} {s : Sources} {d : Definition}
      {before after : List Segment} {r : Reference} {x : Expansion}
      (h : Calls p segments l₀ (left + 1) n l) (hc : p.cycle? n = none)
      (hf : l.cache.findNow (p.key n) l.sources = .ok (none, c, s))
      (hd : p.context.define? n = .ok (some d))
      (hp : d.parsed = .ok (before ++ .reference r :: after)) (hr : r.isCall = false)
      (hb : p.expandAll (p.depthAt (left + 1) + 1) .refused
        (fun n l => below (p.expandVariable left n l)) before
        (({ l with cache := c, sources := s }.note (missEvent n (p.depthAt (left + 1)))).note
          (p.lookupEvent n d true (p.depthAt (left + 1)))) = (.ok x, l')) :
      Calls p segments l₀ left r.name l'

/-- A text that a name stands for at some time in the pass over a template. -/
def Takes (p : Pass) (segments : List Segment) (l₀ : Ledger) (n v : String) : Prop :=
  ∃ left l x l', p.Calls segments l₀ left n l ∧ p.expandVariable left n l = (.ok x, l') ∧ x.text = v

theorem expandTop_advances (h : p.Shown l) :
    Advances p l (p.expandTop n l) ∧
      (p.expandVariable p.maxDepth n l).2.Grows (p.expandTop n l).2 := by
  have hv := expandVariable_answered p.maxDepth n h
  unfold expandTop
  rcases hx : p.expandVariable p.maxDepth n l with ⟨(⟨m, inner⟩ | r) | x, l'⟩
  · rw [hx] at hv
    have hg := Grows.fail l' n (.tooDeep m inner p.maxDepth)
    exact ⟨⟨hv.grows.trans hg, hv.shown.grow hg (fail_cache _ _ _)⟩, hg⟩
  · rw [hx] at hv
    exact ⟨⟨hv.grows, hv.shown⟩, .refl l'⟩
  · rw [hx] at hv
    exact ⟨⟨hv.grows, hv.shown⟩, .refl l'⟩

/-- What is done for a value comes after what is done for the references in it. -/
theorem grows_expandValue {depth : Int} {d : Definition}
    {expand : String → Ledger → Except Stop Expansion × Ledger}
    (hr : segments.any Segment.isReference = true) :
    (p.expandAll (depth + 1) .refused expand segments
      (l.note (p.lookupEvent n d true depth))).2.Grows (p.expandValue depth expand n d segments l).2 := by
  rcases hx : p.expandAll (depth + 1) .refused expand segments
    (l.note (p.lookupEvent n d true depth)) with ⟨(⟨m, inner⟩ | r) | x, l'⟩
  · rw [hx, expandValue_tooDeep hr hx]
    exact .refl l'
  · rw [hx, expandValue_refused hr hx]
    exact .refl l'
  · rw [hx, expandValue_ok hr hx]
    exact (Grows.note l' _).trans (settle_grows p n d x _)

/-- Each name that is expanded in a pass is so when the cache has been shown, and what is done for
it is there at the end. -/
theorem Calls.advances (h₀ : p.Shown (p.failCircular l₀)) (h : p.Calls segments l₀ left n l) :
    p.Shown l ∧ (p.expandVariable left n l).2.Grows (p.expandTemplate segments l₀).2 := by
  -- outwards: what a call leaves is there when the call around it ends
  induction h with
  | @top before after r x l hs hr hb =>
    obtain ⟨hl, hg⟩ := grows_expandAll_append (.reference r) after
      (fun n l hl => (expandTop_advances hl).1) h₀ hb
    rw [expandSegment_variable hr] at hg
    refine ⟨hl, (expandTop_advances hl).2.trans ?_⟩
    rw [expandTemplate, hs]
    exact hg
  | @inside left n l l' c s d before after r x _ hc hf hd hp hr hb ih =>
    obtain ⟨hl, hg⟩ := ih
    have hany : (before ++ .reference r :: after).any Segment.isReference = true := by
      simp [Segment.isReference]
    have hl' := ((hl.findNow hf).1.note (missEvent n (p.depthAt (left + 1)))).note
      (p.lookupEvent n d true (p.depthAt (left + 1)))
    obtain ⟨hr', hg'⟩ := grows_expandAll_append (.reference r) after
      (fun n l hl => (expandVariable_answered left n hl).below.toAdvances) hl' hb
    rw [expandSegment_variable hr] at hg'
    rw [expandVariable_value hc hf hd hp] at hg
    rw [below_snd] at hg'
    exact ⟨hr', hg'.trans ((grows_expandValue hany).trans hg)⟩

/-- **At the end of a pass, each text that a name stood for has been shown, or the name has failed
and the text is its marker.** -/
theorem Takes.shown (h₀ : p.Shown (p.failCircular l₀)) (h : p.Takes segments l₀ n v) :
    ((n, false) ∈ (p.expandTemplate segments l₀).2.status ∧ v = Marker.marker n) ∨
      (p.expandTemplate segments l₀).2.Shows n v := by
  obtain ⟨left, l, x, l', hcall, hx, rfl⟩ := h
  obtain ⟨hl, hg⟩ := hcall.advances h₀
  have ha := expandVariable_answered left n hl
  rw [hx] at ha hg
  rcases ha.ok x rfl with ⟨hf, hm⟩ | hs
  · exact .inl ⟨hg.failed n hf, hm⟩
  · exact .inr (hg.shows hs)

/-! ### The beginning of a pass -/

/-- Listing the circular names as failed takes nothing back, and marks each of them. -/
theorem failCircular_status (p : Pass) (l : Ledger) :
    l.Grows (p.failCircular l) ∧
      ∀ n ∈ p.circular.map Prod.fst, (n, false) ∈ (p.failCircular l).status := by
  unfold failCircular
  generalize p.circular = cs
  induction cs generalizing l with
  | nil => exact ⟨.refl l, fun n hn => absurd hn List.not_mem_nil⟩
  | cons c cs ih =>
    obtain ⟨hg, hs⟩ := ih (l.fail c.1 (.circular c.1 c.2))
    refine ⟨(Grows.fail _ _ _).trans hg, fun n hn => ?_⟩
    rcases List.mem_cons.1 hn with rfl | hn
    · exact hg.failed _ (mem_status_fail _ _ _)
    · exact hs n hn

/-- Nothing is in an empty cache, and the circular names fail at the start. -/
theorem failCircular_shown (h : l.cache.entries = []) : p.Shown (p.failCircular l) := by
  refine ⟨fun x hx => ?_, fun n hn => (failCircular_status p l).2 n (cycle?_isSome.1 hn)⟩
  rw [failCircular_cache, h] at hx
  cases hx

end Pass
end Stencil
