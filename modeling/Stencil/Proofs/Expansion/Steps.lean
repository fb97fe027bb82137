/-
# What an expansion does to its ledger

Whatever a cache holds and whatever functions do, an expansion changes its
ledger in few ways: it moves on to another cache and other sources, it notes
what happened, it marks names, and it lists failures. What each of these ways
keeps true holds at the end of every expansion, also of one that is given up.

Key definitions: `Change`, `Run`, `Grants`, `Warned`, `Runs`.
Key theorems: `Run.failures`, `Run.grows`, `Run.names`, `expandAll_runs`,
`expandVariable_runs`, `expandVariable_names`.
-/
import Stencil.Proofs.Expansion.Capture
import Stencil.Proofs.Expansion.Shown
import Stencil.Proofs.Expansion.Tally

namespace Stencil

open Template Context

namespace Ledger

/-- One change to a ledger, where calls come to what the functions of `L` make of them. Of the other
failures, only those that `B` grants for their names are listed. -/
inductive Change (L : Library) (B : String → Failure → Prop) : Ledger → Ledger → Prop where
  | move (l : Ledger) (c : Cache) (s : Sources) : Change L B l { l with cache := c, sources := s }
  | note (l : Ledger) (e : Event) (h : e.kind ≠ .call) : Change L B l (l.note e)
  | resolve (l : Ledger) (n : String) : Change L B l (l.markResolved n)
  /-- A name is unresolved for a failure that is listed already. -/
  | spoil (l : Ledger) (n : String) (h : l.recentFailures ≠ []) : Change L B l (l.markFailed n)
  | fail (l : Ledger) (n : String) (f : Failure) (h : B n f) : Change L B l (l.fail n f)
  | called (l : Ledger) (r : Reference) (text : String) (depth : Int)
      (h : ∃ s, L.outcome s r = .ok text) :
      Change L B l ((l.note (Pass.callEvent r text none depth)).markResolved r.displayName)
  | broken (l : Ledger) (r : Reference) (f : Failure) (depth : Int)
      (h : ∃ s, L.outcome s r = .error (.failed f)) :
      Change L B l ((l.note (Pass.callEvent r (Marker.marker r.displayName) (some f.message)
        depth)).list r.displayName f)

/-- Changes to a ledger, one after another. -/
abbrev Run (L : Library) (B : String → Failure → Prop) : Ledger → Ledger → Prop :=
  Relation.ReflTransGen (Change L B)

variable {L : Library} {B : String → Failure → Prop} {l l' l'' : Ledger} {n : String}

/-! ### What every change keeps -/

theorem fail_failures (l : Ledger) (n : String) (f : Failure) :
    l.recentFailures <:+ (l.fail n f).recentFailures := by
  unfold fail
  split_ifs
  · exact List.suffix_rfl
  · exact List.suffix_cons _ _

theorem Change.failures (h : Change L B l l') : l.recentFailures <:+ l'.recentFailures := by
  cases h with
  | fail n f => exact fail_failures l n f
  | broken => exact List.suffix_cons _ _
  | _ => exact List.suffix_rfl

theorem Change.grows (h : Change L B l l') : l.Grows l' := by
  cases h with
  | move c s => exact .with_cache l c s
  | note e => exact .note l e
  | resolve n => exact .markResolved l n
  | spoil n => exact .markFailed l n
  | fail n f => exact .fail l n f
  | called r text depth => exact (Grows.note l _).trans (.markResolved _ _)
  | broken r f depth => exact (Grows.note l _).trans (.list _ _ f)

/-- What a failure does to the names is what marking one as unresolved does. -/
theorem fail_status (l : Ledger) (n : String) (f : Failure) :
    (l.fail n f).status = setFailed n l.status := by
  unfold fail
  split_ifs <;> rfl

theorem mem_names_setResolved {m : String} {status : List (String × Bool)}
    (h : m ∈ status.map Prod.fst) : m ∈ (setResolved n status).map Prod.fst := by
  rw [setResolved_eq]
  split_ifs
  · exact h
  · rw [List.map_append]
    exact List.mem_append_left _ h

/-- A name that was met stays so. -/
theorem Change.names (h : Change L B l l') (hn : n ∈ l.names) : n ∈ l'.names := by
  cases h with
  | move => exact hn
  | note => exact hn
  | resolve m => exact mem_names_setResolved hn
  | spoil m => exact Pass.mem_names_setFailed.2 (.inl hn)
  | fail m f =>
    unfold Ledger.names
    rw [fail_status]
    exact Pass.mem_names_setFailed.2 (.inl hn)
  | called r => exact mem_names_setResolved hn
  | broken r f => exact Pass.mem_names_setFailed.2 (.inl hn)

namespace Run

/-- What each change keeps holds after any number of them. -/
theorem keeps {P : Ledger → Prop} (hP : ∀ {l l'}, Change L B l l' → P l → P l')
    (h : Run L B l l') (hl : P l) : P l' := by
  induction h with
  | refl => exact hl
  | tail _ hs ih => exact hP hs ih

theorem failures (h : Run L B l l') : l.recentFailures <:+ l'.recentFailures :=
  h.keeps (P := fun l' => l.recentFailures <:+ l'.recentFailures)
    (fun hs ih => ih.trans hs.failures) List.suffix_rfl

theorem grows (h : Run L B l l') : l.Grows l' :=
  h.keeps (fun hs ih => ih.trans hs.grows) (.refl l)

theorem names (h : Run L B l l') (hn : n ∈ l.names) : n ∈ l'.names :=
  h.keeps Change.names hn

end Run

theorem mem_names_fail (l : Ledger) (n : String) (f : Failure) : n ∈ (l.fail n f).names :=
  List.mem_map.2 ⟨_, mem_status_fail l n f, rfl⟩

end Ledger

namespace Pass

open Ledger

/-- `B` grants the failures that a pass finds in the values of variables. -/
structure Grants (p : Pass) (B : String → Failure → Prop) : Prop where
  undefined : ∀ n, p.cycle? n = none → p.context.define? n = .ok none → B n (.undefined n)
  malformed : ∀ n d f, p.cycle? n = none → p.context.define? n = .ok (some d) →
    d.parsed = .error f → B n (.ofFault f)

/-- A failure is listed if there are circular names, and none is reported that is not listed. -/
structure Warned (p : Pass) (l : Ledger) : Prop where
  circular : p.circular ≠ [] → l.recentFailures ≠ []
  reported : l.recentFailures = [] → l.reported = []

/-- The answer of an expansion that began with the ledger `l`: where anything in it failed, a
failure is listed. -/
structure Runs (p : Pass) (B : String → Failure → Prop) {ε : Type} (l : Ledger)
    (a : Except ε Expansion × Ledger) : Prop where
  run : Run p.library B l a.2
  listed : ∀ x, a.1 = .ok x → x.isOk = false → a.2.recentFailures ≠ []

variable {p : Pass} {B : String → Failure → Prop} {n : String} {l l' : Ledger}
  {segments : List Segment}

theorem Warned.fail_ne_nil (h : p.Warned l) (n : String) (f : Failure) :
    (l.fail n f).recentFailures ≠ [] := Pass.fail_ne_nil h.reported n f

theorem Warned.step (h : p.Warned l) (hs : Change p.library B l l') : p.Warned l' := by
  refine ⟨fun hc => hs.failures.ne_nil (h.circular hc), fun hf => ?_⟩
  cases hs with
  | fail n f => exact absurd hf (h.fail_ne_nil n f)
  | broken => exact absurd hf (List.cons_ne_nil _ _)
  | _ => exact h.reported hf

theorem Warned.run (h : p.Warned l) (hr : Run p.library B l l') : p.Warned l' :=
  hr.keeps (fun hs h => h.step hs) h

theorem Warned.of_cycle {cycle : List String} (h : p.Warned l) (hc : p.cycle? n = some cycle) :
    l.recentFailures ≠ [] := by
  refine h.circular fun he => ?_
  rw [cycle?, he] at hc
  cases hc

/-! ### Calls and segments -/

section

variable {ε : Type} {depth : Int} {stop : Refusal → ε}
  {expand : String → Ledger → Except ε Expansion × Ledger}

theorem Runs.error {e : ε} (h : Run p.library B l l') : Runs p B l (.error e, l') :=
  ⟨h, fun x hx => by cases hx⟩

theorem Runs.good {x : Expansion} (h : Run p.library B l l') (hx : x.isOk = true) :
    Runs p B l ((.ok x, l') : Except ε Expansion × Ledger) := by
  refine ⟨h, fun y hy hf => ?_⟩
  cases hy
  rw [hx] at hf
  cases hf

theorem Runs.bad {x : Expansion} (h : Run p.library B l l') (hf : l'.recentFailures ≠ []) :
    Runs p B l ((.ok x, l') : Except ε Expansion × Ledger) := ⟨h, fun _ _ _ => hf⟩

theorem Runs.after {a : Except ε Expansion × Ledger} (h : Run p.library B l l') (ha : Runs p B l' a) :
    Runs p B l a := ⟨h.trans ha.run, ha.listed⟩

theorem expandCall_runs (p : Pass) (B : String → Failure → Prop) (depth : Int) (r : Reference)
    (l : Ledger) : Runs p B l (p.expandCall depth r l) := by
  have hmove : ∀ s, Run p.library B l { l with sources := s } := fun s => .single (.move l l.cache s)
  have hgoes := expandCall_goes p depth r l
  generalize p.expandCall depth r l = a at hgoes ⊢
  cases hgoes with
  | @called text s hi =>
    have hok : p.library.outcome l.sources r = .ok text := congrArg Prod.fst hi
    exact .good ((hmove s).tail (.called _ r text depth ⟨_, hok⟩)) rfl
  | @failed f s hi =>
    have hfailed : p.library.outcome l.sources r = .error (.failed f) := congrArg Prod.fst hi
    exact .bad ((hmove s).tail (.broken _ r f depth ⟨_, hfailed⟩)) (List.cons_ne_nil _ _)
  | refused => exact .error (hmove _)

theorem expandSegment_runs {s : Segment} (depth : Int) (stop : Refusal → ε)
    (he : ∀ r, s = .reference r → r.isCall = false → Runs p B l (expand r.name l)) :
    Runs p B l (p.expandSegment depth stop expand s l) := by
  cases s with
  | literal text span => exact .good .refl rfl
  | reference r =>
    cases hr : r.isCall with
    | false =>
      rw [expandSegment_variable hr]
      exact he r rfl hr
    | true =>
      have hc := expandCall_runs p B depth r l
      simp only [expandSegment, hr, if_true]
      rcases hx : p.expandCall depth r l with ⟨e | x, l'⟩
      · rw [hx] at hc
        exact .error hc.run
      · rw [hx] at hc
        exact ⟨hc.run, fun y hy => by cases hy; exact hc.listed x rfl⟩

/-- Segments are expanded one after another; `I` is what each expansion keeps of the cache. -/
theorem expandAll_runs {I : Cache → Prop} (depth : Int) (stop : Refusal → ε)
    (segments : List Segment)
    (he : ∀ r l, .reference r ∈ segments → r.isCall = false → p.Warned l → I l.cache →
      Runs p B l (expand r.name l))
    (hI : ∀ n l, I l.cache → I (expand n l).2.cache) (hw : p.Warned l) (hi : I l.cache) :
    Runs p B l (p.expandAll depth stop expand segments l) := by
  induction segments generalizing l with
  | nil => exact .good .refl rfl
  | cons s rest ih =>
    have hs : Runs p B l (p.expandSegment depth stop expand s l) :=
      expandSegment_runs depth stop fun r hr hc => he r l (hr ▸ List.mem_cons_self) hc hw hi
    have hc := expandSegment_cache (p := p) depth stop hI s hi
    rcases ha : p.expandSegment depth stop expand s l with ⟨e | x, l₁⟩
    · rw [ha] at hs
      rw [expandAll_head ha]
      exact .error hs.run
    rw [ha] at hs hc
    have hrest := ih (fun r l hr => he r l (List.mem_cons_of_mem _ hr)) (hw.run hs.run) hc
    rcases hb : p.expandAll depth stop expand rest l₁ with ⟨e | y, l₂⟩
    · rw [hb] at hrest
      rw [expandAll_tail ha hb]
      exact .error (hs.run.trans hrest.run)
    rw [hb] at hrest
    rw [expandAll_ok ha hb]
    refine ⟨hs.run.trans hrest.run, fun z hz hf => ?_⟩
    cases hz
    -- what failed in the head is still listed after the rest
    rcases Bool.and_eq_false_iff.1 hf with hf | hf
    · exact hrest.run.failures.ne_nil (hs.listed x rfl hf)
    · exact hrest.listed y rfl hf

end

/-! ### Variables -/

theorem settle_runs {d : Definition} {x : Expansion}
    (hx : x.isOk = false → l.recentFailures ≠ []) : Runs p B l (p.settle n d x l) := by
  have hm : Run p.library B l (l.markResolved n) := .single (.resolve l n)
  have hgoes := settle_goes p n d x l
  generalize p.settle n d x l = a at hgoes ⊢
  cases hgoes with
  | failed ho => exact .bad (.single (.spoil l n (hx ho))) (hx ho)
  | impure ho => exact .good hm ho
  | @kept s c ho => exact .good (hm.tail (.move _ c s)) ho
  | @refused r c => exact .error (hm.tail (.move _ c l.sources))

theorem expandValue_runs {d : Definition} {depth : Int}
    {expand : String → Ledger → Except Stop Expansion × Ledger}
    (he : ∀ n l, p.Warned l → Runs p B l (expand n l)) (hw : p.Warned l) :
    Runs p B l (p.expandValue depth expand n d segments l) := by
  cases hr : segments.any Segment.isReference with
  | false =>
    rw [expandValue_literal hr]
    exact .after (.single (.note l _ (by simp [lookupEvent]))) (settle_runs fun hx => by cases hx)
  | true =>
    have hlook : Run p.library B l (l.note (p.lookupEvent n d true depth)) :=
      .single (.note l _ (by simp [lookupEvent]))
    have hall := expandAll_runs (I := fun _ => True) (depth + 1) Stop.refused segments
      (fun r l _ _ hw _ => he r.name l hw) (fun _ _ _ => trivial) (hw.run hlook) trivial
    rcases hx : p.expandAll (depth + 1) .refused expand segments
      (l.note (p.lookupEvent n d true depth)) with ⟨(⟨m, inner⟩ | r) | x, l'⟩
    · rw [hx] at hall
      rw [expandValue_tooDeep hr hx]
      exact .error (hlook.trans hall.run)
    · rw [hx] at hall
      rw [expandValue_refused hr hx]
      exact .error (hlook.trans hall.run)
    · rw [hx] at hall
      have hnest : Run p.library B l' (l'.note (nestedEvent n d x depth)) :=
        .single (.note l' _ (by simp [nestedEvent]))
      rw [expandValue_ok hr hx]
      exact .after (hlook.trans (hall.run.trans hnest)) (settle_runs (hall.listed x rfl))

theorem Runs.below {a : Except Stop Expansion × Ledger} (h : Runs p B l a) : Runs p B l (below a) := by
  obtain ⟨e | x, l'⟩ := a
  · exact .error h.run
  · refine ⟨h.run, fun y hy => ?_⟩
    cases hy
    exact h.listed x rfl

/-- A failure that is found in the value of a name is listed. -/
theorem failed_runs {e : Event} {f : Failure} (hw : p.Warned l) (he : e.kind ≠ .call)
    (hf : B n f) :
    Runs p B l ((.ok (.failed n), (l.note e).fail n f) : Except Stop Expansion × Ledger) := by
  have hnote : Run p.library B l (l.note e) := .single (.note l e he)
  exact .bad (hnote.tail (.fail _ n f hf)) ((hw.run hnote).fail_ne_nil n f)

theorem expandDefined_runs {depth : Int}
    {expand : String → Ledger → Except Stop Expansion × Ledger} (hB : p.Grants B)
    (hc : p.cycle? n = none) (he : ∀ n l, p.Warned l → Runs p B l (expand n l)) (hw : p.Warned l) :
    Runs p B l (p.expandDefined depth expand n l) := by
  have hgoes := expandDefined_goes p depth expand n l
  generalize p.expandDefined depth expand n l = a at hgoes ⊢
  cases hgoes with
  | refused => exact .error .refl
  | undefined hd => exact failed_runs hw (by simp [undefinedEvent]) (hB.undefined n hc hd)
  | malformed hd hp =>
    exact failed_runs hw (by simp [malformedEvent]) (hB.malformed n _ _ hc hd hp)
  | value => exact expandValue_runs he hw

/-- **Whatever the cache holds, expanding a variable does nothing else to its ledger.** -/
theorem expandVariable_runs (hB : p.Grants B) (left : Nat) (n : String) (hw : p.Warned l) :
    Runs p B l (p.expandVariable left n l) := by
  -- on the levels allowed; the ledgers below are reached by changes, so they are warned as well
  induction left, n, l using p.expandVariable_induct with
  | circular left n l cycle hc =>
    exact .bad (.single (.note l _ (by simp [circularEvent]))) (hw.of_cycle hc)
  | bound n l hc => exact .error (.single (.note l _ (by simp [boundEvent])))
  | refused left n l r hc hf => exact .error .refl
  | miss left n l c s hc hf ih =>
    have hmiss : Run p.library B l ({ l with cache := c, sources := s }.note
        (missEvent n (p.depthAt (left + 1)))) :=
      .tail (.single (.move l c s)) (.note _ _ (by simp [missEvent]))
    exact .after hmiss (expandDefined_runs hB hc (fun m l hw => (ih m l hw).below) (hw.run hmiss))
  | tooDeep left n l e c s hc hf hh =>
    exact .error (.tail (.single (.move l c s)) (.note _ _ (by simp [hitEvent])))
  | hit left n l e c s hc hf hh =>
    have hhit : Run p.library B l ({ l with cache := c, sources := s }.note
        (p.hitEvent n e false (p.depthAt (left + 1)))) :=
      .tail (.single (.move l c s)) (.note _ _ (by simp [hitEvent]))
    exact .good (hhit.tail (.resolve _ n)) rfl

/-! ### Names are marked -/

theorem settle_names (p : Pass) (n : String) (d : Definition) (x : Expansion) (l : Ledger) :
    n ∈ (p.settle n d x l).2.names := by
  have hgoes := settle_goes p n d x l
  generalize p.settle n d x l = a at hgoes ⊢
  cases hgoes with
  | failed => exact mem_names_setFailed.2 (.inr rfl)
  | impure => exact mem_names_markResolved l n
  | kept => exact mem_names_markResolved l n
  | refused => exact mem_names_markResolved l n

theorem expandValue_names {d : Definition} {depth : Int} {x : Expansion}
    {expand : String → Ledger → Except Stop Expansion × Ledger}
    (h : p.expandValue depth expand n d segments l = (.ok x, l')) : n ∈ l'.names := by
  have hset : ∀ x₀ l₀, p.settle n d x₀ l₀ = (.ok x, l') → n ∈ l'.names := fun x₀ l₀ hs => by
    have hn := settle_names p n d x₀ l₀
    rwa [hs] at hn
  cases hr : segments.any Segment.isReference with
  | false =>
    rw [expandValue_literal hr] at h
    exact hset _ _ h
  | true =>
    rcases hx : p.expandAll (depth + 1) .refused expand segments
      (l.note (p.lookupEvent n d true depth)) with ⟨(⟨m, inner⟩ | r) | y, l₁⟩
    · rw [expandValue_tooDeep hr hx] at h
      cases h
    · rw [expandValue_refused hr hx] at h
      cases h
    · rw [expandValue_ok hr hx] at h
      exact hset _ _ h

theorem expandDefined_names {depth : Int} {x : Expansion}
    {expand : String → Ledger → Except Stop Expansion × Ledger}
    (h : p.expandDefined depth expand n l = (.ok x, l')) : n ∈ l'.names := by
  have hgoes := expandDefined_goes p depth expand n l
  generalize p.expandDefined depth expand n l = a at h hgoes
  cases hgoes with
  | refused => cases h
  | undefined =>
    cases h
    exact mem_names_fail _ n _
  | malformed =>
    cases h
    exact mem_names_fail _ n _
  | value => exact expandValue_names h

/-- A variable that has an expansion is marked, unless it is circular. -/
theorem expandVariable_names {left : Nat} {x : Expansion} (hc : p.cycle? n = none)
    (h : p.expandVariable left n l = (.ok x, l')) : n ∈ l'.names := by
  induction left, n, l using p.expandVariable_induct with
  | circular left n l cycle hcycle => cases hc.symm.trans hcycle
  | bound => cases h
  | refused => cases h
  | miss => exact expandDefined_names h
  | tooDeep => cases h
  | hit left n l =>
    cases h
    exact mem_names_markResolved _ n

end Pass
end Stencil
