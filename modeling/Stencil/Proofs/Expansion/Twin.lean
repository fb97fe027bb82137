/-
# One expansion in two contexts

Where two contexts define the names that an expansion meets by the same texts,
the expansion does the same in both, step by step. Its events may tell of other
scopes, owners and secrets, and its entries are kept under another fingerprint;
but what it comes to, what it lists and marks, and which steps it counts are the
same.

Key definitions: `Pass.Twin`, `Ledger.Twin`, `SameAnswer`.
Key theorems: `expandVariable_twin`, `expandTemplate_twin`,
`expandTemplate_fingerprint`.
-/
import Stencil.Proofs.Cache.Twin
import Stencil.Proofs.Context.Relevance
import Stencil.Proofs.Expansion.Plain

namespace Stencil

open Template Context

/-- What a trace counts of an event. -/
def Event.outline (e : Event) : StepKind × String × Int := (e.kind, e.name, e.depth)

/-- Passes in two contexts that define the names of `N` alike. -/
structure Pass.Twin (N : String → Prop) (p p' : Pass) : Prop where
  library : p.library = p'.library
  maxDepth : p.maxDepth = p'.maxDepth
  circular : p.circular = p'.circular
  defined : ∀ n, N n → DefinedAlike (p.context.define? n) (p'.context.define? n)
  closed : ∀ a b, N a → p.context.Refers a b → N b

/-- Ledgers of two such passes: the same has happened, and the caches and sources are alike. -/
structure Ledger.Twin (S : Sources → Sources → Prop) (expires : Prop) (p p' : Pass)
    (l l' : Ledger) : Prop where
  cache : Cache.Twin p.fingerprint p'.fingerprint l.cache l'.cache
  expires : l.cache.Expires = expires
  sources : S l.sources l'.sources
  events : l.recentEvents.map Event.outline = l'.recentEvents.map Event.outline
  failures : l.recentFailures = l'.recentFailures
  reported : l.reported = l'.reported
  status : l.status = l'.status

namespace Ledger.Twin

variable {S : Sources → Sources → Prop} {expires : Prop} {p p' : Pass} {l l' : Ledger}

/-- Ledgers without an entry, of which the sources alone differ. -/
theorem of_fresh (hl : l.cache.entries = []) {s' : Sources} (hs : S l.sources s') (p p' : Pass) :
    l.Twin S l.cache.Expires p p' { l with sources := s' } :=
  ⟨⟨rfl, rfl, rfl, hl ▸ .nil⟩, rfl, hs, rfl, rfl, rfl, rfl⟩

theorem told (h : l.Twin S expires p p' l') :
    l.events.map Event.outline = l'.events.map Event.outline := by
  rw [Ledger.events, Ledger.events, List.map_reverse, List.map_reverse, h.events]

theorem note (h : l.Twin S expires p p' l') {e e' : Event} (he : e.outline = e'.outline) :
    (l.note e).Twin S expires p p' (l'.note e') :=
  ⟨h.cache, h.expires, h.sources, congrArg₂ List.cons he h.events, h.failures, h.reported, h.status⟩

theorem markResolved (h : l.Twin S expires p p' l') (n : String) :
    (l.markResolved n).Twin S expires p p' (l'.markResolved n) :=
  ⟨h.cache, h.expires, h.sources, h.events, h.failures, h.reported,
    congrArg (setResolved n) h.status⟩

theorem markFailed (h : l.Twin S expires p p' l') (n : String) :
    (l.markFailed n).Twin S expires p p' (l'.markFailed n) :=
  ⟨h.cache, h.expires, h.sources, h.events, h.failures, h.reported,
    congrArg (setFailed n) h.status⟩

theorem list (h : l.Twin S expires p p' l') (n : String) (f : Failure) :
    (l.list n f).Twin S expires p p' (l'.list n f) :=
  ⟨h.cache, h.expires, h.sources, h.events, congrArg (List.cons f) h.failures,
    congrArg (List.cons (f.typeName, n)) h.reported, congrArg (setFailed n) h.status⟩

theorem fail (h : l.Twin S expires p p' l') (n : String) (f : Failure) :
    (l.fail n f).Twin S expires p p' (l'.fail n f) := by
  unfold Ledger.fail
  rw [← h.reported]
  split_ifs
  · exact h.markFailed n
  · exact h.list n f

end Ledger.Twin

namespace Pass

open Ledger

variable {S : Sources → Sources → Prop} {expires : Prop} {N : String → Prop} {p p' : Pass}
  {l l' : Ledger} {n : String} {segments : List Segment}

/-- Two answers of one expansion or one error, with ledgers of the same. -/
inductive SameAnswer (S : Sources → Sources → Prop) (expires : Prop) (p p' : Pass) {ε : Type} :
    Except ε Expansion × Ledger → Except ε Expansion × Ledger → Prop where
  | mk (a : Except ε Expansion) {l l' : Ledger} (h : l.Twin S expires p p' l') :
      SameAnswer S expires p p' (a, l) (a, l')

theorem SameAnswer.map {ε ε' : Type} {a a' : Except ε Expansion × Ledger}
    (f : Except ε Expansion → Except ε' Expansion) (h : SameAnswer S expires p p' a a') :
    SameAnswer S expires p p' (f a.1, a.2) (f a'.1, a'.2) := by
  cases h with
  | mk a h => exact .mk (f a) h

theorem expandCall_twin (hp : p.Twin N p') (hS : Sources.Matches p.library expires S)
    (depth : Int) (r : Reference) (h : l.Twin S expires p p' l') :
    SameAnswer S expires p p' (p.expandCall depth r l) (p'.expandCall depth r l') := by
  have hinvoke := hS.invoke h.sources r.name r.arguments
  rcases hi : p.library.invoke r.name r.arguments l.sources with ⟨o, s⟩
  rcases hi' : p.library.invoke r.name r.arguments l'.sources with ⟨o', s'⟩
  rw [hi, hi'] at hinvoke
  obtain ⟨rfl, hs⟩ : o = o' ∧ S s s' := hinvoke
  rw [hp.library] at hi'
  have hmove : ({ l with sources := s } : Ledger).Twin S expires p p' { l' with sources := s' } :=
    ⟨h.cache, h.expires, hs, h.events, h.failures, h.reported, h.status⟩
  rcases o with (f | e) | text
  · rw [expandCall_failed hi, expandCall_failed hi']
    exact .mk _ ((hmove.note rfl).list r.displayName f)
  · rw [expandCall_refused hi, expandCall_refused hi']
    exact .mk _ hmove
  · rw [expandCall_called hi, expandCall_called hi']
    exact .mk _ ((hmove.note rfl).markResolved r.displayName)

section Segments

variable {ε : Type} {stop : Refusal → ε} {depth : Int}
  {expand expand' : String → Ledger → Except ε Expansion × Ledger}

theorem expandSegment_twin (hp : p.Twin N p') (hS : Sources.Matches p.library expires S)
    {s : Segment}
    (he : ∀ r l l', s = .reference r → r.isCall = false → l.Twin S expires p p' l' →
      SameAnswer S expires p p' (expand r.name l) (expand' r.name l'))
    (h : l.Twin S expires p p' l') :
    SameAnswer S expires p p' (p.expandSegment depth stop expand s l)
      (p'.expandSegment depth stop expand' s l') := by
  cases s with
  | literal text span => exact .mk _ h
  | reference r =>
    cases hr : r.isCall with
    | false =>
      rw [expandSegment_variable hr, expandSegment_variable hr]
      exact he r l l' rfl hr h
    | true =>
      simp only [expandSegment, hr, if_true]
      exact (expandCall_twin hp hS depth r h).map (Except.mapError stop)

/-- Segments are expanded alike if each of their variables is. -/
theorem expandAll_twin (hp : p.Twin N p') (hS : Sources.Matches p.library expires S)
    (segments : List Segment)
    (he : ∀ r l l', .reference r ∈ segments → r.isCall = false → l.Twin S expires p p' l' →
      SameAnswer S expires p p' (expand r.name l) (expand' r.name l'))
    (h : l.Twin S expires p p' l') :
    SameAnswer S expires p p' (p.expandAll depth stop expand segments l)
      (p'.expandAll depth stop expand' segments l') := by
  induction segments generalizing l l' with
  | nil => exact .mk _ h
  | cons s rest ih =>
    have hs : SameAnswer S expires p p' (p.expandSegment depth stop expand s l)
        (p'.expandSegment depth stop expand' s l') :=
      expandSegment_twin hp hS (fun r l l' hr => he r l l' (hr ▸ List.mem_cons_self)) h
    generalize ha : p.expandSegment depth stop expand s l = a at hs
    generalize ha' : p'.expandSegment depth stop expand' s l' = a' at hs
    obtain ⟨x, h⟩ := hs
    rcases x with e | x
    · rw [expandAll_head ha, expandAll_head ha']
      exact .mk _ h
    rename_i l₁ l₁'
    have hrest := ih (fun r l l' hr => he r l l' (List.mem_cons_of_mem _ hr)) h
    generalize hb : p.expandAll depth stop expand rest l₁ = b at hrest
    generalize hb' : p'.expandAll depth stop expand' rest l₁' = b' at hrest
    obtain ⟨y, h⟩ := hrest
    rcases y with e | y
    · rw [expandAll_tail ha hb, expandAll_tail ha' hb']
      exact .mk _ h
    · rw [expandAll_ok ha hb, expandAll_ok ha' hb']
      exact .mk _ h

end Segments

/-! ### Variables -/

theorem settle_twin (hS : Sources.Matches p.library expires S) (n : String) (d d' : Definition)
    (x : Expansion) (h : l.Twin S expires p p' l') :
    SameAnswer S expires p p' (p.settle n d x l) (p'.settle n d' x l') := by
  have hm := h.markResolved n
  cases ho : x.isOk with
  | false =>
    rw [settle_failed ho, settle_failed ho]
    exact .mk _ (h.markFailed n)
  | true =>
    cases hx : x.isPure with
    | false =>
      rw [settle_impure ho hx, settle_impure ho hx]
      exact .mk _ hm
    | true =>
      -- the expansion is kept in both caches, or in none
      have hput : Cache.KeepAlike p.fingerprint p'.fingerprint l.cache.Expires S
          (l.cache.putNow (p.entry n d x) l.sources)
          (l'.cache.putNow (p'.entry n d' x) l'.sources) :=
        h.cache.putNow (h.expires ▸ hS) rfl rfl rfl ⟨rfl, rfl, fun _ => rfl⟩ h.sources
      generalize hk : l.cache.putNow (p.entry n d x) l.sources = a at hput
      generalize hk' : l'.cache.putNow (p'.entry n d' x) l'.sources = a' at hput
      cases hput with
      | ok hexpires hc hs =>
        rw [settle_kept ho hx hk, settle_kept ho hx hk']
        exact .mk _ ⟨hc, hexpires.trans h.expires, hs, hm.events, hm.failures, hm.reported, hm.status⟩
      | error r hexpires hc =>
        rw [settle_refused ho hx hk, settle_refused ho hx hk']
        exact .mk _ ⟨hc, hexpires.trans h.expires, hm.sources, hm.events, hm.failures, hm.reported,
          hm.status⟩

theorem expandValue_twin (hp : p.Twin N p') (hS : Sources.Matches p.library expires S)
    {d d' : Definition} {depth : Int} (ht : d.text = d'.text)
    {expand expand' : String → Ledger → Except Stop Expansion × Ledger}
    (he : ∀ r l l', .reference r ∈ segments → r.isCall = false → l.Twin S expires p p' l' →
      SameAnswer S expires p p' (expand r.name l) (expand' r.name l'))
    (h : l.Twin S expires p p' l') :
    SameAnswer S expires p p' (p.expandValue depth expand n d segments l)
      (p'.expandValue depth expand' n d' segments l') := by
  cases hr : segments.any Segment.isReference with
  | false =>
    rw [expandValue_literal hr, expandValue_literal hr, ht]
    exact settle_twin hS n d d' _ (h.note rfl)
  | true =>
    have hall : SameAnswer S expires p p'
        (p.expandAll (depth + 1) .refused expand segments (l.note (p.lookupEvent n d true depth)))
        (p'.expandAll (depth + 1) .refused expand' segments
          (l'.note (p'.lookupEvent n d' true depth))) :=
      expandAll_twin hp hS segments he (h.note rfl)
    generalize hx : p.expandAll (depth + 1) .refused expand segments
      (l.note (p.lookupEvent n d true depth)) = a at hall
    generalize hx' : p'.expandAll (depth + 1) .refused expand' segments
      (l'.note (p'.lookupEvent n d' true depth)) = a' at hall
    obtain ⟨y, h⟩ := hall
    rcases y with (⟨m, inner⟩ | r) | y
    · rw [expandValue_tooDeep hr hx, expandValue_tooDeep hr hx']
      exact .mk _ h
    · rw [expandValue_refused hr hx, expandValue_refused hr hx']
      exact .mk _ h
    · rw [expandValue_ok hr hx, expandValue_ok hr hx']
      exact settle_twin hS n d d' y (h.note rfl)

theorem expandDefined_twin (hp : p.Twin N p') (hS : Sources.Matches p.library expires S)
    (hn : N n) {depth : Int} {expand expand' : String → Ledger → Except Stop Expansion × Ledger}
    (he : ∀ m l l', N m → l.Twin S expires p p' l' →
      SameAnswer S expires p p' (expand m l) (expand' m l'))
    (h : l.Twin S expires p p' l') :
    SameAnswer S expires p p' (p.expandDefined depth expand n l)
      (p'.expandDefined depth expand' n l') := by
  have hdef := hp.defined n hn
  generalize hd : p.context.define? n = x at hdef
  generalize hd' : p'.context.define? n = x' at hdef
  cases hdef with
  | error r =>
    rw [expandDefined_refused hd, expandDefined_refused hd']
    exact .mk _ h
  | none =>
    rw [expandDefined_undefined hd, expandDefined_undefined hd']
    exact .mk _ ((h.note rfl).fail n (.undefined n))
  | @some d d' ht hparsed =>
    cases hs : d.parsed with
    | error f =>
      have hnote : (l.note (p.malformedEvent n d (.ofFault f) depth)).Twin S expires p p'
          (l'.note (p'.malformedEvent n d' (.ofFault f) depth)) := h.note rfl
      rw [expandDefined_malformed hd hs, expandDefined_malformed hd' (hparsed.symm.trans hs)]
      exact .mk _ (hnote.fail n (.ofFault f))
    | ok segments =>
      rw [expandDefined_value hd hs, expandDefined_value hd' (hparsed.symm.trans hs)]
      refine expandValue_twin hp hS ht (fun r l l' hr hc => he r.name l l' ?_) h
      exact hp.closed n r.name hn ((refers_iff hd hs).2 (mem_variableNames.2 ⟨r, hr, hc, rfl⟩))

theorem Twin.cycle? (hp : p.Twin N p') (n : String) : p'.cycle? n = p.cycle? n := by
  rw [Pass.cycle?, Pass.cycle?, hp.circular]

theorem Twin.depthAt (hp : p.Twin N p') (left : Nat) : p'.depthAt left = p.depthAt left := by
  rw [Pass.depthAt, Pass.depthAt, hp.maxDepth]

theorem circular_twin (hp : p.Twin N p') {cycle : List String} (left : Nat)
    (hc : p.cycle? n = some cycle) (h : l.Twin S expires p p' l') :
    SameAnswer S expires p p' (p.expandVariable left n l) (p'.expandVariable left n l') := by
  rw [expandVariable_circular hc, expandVariable_circular ((hp.cycle? n).trans hc), hp.depthAt]
  exact .mk _ (h.note rfl)

/-- **A variable whose name is defined alike in two contexts is expanded alike.** -/
theorem expandVariable_twin (hp : p.Twin N p') (hS : Sources.Matches p.library expires S)
    (left : Nat) (hn : N n) (h : l.Twin S expires p p' l') :
    SameAnswer S expires p p' (p.expandVariable left n l) (p'.expandVariable left n l') := by
  induction left generalizing n l l' with
  | zero =>
    cases hc : p.cycle? n with
    | some cycle => exact circular_twin hp 0 hc h
    | none =>
      rw [expandVariable_zero hc, expandVariable_zero ((hp.cycle? n).trans hc), hp.depthAt]
      exact .mk _ (h.note rfl)
  | succ left ih =>
    cases hc : p.cycle? n with
    | some cycle => exact circular_twin hp (left + 1) hc h
    | none =>
      have hc' := (hp.cycle? n).trans hc
      have hfind := h.cache.findNow (h.expires ▸ hS) n h.sources
      rw [h.expires] at hfind
      generalize hf : l.cache.findNow ⟨n, p.fingerprint⟩ l.sources = x at hfind
      generalize hf' : l'.cache.findNow ⟨n, p'.fingerprint⟩ l'.sources = x' at hfind
      cases hfind with
      | error r =>
        rw [expandVariable_refused hc hf, expandVariable_refused hc' hf']
        exact .mk _ h
      | @ok e? e?' c c' s s' he hx hcache hs =>
        have hmove : ({ l with cache := c, sources := s } : Ledger).Twin S expires p p'
            { l' with cache := c', sources := s' } :=
          ⟨hcache, hx, hs, h.events, h.failures, h.reported, h.status⟩
        cases he with
        | none =>
          rw [expandVariable_miss hc hf, expandVariable_miss hc' hf', hp.depthAt]
          refine expandDefined_twin hp hS hn (fun m l l' hm h => ?_) (hmove.note rfl)
          exact (ih hm h).map (Except.map Expansion.below)
        | @some e e' he =>
          rw [expandVariable_hit hc hf, expandVariable_hit hc' hf', hp.depthAt, ← he.value,
            ← he.height]
          split_ifs
          · exact .mk _ (hmove.note rfl)
          · have hnote : ({ l with cache := c, sources := s }.note
                (p.hitEvent n e false (p.depthAt (left + 1)))).Twin S expires p p'
                ({ l' with cache := c', sources := s' }.note
                  (p'.hitEvent n e' false (p.depthAt (left + 1)))) := hmove.note rfl
            exact .mk _ (hnote.markResolved n)

/-! ### Templates -/

theorem expandTop_twin (hp : p.Twin N p') (hS : Sources.Matches p.library expires S) (hn : N n)
    (h : l.Twin S expires p p' l') :
    SameAnswer S expires p p' (p.expandTop n l) (p'.expandTop n l') := by
  have hv := expandVariable_twin hp hS p.maxDepth hn h
  unfold expandTop
  rw [← hp.maxDepth]
  generalize p.expandVariable p.maxDepth n l = a at hv
  generalize p'.expandVariable p.maxDepth n l' = a' at hv
  obtain ⟨y, h⟩ := hv
  rcases y with (⟨m, inner⟩ | r) | y
  · exact .mk _ (h.fail n _)
  · exact .mk _ h
  · exact .mk _ h

theorem failCircular_twin (hp : p.Twin N p') (h : l.Twin S expires p p' l') :
    (p.failCircular l).Twin S expires p p' (p'.failCircular l') := by
  unfold failCircular
  rw [← hp.circular]
  generalize p.circular = cs
  induction cs generalizing l l' with
  | nil => exact h
  | cons c cs ih => exact ih (h.fail c.1 _)

/-- **A template is expanded alike in two contexts that define what it refers to alike.** -/
theorem expandTemplate_twin (hp : p.Twin N p') (hS : Sources.Matches p.library expires S)
    (hN : ∀ n ∈ variableNames segments, N n) (h : l.Twin S expires p p' l') :
    SameAnswer S expires p p' (p.expandTemplate segments l) (p'.expandTemplate segments l') :=
  expandAll_twin hp hS segments
    (fun r _ _ hr hc h => expandTop_twin hp hS (hN _ (mem_variableNames.2 ⟨r, hr, hc, rfl⟩)) h)
    (failCircular_twin hp h)

/-- From a cache without entries on, it does not matter under which fingerprint entries are kept. -/
theorem expandTemplate_fingerprint (p : Pass) (f : String) (segments : List Segment)
    (hl : l.cache.entries = []) :
    SameAnswer Eq l.cache.Expires p { p with fingerprint := f } (p.expandTemplate segments l)
      (expandTemplate { p with fingerprint := f } segments l) := by
  have hp : p.Twin (fun _ => True) { p with fingerprint := f } :=
    ⟨rfl, rfl, rfl, fun _ _ => define?_alike rfl, fun _ _ _ _ => trivial⟩
  exact expandTemplate_twin hp (.eq p.library l.cache.Expires) (fun _ _ => trivial)
    (.of_fresh hl rfl p _)

end Pass
end Stencil
