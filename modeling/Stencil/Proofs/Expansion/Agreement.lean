/-
# Expanding with a cache and without

An expansion with a cache whose entries are genuine agrees with one without:
the answers are the same, and so are the failures, the calls and all that is
said of names whose expansion could not have come from the cache. Only plain
names may be marked by fewer steps, since an entry stands for all that lies
below it; where the cache was empty at first, even these are the same.

Key definitions: `Genuine`, `Fits`, `Agrees`, `Simulates`.
Key theorems: `expandVariable_simulates`, `expandTemplate_simulates`.
-/
import Stencil.Context.Fingerprint
import Stencil.Proofs.Expansion.Tally

namespace Stencil

open Template Context

/-- What a trace says of the kind of a failure. -/
def Failure.outline (f : Failure) : String × Option String := (f.typeName, f.name?)

namespace Pass

open Ledger

/-- An entry that says what its name stands for, in every context of `U` that it may be found
for. -/
def Genuine (U : Context → Prop) (k : Cache.Key) (v : String) (n : Int) : Prop :=
  ∀ c, U c → c.fingerprint = k.fingerprint → ∃ h : Nat, n = h ∧ c.PlainName k.name v h

/-- A pass over a context of `U`, in which fingerprints tell what names mean. -/
structure Fits (U : Context → Prop) (p : Pass) : Prop where
  sound : p.IsSound
  member : U p.context
  fingerprint : p.context.fingerprint = p.fingerprint
  reading : ∀ c, U c → c.fingerprint = p.fingerprint → ∀ n, p.context.reading n = c.reading n
  library : p.library.IsSteady

/-- A genuine entry; in a cache that was empty at first, all that lies below it has been met. -/
def Supported (U : Context → Prop) (p : Pass) (isFresh : Prop) (names : List String)
    (k : Cache.Key) (v : String) (n : Int) : Prop :=
  Genuine U k v n ∧ (isFresh → k.fingerprint = p.fingerprint →
    ∀ m, p.context.Reached [k.name] m → m ∈ names)

/-- The ledger `l` of an expansion with a cache agrees with that, `l₀`, of one without. -/
structure Agrees (U : Context → Prop) (p : Pass) (isFresh : Prop) (l l₀ : Ledger) : Prop where
  entries : l.cache.All (Supported U p isFresh l₀.names)
  idle : l₀.cache.IsIdle
  steady : l.sources.IsSteady
  sources : l₀.sources = l.sources
  failures : l.recentFailures.map Failure.outline = l₀.recentFailures.map Failure.outline
  reported : l.reported = l₀.reported
  calls : l.recentCalls = l₀.recentCalls
  status : Tallies p isFresh l.status l₀.status

variable {U : Context → Prop} {p : Pass} {isFresh : Prop} {l l₀ l' l₀' : Ledger} {n : String}
  {segments rest : List Segment}

namespace Agrees

theorem withStatus (h : Agrees U p isFresh l l₀) {marks marks₀ : List (String × Bool)}
    (ht : Tallies p isFresh marks marks₀) (hn : ∀ m ∈ l₀.names, m ∈ marks₀.map Prod.fst) :
    Agrees U p isFresh { l with status := marks } { l₀ with status := marks₀ } :=
  ⟨h.entries.mono fun _ _ _ hk => ⟨hk.1, fun hf hp m hm => hn m (hk.2 hf hp m hm)⟩,
    h.idle, h.steady, h.sources, h.failures, h.reported, h.calls, ht⟩

theorem markResolved (h : Agrees U p isFresh l l₀) (n : String) :
    Agrees U p isFresh (l.markResolved n) (l₀.markResolved n) := by
  refine h.withStatus (h.status.setResolved n) fun m hm => ?_
  rw [setResolved_eq]
  split_ifs
  · exact hm
  · rw [List.map_append]
    exact List.mem_append_left _ hm

theorem markFailed (h : Agrees U p isFresh l l₀) (hn : ¬ p.IsPlain n) :
    Agrees U p isFresh (l.markFailed n) (l₀.markFailed n) :=
  h.withStatus (h.status.setFailed hn) fun _ hm => mem_names_setFailed.2 (.inl hm)

theorem list (h : Agrees U p isFresh l l₀) (hn : ¬ p.IsPlain n) {f f₀ : Failure}
    (hf : f.outline = f₀.outline) : Agrees U p isFresh (l.list n f) (l₀.list n f₀) := by
  have ht : f.typeName = f₀.typeName := congrArg Prod.fst hf
  have hl : Agrees U p isFresh
      { l with
        recentFailures := f :: l.recentFailures
        reported := (f.typeName, n) :: l.reported }
      { l₀ with
        recentFailures := f₀ :: l₀.recentFailures
        reported := (f₀.typeName, n) :: l₀.reported } :=
    ⟨h.entries, h.idle, h.steady, h.sources,
      by rw [List.map_cons, List.map_cons, hf, h.failures], by rw [ht, h.reported], h.calls,
      h.status⟩
  exact hl.markFailed hn

theorem fail (h : Agrees U p isFresh l l₀) (hn : ¬ p.IsPlain n) {f f₀ : Failure}
    (hf : f.outline = f₀.outline) : Agrees U p isFresh (l.fail n f) (l₀.fail n f₀) := by
  have ht : f.typeName = f₀.typeName := congrArg Prod.fst hf
  unfold Ledger.fail
  rw [← ht, ← h.reported]
  split_ifs
  · exact h.markFailed hn
  · exact h.list hn hf

theorem note (h : Agrees U p isFresh l l₀) {e : Event} (he : e.kind ≠ .call) :
    Agrees U p isFresh (l.note e) (l₀.note e) :=
  ⟨h.entries, h.idle, h.steady, h.sources, h.failures, h.reported,
    by rw [note_calls he, note_calls he, h.calls], h.status⟩

theorem noteLeft (h : Agrees U p isFresh l l₀) {e : Event} (he : e.kind ≠ .call) :
    Agrees U p isFresh (l.note e) l₀ :=
  ⟨h.entries, h.idle, h.steady, h.sources, h.failures, h.reported,
    by rw [note_calls he, h.calls], h.status⟩

theorem noteCall (h : Agrees U p isFresh l l₀) (e : Event) :
    Agrees U p isFresh (l.note e) (l₀.note e) := by
  refine ⟨h.entries, h.idle, h.steady, h.sources, h.failures, h.reported, ?_, h.status⟩
  have hc := h.calls
  unfold recentCalls at hc ⊢
  rw [Ledger.note, Ledger.note, List.filter_cons, List.filter_cons, hc]

theorem withSources (h : Agrees U p isFresh l l₀) {s : Sources} (hs : s.IsSteady) :
    Agrees U p isFresh { l with sources := s } { l₀ with sources := s } :=
  ⟨h.entries, h.idle, hs, rfl, h.failures, h.reported, h.calls, h.status⟩

theorem withCaches (h : Agrees U p isFresh l l₀) {c c₀ : Cache}
    (hc : c.All (Supported U p isFresh l₀.names)) (hi : c₀.IsIdle) :
    Agrees U p isFresh { l with cache := c } { l₀ with cache := c₀ } :=
  ⟨hc, hi, h.steady, h.sources, h.failures, h.reported, h.calls, h.status⟩

/-- What the expansion without a cache does below a plain name has no counterpart where the name is
found in the cache. -/
theorem marksRight (h : Agrees U p isFresh l l₀) {R : String → Prop} (hm : Marks R l₀ l₀')
    (hp : ∀ m, R m → p.IsPlain m) (hf : isFresh → ∀ m, R m → m ∈ l₀.names) :
    Agrees U p isFresh l l₀' := by
  obtain ⟨ms, hs, hR⟩ := id hm.status
  refine ⟨h.entries.mono fun _ _ _ hk => ⟨hk.1, fun hx hy m hz => hm.names (hk.2 hx hy m hz)⟩,
    hm.idle, h.steady, hm.sources.trans h.sources, hm.failures ▸ h.failures,
    hm.reported ▸ h.reported, hm.calls ▸ h.calls, ?_⟩
  rw [hs]
  exact h.status.more ms (fun m hx => hp m (hR m hx)) fun hx m hy => hf hx m (hR m hy)

theorem catchUp (h : Agrees U p isFresh l l₀) (hn : p.IsPlain n) (hm : n ∈ l₀.names) :
    Agrees U p isFresh (l.markResolved n) l₀ :=
  ⟨h.entries, h.idle, h.steady, h.sources, h.failures, h.reported, h.calls,
    h.status.catchUp hn hm⟩

end Agrees

/-! ### Answers -/

/-- Reasons that agree: the same refusal, or a chain that begins with the same name. -/
inductive StopsAlike : Stop → Stop → Prop where
  | tooDeep (m : String) (inner inner₀ : List String) :
      StopsAlike (.tooDeep m inner) (.tooDeep m inner₀)
  | refused (r : Refusal) : StopsAlike (.refused r) (.refused r)

/-- The same expansions, or reasons that agree by `R`, with ledgers that agree. -/
inductive Simulates {ε : Type} (U : Context → Prop) (p : Pass) (isFresh : Prop) (R : ε → ε → Prop) :
    Except ε Expansion × Ledger → Except ε Expansion × Ledger → Prop where
  | ok {x : Expansion} {l l₀ : Ledger} (h : Agrees U p isFresh l l₀) :
      Simulates U p isFresh R (.ok x, l) (.ok x, l₀)
  | error {e e₀ : ε} {l l₀ : Ledger} (he : R e e₀) (h : Agrees U p isFresh l l₀) :
      Simulates U p isFresh R (.error e, l) (.error e₀, l₀)

theorem not_isPlain_call {r : Reference} (hr : r.isCall = true) : ¬ p.IsPlain r.displayName := by
  rintro ⟨hid, -⟩
  rw [Reference.displayName, if_pos hr, Reference.callName, String.toList_append] at hid
  have hp : ∀ cs : List Char, isIdentifier (cs ++ ['(', ')']) = false := by
    intro cs
    cases cs with
    | nil => decide
    | cons c cs =>
      rw [List.cons_append, isIdentifier, List.all_append]
      have hx : (['(', ')'].all fun d => d.isAlphanum || d == '_') = false := by decide
      rw [hx, Bool.and_false, Bool.and_false]
  rw [show "()".toList = ['(', ')'] from rfl, hp] at hid
  cases hid

theorem not_isPlain_undefined (hd : p.context.define? n = .ok none) : ¬ p.IsPlain n := by
  rintro ⟨-, v, h, ⟨d, segments, hd', -⟩, -⟩
  rw [hd] at hd'
  cases hd'

theorem not_isPlain_malformed {d : Definition} {f : Template.Fault}
    (hd : p.context.define? n = .ok (some d)) (hp : d.parsed = .error f) : ¬ p.IsPlain n := by
  rintro ⟨-, v, h, ⟨d', segments, hd', hp', -⟩, -⟩
  rw [hd] at hd'
  cases hd'
  rw [hp] at hp'
  cases hp'

theorem IsSound.not_isPlain (hp : p.IsSound) (hc : (p.cycle? n).isSome) : ¬ p.IsPlain n := by
  rintro ⟨-, v, h, hn, -⟩
  exact hn.not_onCycle (hp n hc)

/-! ### Calls and segments -/

theorem expandCall_simulates (hlib : p.library.IsSteady) (depth : Int) {r : Reference}
    (hr : r.isCall = true) (h : Agrees U p isFresh l l₀) :
    Simulates U p isFresh Eq (p.expandCall depth r l) (p.expandCall depth r l₀) := by
  have hs := hlib.invoke r.name r.arguments h.steady
  rcases hi : p.library.invoke r.name r.arguments l.sources with ⟨(f | e) | text, s⟩ <;>
    rw [hi] at hs <;> have hi₀ := h.sources ▸ hi
  · rw [expandCall_failed hi, expandCall_failed hi₀]
    exact .ok (((h.withSources hs).noteCall _).list (not_isPlain_call hr) rfl)
  · rw [expandCall_refused hi, expandCall_refused hi₀]
    exact .error rfl (h.withSources hs)
  · rw [expandCall_called hi, expandCall_called hi₀]
    exact .ok (((h.withSources hs).noteCall _).markResolved _)

section Segments

variable {ε : Type} {R : ε → ε → Prop} {stop : Refusal → ε} {depth : Int}
  {expand : String → Ledger → Except ε Expansion × Ledger}

theorem expandSegment_simulates (hlib : p.library.IsSteady) (hstop : ∀ r, R (stop r) (stop r))
    (depth : Int) {s : Segment}
    (he : ∀ r l l₀, s = .reference r → Agrees U p isFresh l l₀ →
      Simulates U p isFresh R (expand r.name l) (expand r.name l₀))
    (h : Agrees U p isFresh l l₀) :
    Simulates U p isFresh R (p.expandSegment depth stop expand s l)
      (p.expandSegment depth stop expand s l₀) := by
  cases s with
  | literal text span => exact .ok h
  | reference r =>
    cases hr : r.isCall with
    | false =>
      rw [expandSegment_variable hr, expandSegment_variable hr]
      exact he r l l₀ rfl h
    | true =>
      have hc := expandCall_simulates hlib depth hr h
      simp only [expandSegment, hr, if_true]
      generalize p.expandCall depth r l = a at hc ⊢
      generalize p.expandCall depth r l₀ = a₀ at hc ⊢
      cases hc with
      | ok h => exact .ok h
      | error he h =>
        cases he
        exact .error (hstop _) h

/-- Segments are expanded alike if each of their variables is. -/
theorem expandAll_simulates (hlib : p.library.IsSteady) (hstop : ∀ r, R (stop r) (stop r))
    (depth : Int) (segments : List Segment)
    (he : ∀ r l l₀, .reference r ∈ segments → Agrees U p isFresh l l₀ →
      Simulates U p isFresh R (expand r.name l) (expand r.name l₀))
    (h : Agrees U p isFresh l l₀) :
    Simulates U p isFresh R (p.expandAll depth stop expand segments l)
      (p.expandAll depth stop expand segments l₀) := by
  induction segments generalizing l l₀ with
  | nil => exact .ok h
  | cons s rest ih =>
    have hs := expandSegment_simulates hlib hstop depth (s := s)
      (fun r l l₀ hr => he r l l₀ (hr ▸ List.mem_cons_self)) h
    generalize ha : p.expandSegment depth stop expand s l = a at hs
    generalize ha₀ : p.expandSegment depth stop expand s l₀ = a₀ at hs
    cases hs with
    | error hR h =>
      rw [expandAll_head ha, expandAll_head ha₀]
      exact .error hR h
    | ok h =>
      have hrest := ih (fun r l l₀ hr => he r l l₀ (List.mem_cons_of_mem _ hr)) h
      rename_i l' l₀'
      generalize hb : p.expandAll depth stop expand rest l' = b at hrest
      generalize hb₀ : p.expandAll depth stop expand rest l₀' = b₀ at hrest
      cases hrest with
      | error hR h =>
        rw [expandAll_tail ha hb, expandAll_tail ha₀ hb₀]
        exact .error hR h
      | ok h =>
        rw [expandAll_ok ha hb, expandAll_ok ha₀ hb₀]
        exact .ok h

end Segments

/-! ### Variables -/

/-- What is known of a name whose expansion without a cache has the answer `a`. -/
structure Settled (p : Pass) (n : String) (a : Except Stop Expansion × Ledger) : Prop where
  plain : ∀ x, a.1 = .ok x → x.isPure = true →
    ∃ h : Nat, x.height = h ∧ p.context.PlainName n x.text h
  ok : ∀ x, a.1 = .ok x → p.IsPlain n → x.isOk = true
  names : ∀ x, a.1 = .ok x → x.isPure = true → ∀ m, p.context.Reached [n] m → m ∈ a.2.names

theorem expandVariable_settled {left : Nat} (hp : p.IsSound) (hle : left ≤ p.maxDepth)
    (hid : isIdentifier n.toList = true) (hl : l.cache.IsIdle) :
    Settled p n (p.expandVariable left n l) := by
  have hpure := expandVariable_pure (upholds_idle p) left n hl
  have hplain : ∀ x, (p.expandVariable left n l).1 = .ok x → x.isPure = true →
      ∃ h : Nat, x.height = h ∧ p.context.PlainName n x.text h := by
    intro x hx hpx
    obtain ⟨h, hh, hn⟩ := hpure.plain x hx hpx
    exact ⟨h, by rw [hh, Int.add_zero], hn⟩
  refine ⟨hplain, fun x hx hpn => ?_, fun x hx hpx => ?_⟩
  · obtain ⟨-, v, h, hn, -⟩ := hpn
    have ha := expandVariable_plain hp hle hid hn hl
    by_cases hf : h < left
    · rw [(ha.ok hf).1] at hx
      cases hx
      rfl
    · obtain ⟨m, inner, he⟩ := ha.deep hf
      rw [he] at hx
      cases hx
  · obtain ⟨h, -, hn⟩ := hplain x hx hpx
    have ha := expandVariable_plain hp hle hid hn hl
    by_cases hf : h < left
    · exact (ha.ok hf).2
    · obtain ⟨m, inner, he⟩ := ha.deep hf
      rw [he] at hx
      cases hx

theorem settle_simulates (hp : Fits U p) {d : Definition} {x : Expansion}
    (h : Agrees U p isFresh l l₀) (ha : Settled p n (p.settle n d x l₀)) :
    Simulates U p isFresh StopsAlike (p.settle n d x l) (p.settle n d x l₀) := by
  obtain ⟨l₀', hx, -⟩ := settle_idle p n d x h.idle
  cases hxo : x.isOk with
  | false =>
    have hn : ¬ p.IsPlain n := fun hn => by
      have := ha.ok x (by rw [hx]) hn
      rw [hxo] at this
      cases this
    rw [settle_failed hxo, settle_failed hxo]
    exact .ok (h.markFailed hn)
  | true =>
    have hm := h.markResolved n
    cases hxp : x.isPure with
    | false =>
      rw [settle_impure hxo hxp, settle_impure hxo hxp]
      exact .ok hm
    | true =>
      obtain ⟨k, hk, hn⟩ := ha.plain x (by rw [hx]) hxp
      obtain ⟨c₀, hc₀, hi⟩ := h.idle.putNow (p.entry n d x) l₀.sources
      have hnames := ha.names x (by rw [hx]) hxp
      rw [settle_kept hxo hxp hc₀] at hnames ⊢
      have hsup : Supported U p isFresh (l₀.markResolved n).names ⟨n, p.fingerprint⟩ x.text
          x.height :=
        ⟨fun c hc he => ⟨k, hk, hn.of_reading (hp.reading c hc he)⟩, fun _ _ => hnames⟩
      obtain ⟨c, hc, hall⟩ := hm.entries.putNow (e := p.entry n d x) hsup h.steady
      rw [settle_kept (l := l) hxo hxp hc]
      exact .ok (hm.withCaches hall hi)

theorem expandValue_simulates (hp : Fits U p) {d : Definition} {depth : Int}
    {expand : String → Ledger → Except Stop Expansion × Ledger}
    (he : ∀ r l l₀, .reference r ∈ segments → Agrees U p isFresh l l₀ →
      Simulates U p isFresh StopsAlike (expand r.name l) (expand r.name l₀))
    (h : Agrees U p isFresh l l₀)
    (ha : Settled p n (p.expandValue depth expand n d segments l₀)) :
    Simulates U p isFresh StopsAlike (p.expandValue depth expand n d segments l)
      (p.expandValue depth expand n d segments l₀) := by
  cases hr : segments.any Segment.isReference with
  | false =>
    rw [expandValue_literal hr] at ha ⊢
    rw [expandValue_literal hr]
    exact settle_simulates hp (h.note (by simp [lookupEvent])) ha
  | true =>
    have hlook := h.note (e := p.lookupEvent n d true depth) (by simp [lookupEvent])
    have hall := expandAll_simulates hp.library StopsAlike.refused (depth + 1) segments he hlook
    generalize hx : p.expandAll (depth + 1) .refused expand segments
      (l.note (p.lookupEvent n d true depth)) = a at hall
    generalize hx₀ : p.expandAll (depth + 1) .refused expand segments
      (l₀.note (p.lookupEvent n d true depth)) = a₀ at hall
    cases hall with
    | error hR h =>
      cases hR with
      | tooDeep m inner inner₀ =>
        rw [expandValue_tooDeep hr hx, expandValue_tooDeep hr hx₀]
        exact .error (.tooDeep _ _ _) h
      | refused r =>
        rw [expandValue_refused hr hx, expandValue_refused hr hx₀]
        exact .error (.refused _) h
    | ok h =>
      rw [expandValue_ok hr hx₀] at ha ⊢
      rw [expandValue_ok hr hx]
      exact settle_simulates hp (h.note (by simp [nestedEvent])) ha

theorem expandDefined_simulates (hp : Fits U p) {depth : Int}
    {expand : String → Ledger → Except Stop Expansion × Ledger}
    (he : ∀ m l l₀, isIdentifier m.toList = true → Agrees U p isFresh l l₀ →
      Simulates U p isFresh StopsAlike (expand m l) (expand m l₀))
    (h : Agrees U p isFresh l l₀) (ha : Settled p n (p.expandDefined depth expand n l₀)) :
    Simulates U p isFresh StopsAlike (p.expandDefined depth expand n l)
      (p.expandDefined depth expand n l₀) := by
  rcases hd : p.context.define? n with r | _ | d
  · rw [expandDefined_refused hd, expandDefined_refused hd]
    exact .error (.refused r) h
  · have hn := h.note (e := undefinedEvent n depth) (by simp [undefinedEvent])
    rw [expandDefined_undefined hd, expandDefined_undefined hd]
    exact .ok (hn.fail (not_isPlain_undefined hd) rfl)
  · cases hpd : d.parsed with
    | error f =>
      have hn := h.note (e := p.malformedEvent n d (.ofFault f) depth) (by simp [malformedEvent])
      rw [expandDefined_malformed hd hpd, expandDefined_malformed hd hpd]
      exact .ok (hn.fail (not_isPlain_malformed hd hpd) rfl)
    | ok segments =>
      rw [expandDefined_value hd hpd] at ha
      rw [expandDefined_value hd hpd, expandDefined_value hd hpd]
      exact expandValue_simulates hp
        (fun r l l₀ hr => he r.name l l₀ (define?_names hd hpd r hr)) h ha

/-- A name that is found in the cache: the expansion without one comes to what the entry says. -/
theorem hit_simulates (hp : Fits U p) {left : Nat} (hle : left ≤ p.maxDepth)
    (hid : isIdentifier n.toList = true) {e : Cache.Entry} (h : Agrees U p isFresh l l₀)
    (hs : Supported U p isFresh l₀.names (p.key n) e.value e.height) :
    Simulates U p isFresh StopsAlike
      (if (left : Int) ≤ e.height then (.error (.tooDeep n []), l)
        else (.ok { text := e.value, height := e.height }, l.markResolved n))
      (p.expandVariable left n l₀) := by
  obtain ⟨k, hk, hn⟩ := hs.1 p.context hp.member hp.fingerprint
  have ha := expandVariable_plain hp.sound hle hid hn h.idle
  have hr := h.marksRight ha.marks (fun m hm => hm.2) fun hf m hm => hs.2 hf rfl m hm.1
  rw [hk]
  generalize hx : p.expandVariable left n l₀ = a at ha hr ⊢
  obtain ⟨a, l₀'⟩ := a
  by_cases hf : k < left
  · obtain ⟨rfl, hnames⟩ := ha.ok hf
    rw [if_neg (by omega)]
    exact .ok (hr.catchUp ⟨hid, _, _, hn, by omega⟩ (hnames n ⟨n, List.mem_singleton.2 rfl, .refl⟩))
  · obtain ⟨m, inner, rfl⟩ := ha.deep hf
    rw [if_pos (by omega)]
    obtain rfl := expandVariable_outermost (p := p) (n := n) (l := l₀) (by rw [hx])
    exact .error (.tooDeep _ _ _) hr

theorem Simulates.below {a a₀ : Except Stop Expansion × Ledger}
    (h : Simulates U p isFresh StopsAlike a a₀) :
    Simulates U p isFresh StopsAlike (below a) (below a₀) := by
  cases h with
  | ok h => exact .ok h
  | error he h => exact .error he h

/-- **A variable expands with a cache of genuine entries as it does without one.** -/
theorem expandVariable_simulates (hp : Fits U p) {left : Nat} (hle : left ≤ p.maxDepth)
    (hid : isIdentifier n.toList = true) (h : Agrees U p isFresh l l₀) :
    Simulates U p isFresh StopsAlike (p.expandVariable left n l) (p.expandVariable left n l₀) := by
  -- on what the expansion with the cache does; the one without it has no entry to find
  induction left, n, l using p.expandVariable_induct generalizing l₀ with
  | circular left n l cycle hc =>
    rw [expandVariable_circular hc]
    exact .ok (h.note (by simp [circularEvent]))
  | bound n l hc =>
    rw [expandVariable_zero hc]
    exact .error (.tooDeep _ _ _) (h.note (by simp [boundEvent]))
  | refused left n l r hc hf =>
    obtain ⟨e?, c, hf', -⟩ := h.entries.findNow (p.key n) h.steady
    cases hf.symm.trans hf'
  | miss left n l c s hc hf ih =>
    obtain ⟨e?, c', hf', hall, -⟩ := h.entries.findNow (p.key n) h.steady
    cases hf.symm.trans hf'
    have ha := expandVariable_settled (n := n) (l := l₀) hp.sound hle hid h.idle
    obtain ⟨c₀, hi, hl₀⟩ := expandVariable_idle left hc h.idle
    have hn := (h.withCaches hall hi).note (e := missEvent n (p.depthAt (left + 1)))
      (by simp [missEvent])
    rw [hl₀] at ha ⊢
    exact expandDefined_simulates hp
      (fun m l l₀ hm h => (ih m l (by omega) hm h).below) hn ha
  | tooDeep left n l e c s hc hf hh =>
    obtain ⟨e?, c', hf', hall, hsome⟩ := h.entries.findNow (p.key n) h.steady
    cases hf.symm.trans hf'
    have hx := hit_simulates hp hle hid ((h.withCaches hall h.idle).noteLeft
      (e := p.hitEvent n e true (p.depthAt (left + 1))) (by simp [hitEvent])) (hsome e rfl)
    rwa [if_pos (by omega)] at hx
  | hit left n l e c s hc hf hh =>
    obtain ⟨e?, c', hf', hall, hsome⟩ := h.entries.findNow (p.key n) h.steady
    cases hf.symm.trans hf'
    have hx := hit_simulates hp hle hid ((h.withCaches hall h.idle).noteLeft
      (e := p.hitEvent n e false (p.depthAt (left + 1))) (by simp [hitEvent])) (hsome e rfl)
    rwa [if_neg (by omega)] at hx

/-! ### Templates -/

theorem expandTop_simulates (hp : Fits U p) (hid : isIdentifier n.toList = true)
    (h : Agrees U p isFresh l l₀) :
    Simulates U p isFresh Eq (p.expandTop n l) (p.expandTop n l₀) := by
  have hv := expandVariable_simulates hp (Nat.le_refl _) hid h
  have ho : ∀ m inner, (p.expandVariable p.maxDepth n l₀).1 = .error (.tooDeep m inner) → m = n :=
    fun _ _ h => expandVariable_outermost h
  have hplain : ∀ v k, p.context.PlainName n v k → k < p.maxDepth →
      ∃ x, (p.expandVariable p.maxDepth n l₀).1 = .ok x := fun v k hn hk =>
    ⟨_, ((expandVariable_plain hp.sound (Nat.le_refl _) hid hn h.idle).ok hk).1⟩
  unfold expandTop
  generalize p.expandVariable p.maxDepth n l = a at hv ⊢
  generalize p.expandVariable p.maxDepth n l₀ = a₀ at hv ho hplain ⊢
  cases hv with
  | ok h => exact .ok h
  | error he h =>
    cases he with
    | refused r => exact .error rfl h
    | tooDeep m inner inner₀ =>
      have hn : ¬ p.IsPlain n := by
        rintro ⟨-, v, k, hn, hk⟩
        obtain ⟨x, hx⟩ := hplain v k hn hk
        cases hx
      exact .ok (h.fail hn rfl)

theorem failCircular_agrees (hp : Fits U p) (h : Agrees U p isFresh l l₀) :
    Agrees U p isFresh (p.failCircular l) (p.failCircular l₀) := by
  have hn : ∀ c ∈ p.circular, ¬ p.IsPlain c.1 := fun c hc =>
    hp.sound.not_isPlain (cycle?_isSome.2 (List.mem_map_of_mem hc))
  unfold failCircular
  generalize p.circular = cs at hn ⊢
  induction cs generalizing l l₀ with
  | nil => exact h
  | cons c cs ih =>
    rw [List.foldl_cons, List.foldl_cons]
    exact ih (h.fail (hn c List.mem_cons_self) rfl) fun x hx => hn x (List.mem_cons_of_mem _ hx)

/-- **A template expands with a cache of genuine entries as it does without one.** -/
theorem expandTemplate_simulates (hp : Fits U p)
    (hid : ∀ r, .reference r ∈ segments → isIdentifier r.name.toList = true)
    (h : Agrees U p isFresh l l₀) :
    Simulates U p isFresh Eq (p.expandTemplate segments l) (p.expandTemplate segments l₀) :=
  expandAll_simulates hp.library (fun _ => rfl) 0 segments
    (fun r _ _ hr h => expandTop_simulates hp (hid r hr) h) (failCircular_agrees hp h)

end Pass
end Stencil
