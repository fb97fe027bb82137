/-
# Expanding plain names

With a cache that keeps nothing, a plain name expands to the text and the
height that the context gives it, if there are enough levels, and else is too
deep; nothing happens on the way but that names below it are marked as
resolved (`expandVariable_plain`). With such a cache, or one that holds plain
values only, no other names have pure expansions, so that it holds plain values
afterwards (`expandVariable_pure`).

Key definitions: `Ledger.recentCalls`, `Ledger.names`, `Marks`, `IsSound`,
`IsPlain`, `Upholds`.
Key theorems: `expandVariable_plain`, `expandVariable_pure`.
-/
import Stencil.Proofs.Cache.Entries
import Stencil.Proofs.Context.Plain
import Stencil.Proofs.Expansion.Ways

namespace Stencil

open Template Context

namespace Ledger

/-- The calls that were made, the last one first. -/
def recentCalls (l : Ledger) : List Event := l.recentEvents.filter fun e => e.kind == .call

/-- The names met so far. -/
def names (l : Ledger) : List String := l.status.map Prod.fst

theorem note_calls {l : Ledger} {e : Event} (h : e.kind ≠ .call) :
    (l.note e).recentCalls = l.recentCalls := by
  unfold note recentCalls
  rw [List.filter_cons_of_neg (by simpa using h)]

theorem setResolved_eq (name : String) (status : List (String × Bool)) :
    setResolved name status =
      if name ∈ status.map Prod.fst then status else status ++ [(name, true)] := by
  have h : (status.any fun s => s.1 == name) = true ↔ name ∈ status.map Prod.fst := by
    simp
  unfold setResolved
  simp only [h]

theorem mem_unresolved {l : Ledger} {n : String} : n ∈ l.unresolved ↔ (n, false) ∈ l.status := by
  unfold unresolved
  simp

theorem mem_setFailed_iff {m n : String} {marks : List (String × Bool)} :
    (m, false) ∈ setFailed n marks ↔ (m, false) ∈ marks ∨ m = n := by
  induction marks with
  | nil => simp [setFailed]
  | cons x marks ih =>
    obtain ⟨k, ok⟩ := x
    rw [setFailed]
    split_ifs with h
    · obtain rfl := beq_iff_eq.1 h
      simp only [List.mem_cons, Prod.mk.injEq]
      tauto
    · rw [List.mem_cons, List.mem_cons, ih, or_assoc]

/-- Nothing happened from `l` to `l'` but that names of `R` were marked as resolved. -/
structure Marks (R : String → Prop) (l l' : Ledger) : Prop where
  idle : l'.cache.IsIdle
  sources : l'.sources = l.sources
  failures : l'.recentFailures = l.recentFailures
  reported : l'.reported = l.reported
  calls : l'.recentCalls = l.recentCalls
  status : ∃ ms : List String, l'.status = l.status ++ ms.map (fun m => (m, true)) ∧ ∀ m ∈ ms, R m

namespace Marks

variable {R : String → Prop} {l l' l'' : Ledger}

theorem refl (h : l.cache.IsIdle) : Marks R l l :=
  ⟨h, rfl, rfl, rfl, rfl, [], by simp, by simp⟩

theorem trans (h : Marks R l l') (h' : Marks R l' l'') : Marks R l l'' := by
  obtain ⟨ms, hs, hR⟩ := h.status
  obtain ⟨ms', hs', hR'⟩ := h'.status
  refine ⟨h'.idle, h'.sources.trans h.sources, h'.failures.trans h.failures,
    h'.reported.trans h.reported, h'.calls.trans h.calls, ms ++ ms', ?_, fun m hm => ?_⟩
  · rw [hs', hs, List.map_append, List.append_assoc]
  · rcases List.mem_append.1 hm with hm | hm
    · exact hR m hm
    · exact hR' m hm

theorem mono {R' : String → Prop} (h : Marks R l l') (hr : ∀ m, R m → R' m) : Marks R' l l' := by
  obtain ⟨ms, hs, hR⟩ := h.status
  exact ⟨h.idle, h.sources, h.failures, h.reported, h.calls, ms, hs, fun m hm => hr m (hR m hm)⟩

theorem note (h : l.cache.IsIdle) {e : Event} (he : e.kind ≠ .call) : Marks R l (l.note e) :=
  ⟨h, rfl, rfl, rfl, note_calls he, [], by simp [Ledger.note], by simp⟩

theorem withCache {c : Cache} (h : c.IsIdle) : Marks R l { l with cache := c } :=
  ⟨h, rfl, rfl, rfl, rfl, [], by simp, by simp⟩

theorem markResolved (h : l.cache.IsIdle) {n : String} (hn : R n) :
    Marks R l (l.markResolved n) := by
  refine ⟨h, rfl, rfl, rfl, rfl, ?_⟩
  unfold Ledger.markResolved
  rw [setResolved_eq]
  split_ifs
  · exact ⟨[], by simp, by simp⟩
  · exact ⟨[n], rfl, by simpa using hn⟩

theorem names (h : Marks R l l') {n : String} (hn : n ∈ l.names) : n ∈ l'.names := by
  obtain ⟨ms, hs, -⟩ := h.status
  unfold Ledger.names
  rw [hs, List.map_append]
  exact List.mem_append_left _ hn

end Marks

theorem mem_names_markResolved (l : Ledger) (n : String) : n ∈ (l.markResolved n).names := by
  unfold names markResolved
  rw [setResolved_eq]
  split_ifs with h
  · exact h
  · simp

end Ledger

namespace Pass

open Ledger

/-- The names that a pass takes for circular lie on reference cycles. -/
def IsSound (p : Pass) : Prop := ∀ n, (p.cycle? n).isSome → p.context.OnCycle n

/-- A name that has a plain value, and few enough levels below it to be expanded at the top. -/
def IsPlain (p : Pass) (n : String) : Prop :=
  isIdentifier n.toList = true ∧ ∃ v h, p.context.PlainName n v h ∧ h < p.maxDepth

variable {p : Pass} {n v : String} {h left : Nat} {l l' : Ledger} {segments rest : List Segment}

theorem cycle?_isSome : (p.cycle? n).isSome ↔ n ∈ p.circular.map Prod.fst := by
  unfold Pass.cycle?
  rw [Option.isSome_map, List.find?_isSome]
  simp

theorem IsSound.cycle?_plain (hp : p.IsSound) (hn : p.context.PlainName n v h) :
    p.cycle? n = none := by
  cases hc : p.cycle? n with
  | none => rfl
  | some cycle => exact absurd (hp n (by rw [hc]; rfl)) hn.not_onCycle

theorem expandVariable_idle (left : Nat) (hc : p.cycle? n = none) (hl : l.cache.IsIdle) :
    ∃ c : Cache, c.IsIdle ∧ p.expandVariable (left + 1) n l =
      p.expandDefined (p.depthAt (left + 1)) (fun n l => below (p.expandVariable left n l)) n
        ({ l with cache := c }.note (missEvent n (p.depthAt (left + 1)))) := by
  obtain ⟨c, hf, hi⟩ := hl.findNow (p.key n) l.sources
  exact ⟨c, hi, expandVariable_miss hc hf⟩

theorem expandTop_ok {x : Expansion} (hx : p.expandVariable p.maxDepth n l = (.ok x, l')) :
    p.expandTop n l = (.ok x, l') := by
  rw [expandTop, hx]

/-- A name of the template that is not in the cache comes to what its value does. -/
theorem expandTop_value {c : Cache} {s : Sources} {d : Definition} {x : Expansion}
    (hm : p.maxDepth = left + 1) (hc : p.cycle? n = none)
    (hf : l.cache.findNow (p.key n) l.sources = .ok (none, c, s))
    (hd : p.context.define? n = .ok (some d)) (hp : d.parsed = .ok segments)
    (hx : p.expandValue 0 (fun n l => below (p.expandVariable left n l)) n d segments
      ({ l with cache := c, sources := s }.note (missEvent n 0)) = (.ok x, l')) :
    p.expandTop n l = (.ok x, l') := by
  have hdepth : p.depthAt (left + 1) = 0 := by
    rw [depthAt, hm]
    exact Int.sub_self _
  refine expandTop_ok ?_
  rw [hm, expandVariable_value hc hf hd hp, hdepth, hx]

/-- Where one level is left, a value that begins with a variable is too deep. -/
theorem expandVariable_stopped {c : Cache} {s : Sources} {d : Definition} {r : Reference}
    (hc : ∀ m, p.cycle? m = none) (hf : l.cache.findNow (p.key n) l.sources = .ok (none, c, s))
    (hd : p.context.define? n = .ok (some d)) (hp : d.parsed = .ok (.reference r :: rest))
    (hr : r.isCall = false) :
    p.expandVariable (0 + 1) n l = (.error (.tooDeep n [r.name]),
      (({ l with cache := c, sources := s }.note (missEvent n (p.depthAt (0 + 1)))).note
        (p.lookupEvent n d true (p.depthAt (0 + 1)))).note (p.boundEvent r.name (p.depthAt 0))) := by
  rw [expandVariable_value (hc n) hf hd hp]
  refine expandValue_tooDeep rfl (expandAll_head ?_)
  rw [expandSegment_variable hr, expandVariable_zero (hc r.name)]
  rfl

/-- Where no names but those of the template are expanded, one of which the value begins with a
variable fails. -/
theorem expandTop_stopped {c : Cache} {s : Sources} {d : Definition} {r : Reference}
    (hm : p.maxDepth = 1) (hc : ∀ m, p.cycle? m = none)
    (hf : l.cache.findNow (p.key n) l.sources = .ok (none, c, s))
    (hd : p.context.define? n = .ok (some d)) (hp : d.parsed = .ok (.reference r :: rest))
    (hr : r.isCall = false) :
    p.expandTop n l = (.ok (.failed n),
      ((({ l with cache := c, sources := s }.note (missEvent n 0)).note
        (p.lookupEvent n d true 0)).note (p.boundEvent r.name 1)).fail n
          (.tooDeep n [r.name] 1)) := by
  have htop : p.depthAt (0 + 1) = 0 := by rw [depthAt, hm]; rfl
  have hbelow : p.depthAt 0 = 1 := by rw [depthAt, hm]; rfl
  have hvariable := expandVariable_stopped hc hf hd hp hr
  rw [htop, hbelow] at hvariable
  rw [expandTop, hm, hvariable]
  rfl

/-! ### Plain names expand to their texts -/

/-- An answer with no effect but marks: the expansion `x` if it `fits`, else a chain that is too
deep. -/
structure PlainAnswer (p : Pass) (roots : List String) (fits : Prop) (x : Expansion) (l : Ledger)
    (a : Except Stop Expansion × Ledger) : Prop where
  marks : Marks (fun m => p.context.Reached roots m ∧ p.IsPlain m) l a.2
  ok : fits → a.1 = .ok x ∧ ∀ m, p.context.Reached roots m → m ∈ a.2.names
  deep : ¬ fits → ∃ m inner, a.1 = .error (.tooDeep m inner)

theorem PlainAnswer.below {roots : List String} {fits : Prop}
    {a : Except Stop Expansion × Ledger}
    (ha : PlainAnswer p roots fits { text := v, height := h } l a) :
    PlainAnswer p roots fits { text := v, height := (h : Int) + 1 } l (below a) := by
  obtain ⟨hm, hok, hdeep⟩ := ha
  obtain ⟨a, l'⟩ := a
  refine ⟨hm, fun hf => ?_, fun hf => ?_⟩
  · obtain ⟨rfl, hn⟩ := hok hf
    exact ⟨rfl, hn⟩
  · obtain ⟨m, inner, rfl⟩ := hdeep hf
    exact ⟨m, inner, rfl⟩

/-- Marks made before have no part in an answer. -/
theorem PlainAnswer.after {roots : List String} {fits : Prop} {x : Expansion}
    {a : Except Stop Expansion × Ledger}
    (hm : Marks (fun m => p.context.Reached roots m ∧ p.IsPlain m) l l')
    (ha : PlainAnswer p roots fits x l' a) : PlainAnswer p roots fits x l a :=
  ⟨hm.trans ha.marks, ha.ok, ha.deep⟩

/-- What is reached from a name is the name itself, and what is reached from its value. -/
theorem reached_singleton {c : Context} {d : Definition} (hd : c.define? n = .ok (some d))
    (hp : d.parsed = .ok segments) {m : String} :
    c.Reached [n] m ↔ m = n ∨ c.Reached (variableNames segments) m := by
  constructor
  · rintro ⟨k, hk, hm⟩
    obtain rfl := List.mem_singleton.1 hk
    rcases Relation.ReflTransGen.cases_head hm with rfl | ⟨b, hb, hm⟩
    · exact .inl rfl
    · exact .inr ⟨b, (refers_iff hd hp).1 hb, hm⟩
  · rintro (rfl | ⟨k, hk, hm⟩)
    · exact ⟨_, List.mem_singleton.2 rfl, .refl⟩
    · exact ⟨n, List.mem_singleton.2 rfl, .head ((refers_iff hd hp).2 hk) hm⟩

theorem reached_cons {c : Context} {r : Reference} (hr : r.isCall = false) {m : String} :
    c.Reached (variableNames (.reference r :: rest)) m ↔
      c.Reached [r.name] m ∨ c.Reached (variableNames rest) m := by
  constructor
  · rintro ⟨k, hk, hm⟩
    obtain ⟨s, hs, hc, rfl⟩ := mem_variableNames.1 hk
    rcases List.mem_cons.1 hs with hs | hs
    · cases hs
      exact .inl ⟨_, List.mem_singleton.2 rfl, hm⟩
    · exact .inr ⟨_, mem_variableNames.2 ⟨s, hs, hc, rfl⟩, hm⟩
  · rintro (⟨k, hk, hm⟩ | ⟨k, hk, hm⟩)
    · obtain rfl := List.mem_singleton.1 hk
      exact ⟨_, mem_variableNames.2 ⟨r, List.mem_cons_self, hr, rfl⟩, hm⟩
    · obtain ⟨s, hs, hc, rfl⟩ := mem_variableNames.1 hk
      exact ⟨_, mem_variableNames.2 ⟨s, List.mem_cons_of_mem _ hs, hc, rfl⟩, hm⟩

theorem reached_literal {c : Context} {text : String} {span : Span} {m : String} :
    c.Reached (variableNames (.literal text span :: rest)) m ↔
      c.Reached (variableNames rest) m := by
  have h : ∀ k, k ∈ variableNames (.literal text span :: rest) ↔ k ∈ variableNames rest := by
    intro k
    rw [mem_variableNames, mem_variableNames]
    simp
  simp only [Reached, h]

theorem append_plain (v t : String) (i h : Nat) :
    ({ text := v, height := (i : Int) + 1 } : Expansion).append { text := t, height := h } =
      { text := v ++ t, height := (max (i + 1) h : Nat) } := by
  have hm : max ((i : Int) + 1) h = (max (i + 1) h : Nat) := by omega
  exact congrArg (fun k : Int => ({ text := v ++ t, height := k } : Expansion)) hm

theorem append_literal (v t : String) (h : Nat) :
    ({ text := v } : Expansion).append { text := t, height := h } =
      { text := v ++ t, height := h } := by
  unfold Expansion.append
  simp

/-- Plain segments expand to their text if each variable in them does. -/
theorem expandAll_plain {expand : String → Ledger → Except Stop Expansion × Ledger} {depth : Int}
    (he : ∀ r w k l, .reference r ∈ segments → p.context.PlainName r.name w k → l.cache.IsIdle →
      PlainAnswer p [r.name] (k < left) { text := w, height := (k : Int) + 1 } l (expand r.name l))
    (hs : p.context.Plain segments v h) (hl : l.cache.IsIdle) :
    PlainAnswer p (variableNames segments) (h ≤ left) { text := v, height := h } l
      (p.expandAll depth .refused expand segments l) := by
  induction hs generalizing l with
  | nil =>
    refine ⟨.refl hl, fun _ => ⟨rfl, ?_⟩, fun hf => absurd (Nat.zero_le _) hf⟩
    rintro m ⟨k, hk, -⟩
    exact absurd hk List.not_mem_nil
  | @literal text span rest t h hr ih =>
    obtain ⟨hm, hok, hdeep⟩ := ih (fun r w k l hr => he r w k l (List.mem_cons_of_mem _ hr)) hl
    have hseg : p.expandSegment depth .refused expand (.literal text span) l =
      (.ok { text }, l) := rfl
    rcases hrest : p.expandAll depth .refused expand rest l with ⟨a, l'⟩
    rw [hrest] at hm hok hdeep
    by_cases hf : h ≤ left
    · obtain ⟨rfl, hn⟩ := hok hf
      rw [expandAll_ok hseg hrest, append_literal]
      refine ⟨hm.mono fun m hx => ⟨reached_literal.2 hx.1, hx.2⟩,
        fun _ => ⟨rfl, fun m hx => hn m (reached_literal.1 hx)⟩, fun hx => absurd hf hx⟩
    · obtain ⟨m, inner, rfl⟩ := hdeep hf
      rw [expandAll_tail hseg hrest]
      exact ⟨hm.mono fun m hx => ⟨reached_literal.2 hx.1, hx.2⟩, fun hx => absurd hx hf,
        fun _ => ⟨m, inner, rfl⟩⟩
  | @named r d inner rest w t i h hc hd hp hi hr _ ih =>
    obtain ⟨hm, hok, hdeep⟩ := he r w i l List.mem_cons_self ⟨d, inner, hd, hp, hi⟩ hl
    have hseg : p.expandSegment depth .refused expand (.reference r) l = expand r.name l :=
      expandSegment_variable hc
    have hleft : ∀ {l l'}, Marks (fun m => p.context.Reached [r.name] m ∧ p.IsPlain m) l l' →
        Marks (fun m => p.context.Reached (variableNames (.reference r :: rest)) m ∧
          p.IsPlain m) l l' :=
      fun hx => hx.mono fun m hy => ⟨(reached_cons hc).2 (.inl hy.1), hy.2⟩
    rcases hx : expand r.name l with ⟨a, l'⟩
    rw [hx] at hm hok hdeep hseg
    by_cases hf : i < left
    · obtain ⟨rfl, hn⟩ := hok hf
      obtain ⟨hm', hok', hdeep'⟩ :=
        ih (fun r w k l hr => he r w k l (List.mem_cons_of_mem _ hr)) hm.idle
      rcases hrest : p.expandAll depth .refused expand rest l' with ⟨a, l''⟩
      rw [hrest] at hm' hok' hdeep'
      have hall := (hleft hm).trans (hm'.mono fun m hy => ⟨(reached_cons hc).2 (.inr hy.1), hy.2⟩)
      by_cases hf' : h ≤ left
      · obtain ⟨rfl, hn'⟩ := hok' hf'
        rw [expandAll_ok hseg hrest, append_plain]
        refine ⟨hall, fun _ => ⟨rfl, fun m hy => ?_⟩, fun hy => absurd (max_le hf hf') hy⟩
        rcases (reached_cons hc).1 hy with hy | hy
        · exact hm'.names (hn m hy)
        · exact hn' m hy
      · obtain ⟨m, inner, rfl⟩ := hdeep' hf'
        rw [expandAll_tail hseg hrest]
        exact ⟨hall, fun hy => absurd ((le_max_right _ _).trans hy) hf', fun _ => ⟨m, inner, rfl⟩⟩
    · obtain ⟨m, inner, rfl⟩ := hdeep hf
      rw [expandAll_head hseg]
      exact ⟨hleft hm, fun hy => absurd ((le_max_left _ _).trans hy) hf,
        fun _ => ⟨m, inner, rfl⟩⟩

theorem settle_plain {d : Definition} (hl : l.cache.IsIdle) {R : String → Prop} (hn : R n) :
    ∃ l', p.settle n d { text := v, height := h } l = (.ok { text := v, height := h }, l') ∧
      Marks R l l' ∧ n ∈ l'.names := by
  have hm : Marks R l (l.markResolved n) := .markResolved hl hn
  obtain ⟨c, hc, hi⟩ := hl.putNow (p.entry n d { text := v, height := h }) l.sources
  exact ⟨_, settle_kept rfl rfl hc, hm.trans (.withCache hi), mem_names_markResolved l n⟩

/-- The value of a plain name expands to its text if the variables in it do, and is too deep
elsewhere. -/
theorem expandValue_plain {depth : Int} {d : Definition}
    {expand : String → Ledger → Except Stop Expansion × Ledger} (hle : left < p.maxDepth)
    (hid : isIdentifier n.toList = true) (hd : p.context.define? n = .ok (some d))
    (hp : d.parsed = .ok segments) (hs : p.context.Plain segments v h)
    (he : ∀ r w k l, .reference r ∈ segments → p.context.PlainName r.name w k → l.cache.IsIdle →
      PlainAnswer p [r.name] (k < left) { text := w, height := (k : Int) + 1 } l (expand r.name l))
    (hl : l.cache.IsIdle) :
    PlainAnswer p [n] (h < left + 1) { text := v, height := h } l
      (p.expandValue depth expand n d segments l) := by
  have hself : p.context.Reached [n] n := (reached_singleton hd hp).2 (.inl rfl)
  have hset : ∀ l₁, l₁.cache.IsIdle → h < left + 1 → ∃ l₂,
      p.settle n d { text := v, height := h } l₁ = (.ok { text := v, height := h }, l₂) ∧
        Marks (fun m => p.context.Reached [n] m ∧ p.IsPlain m) l₁ l₂ ∧ n ∈ l₂.names :=
    fun l₁ hl₁ hf => settle_plain hl₁ ⟨hself, hid, v, h, ⟨d, segments, hd, hp, hs⟩, by omega⟩
  cases hr : segments.any Segment.isReference with
  | true =>
    have hlook : Marks (fun m => p.context.Reached [n] m ∧ p.IsPlain m) l
        (l.note (p.lookupEvent n d true depth)) := .note hl (by simp [lookupEvent])
    have hall : PlainAnswer p (variableNames segments) (h ≤ left) { text := v, height := h }
        (l.note (p.lookupEvent n d true depth)) (p.expandAll (depth + 1) .refused expand segments
          (l.note (p.lookupEvent n d true depth))) := expandAll_plain he hs hlook.idle
    rcases hx : p.expandAll (depth + 1) .refused expand segments
      (l.note (p.lookupEvent n d true depth)) with ⟨a, l₁⟩
    rw [hx] at hall
    obtain ⟨hm, hok, hdeep⟩ := hall
    have hmarks := hlook.trans
      (hm.mono fun m hm => ⟨(reached_singleton hd hp).2 (.inr hm.1), hm.2⟩)
    by_cases hf : h ≤ left
    · obtain ⟨rfl, hn⟩ := hok hf
      have hnest : Marks (fun m => p.context.Reached [n] m ∧ p.IsPlain m) l₁
          (l₁.note (nestedEvent n d { text := v, height := h } depth)) :=
        .note hmarks.idle (by simp [nestedEvent])
      obtain ⟨l₂, hx₂, hm₂, hn₂⟩ := hset _ hnest.idle (Nat.lt_succ_of_le hf)
      rw [expandValue_ok hr hx, hx₂]
      refine ⟨hmarks.trans (hnest.trans hm₂), fun _ => ⟨rfl, fun m hm => ?_⟩,
        fun hx => absurd (Nat.lt_succ_of_le hf) hx⟩
      rcases (reached_singleton hd hp).1 hm with rfl | hm
      · exact hn₂
      · exact hm₂.names (hnest.names (hn m hm))
    · obtain ⟨m, inner, rfl⟩ := hdeep hf
      rw [expandValue_tooDeep hr hx]
      exact ⟨hmarks, fun hx => absurd (Nat.le_of_lt_succ hx) hf, fun _ => ⟨n, m :: inner, rfl⟩⟩
  | false =>
    -- a value without references is its own text, and nothing is reached from it
    have hlit : ∀ s ∈ segments, s.isReference = false := by simpa using hr
    obtain ⟨hv, rfl⟩ := hs.eq_of_literals hlit
    rw [define?_text hd hp] at hv
    subst hv
    have hlook : Marks (fun m => p.context.Reached [n] m ∧ p.IsPlain m) l
        (l.note (p.lookupEvent n d false depth)) := .note hl (by simp [lookupEvent])
    obtain ⟨l₁, hx₁, hm₁, hn₁⟩ := hset _ hlook.idle (Nat.succ_pos _)
    have hx : p.expandValue depth expand n d segments l =
        (.ok { text := d.text, height := (0 : Nat) }, l₁) := (expandValue_literal hr).trans hx₁
    rw [hx]
    refine ⟨hlook.trans hm₁, fun _ => ⟨rfl, fun m hm => ?_⟩, fun hx => absurd (Nat.succ_pos _) hx⟩
    rcases (reached_singleton hd hp).1 hm with rfl | ⟨k, hk, -⟩
    · exact hn₁
    · obtain ⟨r, hr, -⟩ := mem_variableNames.1 hk
      exact absurd (hlit _ hr) (by simp [Segment.isReference])

/-- **A plain name expands to its text where there are enough levels, and is too deep
elsewhere.** -/
theorem expandVariable_plain (hp : p.IsSound) (hle : left ≤ p.maxDepth)
    (hid : isIdentifier n.toList = true) (hn : p.context.PlainName n v h) (hl : l.cache.IsIdle) :
    PlainAnswer p [n] (h < left) { text := v, height := h } l (p.expandVariable left n l) := by
  induction left generalizing n v h l with
  | zero =>
    rw [expandVariable_zero (hp.cycle?_plain hn)]
    exact ⟨.note hl (by simp [boundEvent]), fun hf => absurd hf (Nat.not_lt_zero _),
      fun _ => ⟨n, [], rfl⟩⟩
  | succ left ih =>
    obtain ⟨c, hi, he⟩ := expandVariable_idle left (hp.cycle?_plain hn) hl
    obtain ⟨d, segments, hd, hpd, hs⟩ := hn
    rw [he, expandDefined_value hd hpd]
    have hmiss : Marks (fun m => p.context.Reached [n] m ∧ p.IsPlain m) l
        ({ l with cache := c }.note (missEvent n (p.depthAt (left + 1)))) :=
      .trans (.withCache hi) (.note hi (by simp [missEvent]))
    refine .after hmiss (expandValue_plain hle hid hd hpd hs (fun r w k l hr hw hl => ?_) hmiss.idle)
    exact (ih (by omega) (define?_names hd hpd r hr) hw hl).below

/-! ### Only plain names have pure expansions -/

/-- A kind of caches that a pass keeps up: what is found for a name is its plain value, and plain
values may be put. -/
structure Upholds (p : Pass) (I : Cache → Prop) : Prop where
  found : ∀ {c c' : Cache} {n : String} {e? : Option Cache.Entry} {s s' : Sources}, I c →
    c.findNow (p.key n) s = .ok (e?, c', s') →
      I c' ∧ ∀ e, e? = some e → ∃ h : Nat, e.height = h ∧ p.context.PlainName n e.value h
  put : ∀ {c : Cache} {e : Cache.Entry} (s : Sources), I c → e.fingerprint = p.fingerprint →
    (∃ h : Nat, e.height = h ∧ p.context.PlainName e.name e.value h) → I (c.putNow e s).2

theorem upholds_idle (p : Pass) : p.Upholds Cache.IsIdle where
  found := by
    intro c c' n e? s s' hc hf
    obtain ⟨k, hk, hi⟩ := hc.findNow (p.key n) s
    rw [hf] at hk
    cases hk
    exact ⟨hi, fun e he => by cases he⟩
  put := by
    intro c e s hc _ _
    obtain ⟨k, hk, hi⟩ := hc.putNow e s
    rw [hk]
    exact hi

theorem expandCall_cache (depth : Int) (r : Reference) (l : Ledger) :
    (p.expandCall depth r l).2.cache = l.cache := by
  have hx := expandCall_goes p depth r l
  generalize p.expandCall depth r l = a at hx ⊢
  cases hx <;> rfl

theorem expandCall_impure {depth : Int} {r : Reference} {x : Expansion}
    (hx : (p.expandCall depth r l).1 = .ok x) : x.isPure = false := by
  have hcall := expandCall_goes p depth r l
  generalize p.expandCall depth r l = a at hx hcall
  cases hcall <;> cases hx
  · rfl
  · rfl

theorem fail_cache (l : Ledger) (n : String) (f : Failure) : (l.fail n f).cache = l.cache := by
  unfold Ledger.fail Ledger.list Ledger.markFailed
  split_ifs <;> rfl

/-- The pass with other names on cycles. -/
def listing (p : Pass) (cycles : List (String × List String)) : Pass :=
  { p with circular := cycles }

theorem failCircular_cons (c : String × List String) (cycles : List (String × List String))
    (l : Ledger) :
    (p.listing (c :: cycles)).failCircular l =
      (p.listing cycles).failCircular (l.fail c.1 (.circular c.1 c.2)) := rfl

theorem failCircular_cache (p : Pass) (l : Ledger) : (p.failCircular l).cache = l.cache := by
  unfold failCircular
  generalize p.circular = cs
  induction cs generalizing l with
  | nil => rfl
  | cons c cs ih => rw [List.foldl_cons, ih, fail_cache]

/-- The cache is kept up, and only a plain name has a pure expansion, which counts `up` levels
more. -/
structure PureAnswer (p : Pass) (I : Cache → Prop) (n : String) (up : Int)
    (a : Except Stop Expansion × Ledger) : Prop where
  cache : I a.2.cache
  plain : ∀ x, a.1 = .ok x → x.isPure = true →
    ∃ h : Nat, x.height = h + up ∧ p.context.PlainName n x.text h

section Pure

variable {I : Cache → Prop}

theorem PureAnswer.failed {up : Int} (hl : I l.cache) :
    PureAnswer p I n up (.ok (.failed v), l) := by
  refine ⟨hl, fun x hx hp => ?_⟩
  cases hx
  cases hp

theorem PureAnswer.error {up : Int} {e : Stop} (hl : I l.cache) :
    PureAnswer p I n up (.error e, l) := ⟨hl, fun x hx => by cases hx⟩

theorem PureAnswer.below {a : Except Stop Expansion × Ledger} (ha : PureAnswer p I n 0 a) :
    PureAnswer p I n 1 (below a) := by
  obtain ⟨hi, hpl⟩ := ha
  obtain ⟨_ | x, l⟩ := a
  · exact .error hi
  · refine ⟨hi, fun y hy hp => ?_⟩
    cases hy
    obtain ⟨h, hh, hn⟩ := hpl x rfl hp
    exact ⟨h, by rw [Expansion.below, hh, Int.add_zero], hn⟩

theorem expandSegment_cache {ε : Type} (depth : Int) (stop : Refusal → ε)
    {expand : String → Ledger → Except ε Expansion × Ledger}
    (he : ∀ n l, I l.cache → I (expand n l).2.cache) (s : Segment) (hl : I l.cache) :
    I (p.expandSegment depth stop expand s l).2.cache := by
  cases s with
  | literal => exact hl
  | reference r =>
    rw [expandSegment]
    split_ifs
    · exact (expandCall_cache depth r l).symm ▸ hl
    · exact he _ _ hl

theorem expandAll_cache {ε : Type} (depth : Int) (stop : Refusal → ε)
    {expand : String → Ledger → Except ε Expansion × Ledger}
    (he : ∀ n l, I l.cache → I (expand n l).2.cache) (segments : List Segment)
    (hl : I l.cache) : I (p.expandAll depth stop expand segments l).2.cache := by
  induction segments generalizing l with
  | nil => exact hl
  | cons s rest ih =>
    have hs := expandSegment_cache (p := p) depth stop he s hl
    rcases hx : p.expandSegment depth stop expand s l with ⟨_ | a, l'⟩
    · rw [expandAll_head hx]
      rwa [hx] at hs
    · rw [hx] at hs
      have hrest := ih hs
      rcases hy : p.expandAll depth stop expand rest l' with ⟨_ | b, l''⟩
      · rw [expandAll_tail hx hy]
        rwa [hy] at hrest
      · rw [expandAll_ok hx hy]
        rwa [hy] at hrest

theorem expandAll_pure {depth : Int} {segments : List Segment} {x : Expansion}
    {expand : String → Ledger → Except Stop Expansion × Ledger}
    (he : ∀ n l, I l.cache → PureAnswer p I n 1 (expand n l)) (hl : I l.cache)
    (hx : (p.expandAll depth .refused expand segments l).1 = .ok x) (hp : x.isPure = true) :
    ∃ h : Nat, x.height = h ∧ p.context.Plain segments x.text h := by
  induction segments generalizing l x with
  | nil =>
    cases hx
    exact ⟨0, rfl, .nil⟩
  | cons s rest ih =>
    have hs := expandSegment_cache (p := p) depth .refused (fun n l hl => (he n l hl).cache) s hl
    rcases ha : p.expandSegment depth .refused expand s l with ⟨_ | a, l'⟩
    · rw [expandAll_head ha] at hx
      cases hx
    rw [ha] at hs
    rcases hb : p.expandAll depth .refused expand rest l' with ⟨_ | b, l''⟩
    · rw [expandAll_tail ha hb] at hx
      cases hx
    rw [expandAll_ok ha hb] at hx
    cases hx
    obtain ⟨hpa, hpb⟩ := Bool.and_eq_true_iff.1 hp
    obtain ⟨h, hh, hrest⟩ := ih hs (by rw [hb]) hpb
    cases s with
    | literal text span =>
      cases ha
      refine ⟨h, ?_, .literal hrest⟩
      show max 0 b.height = h
      omega
    | reference r =>
      cases hc : r.isCall with
      | true =>
        have hcall : (p.expandCall depth r l).1 = .ok a := by
          rw [expandSegment, hc, if_pos rfl] at ha
          rcases hcx : p.expandCall depth r l with ⟨_ | a', l₀⟩
          · rw [hcx] at ha
            cases ha
          · rw [hcx] at ha
            cases ha
            rfl
        rw [expandCall_impure hcall] at hpa
        cases hpa
      | false =>
        have hax : expand r.name l = (.ok a, l') := (expandSegment_variable hc).symm.trans ha
        obtain ⟨k, hk, d, inner, hd, hpd, hin⟩ := (he r.name l hl).plain a (by rw [hax]) hpa
        refine ⟨max (k + 1) h, ?_, .named hc hd hpd hin hrest⟩
        show max a.height b.height = _
        omega

theorem settle_idle (p : Pass) (n : String) (d : Definition) (e : Expansion)
    (hl : l.cache.IsIdle) :
    ∃ l', p.settle n d e l = (.ok e, l') ∧ l'.cache.IsIdle := by
  obtain ⟨c, hc, hi⟩ := hl.putNow (p.entry n d e) l.sources
  have hx := settle_goes p n d e l
  generalize p.settle n d e l = a at hx ⊢
  cases hx with
  | failed => exact ⟨_, rfl, hl⟩
  | impure => exact ⟨_, rfl, hl⟩
  | kept _ _ hk =>
    cases hc.symm.trans hk
    exact ⟨_, rfl, hi⟩
  | refused _ _ hk => cases hc.symm.trans hk

/-- A name's value may be kept if its expansion is pure only where it is plain. -/
theorem settle_pureAnswer (hI : p.Upholds I) {d : Definition} {x : Expansion} (hl : I l.cache)
    (hx : x.isPure = true → ∃ h : Nat, x.height = h ∧ p.context.PlainName n x.text h) :
    PureAnswer p I n 0 (p.settle n d x l) := by
  have hok : ∀ {l'}, I l'.cache → PureAnswer p I n 0 (.ok x, l') := by
    refine fun hl' => ⟨hl', fun y hy hp => ?_⟩
    cases hy
    simpa using hx hp
  have hput : x.isPure = true → I (l.cache.putNow (p.entry n d x) l.sources).2 :=
    fun hp => hI.put l.sources hl rfl (hx hp)
  have ha := settle_goes p n d x l
  generalize p.settle n d x l = a at ha ⊢
  cases ha with
  | failed => exact hok hl
  | impure => exact hok hl
  | kept _ hp hk => exact hok (by simpa [hk] using hput hp)
  | refused _ hp hk => exact .error (by simpa [hk] using hput hp)

/-- The value of a defined name is plain if its expansion is pure. -/
theorem expandValue_pure (hI : p.Upholds I) {depth : Int} {d : Definition}
    {expand : String → Ledger → Except Stop Expansion × Ledger}
    (he : ∀ n l, I l.cache → PureAnswer p I n 1 (expand n l))
    (hd : p.context.define? n = .ok (some d)) (hpd : d.parsed = .ok segments) (hl : I l.cache) :
    PureAnswer p I n 0 (p.expandValue depth expand n d segments l) := by
  cases hr : segments.any Segment.isReference with
  | false =>
    rw [expandValue_literal hr]
    refine settle_pureAnswer hI hl fun _ => ⟨0, rfl, d, segments, hd, hpd, ?_⟩
    rw [← define?_text hd hpd]
    exact .of_literals (by simpa using hr)
  | true =>
    have hlook : I (l.note (p.lookupEvent n d true depth)).cache := hl
    have hall := expandAll_cache (p := p) (depth + 1) .refused
      (fun n l hl => (he n l hl).cache) segments hlook
    rcases hx : p.expandAll (depth + 1) .refused expand segments
      (l.note (p.lookupEvent n d true depth)) with ⟨(⟨m, inner⟩ | r) | x, l'⟩
    · rw [expandValue_tooDeep hr hx]
      rw [hx] at hall
      exact .error hall
    · rw [expandValue_refused hr hx]
      rw [hx] at hall
      exact .error hall
    · rw [expandValue_ok hr hx]
      rw [hx] at hall
      refine settle_pureAnswer hI hall fun hp => ?_
      obtain ⟨h, hh, hpl⟩ := expandAll_pure he hlook (by rw [hx]) hp
      exact ⟨h, hh, d, segments, hd, hpd, hpl⟩

theorem expandDefined_pure (hI : p.Upholds I) {depth : Int}
    {expand : String → Ledger → Except Stop Expansion × Ledger}
    (he : ∀ n l, I l.cache → PureAnswer p I n 1 (expand n l)) (hl : I l.cache) :
    PureAnswer p I n 0 (p.expandDefined depth expand n l) := by
  have ha := expandDefined_goes p depth expand n l
  generalize p.expandDefined depth expand n l = a at ha ⊢
  cases ha with
  | refused => exact .error hl
  | undefined => exact .failed ((fail_cache _ _ _).symm ▸ hl)
  | malformed => exact .failed ((fail_cache _ _ _).symm ▸ hl)
  | value hd hp => exact expandValue_pure hI he hd hp hl

/-- **Where each entry of the cache is the plain value of its name, only plain names have pure
expansions, and the cache stays so.** -/
theorem expandVariable_pure (hI : p.Upholds I) (left : Nat) (n : String) (hl : I l.cache) :
    PureAnswer p I n 0 (p.expandVariable left n l) := by
  induction left, n, l using p.expandVariable_induct with
  | circular left n l cycle hc => exact .failed hl
  | bound n l hc => exact .error hl
  | refused left n l r hc hf => exact .error hl
  | miss left n l c s hc hf ih =>
    exact expandDefined_pure hI (fun m l hl => (ih m l hl).below) (hI.found hl hf).1
  | tooDeep left n l e c s hc hf hh => exact .error (hI.found hl hf).1
  | hit left n l e c s hc hf hh =>
    obtain ⟨hi, hn⟩ := hI.found hl hf
    refine ⟨hi, fun x hx _ => ?_⟩
    cases hx
    simpa using hn e rfl

theorem expandTop_cache (hI : p.Upholds I) (n : String) (hl : I l.cache) :
    I (p.expandTop n l).2.cache := by
  have hv := (expandVariable_pure hI p.maxDepth n hl).cache
  unfold expandTop
  generalize p.expandVariable p.maxDepth n l = a at hv ⊢
  obtain ⟨(⟨m, inner⟩ | r) | x, l'⟩ := a
  · exact (fail_cache _ _ _).symm ▸ hv
  · exact hv
  · exact hv

/-- The cache stays so throughout a template. -/
theorem expandTemplate_cache (hI : p.Upholds I) (segments : List Segment) (hl : I l.cache) :
    I (p.expandTemplate segments l).2.cache :=
  expandAll_cache 0 id (fun n _ hl => expandTop_cache hI n hl) segments
    ((failCircular_cache p l).symm ▸ hl)

end Pure

end Pass
end Stencil
