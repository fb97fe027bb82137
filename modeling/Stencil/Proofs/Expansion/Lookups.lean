/-
# How often a cache is asked

In a cache with room for all that is reached, the value of a name that calls no
function is kept as soon as it is expanded. So each name is missed once, and the
references in its value are followed once: an expansion that lists no failure
asks the cache as often as there are references in the template and in the values
of the names that are reached, however large the tree of expansions is.

Key definitions: `Template.mentions`, `Context.mentionsOf`, `Ground`, `Stocked`,
`Asked`, `Asks`.
Key theorems: `Asked.append`, `Asked.keep`, `expandAll_asked`,
`expandVariable_asks`, `expandTemplate_asked`.
-/
import Mathlib.Algebra.BigOperators.Group.Finset.Basic
import Stencil.Proofs.Cache.Holding
import Stencil.Proofs.Expansion.Account
import Stencil.Proofs.Expansion.Markers

namespace Stencil

open Template

namespace Template

/-- The variables that segments refer to, in order, each as often as they do. -/
def mentions (segments : List Segment) : List String := segments.filterMap Segment.variableName?

theorem mem_mentions {n : String} {segments : List Segment} :
    n ∈ mentions segments ↔ n ∈ variableNames segments := List.mem_eraseDups.symm

theorem mentions_literals {segments : List Segment}
    (h : segments.any Segment.isReference = false) : mentions segments = [] := by
  refine List.filterMap_eq_nil_iff.2 fun s hs => ?_
  cases s with
  | literal text span => rfl
  | reference r => exact absurd rfl (List.any_eq_false.1 h _ hs)

end Template

/-- The variables that the value of a name refers to, each as often as it does. -/
def Context.mentionsOf (c : Context) (n : String) : List String :=
  match c.define? n with
  | .ok (some d) =>
    match d.parsed with
    | .ok segments => Template.mentions segments
    | .error _ => []
  | _ => []

theorem Context.mentionsOf_eq {c : Context} {n : String} {d : Definition} {segments : List Segment}
    (hd : c.define? n = .ok (some d)) (hp : d.parsed = .ok segments) :
    c.mentionsOf n = Template.mentions segments := by
  unfold mentionsOf
  rw [hd]
  dsimp only
  rw [hp]

theorem Context.mem_mentionsOf {c : Context} {n m : String} :
    m ∈ c.mentionsOf n ↔ c.Refers n m := by
  constructor
  · intro hm
    unfold mentionsOf at hm
    split at hm
    · rename_i d hd
      split at hm
      · rename_i segments hp
        exact (refers_iff hd hp).2 (mem_mentions.1 hm)
      · cases hm
    · cases hm
  · rintro ⟨d, hd, hm⟩
    cases hp : d.parsed with
    | error f =>
      unfold Definition.references at hm
      rw [hp] at hm
      cases hm
    | ok segments =>
      rw [mentionsOf_eq hd hp, mem_mentions]
      exact (refers_iff hd hp).1 ⟨d, hd, hm⟩

/-- The value of a name calls no function. -/
def Context.CallsNothing (c : Context) (n : String) : Prop :=
  ∀ segments, c.Opens n segments → calls segments = []

namespace Pass

open Context Ledger

/-- All that the names in `R` refer to is in `R` as well; none of them lies on a reference cycle,
and no value of theirs calls a function. -/
structure Ground (p : Pass) (R : Finset String) : Prop where
  closed : ∀ n ∈ R, ∀ m, p.context.Refers n m → m ∈ R
  acyclic : ∀ n ∈ R, ¬ p.context.OnCycle n
  callsNothing : ∀ n ∈ R, p.context.CallsNothing n

/-- A cache with room for `R` that holds some of it, each name with all that it refers to. -/
structure Stocked (p : Pass) (R kept : Finset String) (c : Cache) : Prop where
  holds : c.Holds R.card p.fingerprint kept
  subset : kept ⊆ R
  closed : ∀ n ∈ kept, ∀ m, p.context.Refers n m → m ∈ kept

/-- From `c` to `c'` the cache was asked for `names`, and for what the values of new names refer to.
Each of these was missed once, and is kept. -/
structure Asked (p : Pass) (R kept : Finset String) (names : List String) (c : Cache)
    (kept' : Finset String) (c' : Cache) : Prop where
  stocked : p.Stocked R kept' c'
  subset : kept ⊆ kept'
  covers : ∀ n ∈ names, n ∈ kept'
  reached : ∀ m ∈ kept', m ∈ kept ∨ p.context.Reached names m
  misses : c'.misses + kept.card = c.misses + kept'.card
  lookups : c'.hits + c'.misses + ∑ n ∈ kept, (p.context.mentionsOf n).length =
    c.hits + c.misses + names.length + ∑ n ∈ kept', (p.context.mentionsOf n).length

variable {p : Pass} {R kept kept₁ kept₂ : Finset String} {n : String} {names more : List String}
  {c c₁ c₂ : Cache} {l l' : Ledger} {segments : List Segment} {x : Expansion}

/-! ### What is asked -/

theorem Asked.nil (h : p.Stocked R kept c) : p.Asked R kept [] c kept c where
  stocked := h
  subset := subset_rfl
  covers _ hn := absurd hn List.not_mem_nil
  reached _ hm := .inl hm
  misses := rfl
  lookups := rfl

theorem Asked.append (h : p.Asked R kept names c kept₁ c₁)
    (h' : p.Asked R kept₁ more c₁ kept₂ c₂) : p.Asked R kept (names ++ more) c kept₂ c₂ where
  stocked := h'.stocked
  subset := h.subset.trans h'.subset
  covers n hn := (List.mem_append.1 hn).elim (fun hn => h'.subset (h.covers n hn)) (h'.covers n)
  reached m hm := by
    have hwider : ∀ {ms : List String}, ms ⊆ names ++ more → p.context.Reached ms m →
        p.context.Reached (names ++ more) m := fun hms ⟨r, hr, hrm⟩ => ⟨r, hms hr, hrm⟩
    rcases h'.reached m hm with hm | hm
    · exact (h.reached m hm).imp_right (hwider (List.subset_append_left _ _))
    · exact .inr (hwider (List.subset_append_right _ _) hm)
  misses := by
    have h₁ := h.misses
    have h₂ := h'.misses
    omega
  lookups := by
    have h₁ := h.lookups
    have h₂ := h'.lookups
    rw [List.length_append]
    omega

/-- A name that is kept is found. -/
theorem Asked.hit {s s' : Sources} {e : Cache.Entry} (h : p.Stocked R kept c)
    (hf : c.findNow (p.key n) s = .ok (some e, c₁, s')) : p.Asked R kept [n] c kept c₁ := by
  obtain ⟨hholds, hkept⟩ := h.holds.findNow hf
  obtain ⟨hhits, hmisses⟩ := Cache.findNow_counts hf
  have hn : n ∈ kept := hkept.1 rfl
  refine ⟨⟨hholds, h.subset, h.closed⟩, subset_rfl, by simpa using hn, fun m hm => .inl hm, ?_, ?_⟩
  · rw [Option.toList_some, List.length_singleton] at hmisses
    omega
  · rw [Option.toList_some, List.length_singleton] at hhits hmisses
    rw [List.length_singleton]
    omega

/-- **A name that was missed is kept once all that its value refers to is.** It was not kept
meanwhile, since no name is below itself. -/
theorem Asked.keep {s s₁ s₂ s₃ : Sources} {e : Cache.Entry} {d : Definition} {c₃ : Cache}
    (hg : p.Ground R) (hn : n ∈ R) (hd : p.context.define? n = .ok (some d))
    (hparsed : d.parsed = .ok segments) (hf : c.findNow (p.key n) s = .ok (none, c₁, s₁))
    (hs : p.Stocked R kept c) (h : p.Asked R kept (mentions segments) c₁ kept₂ c₂)
    (hname : e.name = n) (hfp : e.fingerprint = p.fingerprint)
    (hput : c₂.putNow e s₂ = (.ok s₃, c₃)) : p.Asked R kept [n] c (insert n kept₂) c₃ := by
  obtain ⟨-, hkept⟩ := hs.holds.findNow hf
  obtain ⟨hhits, hmisses⟩ := Cache.findNow_counts hf
  obtain ⟨hhits', hmisses'⟩ := Cache.putNow_counts c₂ e s₂
  rw [hput] at hhits' hmisses'
  have hrefers : ∀ {m}, m ∈ mentions segments ↔ p.context.Refers n m := fun {m} => by
    rw [← mentionsOf_eq hd hparsed, mem_mentionsOf]
  have hbelow : ∀ {m}, p.context.Reached (mentions segments) m →
      Relation.TransGen p.context.Refers n m := fun ⟨r, hr, hrm⟩ => .head' (hrefers.1 hr) hrm
  have hnew : n ∉ kept₂ := by
    intro hmem
    rcases h.reached n hmem with hk | hk
    · cases hkept.2 hk
    · exact hg.acyclic n hn (hbelow hk)
  have hsub : insert n kept₂ ⊆ R := Finset.insert_subset hn h.stocked.subset
  have hroom : kept₂.card < R.card :=
    Finset.card_lt_card ⟨h.stocked.subset, fun hR => hnew (hR hn)⟩
  have hcard : (insert n kept₂).card = kept₂.card + 1 := Finset.card_insert_of_notMem hnew
  have hsum : ∑ m ∈ insert n kept₂, (p.context.mentionsOf m).length =
      (mentions segments).length + ∑ m ∈ kept₂, (p.context.mentionsOf m).length := by
    rw [Finset.sum_insert hnew, mentionsOf_eq hd hparsed]
  have hm := h.misses
  have hl := h.lookups
  dsimp only [Option.toList_none, List.length_nil] at hhits hmisses hhits' hmisses'
  refine ⟨⟨?_, hsub, fun m hm k hk => ?_⟩, h.subset.trans (Finset.subset_insert _ _), ?_,
    fun m hm => ?_, by omega, ?_⟩
  · have hholds := h.stocked.holds.putNow (e := e) hfp (by rwa [hname]) hroom hput
    rwa [hname] at hholds
  · rcases Finset.mem_insert.1 hm with rfl | hm
    · exact Finset.mem_insert_of_mem (h.covers k (hrefers.2 hk))
    · exact Finset.mem_insert_of_mem (h.stocked.closed m hm k hk)
  · simp
  · rcases Finset.mem_insert.1 hm with rfl | hm
    · exact .inr ⟨m, List.mem_singleton.2 rfl, .refl⟩
    · exact (h.reached m hm).imp_right fun hr =>
        ⟨n, List.mem_singleton.2 rfl, (hbelow hr).to_reflTransGen⟩
  · rw [hsum, List.length_singleton]
    omega

/-! ### Expanding -/

/-- Expanding a name in `R` without a failure asks for that name, and has a value to keep. -/
structure Asks {ε : Type} (p : Pass) (R : Finset String)
    (expand : String → Ledger → Except ε Expansion × Ledger) : Prop where
  runs : ∀ n l, p.Warned l → Runs p (fun _ _ => True) l (expand n l)
  asked : ∀ {n l x l' kept}, n ∈ R → p.Warned l → p.Stocked R kept l.cache →
    expand n l = (.ok x, l') → l'.recentFailures = [] →
      x.isPure = true ∧ ∃ kept', p.Asked R kept [n] l.cache kept' l'.cache

section

variable {ε : Type} {stop : Refusal → ε} {expand : String → Ledger → Except ε Expansion × Ledger}
  {depth : Int}

theorem expandSegment_asked {s : Segment} (h : p.Asks R expand)
    (hR : ∀ n ∈ mentions [s], n ∈ R) (hw : p.Warned l) (hs : p.Stocked R kept l.cache)
    (hx : p.expandSegment depth stop expand s l = (.ok x, l')) (hf : l'.recentFailures = []) :
    (calls [s] = [] → x.isPure = true) ∧
      ∃ kept', p.Asked R kept (mentions [s]) l.cache kept' l'.cache := by
  cases s with
  | literal text span =>
    cases hx
    exact ⟨fun _ => rfl, kept, .nil hs⟩
  | reference r =>
    cases hr : r.isCall with
    | false =>
      have hm : mentions [.reference r] = [r.name] := by
        simp [mentions, Segment.variableName?, hr]
      rw [expandSegment_variable hr] at hx
      rw [hm] at hR ⊢
      obtain ⟨hp, hasked⟩ := h.asked (hR _ (List.mem_singleton.2 rfl)) hw hs hx hf
      exact ⟨fun _ => hp, hasked⟩
    | true =>
      have hm : mentions [.reference r] = [] := by simp [mentions, Segment.variableName?, hr]
      have hcache := expandCall_cache (p := p) depth r l
      simp only [expandSegment, hr, if_true] at hx
      rw [hm, ← (Prod.mk.inj hx).2, hcache]
      exact ⟨fun hc => by simp [calls, Segment.call?, hr] at hc, kept, .nil hs⟩

/-- **Segments ask for each variable that they mention, as often as they do.** -/
theorem expandAll_asked (h : p.Asks R expand) (hR : ∀ n ∈ mentions segments, n ∈ R)
    (hw : p.Warned l) (hs : p.Stocked R kept l.cache)
    (hx : p.expandAll depth stop expand segments l = (.ok x, l')) (hf : l'.recentFailures = []) :
    (calls segments = [] → x.isPure = true) ∧
      ∃ kept', p.Asked R kept (mentions segments) l.cache kept' l'.cache := by
  induction segments generalizing l x kept with
  | nil =>
    cases hx
    exact ⟨fun _ => rfl, kept, .nil hs⟩
  | cons s rest ih =>
    have hsplit : mentions (s :: rest) = mentions [s] ++ mentions rest :=
      List.filterMap_append (l := [s])
    have hcalls : calls (s :: rest) = calls [s] ++ calls rest := List.filterMap_append (l := [s])
    rw [hsplit, List.forall_mem_append] at hR
    have hseg : Runs p (fun _ _ => True) l (p.expandSegment depth stop expand s l) :=
      expandSegment_runs depth stop fun r _ _ => h.runs r.name l hw
    rcases ha : p.expandSegment depth stop expand s l with ⟨e | a, l₁⟩
    · rw [expandAll_head ha] at hx
      cases hx
    rw [ha] at hseg
    have hw₁ := hw.run hseg.run
    have hrest := expandAll_runs (I := fun _ => True) (p := p) depth stop rest
      (fun r l _ _ hw _ => h.runs r.name l hw) (fun _ _ _ => trivial) hw₁ trivial
    rcases hb : p.expandAll depth stop expand rest l₁ with ⟨e | b, l₂⟩
    · rw [expandAll_tail ha hb] at hx
      cases hx
    rw [hb] at hrest
    rw [expandAll_ok ha hb] at hx
    cases hx
    -- what the head lists stays, so it lists nothing
    have hf₁ : l₁.recentFailures = [] := List.suffix_nil.1 (hf ▸ hrest.run.failures)
    obtain ⟨hpa, kept₁, h₁⟩ := expandSegment_asked h hR.1 hw hs ha hf₁
    obtain ⟨hpb, kept₂, h₂⟩ := ih hR.2 hw₁ h₁.stocked hb
    rw [hsplit, hcalls, List.append_eq_nil_iff]
    refine ⟨fun hc => ?_, kept₂, h₁.append h₂⟩
    rw [Expansion.append, Bool.and_eq_true]
    exact ⟨hpa hc.1, hpb hc.2⟩

end

theorem Asks.below {expand : String → Ledger → Except Stop Expansion × Ledger}
    (h : p.Asks R expand) : p.Asks R fun n l => below (expand n l) where
  runs n l hw := (h.runs n l hw).below
  asked := by
    intro n l x l' kept hn hw hs hx hf
    rcases hy : expand n l with ⟨e | y, l₁⟩
    · rw [hy] at hx
      cases hx
    · rw [hy] at hx
      cases hx
      exact h.asked (x := y) hn hw hs hy hf

/-- A value without calls is kept. -/
theorem settle_asked {s s₁ : Sources} {d : Definition} (hg : p.Ground R) (hn : n ∈ R)
    (hd : p.context.define? n = .ok (some d)) (hparsed : d.parsed = .ok segments)
    (hf : c.findNow (p.key n) s = .ok (none, c₁, s₁)) (hs : p.Stocked R kept c)
    (h : p.Asked R kept (mentions segments) c₁ kept₂ l.cache) {y : Expansion}
    (hok : x.isOk = true) (hpure : x.isPure = true) (hy : p.settle n d x l = (.ok y, l')) :
    y.isPure = true ∧ ∃ kept', p.Asked R kept [n] c kept' l'.cache := by
  have hgoes := settle_goes p n d x l
  rw [hy] at hgoes
  cases hgoes with
  | failed ho => cases ho.symm.trans hok
  | impure _ hp => cases hp.symm.trans hpure
  | kept _ _ hk => exact ⟨hpure, insert n kept₂, .keep hg hn hd hparsed hf hs h rfl rfl hk⟩

theorem expandValue_asked {expand : String → Ledger → Except Stop Expansion × Ledger} {depth : Int}
    {s s₁ : Sources} {d : Definition} (hg : p.Ground R) (hn : n ∈ R) (h : p.Asks R expand)
    (hw : p.Warned l) (hd : p.context.define? n = .ok (some d)) (hparsed : d.parsed = .ok segments)
    (hf : c.findNow (p.key n) s = .ok (none, l.cache, s₁)) (hs : p.Stocked R kept c)
    (hx : p.expandValue depth expand n d segments l = (.ok x, l'))
    (hnone : l'.recentFailures = []) :
    x.isPure = true ∧ ∃ kept', p.Asked R kept [n] c kept' l'.cache := by
  have hmissed : p.Stocked R kept l.cache := ⟨(hs.holds.findNow hf).1, hs.subset, hs.closed⟩
  have hcalls : calls segments = [] :=
    hg.callsNothing n hn segments ⟨hg.acyclic n hn, d, hd, hparsed⟩
  cases hr : segments.any Segment.isReference with
  | false =>
    rw [expandValue_literal hr] at hx
    have hasked := Asked.nil hmissed
    rw [← mentions_literals hr] at hasked
    exact settle_asked hg hn hd hparsed hf hs (l := l.note _) hasked rfl rfl hx
  | true =>
    rcases hy : p.expandAll (depth + 1) .refused expand segments
      (l.note (p.lookupEvent n d true depth)) with ⟨(⟨m, inner⟩ | r) | y, l₁⟩
    · rw [expandValue_tooDeep hr hy] at hx
      cases hx
    · rw [expandValue_refused hr hy] at hx
      cases hx
    have hlook : Run p.library (fun _ _ => True) l (l.note (p.lookupEvent n d true depth)) :=
      .single (.note l _ (by simp [lookupEvent]))
    have hw₁ := hw.run hlook
    have hall := expandAll_runs (I := fun _ => True) (depth + 1) Stop.refused segments
      (fun r l _ _ hw _ => h.runs r.name l hw) (fun _ _ _ => trivial) hw₁ trivial
    rw [hy] at hall
    rw [expandValue_ok hr hy] at hx
    have hsettle := settle_runs (p := p) (B := fun _ _ => True) (n := n) (d := d)
      (l := l₁.note (nestedEvent n d y depth)) (hall.listed y rfl)
    rw [hx] at hsettle
    -- nothing is listed at the end, so nothing was before the value was settled
    have hf₁ : l₁.recentFailures = [] := List.suffix_nil.1 (hnone ▸ hsettle.run.failures)
    have hok : y.isOk = true := by
      by_contra hy
      exact hall.listed y rfl (Bool.eq_false_iff.2 hy) hf₁
    have hR : ∀ m ∈ mentions segments, m ∈ R := fun m hm =>
      hg.closed n hn m (mem_mentionsOf.1 (mentionsOf_eq hd hparsed ▸ hm))
    obtain ⟨hpure, kept₂, hasked⟩ := expandAll_asked h hR hw₁ hmissed hy hf₁
    exact settle_asked hg hn hd hparsed hf hs (l := l₁.note _) hasked hok (hpure hcalls) hx

theorem expandDefined_asked {expand : String → Ledger → Except Stop Expansion × Ledger} {depth : Int}
    {s s₁ : Sources} (hg : p.Ground R) (hn : n ∈ R) (h : p.Asks R expand) (hw : p.Warned l)
    (hf : c.findNow (p.key n) s = .ok (none, l.cache, s₁)) (hs : p.Stocked R kept c)
    (hx : p.expandDefined depth expand n l = (.ok x, l')) (hnone : l'.recentFailures = []) :
    x.isPure = true ∧ ∃ kept', p.Asked R kept [n] c kept' l'.cache := by
  -- a name that fails is listed
  have hfailed : ∀ e f, e.kind ≠ .call → ((l.note e).fail n f).recentFailures ≠ [] :=
    fun e f he => (failed_runs (B := fun _ _ => True) hw he trivial).listed _ rfl rfl
  have hgoes := expandDefined_goes p depth expand n l
  generalize p.expandDefined depth expand n l = a at hx hgoes
  cases hgoes with
  | refused => cases hx
  | undefined =>
    cases hx
    exact absurd hnone (hfailed _ _ (by simp [undefinedEvent]))
  | malformed =>
    cases hx
    exact absurd hnone (hfailed _ _ (by simp [malformedEvent]))
  | value hd hparsed => exact expandValue_asked hg hn h hw hd hparsed hf hs hx hnone

/-- **Whatever the number of levels allowed, a name is missed once.** -/
theorem expandVariable_asks (hg : p.Ground R) (left : Nat) : p.Asks R (p.expandVariable left) := by
  have hruns : ∀ left n l, p.Warned l → Runs p (fun _ _ => True) l (p.expandVariable left n l) :=
    fun left n l hw =>
      expandVariable_runs ⟨fun _ _ _ => trivial, fun _ _ _ _ _ _ => trivial⟩ left n hw
  refine ⟨hruns left, ?_⟩
  intro n l x l' kept hn hw hs hx hf
  induction left, n, l using p.expandVariable_induct generalizing x l' kept with
  | circular left n l cycle hc =>
    cases hx
    exact absurd hf (hw.of_cycle hc)
  | bound => cases hx
  | refused => cases hx
  | miss left n l c s hc hfind ih =>
    have hasks : p.Asks R (p.expandVariable left) :=
      ⟨hruns left, fun hn hw hs hx hf => ih _ _ hn hw hs hx hf⟩
    have hmiss : Run p.library (fun _ _ => True) l
        ({ l with cache := c, sources := s }.note (missEvent n (p.depthAt (left + 1)))) :=
      (Relation.ReflTransGen.single (.move l c s)).tail (.note _ _ (by simp [missEvent]))
    exact expandDefined_asked hg hn hasks.below (hw.run hmiss) hfind hs hx hf
  | tooDeep => cases hx
  | hit left n l e c s hc hfind hh =>
    cases hx
    exact ⟨rfl, kept, .hit hs hfind⟩

theorem expandTop_asks (hg : p.Ground R) : p.Asks R p.expandTop where
  runs n l hw := expandTop_runs ⟨fun _ _ _ => trivial, fun _ _ _ _ _ _ => trivial⟩
    (fun _ _ _ => trivial) hw
  asked := by
    intro n l x l' kept hn hw hs hx hf
    have hasks := expandVariable_asks hg p.maxDepth
    unfold expandTop at hx
    split at hx
    · rename_i y l₁ hy
      cases hx
      exact hasks.asked hn hw hs hy hf
    · rename_i m inner l₁ hy
      cases hx
      have hr := hasks.runs n l hw
      rw [hy] at hr
      exact absurd hf ((hw.run hr.run).fail_ne_nil n _)
    · cases hx

/-- **A template that expands without a failure asks an empty cache for all that is reached, and
for what the values of these names refer to.** -/
theorem expandTemplate_asked (hg : p.Ground R) (hR : ∀ n ∈ mentions segments, n ∈ R)
    (hw : p.Warned (p.failCircular l)) (hs : p.Stocked R ∅ l.cache)
    (hx : p.expandTemplate segments l = (.ok x, l')) (hf : l'.recentFailures = []) :
    ∃ kept, p.Asked R ∅ (mentions segments) l.cache kept l'.cache := by
  rw [← failCircular_cache p l] at hs ⊢
  exact (expandAll_asked (expandTop_asks hg) hR hw hs hx hf).2

end Pass
end Stencil
