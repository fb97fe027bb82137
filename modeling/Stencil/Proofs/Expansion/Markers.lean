/-
# Markers tell what failed

Where no literal text, no value and no output of a function holds a `<`, the
text of an expansion holds no `<` but those of markers. The names in them have
failed, and there is one just where anything inside failed. Where nothing
inside failed, no failure was listed on the way, and nothing circular can be
reached.

Key definitions: `Context.IsClean`, `IsClean`, `Ledger.Admits`, `Unblocked`,
`Speaks`.
Key theorems: `expandVariable_speaks`, `expandTemplate_speaks`.
-/
import Stencil.Proofs.Expansion.Account
import Stencil.Proofs.Marker

namespace Stencil

open Template

/-! ### Texts without markers -/

/-- No literal text of the segments holds a `<`. -/
def Template.IsClean (segments : List Segment) : Prop :=
  ∀ text span, .literal text span ∈ segments → '<' ∉ text.toList

namespace Context

/-- No value that a name means holds a `<`. -/
def IsClean (c : Context) : Prop := ∀ n d, c.define? n = .ok (some d) → '<' ∉ d.text.toList

variable {c : Context} {n v : String} {h : Nat} {d : Definition} {segments rest : List Segment}

theorem IsClean.of_parsed (hc : c.IsClean) (hd : c.define? n = .ok (some d))
    (hp : d.parsed = .ok segments) : Template.IsClean segments := by
  intro text span hm ht
  have hsource : '<' ∈ sources segments := List.mem_flatMap.2 ⟨_, hm, ht⟩
  have hparse := define?_parse hd
  rw [hp] at hparse
  rw [parse_source hparse] at hsource
  exact hc n d hd hsource

theorem Plain.not_mem (hc : c.IsClean) (hp : c.Plain segments v h)
    (hs : Template.IsClean segments) : '<' ∉ v.toList := by
  induction hp with
  | nil => exact List.not_mem_nil
  | literal _ ih =>
    rw [String.toList_append, List.mem_append, not_or]
    exact ⟨hs _ _ List.mem_cons_self, ih fun text span hm => hs text span (List.mem_cons_of_mem _ hm)⟩
  | named _ hd hp _ _ ihi ihr =>
    rw [String.toList_append, List.mem_append, not_or]
    exact ⟨ihi (hc.of_parsed hd hp),
      ihr fun text span hm => hs text span (List.mem_cons_of_mem _ hm)⟩

theorem PlainName.not_mem (hc : c.IsClean) (hn : c.PlainName n v h) : '<' ∉ v.toList := by
  obtain ⟨d, segments, hd, hp, hs⟩ := hn
  exact hs.not_mem hc (hc.of_parsed hd hp)

theorem mem_variableNames_cons {s : Segment} :
    n ∈ variableNames (s :: rest) ↔ n ∈ variableNames [s] ∨ n ∈ variableNames rest := by
  simp only [mem_variableNames, List.mem_cons, List.not_mem_nil, or_false, or_and_right,
    exists_or]

theorem mem_variableNames_single {s : Segment} :
    n ∈ variableNames [s] ↔ ∃ r, s = .reference r ∧ r.isCall = false ∧ r.name = n := by
  simp only [mem_variableNames, List.mem_singleton, eq_comm (a := s)]

end Context

namespace Ledger

/-- No call that succeeded had an output with a `<`. -/
def IsClean (l : Ledger) : Prop :=
  ∀ e ∈ l.recentCalls, e.error = none → '<' ∉ e.output.toList

/-- The text has the markers of names that have failed and no other `<`, and it has one just if
anything inside failed. -/
def Admits (l : Ledger) (x : Expansion) : Prop :=
  ∃ ns, Marker.Marked ns x.text.toList ∧ (∀ n ∈ ns, (n, false) ∈ l.status) ∧
    (ns = [] ↔ x.isOk = true)

variable {l l' : Ledger} {a b x : Expansion} {n : String}

theorem Grows.clean (h : l.Grows l') (hc : l'.IsClean) : l.IsClean :=
  fun e he => hc e ((h.events.filter _).subset he)

theorem Admits.grow (h : l.Admits x) (hg : l.Grows l') : l'.Admits x := by
  obtain ⟨ns, hm, hs, ho⟩ := h
  exact ⟨ns, hm, fun n hn => hg.failed n (hs n hn), ho⟩

theorem Admits.clean (ht : '<' ∉ x.text.toList) (ho : x.isOk = true) : l.Admits x :=
  ⟨[], .of_not_mem ht, fun _ hn => absurd hn List.not_mem_nil, iff_of_true rfl ho⟩

theorem Admits.failed (hn : Marker.IsMarkable n) (hs : (n, false) ∈ l.status) :
    l.Admits (.failed n) :=
  ⟨[n], .of_marker hn, fun _ hm => List.mem_singleton.1 hm ▸ hs,
    iff_of_false (List.cons_ne_nil _ _) Bool.false_ne_true⟩

theorem Admits.append (ha : l.Admits a) (hb : l.Admits b) : l.Admits (a.append b) := by
  obtain ⟨ns, hm, hs, ho⟩ := ha
  obtain ⟨ms, hm', hs', ho'⟩ := hb
  refine ⟨ns ++ ms, ?_, fun n hn => ?_, ?_⟩
  · have happ : (a.append b).text.toList = a.text.toList ++ b.text.toList := String.toList_append
    rw [happ]
    exact hm.append hm'
  · exact (List.mem_append.1 hn).elim (hs n) (hs' n)
  · show _ ↔ (a.isOk && b.isOk) = true
    rw [List.append_eq_nil_iff, ho, ho', Bool.and_eq_true]

end Ledger

namespace Pass

open Context Ledger

/-- Nothing circular can be reached from the name. -/
def Unblocked (p : Pass) (n : String) : Prop :=
  ∀ m, Relation.ReflTransGen p.context.Refers n m → p.cycle? m = none

/-- The circular names have failed. -/
def Posted (p : Pass) (l : Ledger) : Prop := ∀ n, (p.cycle? n).isSome = true → (n, false) ∈ l.status

/-- What the answer of an expansion says of what failed, where it began with the ledger `l` and goes
through the names `roots`. -/
structure Speaks (p : Pass) {ε : Type} (roots : List String) (l : Ledger)
    (a : Except ε Expansion × Ledger) : Prop where
  grows : l.Grows a.2
  marked : ∀ x, a.1 = .ok x → a.2.IsClean → a.2.Admits x
  silent : ∀ x, a.1 = .ok x → x.isOk = true →
    a.2.recentFailures = l.recentFailures ∧ ∀ n ∈ roots, p.Unblocked n

variable {p : Pass} {I : Cache → Prop} {n : String} {l l' : Ledger} {roots : List String}
  {segments rest : List Segment} {ε : Type}

theorem Posted.grow (h : p.Posted l) (hg : l.Grows l') : p.Posted l' :=
  fun n hn => hg.failed n (h n hn)

theorem Speaks.error {e : ε} (hg : l.Grows l') : Speaks p roots l (.error e, l') :=
  ⟨hg, fun x hx => (by cases hx), fun x hx => by cases hx⟩

/-- A name that has failed leaves its marker. -/
theorem Speaks.failed (hg : l.Grows l') (hn : Marker.IsMarkable n) (hs : (n, false) ∈ l'.status) :
    Speaks p roots l ((.ok (.failed n), l') : Except ε Expansion × Ledger) := by
  refine ⟨hg, fun x hx _ => ?_, fun x hx ho => ?_⟩
  · cases hx
    exact .failed hn hs
  · cases hx
    cases ho

theorem Speaks.after {a : Except ε Expansion × Ledger} (hg : l.Grows l')
    (hf : l'.recentFailures = l.recentFailures) (h : Speaks p roots l' a) : Speaks p roots l a :=
  ⟨hg.trans h.grows, h.marked, fun x hx ho => hf ▸ h.silent x hx ho⟩

theorem Speaks.within {roots' : List String} {a : Except ε Expansion × Ledger}
    (h : Speaks p roots l a) (hr : ∀ n ∈ roots', n ∈ roots) : Speaks p roots' l a :=
  ⟨h.grows, h.marked, fun x hx ho => (h.silent x hx ho).imp_right fun hu n hn => hu n (hr n hn)⟩

theorem Speaks.below {a : Except Stop Expansion × Ledger} (h : Speaks p roots l a) :
    Speaks p roots l (below a) := by
  obtain ⟨e | x, l'⟩ := a
  · exact .error h.grows
  · refine ⟨h.grows, fun y hy hc => ?_, fun y hy ho => ?_⟩
    · cases hy
      exact h.marked x rfl hc
    · cases hy
      exact h.silent x rfl ho

/-! ### Calls and segments -/

section

variable {depth : Int} {stop : Refusal → ε} {r : Reference}
  {expand : String → Ledger → Except ε Expansion × Ledger}

theorem isMarkable_reference (hr : isIdentifier r.name.toList = true) :
    Marker.IsMarkable r.displayName := by
  unfold Reference.displayName
  split_ifs
  · exact ⟨r.name, hr, .inr rfl⟩
  · exact ⟨r.name, hr, .inl rfl⟩

theorem expandCall_speaks (depth : Int) (hr : isIdentifier r.name.toList = true) (l : Ledger) :
    Speaks p [] l (p.expandCall depth r l) := by
  have hg : l.Grows (p.expandCall depth r l).2 :=
    (expandCall_runs p (fun _ _ => True) depth r l).run.grows
  have hgoes := expandCall_goes p depth r l
  generalize p.expandCall depth r l = a at hg hgoes ⊢
  cases hgoes with
  | called =>
    refine ⟨hg, fun x hx hc => ?_, fun x hx _ => ⟨rfl, fun n hn => absurd hn List.not_mem_nil⟩⟩
    cases hx
    exact .clean (hc _ List.mem_cons_self rfl) rfl
  | failed => exact .failed hg (isMarkable_reference hr) (mem_setFailed_iff.2 (.inr rfl))
  | refused => exact .error hg

theorem expandSegment_speaks {s : Segment} (depth : Int) (stop : Refusal → ε)
    (hs : ∀ text span, s = .literal text span → '<' ∉ text.toList)
    (hid : ∀ r, s = .reference r → isIdentifier r.name.toList = true)
    (he : ∀ r, s = .reference r → r.isCall = false → Speaks p [r.name] l (expand r.name l)) :
    Speaks p (variableNames [s]) l (p.expandSegment depth stop expand s l) := by
  cases s with
  | literal text span =>
    refine ⟨.refl l, fun x hx _ => ?_, fun x hx _ => ⟨rfl, fun n hn => ?_⟩⟩
    · cases hx
      exact .clean (hs text span rfl) rfl
    · obtain ⟨r, hr, -⟩ := mem_variableNames_single.1 hn
      cases hr
  | reference r =>
    cases hr : r.isCall with
    | false =>
      rw [expandSegment_variable hr]
      refine (he r rfl hr).within fun n hn => ?_
      obtain ⟨r', hr', -, rfl⟩ := mem_variableNames_single.1 hn
      cases hr'
      exact List.mem_singleton.2 rfl
    | true =>
      have hc : Speaks p (variableNames [.reference r]) l (p.expandCall depth r l) := by
        refine (expandCall_speaks depth (hid r rfl) l).within fun n hn => ?_
        obtain ⟨r', hr', hcall, -⟩ := mem_variableNames_single.1 hn
        cases hr'
        rw [hr] at hcall
        cases hcall
      simp only [expandSegment, hr, if_true]
      rcases hx : p.expandCall depth r l with ⟨e | x, l'⟩
      · rw [hx] at hc
        exact .error hc.grows
      · rw [hx] at hc
        refine ⟨hc.grows, fun y hy => ?_, fun y hy => ?_⟩
        · cases hy
          exact hc.marked x rfl
        · cases hy
          exact hc.silent x rfl

/-- Segments are expanded one after another; `I` is what each expansion keeps of the cache. -/
theorem expandAll_speaks (depth : Int) (stop : Refusal → ε) (segments : List Segment)
    (hs : Template.IsClean segments)
    (hid : ∀ r, .reference r ∈ segments → isIdentifier r.name.toList = true)
    (he : ∀ r l, .reference r ∈ segments → r.isCall = false → p.Posted l → I l.cache →
      Speaks p [r.name] l (expand r.name l))
    (hI : ∀ n l, I l.cache → I (expand n l).2.cache) (hp : p.Posted l) (hi : I l.cache) :
    Speaks p (variableNames segments) l (p.expandAll depth stop expand segments l) := by
  induction segments generalizing l with
  | nil =>
    refine ⟨.refl l, fun x hx _ => ?_, fun x hx _ => ⟨rfl, fun n hn => absurd hn List.not_mem_nil⟩⟩
    cases hx
    exact .clean List.not_mem_nil rfl
  | cons s rest ih =>
    have ha' : Speaks p (variableNames [s]) l (p.expandSegment depth stop expand s l) :=
      expandSegment_speaks depth stop (fun text span h => hs text span (h ▸ List.mem_cons_self))
        (fun r h => hid r (h ▸ List.mem_cons_self))
        fun r h hc => he r l (h ▸ List.mem_cons_self) hc hp hi
    have hc := expandSegment_cache (p := p) depth stop hI s hi
    rcases ha : p.expandSegment depth stop expand s l with ⟨e | x, l₁⟩
    · rw [ha] at ha'
      rw [expandAll_head ha]
      exact .error ha'.grows
    rw [ha] at ha' hc
    have hb' := ih (fun text span hm => hs text span (List.mem_cons_of_mem _ hm))
      (fun r hr => hid r (List.mem_cons_of_mem _ hr))
      (fun r l hr => he r l (List.mem_cons_of_mem _ hr)) (hp.grow ha'.grows) hc
    rcases hb : p.expandAll depth stop expand rest l₁ with ⟨e | y, l₂⟩
    · rw [hb] at hb'
      rw [expandAll_tail ha hb]
      exact .error (ha'.grows.trans hb'.grows)
    rw [hb] at hb'
    rw [expandAll_ok ha hb]
    refine ⟨ha'.grows.trans hb'.grows, fun z hz hclean => ?_, fun z hz ho => ?_⟩
    · cases hz
      have hx := ha'.marked x rfl (hb'.grows.clean hclean)
      exact (hx.grow hb'.grows).append (hb'.marked y rfl hclean)
    · cases hz
      obtain ⟨hox, hoy⟩ := Bool.and_eq_true_iff.1 ho
      obtain ⟨hfx, hx⟩ := ha'.silent x rfl hox
      obtain ⟨hfy, hy⟩ := hb'.silent y rfl hoy
      refine ⟨hfy.trans hfx, fun n hn => ?_⟩
      exact (mem_variableNames_cons.1 hn).elim (hx n) (hy n)

end

/-! ### Variables -/

/-- A name is not blocked if it is not circular and no name in its value is blocked. -/
theorem unblocked_of_value {d : Definition} (hc : p.cycle? n = none)
    (hd : p.context.define? n = .ok (some d)) (hp : d.parsed = .ok segments)
    (h : ∀ m ∈ variableNames segments, p.Unblocked m) : p.Unblocked n := by
  intro m hm
  rcases Relation.ReflTransGen.cases_head hm with rfl | ⟨b, hb, hm⟩
  · exact hc
  · exact h b ((refers_iff hd hp).1 hb) m hm

/-- A plain name is not blocked. -/
theorem unblocked_plain {v : String} {h : Nat} (hs : p.IsSound) (hn : p.context.PlainName n v h) :
    p.Unblocked n := by
  intro m hm
  rcases Relation.reflTransGen_iff_eq_or_transGen.1 hm with rfl | hm
  · exact hs.cycle?_plain hn
  · obtain ⟨w, k, hw, -⟩ := hn.lower_trans hm
    exact hs.cycle?_plain hw

theorem settle_ok {d : Definition} {x y : Expansion} (h : (p.settle n d x l).1 = .ok y) :
    y = x := by
  have hgoes := settle_goes p n d x l
  generalize p.settle n d x l = a at h hgoes
  cases hgoes <;> cases h <;> rfl

theorem settle_speaks {d : Definition} {x : Expansion} (hx : l.IsClean → l.Admits x)
    (hs : x.isOk = true → ∀ m ∈ roots, p.Unblocked m) :
    Speaks p roots l (p.settle n d x l) := by
  have hg := settle_grows p n d x l
  refine ⟨hg, fun y hy hc => ?_, fun y hy ho => ?_⟩
  · rw [settle_ok hy]
    exact (hx (hg.clean hc)).grow hg
  · rw [settle_ok hy] at ho
    exact ⟨(settle_failures p n d x l).1, hs ho⟩

theorem expandValue_speaks {depth : Int} {d : Definition}
    {expand : String → Ledger → Except Stop Expansion × Ledger} (hclean : p.context.IsClean)
    (hc : p.cycle? n = none) (hd : p.context.define? n = .ok (some d))
    (hpd : d.parsed = .ok segments)
    (he : ∀ n l, isIdentifier n.toList = true → p.Posted l → I l.cache →
      Speaks p [n] l (expand n l))
    (hI : ∀ n l, I l.cache → I (expand n l).2.cache) (hp : p.Posted l) (hi : I l.cache) :
    Speaks p [n] l (p.expandValue depth expand n d segments l) := by
  have hvalue : (∀ m ∈ variableNames segments, p.Unblocked m) → ∀ m ∈ [n], p.Unblocked m :=
    fun h m hm => List.mem_singleton.1 hm ▸ unblocked_of_value hc hd hpd h
  cases hr : segments.any Segment.isReference with
  | false =>
    have hnone : ∀ m, m ∉ variableNames segments := by
      intro m hm
      obtain ⟨r, hm, -, -⟩ := mem_variableNames.1 hm
      exact absurd (List.any_eq_false.1 hr _ hm) (by simp [Segment.isReference])
    rw [expandValue_literal hr]
    exact .after (.note l _) rfl
      (settle_speaks (fun _ => .clean (hclean n d hd) rfl)
        fun _ => hvalue fun m hm => absurd hm (hnone m))
  | true =>
    have hlook : l.Grows (l.note (p.lookupEvent n d true depth)) := .note l _
    have hall := expandAll_speaks (p := p) (depth + 1) Stop.refused segments
      (hclean.of_parsed hd hpd) (define?_names hd hpd)
      (fun r l hr _ hp hi => he r.name l (define?_names hd hpd r hr) hp hi) hI (hp.grow hlook) hi
    refine .after hlook rfl ?_
    rcases hx : p.expandAll (depth + 1) .refused expand segments
      (l.note (p.lookupEvent n d true depth)) with ⟨(⟨m, inner⟩ | r) | x, l'⟩
    · rw [hx] at hall
      rw [expandValue_tooDeep hr hx]
      exact .error hall.grows
    · rw [hx] at hall
      rw [expandValue_refused hr hx]
      exact .error hall.grows
    · rw [hx] at hall
      rw [expandValue_ok hr hx]
      have hnest : l'.Grows (l'.note (nestedEvent n d x depth)) := .note l' _
      have hset : Speaks p [n] (l'.note (nestedEvent n d x depth))
          (p.settle n d x (l'.note (nestedEvent n d x depth))) :=
        settle_speaks (fun hclean => (hall.marked x rfl (hnest.clean hclean)).grow hnest)
          fun ho => hvalue (hall.silent x rfl ho).2
      refine ⟨hall.grows.trans (hnest.trans hset.grows), hset.marked, fun y hy ho => ?_⟩
      obtain ⟨hf, hu⟩ := hset.silent y hy ho
      rw [settle_ok hy] at ho
      exact ⟨hf.trans (hall.silent x rfl ho).1, hu⟩

theorem expandDefined_speaks {depth : Int}
    {expand : String → Ledger → Except Stop Expansion × Ledger} (hclean : p.context.IsClean)
    (hid : isIdentifier n.toList = true) (hc : p.cycle? n = none)
    (he : ∀ n l, isIdentifier n.toList = true → p.Posted l → I l.cache →
      Speaks p [n] l (expand n l))
    (hI : ∀ n l, I l.cache → I (expand n l).2.cache) (hp : p.Posted l) (hi : I l.cache) :
    Speaks p [n] l (p.expandDefined depth expand n l) := by
  have hfail : ∀ e f, Speaks p [n] l
      ((.ok (.failed n), (l.note e).fail n f) : Except Stop Expansion × Ledger) := fun e f =>
    .failed ((Grows.note l e).trans (.fail _ n f)) ⟨n, hid, .inl rfl⟩ (mem_status_fail _ n f)
  have hgoes := expandDefined_goes p depth expand n l
  generalize p.expandDefined depth expand n l = a at hgoes ⊢
  cases hgoes with
  | refused => exact .error (.refl l)
  | undefined => exact hfail _ _
  | malformed => exact hfail _ _
  | value hd hpd => exact expandValue_speaks hclean hc hd hpd he hI hp hi

/-- **What a variable expands to has the markers of names that have failed**, where each entry of the
cache is the plain value of its name. -/
theorem expandVariable_speaks (hI : p.Upholds I) (hs : p.IsSound) (hclean : p.context.IsClean)
    (left : Nat) (hid : isIdentifier n.toList = true) (hp : p.Posted l) (hi : I l.cache) :
    Speaks p [n] l (p.expandVariable left n l) := by
  induction left, n, l using p.expandVariable_induct with
  | circular left n l cycle hc =>
    exact .failed (.note l _) ⟨n, hid, .inl rfl⟩ (hp n (by rw [hc]; rfl))
  | bound n l hc => exact .error (.note l _)
  | refused left n l r hc hf => exact .error (.refl l)
  | miss left n l c s hc hf ih =>
    have hg : l.Grows ({ l with cache := c, sources := s }.note
        (missEvent n (p.depthAt (left + 1)))) := (Grows.with_cache l c s).trans (.note _ _)
    exact .after hg rfl (expandDefined_speaks hclean hid hc
      (fun m l hid hp hi => (ih m l hid hp hi).below)
      (fun m l hi => (expandVariable_pure hI left m hi).cache) (hp.grow hg) (hI.found hi hf).1)
  | tooDeep left n l e c s hc hf hh => exact .error ((Grows.with_cache l c s).trans (.note _ _))
  | hit left n l e c s hc hf hh =>
    -- nothing below is visited, but the entry is plain: no marker, and nothing circular
    obtain ⟨h, -, hn⟩ := (hI.found hi hf).2 e rfl
    have hg : l.Grows ({ l with cache := c, sources := s }.note
        (p.hitEvent n e false (p.depthAt (left + 1)))) := (Grows.with_cache l c s).trans (.note _ _)
    refine ⟨hg.trans (.markResolved _ n), fun x hx _ => ?_, fun x hx _ => ⟨rfl, ?_⟩⟩
    · cases hx
      exact .clean (hn.not_mem hclean) rfl
    · exact fun m hm => List.mem_singleton.1 hm ▸ unblocked_plain hs hn

/-! ### Templates -/

theorem expandTop_speaks (hI : p.Upholds I) (hs : p.IsSound) (hclean : p.context.IsClean)
    (hid : isIdentifier n.toList = true) (hp : p.Posted l) (hi : I l.cache) :
    Speaks p [n] l (p.expandTop n l) := by
  have hv := expandVariable_speaks hI hs hclean p.maxDepth hid hp hi
  unfold expandTop
  rcases hx : p.expandVariable p.maxDepth n l with ⟨(⟨m, inner⟩ | r) | x, l'⟩
  · rw [hx] at hv
    exact .failed (hv.grows.trans (.fail _ _ _)) ⟨n, hid, .inl rfl⟩ (mem_status_fail _ n _)
  · rw [hx] at hv
    exact .error hv.grows
  · rw [hx] at hv
    refine ⟨hv.grows, fun y hy => ?_, fun y hy => ?_⟩
    · cases hy
      exact hv.marked x rfl
    · cases hy
      exact hv.silent x rfl

theorem failCircular_posted (p : Pass) (l : Ledger) : p.Posted (p.failCircular l) :=
  fun n hn => (failCircular_status p l).2 n (cycle?_isSome.1 hn)

/-- **What a template expands to has the markers of names that have failed.** -/
theorem expandTemplate_speaks (hI : p.Upholds I) (hs : p.IsSound) (hclean : p.context.IsClean)
    (hlit : Template.IsClean segments)
    (hid : ∀ r, .reference r ∈ segments → isIdentifier r.name.toList = true) (hi : I l.cache) :
    Speaks p (variableNames segments) (p.failCircular l) (p.expandTemplate segments l) :=
  expandAll_speaks 0 id segments hlit hid
    (fun r _ hr _ hp hi => expandTop_speaks hI hs hclean (hid r hr) hp hi)
    (fun n _ hi => expandTop_cache hI n hi) (failCircular_posted p l)
    ((failCircular_cache p l).symm ▸ hi)

end Pass
end Stencil
