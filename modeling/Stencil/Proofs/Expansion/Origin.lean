/-
# Where an expanded text comes from

The text of an expansion in which nothing failed is made of parts, one after
another: literal runs of the template and of the values that it refers to, what
functions gave, and texts that the cache held before. Functions give what they
like, and a cache may hold anything; literal runs start no expression. So one
starts in the whole text only inside of what a function gave or the cache held,
or at the seam of two parts (`isFlat_joined`).

Key definitions: `Part`, `Part.AreInert`, `Context.Unfolds`, `Pass.Stands`,
`Backs`.
Key theorems: `isFlat_joined`, `Unfolds.isFlat_literal`, `expandVariable_backs`,
`expandTemplate_unfolds`.
-/
import Stencil.Proofs.Expansion.Markers
import Stencil.Proofs.Template.Flat

namespace Stencil

open Template Grammar

/-- A part of an expanded text, by where it comes from. -/
inductive Part where
  | literal (text : String)
  /-- What a function gave. -/
  | output (text : String)
  /-- What the cache held. -/
  | kept (text : String)

namespace Part

def text : Part → String
  | literal t => t
  | output t => t
  | kept t => t

/-- The text of parts, one after another. -/
def joined (ps : List Part) : List Char := ps.flatMap fun p => p.text.toList

/-- No expression starts inside of an output or a kept text, nor at the seam of two parts. -/
structure AreInert (ps : List Part) : Prop where
  outputs : ∀ t, .output t ∈ ps → IsFlat t.toList
  kept : ∀ t, .kept t ∈ ps → IsFlat t.toList
  seams : ∀ as bs, ps = as ++ bs →
    ¬ ((joined as).getLast? = some '$' ∧ (joined bs).head? = some '{')

end Part

/-- The parts that stand for segments: literal runs stand for themselves, calls for what the library
gives, and variables for the parts of their values or for texts that are kept for them. -/
inductive Context.Unfolds (c : Context) (l : Library) (kept : String → String → Prop) :
    List Segment → List Part → Prop where
  | nil : Unfolds c l kept [] []
  | literal {text : String} {span : Span} {rest : List Segment} {ps : List Part}
      (hr : Unfolds c l kept rest ps) :
      Unfolds c l kept (.literal text span :: rest) (.literal text :: ps)
  | call {r : Reference} {text : String} {rest : List Segment} {ps : List Part}
      (hc : r.isCall = true) (ho : ∃ s, l.outcome s r = .ok text) (hr : Unfolds c l kept rest ps) :
      Unfolds c l kept (.reference r :: rest) (.output text :: ps)
  | kept {r : Reference} {text : String} {rest : List Segment} {ps : List Part}
      (hc : r.isCall = false) (hk : kept r.name text) (hr : Unfolds c l kept rest ps) :
      Unfolds c l kept (.reference r :: rest) (.kept text :: ps)
  | value {r : Reference} {d : Definition} {inner rest : List Segment} {qs ps : List Part}
      (hc : r.isCall = false) (hd : c.define? r.name = .ok (some d)) (hp : d.parsed = .ok inner)
      (hi : Unfolds c l kept inner qs) (hr : Unfolds c l kept rest ps) :
      Unfolds c l kept (.reference r :: rest) (qs ++ ps)

namespace Pass

/-- A text stands for a name if it is kept for it or made of the parts of its value. -/
inductive Stands (p : Pass) (kept : String → String → Prop) (n text : String) : Prop where
  | kept (h : kept n text)
  | value {d : Definition} {inner : List Segment} {ps : List Part}
      (hd : p.context.define? n = .ok (some d)) (hp : d.parsed = .ok inner)
      (hi : p.context.Unfolds p.library kept inner ps) (ht : Part.joined ps = text.toList)

/-- What is found for a name stands for it. -/
def Backed (p : Pass) (kept : String → String → Prop) (k : Cache.Key) (text : String) (_ : Int) :
    Prop := ∀ n, k = p.key n → p.Stands kept n text

/-- The cache holds texts that stand for their names, and so does the answer if nothing failed. -/
structure Backs (p : Pass) (kept : String → String → Prop) (n : String) {ε : Type}
    (a : Except ε Expansion × Ledger) : Prop where
  cache : a.2.cache.All (p.Backed kept)
  stands : ∀ x, a.1 = .ok x → x.isOk = true → p.Stands kept n x.text

end Pass

/-! ### Parts -/

namespace Part

variable {as bs ps : List Part} {t : String}

theorem joined_append (as bs : List Part) : joined (as ++ bs) = joined as ++ joined bs :=
  List.flatMap_append

theorem joined_cons (p : Part) (ps : List Part) :
    joined (p :: ps) = p.text.toList ++ joined ps := rfl

theorem AreInert.tail {p : Part} (h : AreInert (p :: ps)) : AreInert ps where
  outputs t ht := h.outputs t (List.mem_cons_of_mem _ ht)
  kept t ht := h.kept t (List.mem_cons_of_mem _ ht)
  seams as bs hps hseam := by
    refine h.seams (p :: as) bs (by rw [hps]; rfl) ⟨?_, hseam.2⟩
    rw [joined_cons, List.getLast?_append, hseam.1]
    rfl

/-- **Where literal runs start no expression, inert parts are those that start none together.** -/
theorem isFlat_joined (h : ∀ t, .literal t ∈ ps → IsFlat t.toList) :
    IsFlat (joined ps) ↔ AreInert ps := by
  constructor
  · intro hflat
    have hpart : ∀ p ∈ ps, IsFlat p.text.toList := by
      intro p hp
      obtain ⟨as, bs, rfl⟩ := List.append_of_mem hp
      rw [joined_append, isFlat_append, joined_cons, isFlat_append] at hflat
      exact hflat.2.1.1
    refine ⟨fun t => hpart (.output t), fun t => hpart (.kept t), fun as bs hps => ?_⟩
    rw [hps, joined_append, isFlat_append] at hflat
    exact hflat.2.2
  · intro hinert
    induction ps with
    | nil => exact isFlat_nil
    | cons p ps ih =>
      have hp : IsFlat p.text.toList := by
        cases p with
        | literal t => exact h t List.mem_cons_self
        | output t => exact hinert.outputs t List.mem_cons_self
        | kept t => exact hinert.kept t List.mem_cons_self
      have hseam := hinert.seams [p] ps rfl
      rw [joined_cons, joined, List.flatMap_nil, List.append_nil] at hseam
      rw [joined_cons, isFlat_append]
      exact ⟨hp, ih (fun t ht => h t (List.mem_cons_of_mem _ ht)) hinert.tail, hseam⟩

end Part

namespace Context

variable {c : Context} {lib : Library} {kept : String → String → Prop} {segments : List Segment}
  {ps : List Part}

/-- The literal parts are runs of well-formed templates, so none of them starts an expression. -/
theorem Unfolds.isFlat_literal (h : c.Unfolds lib kept segments ps)
    (hs : ∀ text span, .literal text span ∈ segments → IsFlat text.toList) :
    ∀ t, .literal t ∈ ps → IsFlat t.toList := by
  induction h with
  | nil => exact fun t ht => absurd ht List.not_mem_nil
  | @literal text span rest ps _ ih =>
    intro t ht
    rcases List.mem_cons.1 ht with ht | ht
    · cases ht
      exact hs _ _ List.mem_cons_self
    · exact ih (fun _ _ hm => hs _ _ (List.mem_cons_of_mem _ hm)) t ht
  | call _ _ _ ih =>
    intro t ht
    rcases List.mem_cons.1 ht with ht | ht
    · cases ht
    · exact ih (fun _ _ hm => hs _ _ (List.mem_cons_of_mem _ hm)) t ht
  | kept _ _ _ ih =>
    intro t ht
    rcases List.mem_cons.1 ht with ht | ht
    · cases ht
    · exact ih (fun _ _ hm => hs _ _ (List.mem_cons_of_mem _ hm)) t ht
  | value _ hd hp _ _ ihi ih =>
    intro t ht
    have hparse := define?_parse hd
    rw [hp] at hparse
    rcases List.mem_append.1 ht with ht | ht
    · exact ihi (fun _ _ hm => isFlat_of_parse hparse hm) t ht
    · exact ih (fun _ _ hm => hs _ _ (List.mem_cons_of_mem _ hm)) t ht

/-- Literal runs unfold to themselves. -/
theorem unfolds_literals (hs : ∀ s ∈ segments, s.isReference = false) :
    ∃ ps, c.Unfolds lib kept segments ps ∧ Part.joined ps = sources segments := by
  induction segments with
  | nil => exact ⟨[], .nil, rfl⟩
  | cons s rest ih =>
    obtain ⟨ps, hps, ht⟩ := ih fun s hm => hs s (List.mem_cons_of_mem _ hm)
    cases s with
    | literal text span =>
      exact ⟨.literal text :: ps, .literal hps, by rw [Part.joined_cons, ht, sources_cons]; rfl⟩
    | reference r => cases hs _ List.mem_cons_self

end Context

namespace Pass

open Context

variable {p : Pass} {kept : String → String → Prop} {n : String} {l l' : Ledger} {x : Expansion}
  {segments : List Segment} {ε : Type}

theorem Backs.error {e : ε} (hl : l.cache.All (p.Backed kept)) : Backs p kept n (.error e, l) :=
  ⟨hl, fun x hx => by cases hx⟩

theorem Backs.failed {m : String} (hl : l.cache.All (p.Backed kept)) :
    Backs p kept n ((.ok (.failed m), l) : Except ε Expansion × Ledger) := by
  refine ⟨hl, fun x hx ho => ?_⟩
  cases hx
  cases ho

theorem Backs.below {a : Except Stop Expansion × Ledger} (h : Backs p kept n a) :
    Backs p kept n (below a) := by
  obtain ⟨e | x, l⟩ := a
  · exact .error h.cache
  · refine ⟨h.cache, fun y hy ho => ?_⟩
    cases hy
    exact h.stands x rfl ho

/-! ### Segments -/

/-- What a call that did not fail stands for. -/
theorem expandCall_output {depth : Int} {r : Reference}
    (h : p.expandCall depth r l = (.ok x, l')) (ho : x.isOk = true) :
    ∃ s, p.library.outcome s r = .ok x.text := by
  have hgoes := expandCall_goes p depth r l
  rw [h] at hgoes
  cases hgoes with
  | called hi => exact ⟨l.sources, congrArg Prod.fst hi⟩
  | failed => cases ho

/-- **Segments that are expanded without a failure come to the parts that stand for them.** -/
theorem expandAll_unfolds {depth : Int} {stop : Refusal → ε}
    {expand : String → Ledger → Except ε Expansion × Ledger}
    (he : ∀ n l, l.cache.All (p.Backed kept) → Backs p kept n (expand n l))
    (hl : l.cache.All (p.Backed kept))
    (hx : p.expandAll depth stop expand segments l = (.ok x, l')) (ho : x.isOk = true) :
    ∃ ps, p.context.Unfolds p.library kept segments ps ∧ Part.joined ps = x.text.toList := by
  induction segments generalizing l x with
  | nil =>
    cases hx
    exact ⟨[], .nil, rfl⟩
  | cons s rest ih =>
    have hs := expandSegment_cache (p := p) depth stop (fun n l hl => (he n l hl).cache) s hl
    rcases ha : p.expandSegment depth stop expand s l with ⟨e | a, l₁⟩
    · rw [expandAll_head ha] at hx
      cases hx
    rw [ha] at hs
    rcases hb : p.expandAll depth stop expand rest l₁ with ⟨e | b, l₂⟩
    · rw [expandAll_tail ha hb] at hx
      cases hx
    rw [expandAll_ok ha hb] at hx
    cases hx
    obtain ⟨hoa, hob⟩ := Bool.and_eq_true_iff.1 ho
    obtain ⟨ps, hps, ht⟩ := ih hs hb hob
    have htext : (a.append b).text.toList = a.text.toList ++ Part.joined ps := by
      rw [ht]
      exact String.toList_append
    rw [htext]
    cases s with
    | literal text span =>
      cases ha
      exact ⟨.literal text :: ps, .literal hps, rfl⟩
    | reference r =>
      cases hc : r.isCall with
      | true =>
        rw [expandSegment, hc, if_pos rfl] at ha
        rcases hcall : p.expandCall depth r l with ⟨e | a', l₀⟩
        · rw [hcall] at ha
          cases ha
        rw [hcall] at ha
        cases ha
        exact ⟨.output a.text :: ps, .call hc (expandCall_output hcall hoa) hps, rfl⟩
      | false =>
        have hax : expand r.name l = (.ok a, l₁) := (expandSegment_variable hc).symm.trans ha
        have hv := he r.name l hl
        rw [hax] at hv
        cases hv.stands a rfl hoa with
        | kept hk => exact ⟨.kept a.text :: ps, .kept hc hk hps, rfl⟩
        | value hd hp hi hqs =>
          exact ⟨_, .value hc hd hp hi hps, by rw [Part.joined_append, hqs]⟩

/-! ### Variables -/

theorem settle_backs {d : Definition} (hl : l.cache.All (p.Backed kept))
    (hx : x.isOk = true → p.Stands kept n x.text) : Backs p kept n (p.settle n d x l) := by
  have hentry : x.isOk = true → p.Backed kept (p.key n) x.text x.height :=
    fun ho m hm => by cases hm; exact hx ho
  have hgoes := settle_goes p n d x l
  generalize p.settle n d x l = a at hgoes ⊢
  cases hgoes with
  | failed ho => exact ⟨hl, fun y hy hok => by cases hy; cases ho.symm.trans hok⟩
  | impure ho => exact ⟨hl, fun y hy _ => by cases hy; exact hx ho⟩
  | kept ho _ hk =>
    exact ⟨hl.of_putNow (hentry ho) hk, fun y hy _ => by cases hy; exact hx ho⟩
  | refused ho _ hk => exact .error (hl.of_putNow (hentry ho) hk)

theorem expandValue_backs {depth : Int} {d : Definition}
    {expand : String → Ledger → Except Stop Expansion × Ledger}
    (he : ∀ n l, l.cache.All (p.Backed kept) → Backs p kept n (expand n l))
    (hd : p.context.define? n = .ok (some d)) (hp : d.parsed = .ok segments)
    (hl : l.cache.All (p.Backed kept)) :
    Backs p kept n (p.expandValue depth expand n d segments l) := by
  cases hr : segments.any Segment.isReference with
  | false =>
    rw [expandValue_literal hr]
    refine settle_backs hl fun _ => ?_
    have hparse := define?_parse hd
    rw [hp] at hparse
    obtain ⟨ps, hps, ht⟩ : ∃ ps, p.context.Unfolds p.library kept segments ps ∧
        Part.joined ps = sources segments := unfolds_literals (by simpa using hr)
    exact .value hd hp hps (ht.trans (parse_source hparse))
  | true =>
    have hall := expandAll_cache (p := p) (I := fun k => k.All (p.Backed kept)) (depth + 1)
      .refused (fun n l hl => (he n l hl).cache) segments
      (l := l.note (p.lookupEvent n d true depth)) hl
    rcases hx : p.expandAll (depth + 1) .refused expand segments
      (l.note (p.lookupEvent n d true depth)) with ⟨(⟨m, inner⟩ | r) | x, l'⟩
    · rw [expandValue_tooDeep hr hx]
      rw [hx] at hall
      exact .error hall
    · rw [expandValue_refused hr hx]
      rw [hx] at hall
      exact .error hall
    · rw [expandValue_ok hr hx]
      rw [hx] at hall
      refine settle_backs hall fun ho => ?_
      obtain ⟨ps, hps, ht⟩ := expandAll_unfolds he (l := l.note (p.lookupEvent n d true depth)) hl
        hx ho
      exact .value hd hp hps ht

theorem expandDefined_backs {depth : Int}
    {expand : String → Ledger → Except Stop Expansion × Ledger}
    (he : ∀ n l, l.cache.All (p.Backed kept) → Backs p kept n (expand n l))
    (hl : l.cache.All (p.Backed kept)) :
    Backs p kept n (p.expandDefined depth expand n l) := by
  have hgoes := expandDefined_goes p depth expand n l
  generalize p.expandDefined depth expand n l = a at hgoes ⊢
  cases hgoes with
  | refused => exact .error hl
  | undefined => exact .failed ((fail_cache _ _ _).symm ▸ hl)
  | malformed => exact .failed ((fail_cache _ _ _).symm ▸ hl)
  | value hd hp => exact expandValue_backs he hd hp hl

/-- **What a variable is expanded to stands for it**, whether the cache had it or not. -/
theorem expandVariable_backs (left : Nat) (n : String) (hl : l.cache.All (p.Backed kept)) :
    Backs p kept n (p.expandVariable left n l) := by
  -- on the levels allowed; what a level puts into the cache stands for its name
  induction left, n, l using p.expandVariable_induct with
  | circular left n l cycle hc => exact .failed hl
  | bound n l hc => exact .error hl
  | refused left n l r hc hf => exact .error hl
  | miss left n l c s hc hf ih =>
    exact expandDefined_backs (fun m l hl => (ih m l hl).below) (hl.of_findNow hf).1
  | tooDeep left n l e c s hc hf hh => exact .error (hl.of_findNow hf).1
  | hit left n l e c s hc hf hh =>
    obtain ⟨hfound, he⟩ := hl.of_findNow hf
    refine ⟨hfound, fun x hx _ => ?_⟩
    cases hx
    exact he e rfl n rfl

/-! ### Templates -/

theorem expandTop_backs (n : String) (hl : l.cache.All (p.Backed kept)) :
    Backs p kept n (p.expandTop n l) := by
  have hv := expandVariable_backs p.maxDepth n hl
  unfold expandTop
  generalize p.expandVariable p.maxDepth n l = a at hv ⊢
  obtain ⟨(⟨m, inner⟩ | r) | x, l'⟩ := a
  · exact .failed ((fail_cache _ _ _).symm ▸ hv.cache)
  · exact .error hv.cache
  · exact ⟨hv.cache, fun y hy => hv.stands y (by cases hy; rfl)⟩

/-- **A template that is expanded without a failure comes to the parts that stand for it.** -/
theorem expandTemplate_unfolds (hl : l.cache.All (p.Backed kept))
    (hx : p.expandTemplate segments l = (.ok x, l')) (ho : x.isOk = true) :
    ∃ ps, p.context.Unfolds p.library kept segments ps ∧ Part.joined ps = x.text.toList :=
  expandAll_unfolds (fun n _ hl => expandTop_backs n hl)
    (l := p.failCircular l) ((failCircular_cache p l).symm ▸ hl) hx ho

end Pass
end Stencil
