/-
# Chains of references that reach the bound

A variable is too deep where a chain of references from it is as long as the
levels that are allowed. The names of such a chain are told from the outside
in, and all of them are where the expansion went down to the bound itself. It
stops earlier at a name that the cache holds: the entry's height stands for the
rest of the chain, which is then not told.

Key definitions: `Event.Caps`, `Ledger.Capped`, `Pass.IsTooDeep`.
Key theorems: `expandVariable_chain`, `expandTop_deep`, `expandTemplate_deep`.
-/
import Stencil.Proofs.Context.Complete
import Stencil.Proofs.Expansion.Account

namespace Stencil

open Template Context

/-- Whether the failure is that of a name that is too deep. -/
def Failure.isTooDeep : Failure → Bool
  | tooDeep .. => true
  | _ => false

/-- The event tells that a name was found in the cache, too high for the depth that it was met at. -/
structure Event.Caps (e : Event) (n : String) (depth : Int) : Prop where
  name : e.name = n
  kind : e.kind = .hit
  error : e.error.isSome = true
  depth : e.depth = depth

namespace Ledger

/-- An event of the ledger tells that a name was found in the cache, too high for its depth. -/
def Capped (l : Ledger) (n : String) (depth : Int) : Prop :=
  ∃ e ∈ l.recentEvents, e.Caps n depth

variable {L : Library} {B : String → Failure → Prop} {l l' : Ledger} {n : String} {depth : Int}

theorem Grows.capped (h : l.Grows l') (hl : l.Capped n depth) : l'.Capped n depth := by
  obtain ⟨e, he, hn⟩ := hl
  exact ⟨e, h.events.subset he, hn⟩

/-- A run that grants no name that is too deep lists none. -/
theorem Run.isTooDeep (hB : ∀ n f, B n f → f.isTooDeep = false) (h : Run L B l l') {f : Failure}
    (hf : f.isTooDeep = true) (hm : f ∈ l'.recentFailures) : f ∈ l.recentFailures := by
  refine h.keeps (P := fun l' => f ∈ l'.recentFailures → f ∈ l.recentFailures) ?_ id hm
  intro l₁ l₂ hs ih hm
  have hcons : ∀ g : Failure, g.isTooDeep = false → f ∈ g :: l₁.recentFailures →
      f ∈ l₁.recentFailures := by
    rintro g hg (_ | hm)
    · rw [hf] at hg
      cases hg
    · assumption
  cases hs with
  | fail n g hg =>
    unfold fail at hm
    split_ifs at hm
    · exact ih hm
    · exact ih (hcons g (hB n g hg) hm)
  | broken r g depth ho =>
    obtain ⟨s, ho⟩ := ho
    have hcall := Library.outcome_failed ho
    have hg : g.isTooDeep = false := by
      cases g with
      | tooDeep => cases hcall
      | _ => rfl
    exact ih (hcons g hg hm)
  | _ => exact ih hm

end Ledger

namespace Pass

open Ledger

variable {p : Pass} {I : Cache → Prop} {left : Nat} {n m : String} {inner : List String}
  {l l' : Ledger} {segments : List Segment} {f : Failure} {roots : List String}

/-- A name is too deep where `left` levels are allowed: a chain of references from it is as long as
that. The names in `inner` are those that follow it, all of them or down to one that was found in
the cache. -/
structure IsTooDeep (p : Pass) (left : Nat) (n : String) (inner : List String) (l : Ledger) :
    Prop where
  full : ∃ rest, (n :: (inner ++ rest)).IsChain p.context.Refers ∧ (inner ++ rest).length = left
  cut : inner.length < left →
    l.Capped ((n :: inner).getLast (List.cons_ne_nil _ _)) (p.depthAt left + inner.length)

theorem IsTooDeep.grow (h : p.IsTooDeep left n inner l) (hg : l.Grows l') :
    p.IsTooDeep left n inner l' := ⟨h.full, fun hi => hg.capped (h.cut hi)⟩

/-- One level up, the name in whose value it stands is too deep. -/
theorem IsTooDeep.below (h : p.IsTooDeep left m inner l) (hr : p.context.Refers n m) :
    p.IsTooDeep (left + 1) n (m :: inner) l := by
  obtain ⟨rest, hchain, hlen⟩ := h.full
  refine ⟨⟨rest, .cons_cons hr hchain, ?_⟩, fun hi => ?_⟩
  · rw [List.cons_append, List.length_cons, hlen]
  · have hcap := h.cut (Nat.lt_of_succ_lt_succ hi)
    have hdepth : p.depthAt (left + 1) + ((m :: inner).length : Nat) =
        p.depthAt left + inner.length := by
      unfold depthAt
      push_cast [List.length_cons]
      omega
    rw [hdepth, List.getLast_cons (List.cons_ne_nil _ _)]
    exact hcap

/-- A plain name that is at least as high as the levels allowed has a chain of just their number. -/
theorem full_of_plainName {c : Context} {v : String} {h : Nat} (hn : c.PlainName n v h)
    (hh : left ≤ h) :
    ∃ rest : List String, (n :: rest).IsChain c.Refers ∧ rest.length = left := by
  obtain ⟨names, hchain, hlen⟩ := hn.exists_chain
  refine ⟨names.take left, ?_, ?_⟩
  · exact hchain.take (left + 1)
  · rw [List.length_take]
    omega

/-- Segments that are given up were given up at the variable whose answer they end with. -/
theorem expandAll_stops {expand : String → Ledger → Except Stop Expansion × Ledger} {depth : Int}
    (hI : ∀ n l, I l.cache → I (expand n l).2.cache) (hl : I l.cache)
    (h : p.expandAll depth .refused expand segments l = (.error (.tooDeep m inner), l')) :
    ∃ r l₁, .reference r ∈ segments ∧ r.isCall = false ∧ I l₁.cache ∧
      expand r.name l₁ = (.error (.tooDeep m inner), l') := by
  induction segments generalizing l with
  | nil => cases h
  | cons s rest ih =>
    have hc := expandSegment_cache (p := p) depth .refused hI s hl
    rcases ha : p.expandSegment depth .refused expand s l with ⟨e | a, l₁⟩
    · rw [expandAll_head ha] at h
      cases h
      cases s with
      | literal => cases ha
      | reference r =>
        cases hr : r.isCall with
        | false => exact ⟨r, l, List.mem_cons_self, hr, hl, (expandSegment_variable hr).symm.trans ha⟩
        | true =>
          -- a call that is given up is refused
          rw [expandSegment, hr, if_pos rfl] at ha
          rcases hx : p.expandCall depth r l with ⟨e | a, l₂⟩
          · rw [hx] at ha
            cases ha
          · rw [hx] at ha
            cases ha
    · rw [ha] at hc
      rcases hb : p.expandAll depth .refused expand rest l₁ with ⟨e | b, l₂⟩
      · rw [expandAll_tail ha hb] at h
        cases h
        obtain ⟨r, l₃, hr, hx⟩ := ih hc hb
        exact ⟨r, l₃, List.mem_cons_of_mem _ hr, hx⟩
      · rw [expandAll_ok ha hb] at h
        cases h

/-- A value that is given up refers to a name that is too deep. -/
theorem expandValue_chain {expand : String → Ledger → Except Stop Expansion × Ledger} {depth : Int}
    {d : Definition} (hd : p.context.define? n = .ok (some d)) (hp : d.parsed = .ok segments)
    (hI : ∀ n l, I l.cache → I (expand n l).2.cache)
    (he : ∀ k l m inner l', I l.cache → expand k l = (.error (.tooDeep m inner), l') →
      m = k ∧ p.IsTooDeep left k inner l')
    (hl : I l.cache)
    (h : p.expandValue depth expand n d segments l = (.error (.tooDeep m inner), l')) :
    p.IsTooDeep (left + 1) n inner l' := by
  cases hr : segments.any Segment.isReference with
  | false =>
    rw [expandValue_literal hr] at h
    exact absurd (congrArg Prod.fst h) settle_not_tooDeep
  | true =>
    have hlook : I (l.note (p.lookupEvent n d true depth)).cache := hl
    rcases hx : p.expandAll (depth + 1) .refused expand segments
      (l.note (p.lookupEvent n d true depth)) with ⟨(⟨k, names⟩ | r) | x, l₁⟩
    · rw [expandValue_tooDeep hr hx] at h
      cases h
      obtain ⟨r, l₂, hm, hc, hl₂, hr⟩ := expandAll_stops hI hlook hx
      obtain ⟨rfl, ht⟩ := he _ _ _ _ _ hl₂ hr
      exact ht.below ((refers_iff hd hp).2 (mem_variableNames.2 ⟨r, hm, hc, rfl⟩))
    · rw [expandValue_refused hr hx] at h
      cases h
    · rw [expandValue_ok hr hx] at h
      exact absurd (congrArg Prod.fst h) settle_not_tooDeep

/-- A name that is given up has a value that is. -/
theorem expandDefined_chain {expand : String → Ledger → Except Stop Expansion × Ledger} {depth : Int}
    (hI : ∀ n l, I l.cache → I (expand n l).2.cache)
    (he : ∀ k l m inner l', I l.cache → expand k l = (.error (.tooDeep m inner), l') →
      m = k ∧ p.IsTooDeep left k inner l')
    (hl : I l.cache)
    (h : p.expandDefined depth expand n l = (.error (.tooDeep m inner), l')) :
    p.IsTooDeep (left + 1) n inner l' := by
  have hgoes := expandDefined_goes p depth expand n l
  generalize p.expandDefined depth expand n l = a at h hgoes
  cases hgoes with
  | refused => cases h
  | undefined => cases h
  | malformed => cases h
  | value hd hp => exact expandValue_chain hd hp hI he hl h

theorem of_below {a : Except Stop Expansion × Ledger}
    (h : Pass.below a = (.error (.tooDeep m inner), l')) : a = (.error (.tooDeep m inner), l') := by
  obtain ⟨e | x, l⟩ := a
  · exact h
  · cases h

/-- **A variable that is too deep has a chain of references down to the bound**, and the names told
of it end at the bound or at a name in the cache. -/
theorem expandVariable_chain (hI : p.Upholds I) (hl : I l.cache)
    (h : p.expandVariable left n l = (.error (.tooDeep m inner), l')) :
    p.IsTooDeep left n inner l' := by
  -- on the levels allowed: the answer of a variable below is seen one level up
  induction left, n, l using p.expandVariable_induct generalizing m inner l' with
  | circular => cases h
  | bound n l hc =>
    cases h
    exact ⟨⟨[], .singleton n, rfl⟩, fun hi => absurd hi (Nat.lt_irrefl 0)⟩
  | refused => cases h
  | miss left n l c s hc hf ih =>
    refine expandDefined_chain (fun k l hl => (expandVariable_pure hI left k hl).below.cache) ?_
      (hI.found hl hf).1 h
    intro k l₁ m inner l₂ hl₁ hx
    have hvar := of_below hx
    exact ⟨expandVariable_outermost (congrArg Prod.fst hvar), ih k l₁ hl₁ hvar⟩
  | tooDeep left n l e c s hc hf hh =>
    cases h
    obtain ⟨k, hk, hplain⟩ := (hI.found hl hf).2 e rfl
    refine ⟨full_of_plainName hplain (by omega), fun _ => ?_⟩
    exact ⟨_, List.mem_cons_self, rfl, rfl, rfl, (Int.add_zero _).symm⟩
  | hit => cases h

/-! ### Templates -/

/-- What a pass has listed as too deep so far is so. -/
structure Deep (p : Pass) (roots : List String) (I : Cache → Prop) (l : Ledger) : Prop where
  warned : p.Warned l
  cache : I l.cache
  tooDeep : ∀ n inner (bound : Int), .tooDeep n inner bound ∈ l.recentFailures →
    bound = p.maxDepth ∧ n ∈ roots ∧ p.IsTooDeep p.maxDepth n inner l

theorem Deep.run {B : String → Failure → Prop} (hB : ∀ n f, B n f → f.isTooDeep = false)
    (h : p.Deep roots I l) (hr : Run p.library B l l') (hI : I l'.cache) : p.Deep roots I l' := by
  refine ⟨h.warned.run hr, hI, fun n inner bound hm => ?_⟩
  obtain ⟨hb, hn, hd⟩ := h.tooDeep n inner bound (hr.isTooDeep hB rfl hm)
  exact ⟨hb, hn, hd.grow hr.grows⟩

/-- The failures that are found in the values of variables are of other kinds. -/
theorem grants_shallow (p : Pass) : p.Grants fun _ f => f.isTooDeep = false :=
  ⟨fun _ _ _ => rfl, fun _ _ _ _ _ _ => rfl⟩

theorem expandTop_deep (hI : p.Upholds I) (hn : n ∈ roots) (h : p.Deep roots I l) :
    p.Deep roots I (p.expandTop n l).2 := by
  have hv := (expandVariable_runs (grants_shallow p) p.maxDepth n h.warned).run
  have hc := (expandVariable_pure hI p.maxDepth n h.cache).cache
  unfold expandTop
  rcases hx : p.expandVariable p.maxDepth n l with ⟨(⟨m, inner⟩ | r) | x, l'⟩
  · rw [hx] at hv hc
    obtain rfl := expandVariable_outermost (congrArg Prod.fst hx)
    have ht := expandVariable_chain hI h.cache hx
    have hd := h.run (fun _ _ hf => hf) hv hc
    have hg : l'.Grows (l'.fail m (.tooDeep m inner p.maxDepth)) := .fail l' m _
    refine ⟨?_, (fail_cache l' m _).symm ▸ hc, fun k names bound hm => ?_⟩
    · exact hd.warned.step (B := fun _ _ => True) (.fail l' m _ trivial)
    · dsimp only at hm ⊢
      have hcases : Failure.tooDeep k names bound = .tooDeep m inner p.maxDepth ∨
          .tooDeep k names bound ∈ l'.recentFailures := by
        unfold Ledger.fail at hm
        split_ifs at hm
        · exact .inr hm
        · exact List.mem_cons.1 hm
      rcases hcases with he | hm
      · cases he
        exact ⟨rfl, hn, ht.grow hg⟩
      · obtain ⟨hb, hk, hk'⟩ := hd.tooDeep k names bound hm
        exact ⟨hb, hk, hk'.grow hg⟩
  · rw [hx] at hv hc
    exact h.run (fun _ _ hf => hf) hv hc
  · rw [hx] at hv hc
    exact h.run (fun _ _ hf => hf) hv hc

theorem expandSegment_deep {s : Segment} (hI : p.Upholds I)
    (hr : ∀ r, s = .reference r → r.isCall = false → r.name ∈ roots) (h : p.Deep roots I l) :
    p.Deep roots I (p.expandSegment 0 id p.expandTop s l).2 := by
  cases s with
  | literal => exact h
  | reference r =>
    cases hc : r.isCall with
    | false =>
      rw [expandSegment_variable hc]
      exact expandTop_deep hI (hr r rfl hc) h
    | true =>
      rw [expandSegment, hc, if_pos rfl]
      exact h.run (fun _ _ hf => hf) (expandCall_runs p (fun _ f => f.isTooDeep = false) 0 r l).run
        ((expandCall_cache 0 r l).symm ▸ h.cache)

theorem expandAll_deep (hI : p.Upholds I) (hr : ∀ n ∈ variableNames segments, n ∈ roots)
    (h : p.Deep roots I l) : p.Deep roots I (p.expandAll 0 id p.expandTop segments l).2 := by
  induction segments generalizing l with
  | nil => exact h
  | cons s rest ih =>
    have hs : p.Deep roots I (p.expandSegment 0 id p.expandTop s l).2 := by
      refine expandSegment_deep hI (fun r hs hc => hr r.name ?_) h
      exact mem_variableNames.2 ⟨r, hs ▸ List.mem_cons_self, hc, rfl⟩
    have hrest : ∀ n ∈ variableNames rest, n ∈ roots := by
      intro n hn
      obtain ⟨r, hm, hc, rfl⟩ := mem_variableNames.1 hn
      exact hr r.name (mem_variableNames.2 ⟨r, List.mem_cons_of_mem _ hm, hc, rfl⟩)
    rcases ha : p.expandSegment 0 id p.expandTop s l with ⟨e | a, l₁⟩
    · rw [expandAll_head ha]
      rwa [ha] at hs
    · rw [ha] at hs
      have hd := ih hrest hs
      rcases hb : p.expandAll 0 id p.expandTop rest l₁ with ⟨e | b, l₂⟩
      · rw [expandAll_tail ha hb]
        rwa [hb] at hd
      · rw [expandAll_ok ha hb]
        rwa [hb] at hd

/-- **What a pass lists as too deep is so.** -/
theorem expandTemplate_deep (hI : p.Upholds I) (hw : p.Warned (p.failCircular l)) (hl : I l.cache)
    (hf : l.recentFailures = []) :
    p.Deep (variableNames segments) I (p.expandTemplate segments l).2 := by
  refine expandAll_deep hI (fun _ hn => hn) ⟨hw, (failCircular_cache p l).symm ▸ hl, ?_⟩
  intro n inner bound hm
  have hrun := failCircular_run (B := fun _ f => f.isTooDeep = false) p p.circular l fun _ _ => rfl
  have hm := hrun.isTooDeep (fun _ _ hf => hf) rfl hm
  rw [hf] at hm
  cases hm

end Pass
end Stencil
