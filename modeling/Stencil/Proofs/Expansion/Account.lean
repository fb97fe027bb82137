/-
# What a ledger accounts for

Throughout an expansion each name is marked once, nothing is unresolved just
where no failure is listed, every failed call is listed, in order, and each of
the other failures stands for a name of its own. A name cannot fail in two
ways: what is wrong with it is decided by the context alone.

Key definitions: `Tells`, `CallsListed`, `Accounts`.
Key theorems: `Run.names_nodup`, `Run.candid`, `Run.told`, `Run.callsListed`,
`Run.accounts`, `expandAll_names`, `failCircular_failures`,
`expandTemplate_runs`.
-/
import Stencil.Proofs.Context.Blame
import Stencil.Proofs.Expansion.Agreement
import Stencil.Proofs.Expansion.Steps

namespace Stencil

open Template Context

namespace Ledger

variable {L : Library} {B : String → Failure → Prop} {l l' : Ledger} {n : String}

/-! ### Each name is marked once -/

theorem names_setFailed (n : String) (status : List (String × Bool)) :
    (setFailed n status).map Prod.fst =
      if n ∈ status.map Prod.fst then status.map Prod.fst else status.map Prod.fst ++ [n] := by
  induction status with
  | nil => rfl
  | cons s r ih =>
    obtain ⟨k, ok⟩ := s
    rw [setFailed]
    by_cases hk : k = n
    · simp [hk]
    · rw [if_neg (by simpa using hk), List.map_cons, ih]
      by_cases hr : n ∈ r.map Prod.fst
      · simp [hr]
      · simp [hr, Ne.symm hk]

theorem nodup_setFailed {status : List (String × Bool)} (h : (status.map Prod.fst).Nodup) :
    ((setFailed n status).map Prod.fst).Nodup := by
  rw [names_setFailed]
  exact ListFacts.nodup_insert h

theorem nodup_setResolved {status : List (String × Bool)} (h : (status.map Prod.fst).Nodup) :
    ((setResolved n status).map Prod.fst).Nodup := by
  have hn := ListFacts.nodup_insert (a := n) h
  rw [setResolved_eq]
  split_ifs at hn ⊢
  · exact hn
  · rwa [List.map_append]

theorem Change.names_nodup (h : Change L B l l') (hn : l.names.Nodup) : l'.names.Nodup := by
  cases h with
  | move => exact hn
  | note => exact hn
  | resolve => exact nodup_setResolved hn
  | spoil => exact nodup_setFailed hn
  | fail n f =>
    unfold Ledger.names
    rw [fail_status]
    exact nodup_setFailed hn
  | called => exact nodup_setResolved hn
  | broken => exact nodup_setFailed hn

theorem Run.names_nodup (h : Run L B l l') (hn : l.names.Nodup) : l'.names.Nodup :=
  h.keeps Change.names_nodup hn

/-! ### Nothing is unresolved without a failure -/

theorem Change.candid {p : Pass} (h : Change L B l l') (hl : p.Candid (fun _ => True) l) :
    p.Candid (fun _ => True) l' := by
  cases h with
  | move c s => exact hl.withSources trivial
  | note e => exact hl.note e
  | resolve n => exact hl.markResolved n
  | spoil n hf => exact .markFailed trivial hf n
  | fail n f => exact hl.fail n f
  | called r => exact (hl.note _).markResolved _
  | broken r f => exact (hl.note _).list _ f

theorem Run.candid {p : Pass} (h : Run L B l l') (hl : p.Candid (fun _ => True) l) :
    p.Candid (fun _ => True) l' :=
  h.keeps Change.candid hl

/-! ### Each failed call is listed -/

/-- An event that tells what the function of a reference made of its arguments. -/
inductive Tells (L : Library) (e : Event) : Prop where
  | ok {r : Reference} {s : Sources} (hn : e.name = r.displayName) (he : e.error = none)
      (ho : L.outcome s r = .ok e.output) : Tells L e
  | failed {r : Reference} {s : Sources} {f : Failure} (hn : e.name = r.displayName)
      (he : e.error = some f.message) (ho : L.outcome s r = .error (.failed f)) : Tells L e

theorem fail_events (l : Ledger) (n : String) (f : Failure) :
    (l.fail n f).recentEvents = l.recentEvents := by
  unfold fail
  split_ifs <;> rfl

theorem Change.told (h : Change L B l l') (hl : ∀ e ∈ l.recentCalls, Tells L e) :
    ∀ e ∈ l'.recentCalls, Tells L e := by
  cases h with
  | note e he => rwa [note_calls he]
  | fail n f =>
    unfold recentCalls
    rwa [fail_events]
  | called r text depth ho =>
    obtain ⟨s, ho⟩ := ho
    exact List.forall_mem_cons.2 ⟨.ok rfl rfl ho, hl⟩
  | broken r f depth ho =>
    obtain ⟨s, ho⟩ := ho
    exact List.forall_mem_cons.2 ⟨.failed rfl rfl ho, hl⟩
  | _ => exact hl

/-- Each call tells what its function made of its arguments. -/
theorem Run.told (h : Run L B l l') (hl : ∀ e ∈ l.recentCalls, Tells L e) :
    ∀ e ∈ l'.recentCalls, Tells L e :=
  h.keeps Change.told hl

/-- The failures of calls are, one for one and in order, those of the calls that failed. -/
def CallsListed (l : Ledger) : Prop :=
  List.Forall₂ (fun f e => Event.error e = some (Failure.message f))
    (l.recentFailures.filter Failure.isCall) (l.recentCalls.filter fun e => e.error.isSome)

theorem fail_calls (l : Ledger) (n : String) {f : Failure} (hf : f.isCall = false) :
    (l.fail n f).recentFailures.filter Failure.isCall = l.recentFailures.filter Failure.isCall := by
  unfold fail
  split_ifs
  · rfl
  · exact List.filter_cons_of_neg (by simp [hf])

theorem Change.callsListed (hB : ∀ n f, B n f → f.isCall = false) (h : Change L B l l')
    (hl : l.CallsListed) : l'.CallsListed := by
  unfold CallsListed at hl ⊢
  cases h with
  | note e he => rwa [note_calls he]
  | fail n f hn =>
    unfold recentCalls
    rwa [fail_calls l n (hB n f hn), fail_events]
  | broken r f depth ho =>
    obtain ⟨s, ho⟩ := ho
    show List.Forall₂ _ ((f :: l.recentFailures).filter Failure.isCall) _
    rw [List.filter_cons_of_pos (Library.outcome_failed ho)]
    exact .cons rfl hl
  | _ => exact hl

theorem Run.callsListed (hB : ∀ n f, B n f → f.isCall = false) (h : Run L B l l')
    (hl : l.CallsListed) : l'.CallsListed :=
  h.keeps (fun hs => hs.callsListed hB) hl

/-! ### Each other failure stands for a name of its own -/

/-- The failures beside those of calls, each with a name that it is granted for. -/
structure Accounts (B : String → Failure → Prop) (account : List (String × Failure)) (l : Ledger) :
    Prop where
  failures : account.map Prod.snd = l.recentFailures.filter fun f => !f.isCall
  names : (account.map Prod.fst).Nodup
  granted : ∀ x ∈ account, B x.1 x.2
  reported : ∀ x ∈ account, (x.2.typeName, x.1) ∈ l.reported

/-- No name is granted failures of two types. -/
def OneWay (B : String → Failure → Prop) : Prop :=
  ∀ n f g, B n f → B n g → f.typeName = g.typeName

theorem Accounts.fail {account : List (String × Failure)} {f : Failure}
    (hB : ∀ n f, B n f → f.isCall = false) (hone : OneWay B) (h : Accounts B account l)
    (hf : B n f) : ∃ account', Accounts B account' (l.fail n f) := by
  unfold Ledger.fail
  split_ifs with hr
  · exact ⟨account, h.failures, h.names, h.granted, h.reported⟩
  · -- another failure of the name would be of the same type, and so reported already
    have hn : n ∉ account.map Prod.fst := by
      intro hn
      obtain ⟨x, hx, rfl⟩ := List.mem_map.1 hn
      have ht := hone x.1 f x.2 hf (h.granted x hx)
      exact hr (List.contains_iff_mem.2 (ht ▸ h.reported x hx))
    refine ⟨(n, f) :: account, ?_, List.nodup_cons.2 ⟨hn, h.names⟩, ?_, ?_⟩
    · show f :: account.map Prod.snd = (f :: l.recentFailures).filter _
      rw [List.filter_cons_of_pos (by simp [hB n f hf]), h.failures]
    · rw [List.forall_mem_cons]
      exact ⟨hf, h.granted⟩
    · rw [List.forall_mem_cons]
      exact ⟨List.mem_cons_self, fun x hx => List.mem_cons_of_mem _ (h.reported x hx)⟩

theorem Change.accounts (hB : ∀ n f, B n f → f.isCall = false) (hone : OneWay B)
    (h : Change L B l l') (hl : ∃ account, Accounts B account l) :
    ∃ account, Accounts B account l' := by
  obtain ⟨account, ha⟩ := hl
  cases h with
  | fail n f hf => exact ha.fail hB hone hf
  | broken r f depth ho =>
    obtain ⟨s, ho⟩ := ho
    refine ⟨account, ?_, ha.names, ha.granted, fun x hx => List.mem_cons_of_mem _ (ha.reported x hx)⟩
    show account.map Prod.snd = (f :: l.recentFailures).filter _
    rw [List.filter_cons_of_neg (by simp [Library.outcome_failed ho]), ha.failures]
  | _ => exact ⟨account, ha.failures, ha.names, ha.granted, ha.reported⟩

theorem Run.accounts (hB : ∀ n f, B n f → f.isCall = false) (hone : OneWay B) (h : Run L B l l')
    (hl : ∃ account, Accounts B account l) : ∃ account, Accounts B account l' :=
  h.keeps (fun hs => hs.accounts hB hone) hl

end Ledger

namespace Pass

open Ledger

variable {p : Pass} {B : String → Failure → Prop} {n : String} {l l' : Ledger}
  {segments : List Segment}

/-- A name fails in one way only. -/
theorem blames_oneWay (c : Context) (roots : List String) (bound : Nat) :
    OneWay (c.Blames roots bound) :=
  fun _ _ _ hf hg => hf.typeName.trans hg.typeName.symm

theorem blames_grants (p : Pass) (roots : List String) (bound : Nat) :
    p.Grants (p.context.Blames roots bound) where
  undefined _ _ hd := .undefined hd
  malformed _ _ _ _ hd hp := .malformed hd hp

theorem expandDefined_tooDeep {depth : Int} {m : String} {inner : List String}
    {expand : String → Ledger → Except Stop Expansion × Ledger}
    (h : (p.expandDefined depth expand n l).1 = .error (.tooDeep m inner)) :
    ∃ d segments, p.context.define? n = .ok (some d) ∧ d.parsed = .ok segments := by
  have hgoes := expandDefined_goes p depth expand n l
  generalize p.expandDefined depth expand n l = a at h hgoes
  cases hgoes with
  | refused => cases h
  | undefined => cases h
  | malformed => cases h
  | value hd hp => exact ⟨_, _, hd, hp⟩

/-- Where the entries of the cache are plain values, a name that is too deep has a value that can be
read. -/
theorem expandVariable_tooDeep {I : Cache → Prop} {left : Nat} {m : String} {inner : List String}
    (hI : p.Upholds I) (hleft : 0 < left) (hl : I l.cache)
    (h : (p.expandVariable left n l).1 = .error (.tooDeep m inner)) :
    p.cycle? n = none ∧ ∃ d segments, p.context.define? n = .ok (some d) ∧
      d.parsed = .ok segments := by
  induction left, n, l using p.expandVariable_induct with
  | circular => cases h
  | bound => cases hleft
  | refused => cases h
  | miss left n l c s hc hf ih => exact ⟨hc, expandDefined_tooDeep h⟩
  | tooDeep left n l e c s hc hf hh =>
    obtain ⟨-, -, d, segments, hd, hp, -⟩ := (hI.found hl hf).2 e rfl
    exact ⟨hc, d, segments, hd, hp⟩
  | hit => cases h

/-! ### Templates -/

theorem expandTop_runs (hB : p.Grants B)
    (hdeep : ∀ m inner, (p.expandVariable p.maxDepth n l).1 = .error (.tooDeep m inner) →
      B n (.tooDeep m inner p.maxDepth)) (hw : p.Warned l) :
    Runs p B l (p.expandTop n l) := by
  have hv := expandVariable_runs hB p.maxDepth n hw
  unfold expandTop
  rcases hx : p.expandVariable p.maxDepth n l with ⟨(⟨m, inner⟩ | r) | x, l'⟩
  · rw [hx] at hv hdeep
    exact .bad (hv.run.tail (.fail l' n _ (hdeep m inner rfl))) ((hw.run hv.run).fail_ne_nil n _)
  · rw [hx] at hv
    exact .error hv.run
  · rw [hx] at hv
    exact ⟨hv.run, fun y hy => by cases hy; exact hv.listed x rfl⟩

theorem expandTop_names {x : Expansion} (hc : (p.cycle? n).isSome = true → n ∈ l.names)
    (h : p.expandTop n l = (.ok x, l')) : n ∈ l'.names := by
  unfold expandTop at h
  split at h
  · rename_i hx
    cases h
    cases hcyc : p.cycle? n with
    | none => exact expandVariable_names hcyc hx
    | some cycle =>
      rw [expandVariable_circular hcyc] at hx
      cases hx
      exact hc (by rw [hcyc]; rfl)
  · cases h
    exact mem_names_fail _ n _
  · cases h

theorem expandCall_names {depth : Int} {r : Reference} {x : Expansion}
    (h : p.expandCall depth r l = (.ok x, l')) : r.displayName ∈ l'.names := by
  have hgoes := expandCall_goes p depth r l
  rw [h] at hgoes
  cases hgoes with
  | called => exact mem_names_markResolved _ _
  | failed => exact mem_names_setFailed.2 (.inr rfl)

theorem expandSegment_names {r : Reference} {x : Expansion}
    (hc : ∀ n, (p.cycle? n).isSome = true → n ∈ l.names)
    (h : p.expandSegment 0 id p.expandTop (.reference r) l = (.ok x, l')) :
    r.displayName ∈ l'.names := by
  cases hr : r.isCall with
  | false =>
    have hname : r.displayName = r.name := by
      unfold Reference.displayName
      rw [hr]
      rfl
    rw [expandSegment_variable hr] at h
    rw [hname]
    exact expandTop_names (hc r.name) h
  | true =>
    simp only [expandSegment, hr, if_true] at h
    rcases hx : p.expandCall 0 r l with ⟨e | y, l₁⟩
    · rw [hx] at h
      cases h
    · rw [hx] at h
      cases h
      exact expandCall_names hx

/-- Every reference of a template that has an expansion is marked. -/
theorem expandAll_names {x : Expansion} (hw : p.Warned l)
    (hc : ∀ n, (p.cycle? n).isSome = true → n ∈ l.names)
    (h : p.expandAll 0 id p.expandTop segments l = (.ok x, l')) :
    ∀ r, .reference r ∈ segments → r.displayName ∈ l'.names := by
  have hB : p.Grants fun _ _ => True := ⟨fun _ _ _ => trivial, fun _ _ _ _ _ _ => trivial⟩
  have htop : ∀ n l, p.Warned l → Runs p (fun _ _ => True) l (p.expandTop n l) :=
    fun n l hw => expandTop_runs hB (fun _ _ _ => trivial) hw
  induction segments generalizing l x with
  | nil => exact fun r hr => absurd hr List.not_mem_nil
  | cons s rest ih =>
    have hs : Runs p (fun _ _ => True) l (p.expandSegment 0 id p.expandTop s l) :=
      expandSegment_runs 0 id fun r _ _ => htop r.name l hw
    rcases ha : p.expandSegment 0 id p.expandTop s l with ⟨e | a, l₁⟩
    · rw [expandAll_head ha] at h
      cases h
    rw [ha] at hs
    have hw₁ := hw.run hs.run
    have hrest := expandAll_runs (I := fun _ => True) (p := p) 0 id rest
      (fun r l _ _ hw _ => htop r.name l hw) (fun _ _ _ => trivial) hw₁ trivial
    rcases hb : p.expandAll 0 id p.expandTop rest l₁ with ⟨e | b, l₂⟩
    · rw [expandAll_tail ha hb] at h
      cases h
    rw [hb] at hrest
    rw [expandAll_ok ha hb] at h
    cases h
    intro r hr
    rcases List.mem_cons.1 hr with rfl | hr
    · exact hrest.run.names (expandSegment_names hc ha)
    · exact ih hw₁ (fun n hn => hs.run.names (hc n hn)) hb r hr

/-! ### The circular names -/

/-- Listing the circular names does nothing else to the ledger. -/
theorem failCircular_run (p : Pass) (cycles : List (String × List String)) (l : Ledger)
    (hB : ∀ c ∈ cycles, B c.1 (.circular c.1 c.2)) :
    Run p.library B l ((p.listing cycles).failCircular l) := by
  induction cycles generalizing l with
  | nil => exact .refl
  | cons c cycles ih =>
    rw [failCircular_cons]
    exact .head (.fail l c.1 _ (hB c List.mem_cons_self))
      (ih _ fun c hc => hB c (List.mem_cons_of_mem _ hc))

/-- Each circular name is listed, if it stands once among them and has not been reported. -/
theorem failCircular_failures (p : Pass) {cycles : List (String × List String)}
    (hn : (cycles.map Prod.fst).Nodup) (hr : ∀ c ∈ cycles, ∀ t, (t, c.1) ∉ l.reported) :
    ((p.listing cycles).failCircular l).recentFailures =
      (cycles.map fun c => Failure.circular c.1 c.2).reverse ++ l.recentFailures := by
  induction cycles generalizing l with
  | nil => rfl
  | cons c cycles ih =>
    obtain ⟨hc, hcs⟩ := List.nodup_cons.1 hn
    have hl : l.fail c.1 (.circular c.1 c.2) = l.list c.1 (.circular c.1 c.2) :=
      if_neg fun h => hr c List.mem_cons_self _ (List.contains_iff_mem.1 h)
    have hr' : ∀ c' ∈ cycles, ∀ t, (t, c'.1) ∉ (l.list c.1 (.circular c.1 c.2)).reported := by
      intro c' hc' t ht
      rcases List.mem_cons.1 ht with ht | ht
      · exact hc ((Prod.mk.inj ht).2 ▸ List.mem_map_of_mem hc')
      · exact hr c' (List.mem_cons_of_mem _ hc') t ht
    rw [failCircular_cons, hl, ih hcs hr', List.map_cons, List.reverse_cons, List.append_assoc]
    rfl

theorem Candid.warned {T : Sources → Prop} (h : p.Candid T l) : p.Warned l :=
  ⟨fun hc hf => hc (h.tidy hf).2.1, fun hf => (h.tidy hf).1⟩

/-- **Once the circular names are listed, a pass does nothing to its ledger but what `B` grants**,
where `I` is what each expansion keeps of the cache. -/
theorem expandTemplate_runs {I : Cache → Prop} (hB : p.Grants B)
    (hI : ∀ n l, I l.cache → I (p.expandTop n l).2.cache)
    (hdeep : ∀ n l m inner, n ∈ variableNames segments → I l.cache →
      (p.expandVariable p.maxDepth n l).1 = .error (.tooDeep m inner) →
        B n (.tooDeep m inner p.maxDepth))
    (hw : p.Warned (p.failCircular l)) (hl : I l.cache) :
    Runs p B (p.failCircular l) (p.expandTemplate segments l) := by
  refine expandAll_runs 0 id segments (fun r l' hr hc hw hl => ?_) hI hw
    ((failCircular_cache p l).symm ▸ hl)
  exact expandTop_runs hB
    (fun m inner => hdeep _ l' m inner (mem_variableNames.2 ⟨r, hr, hc, rfl⟩) hl) hw

end Pass
end Stencil
