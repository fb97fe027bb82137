/-
# The names that errors are told of

An error is told of a name that has failed, with two exceptions. What is stopped at
the bound is told of the name met there, which may be expanded elsewhere. And a
failure may name another than the one it is listed for: a malformed value the name
that stands in the malformed text, and a function that declines the function on
whose behalf it does so (`Misnames`).

Key definitions: `Misnames`, `Warrants`, `Attributes`, `Told`.
Key theorems: `Move.grows`, `Move.told`, `expandTemplate_told`,
`Told.error_of_resolved`.
-/
import Stencil.Proofs.Expansion.Markers
import Stencil.Proofs.Expansion.Moves
import Stencil.Tree

namespace Stencil
namespace Pass

open Ledger

/-- A failure that names `n`, though it is one of a name or a call that is among the failed ones. -/
inductive Misnames (c : Context) (L : Library) (failed : List String) (n : String) :
    Failure → Prop where
  /-- The value that `m` means is malformed. -/
  | malformed {m : String} {d : Definition} {fault : Template.Fault} (hm : m ∈ failed)
      (hd : c.define? m = .ok (some d)) (hp : d.parsed = .error fault) (hn : fault.name = some n) :
      Misnames c L failed n (.ofFault fault)
  /-- The function of a call declined in the name of `function`. -/
  | declined {r : Reference} {s : Sources} {function reason : String} (hc : r.isCall = true)
      (hr : r.displayName ∈ failed)
      (ho : L.outcome s r = .error (.failed (.call function reason)))
      (hn : Reference.callName function = n) : Misnames c L failed n (.call function reason)

/-- If the event tells an error of a name, the name has failed or is circular, or it is stopped at
the bound. -/
def Warrants (p : Pass) (l : Ledger) (x : Event) : Prop :=
  Tree.isAboutName x.kind = true →
    x.error = none ∨ x.error = some p.boundMessage ∨ x.name ∈ l.unresolved ∨
      (p.cycle? x.name).isSome = true

/-- The name that the failure tells has failed, or it is named wrongly. -/
def Attributes (p : Pass) (l : Ledger) (f : Failure) : Prop :=
  ∀ n, Tree.failedName? f = some n →
    n ∈ l.unresolved ∨ Misnames p.context p.library l.unresolved n f

/-- What a ledger lists tells errors of names that have failed, with those exceptions. -/
structure Told (p : Pass) (l : Ledger) : Prop where
  events : ∀ x ∈ l.recentEvents, p.Warrants l x
  failures : ∀ f ∈ l.recentFailures, p.Attributes l f

variable {p : Pass} {N : String → Prop} {K : Reference → Prop} {l l' : Ledger} {n : String}
  {x : Event} {f g : Failure} {segments : List Segment}

/-- A move takes back nothing. -/
theorem Move.grows (h : p.Move N K l l') : l.Grows l' := by
  cases h with
  | shift c s => exact .with_cache l c s
  | list c => exact .fail l c.1 _
  | undefined n => exact (Grows.note l _).trans (.fail _ n _)
  | malformed n => exact (Grows.note l _).trans (.fail _ n _)
  | resolve n => exact .markResolved l n
  | spoil n => exact .markFailed l n
  | tooDeep n => exact .fail l n _
  | called => exact (Grows.note l _).trans (.markResolved _ _)
  | broken => exact (Grows.note l _).trans (.list _ _ _)
  | _ => exact .note l _

theorem unresolved_subset (h : l.Grows l') : l.unresolved ⊆ l'.unresolved :=
  fun n hn => mem_unresolved.2 (h.failed n (mem_unresolved.1 hn))

theorem Misnames.mono {c : Context} {L : Library} {failed failed' : List String}
    (h : Misnames c L failed n f) (hf : failed ⊆ failed') : Misnames c L failed' n f := by
  cases h with
  | malformed hm hd hp hn => exact .malformed (hf hm) hd hp hn
  | declined hc hr ho hn => exact .declined hc (hf hr) ho hn

theorem Warrants.grow (h : p.Warrants l x) (hg : l.Grows l') : p.Warrants l' x := fun hk =>
  (h hk).imp_right (.imp_right (.imp_left fun hn => unresolved_subset hg hn))

theorem Attributes.grow (h : p.Attributes l f) (hg : l.Grows l') : p.Attributes l' f := fun n hn =>
  (h n hn).imp (fun hm => unresolved_subset hg hm) fun hm => hm.mono (unresolved_subset hg)

theorem mem_unresolved_fail (l : Ledger) (n : String) (f : Failure) :
    n ∈ (l.fail n f).unresolved := mem_unresolved.2 (mem_status_fail l n f)

theorem mem_failures_fail (hm : g ∈ (l.fail n f).recentFailures) :
    g = f ∨ g ∈ l.recentFailures := by
  unfold Ledger.fail at hm
  split_ifs at hm
  · exact .inr hm
  · exact List.mem_cons.1 hm

namespace Told

/-- What was listed before stays as it is; the rest is up to what is new. -/
theorem grow (h : p.Told l) (hg : l.Grows l')
    (he : ∀ x ∈ l'.recentEvents, x ∈ l.recentEvents ∨ p.Warrants l' x)
    (hf : ∀ f ∈ l'.recentFailures, f ∈ l.recentFailures ∨ p.Attributes l' f) : p.Told l' where
  events x hx := (he x hx).elim (fun hm => (h.events x hm).grow hg) id
  failures f hm := (hf f hm).elim (fun hm => (h.failures f hm).grow hg) id

/-- An event is noted. -/
theorem note (h : p.Told l) (hx : p.Warrants (l.note x) x) : p.Told (l.note x) :=
  h.grow (.note l x) (fun _ hy => (List.mem_cons.1 hy).elim (fun he => .inr (he ▸ hx)) .inl)
    fun _ hf => .inl hf

/-- A failure is listed. -/
theorem fail (h : p.Told l) (hf : p.Attributes (l.fail n f) f) : p.Told (l.fail n f) :=
  h.grow (.fail l n f) (fun _ hx => .inl (fail_events l n f ▸ hx))
    fun _ hg => (mem_failures_fail hg).elim (fun he => .inr (he ▸ hf)) .inl

/-- An event tells that its name fails, and a failure is listed for it. -/
theorem noteFail (h : p.Told l) (n : String) (hn : x.name = n)
    (hf : p.Attributes ((l.note x).fail n f) f) : p.Told ((l.note x).fail n f) := by
  have hx : p.Warrants ((l.note x).fail n f) x :=
    fun _ => .inr (.inr (.inl (hn ▸ mem_unresolved_fail (l.note x) n f)))
  refine h.grow ((Grows.note l x).trans (.fail _ n f)) (fun y hy => ?_) fun g hg => ?_
  · rw [fail_events] at hy
    exact (List.mem_cons.1 hy).elim (fun he => .inr (he ▸ hx)) .inl
  · exact (mem_failures_fail hg).elim (fun he => .inr (he ▸ hf)) .inl

end Told

/-- A failure that names the one it is listed for. -/
theorem attributes_self (h : Tree.failedName? f = some n) (hn : n ∈ l.unresolved) :
    p.Attributes l f := fun _ hm => .inl (Option.some.inj (h.symm.trans hm) ▸ hn)

/-- A call that fails does so as a call, whatever function it names. -/
theorem attributes_call {r : Reference} {s : Sources} (hc : r.isCall = true)
    (ho : p.library.outcome s r = .error (.failed f)) (hr : r.displayName ∈ l.unresolved) :
    p.Attributes l f := by
  have hcall := Library.outcome_failed ho
  cases f with
  | call function reason => exact fun n hn => .inr (.declined hc hr ho (Option.some.inj hn))
  | _ => cases hcall

/-- **A move tells errors of names that have failed**, or at the bound, or names another. -/
theorem Move.told (h : p.Move N K l l') (hl : p.Told l) : p.Told l' := by
  have hg := h.grows
  cases h with
  | shift c s => exact ⟨hl.events, hl.failures⟩
  | list c => exact hl.fail (attributes_self rfl (mem_unresolved_fail l c.1 _))
  | circular n cycle depth hn hc =>
    have hsome : (p.cycle? n).isSome = true := by
      rw [hc]
      rfl
    exact hl.note fun _ => .inr (.inr (.inr hsome))
  | bound n depth => exact hl.note fun _ => .inr (.inl rfl)
  | miss n depth => exact hl.note fun hk => (Bool.false_ne_true hk).elim
  | hit n e b depth =>
    refine hl.note fun _ => ?_
    cases b with
    | false => exact .inl rfl
    | true => exact .inr (.inl rfl)
  | undefined n depth => exact hl.noteFail n rfl (attributes_self rfl (mem_unresolved_fail _ n _))
  | malformed n d f depth hn hd hp =>
    refine hl.noteFail n rfl fun m hm => .inr ?_
    exact .malformed (mem_unresolved_fail _ n _) hd hp hm
  | lookup => exact hl.note fun _ => .inl rfl
  | nested => exact hl.note fun hk => (Bool.false_ne_true hk).elim
  | resolve => exact hl.grow hg (fun x hx => .inl hx) fun f hf => .inl hf
  | spoil => exact hl.grow hg (fun x hx => .inl hx) fun f hf => .inl hf
  | tooDeep n inner => exact hl.fail (attributes_self rfl (mem_unresolved_fail l n _))
  | called r text depth =>
    refine hl.grow hg (fun x hx => ?_) fun f hf => .inl hf
    rcases List.mem_cons.1 hx with rfl | hx
    · exact .inr fun _ => .inl rfl
    · exact .inl hx
  | broken r f depth hr hc ho =>
    obtain ⟨s, ho⟩ := ho
    have hfailed : r.displayName ∈ ((l.note (callEvent r (Marker.marker r.displayName)
        (some f.message) depth)).list r.displayName f).unresolved :=
      mem_unresolved.2 (mem_setFailed_iff.2 (.inr rfl))
    refine hl.grow hg (fun x hx => ?_) fun g hf => ?_
    · rcases List.mem_cons.1 hx with rfl | hx
      · exact .inr fun _ => .inr (.inr (.inl hfailed))
      · exact .inl hx
    · rcases List.mem_cons.1 hf with rfl | hf
      · exact .inr (attributes_call hc ho hfailed)
      · exact .inl hf

/-- **Expanding a template tells errors of names that have failed**, or at the bound, or names
another. -/
theorem expandTemplate_told (p : Pass) (segments : List Segment) (h : p.Told l) :
    p.Told (p.expandTemplate segments l).2 := by
  have hmeet : ∀ segments, Segment.Meet (fun _ => True) (fun _ => True) segments := by
    intro segments r _
    unfold Reference.Meets
    split_ifs <;> trivial
  exact (expandTemplate_moves (fun _ _ segments _ _ _ => hmeet segments) (hmeet segments) l).keeps
    (fun hm hl => hm.told hl) h

/-- Where the circular names have failed, of a name that has not no other error is told than the
one at the bound. -/
theorem Told.error_of_resolved (h : p.Told l) (hp : p.Posted l) (hn : n ∉ l.unresolved) {x : Event}
    (hx : x ∈ l.recentEvents) (hk : Tree.isAboutName x.kind = true) (hname : x.name = n) :
    x.error = none ∨ x.error = some p.boundMessage := by
  rcases h.events x hx hk with he | he | hf | hc
  · exact .inl he
  · exact .inr he
  · exact absurd (hname ▸ hf) hn
  · exact absurd (mem_unresolved.2 (hp n (hname ▸ hc))) hn

end Pass
end Stencil
