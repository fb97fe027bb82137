/-
# What may be wrong with a name

A name on a reference cycle, one that no scope defines, one whose value is
malformed, and one from which too long a chain of references starts are listed
as failed, each in its own way. Which way that is the context alone decides,
wherever the name is met (`Blames.typeName`).

Key definitions: `RefersAmong`, `Blames`, `failureType`.
Key theorem: `Blames.typeName`.
-/
import Stencil.Proofs.Context.Meaning
import Stencil.Proofs.Function
import Stencil.Proofs.Graph.Cycle

namespace Stencil

open Template

namespace Context

/-- The references among the names that are reached from some roots. -/
def RefersAmong (c : Context) (roots : List String) (a b : String) : Prop :=
  c.Reached roots a ∧ c.Refers a b

/-- What may be listed of a name: a cycle of references that it lies on, that no scope defines it,
what is malformed in its value, or, for one of the `roots` whose value can be read, that it is too
deep for the bound. -/
inductive Blames (c : Context) (roots : List String) (bound : Nat) : String → Failure → Prop where
  | circular {n : String} {cycle : List String} (hn : n ∈ cycle)
      (hc : Graph.IsCycle (c.RefersAmong roots) cycle) : Blames c roots bound n (.circular n cycle)
  | undefined {n : String} (hd : c.define? n = .ok none) : Blames c roots bound n (.undefined n)
  | malformed {n : String} {d : Definition} {f : Template.Fault}
      (hd : c.define? n = .ok (some d)) (hp : d.parsed = .error f) :
      Blames c roots bound n (.ofFault f)
  | tooDeep {n : String} {inner : List String} {segments : List Segment} (hn : n ∈ roots)
      (ho : c.Opens n segments) : Blames c roots bound n (.tooDeep n inner bound)

/-- The type of the failures that may be listed of a name. -/
noncomputable def failureType (c : Context) (n : String) : String :=
  open scoped Classical in
  if c.OnCycle n then "CircularDependencyError"
  else
    match c.define? n with
    | .ok (some ⟨_, _, _, .ok _⟩) => "DepthExceededError"
    | .ok (some ⟨_, _, _, .error _⟩) => "TemplateSyntaxError"
    | _ => "UndefinedVariableError"

variable {c : Context} {roots : List String} {bound : Nat} {n : String} {f : Failure}

theorem Blames.not_isCall (h : c.Blames roots bound n f) : f.isCall = false := by
  cases h <;> rfl

theorem reached_of_cycle {cycle : List String} (hn : n ∈ cycle)
    (hc : Graph.IsCycle (c.RefersAmong roots) cycle) : c.Reached roots n ∧ c.OnCycle n := by
  have ht := hc.transGen hn
  obtain ⟨m, hm, -⟩ := Relation.TransGen.head'_iff.1 ht
  exact ⟨hm.1, Relation.TransGen.mono (fun _ _ h => h.2) _ _ ht⟩

/-- A name on a reference cycle has a value that can be read. -/
theorem OnCycle.readable (h : c.OnCycle n) :
    ∃ d segments, c.define? n = .ok (some d) ∧ d.parsed = .ok segments := by
  obtain ⟨m, ⟨d, hd, hm⟩, -⟩ := Relation.TransGen.head'_iff.1 h
  cases hp : d.parsed with
  | error f =>
    rw [Definition.references, hp] at hm
    exact absurd hm List.not_mem_nil
  | ok segments => exact ⟨d, segments, hd, hp⟩

theorem Blames.typeName (h : c.Blames roots bound n f) : f.typeName = c.failureType n := by
  have hread : ∀ {d? : Option Definition}, c.define? n = .ok d? →
      (∀ d segments, d? = some d → d.parsed ≠ .ok segments) → ¬ c.OnCycle n := by
    intro d? hd hne ho
    obtain ⟨d, segments, hd', hp⟩ := ho.readable
    rw [hd] at hd'
    exact hne d segments (Except.ok.inj hd') hp
  unfold failureType
  cases h with
  | circular hn hc => rw [if_pos (reached_of_cycle hn hc).2]; rfl
  | undefined hd => rw [if_neg (hread hd (by simp)), hd]; rfl
  | @malformed d f hd hp =>
    have hne : ¬ c.OnCycle n := hread hd fun d' segments he => by cases he; simp [hp]
    obtain ⟨scope, winner, text, parsed⟩ := d
    obtain rfl : parsed = _ := hp
    rw [if_neg hne, hd]
    rfl
  | tooDeep _ ho =>
    obtain ⟨hne, ⟨scope, winner, text, parsed⟩, hd, hp⟩ := ho
    obtain rfl : parsed = _ := hp
    rw [if_neg hne, hd]
    rfl

end Context
end Stencil
