/-
# Calls that have an answer

Whatever functions do, and whatever the cache holds, a call answers with a
trace that lists what failed. There are two exceptions, both of which should
have been failures of single references: an integer literal of too many digits
in the template or in a value that is reached from it, and a call whose result
has too many digits to be written.

Key definitions: `Context.IsOverlong`, `Context.Calls`, `Captured`.
Key theorem: `resolve_captured`.
-/
import Stencil.Proofs.Engine.Semantics
import Stencil.Proofs.Expansion.Capture

namespace Stencil

open Template

namespace Context

/-- The template, or a value that it refers to, directly or through others, has an integer literal
that cannot be read. -/
def IsOverlong (c : Context) (template : String) : Prop :=
  (∃ r, Template.parse template = .error r) ∨
    ∃ segments n r, Template.parse template = .ok (.ok segments) ∧
      c.Reached (variableNames segments) n ∧ c.define? n = .error r

/-- A call in a template, or in a value that is expanded below it. -/
def Calls (c : Context) (segments : List Segment) (q : Reference) : Prop :=
  q.isCall = true ∧ (.reference q ∈ segments ∨
    ∃ n inner, c.Reached (variableNames segments) n ∧ c.Opens n inner ∧ .reference q ∈ inner)

end Context

/-- What a call comes to: a trace, unless a number has too many digits to be read or written. The
trace lists a failure if the template is malformed or anything in it is unresolved. -/
inductive Captured (c : Context) (library : Library) (template : String) :
    Except Refusal Trace → Prop where
  | trace {t : Trace} (ho : ¬ c.IsOverlong template)
      (hf : (∃ f, Template.parse template = .ok (.error f)) ∨ t.unresolved ≠ [] →
        t.failures ≠ []) : Captured c library template (.ok t)
  | overlong {r : Refusal} (ho : c.IsOverlong template) (hr : TooLong r) :
      Captured c library template (.error r)
  | unwritable {segments : List Segment} {q : Reference} (ho : ¬ c.IsOverlong template)
      (hp : Template.parse template = .ok (.ok segments)) (hq : c.Calls segments q)
      (hu : library.Unwritable q) : Captured c library template (.error .unwritable)

namespace Engine

open Context Pass

variable {e : Engine} {c : Context} {graph : Graph} {template : String}
  {segments : List Segment}

/-- The pass of a call sees the calls of the template and of the values below it only. -/
theorem pass_sees (hg : Graph.ofContext c (variableNames segments) = .ok graph) {r : Reference}
    (hr : .reference r ∈ segments) (hc : r.isCall = false) :
    (e.pass c graph.cycles).Sees (c.Calls segments) r.name := by
  refine ⟨pass_knows hg hr hc, fun m inner q hm ho hq hcall => ⟨hcall, .inr ⟨m, inner, ?_, ho, hq⟩⟩⟩
  exact ⟨r.name, mem_variableNames.2 ⟨r, hr, hc, rfl⟩, hm⟩

theorem not_isOverlong (hp : Template.parse template = .ok (.ok segments))
    (hg : Graph.ofContext c (variableNames segments) = .ok graph) :
    ¬ c.IsOverlong template := by
  rintro (⟨r, hr⟩ | ⟨inner, n, r, hi, hn, hd⟩)
  · rw [hp] at hr
    cases hr
  · rw [hp] at hi
    cases hi
    obtain ⟨d?, hd'⟩ := (Graph.ofContext_depicts hg).defined n hn
    rw [hd'] at hd
    cases hd

/-- The call for a well-formed template whose names can all be looked up. -/
theorem expand_captured (hs : e.sources.HasTime) (hl : e.library.Keeps Sources.HasTime)
    (hp : Template.parse template = .ok (.ok segments))
    (hg : Graph.ofContext c (variableNames segments) = .ok graph) {r : Recorder}
    (hr : r.failures = []) : Captured c e.library template (e.expand c segments r).1 := by
  have hstart : (e.pass c graph.cycles).Candid Sources.HasTime
      ((e.pass c graph.cycles).failCircular e.ledger) :=
    failCircular_candid hs rfl rfl rfl
  have ha := expandTemplate_caught (p := e.pass c graph.cycles) (M := c.Calls segments)
    hasTime_isReadable hl (fun q hq hcall => ⟨⟨hcall, .inl hq⟩, parse_arguments hp hq⟩)
    (fun q hq hcall => pass_sees hg hq hcall) hstart
  generalize hx : (e.pass c graph.cycles).expandTemplate segments e.ledger = a at ha
  cases ha with
  | error hl' he =>
    obtain ⟨rfl, q, hq, hu⟩ := he
    rw [expand_error hg hx]
    exact .unwritable (not_isOverlong hp hg) hp hq hu
  | @ok x l' hl' _ _ =>
    rw [expand_ok hg hx]
    refine .trace (not_isOverlong hp hg) ?_
    rintro (⟨f, hf⟩ | hu) hnil
    · rw [hp] at hf
      cases hf
    · rw [close_failures hr rfl, Ledger.failures, List.reverse_eq_nil_iff] at hnil
      exact hu (hl'.failures_eq_nil.1 hnil)

end Engine
end Stencil
