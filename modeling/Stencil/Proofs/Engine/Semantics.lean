/-
# What calls answer

A call made with an empty cache, and with functions whose values depend on
their arguments only, answers with what the template means. A malformed
template stands for itself, and its first fault is listed. Otherwise nothing is
listed as failed just where all names reached from the template are faultless,
all calls succeed, and no variable of the template is too deep.

There is no answer at all just where an integer of too many digits is met,
which should have failed as a single reference does.

Key definitions: `Declines`, `Answer`.
Key theorem: `resolve_answer`.
-/
import Stencil.Proofs.Engine.Transparency
import Stencil.Proofs.Expansion.Meaning

namespace Stencil

open Template

/-- An integer that has too many digits to be read or to be written. -/
def Refusal.IsOfDigits (r : Refusal) : Prop := TooLong r ∨ r = .unwritable

namespace Context

/-- The template, or a value that is reached from it, cannot be read, or a call that is refused is
met. -/
def Declines (c : Context) (out : Reference → Except CallStop String) (m : Nat)
    (template : String) : Prop :=
  (∃ r, Template.parse template = .error r) ∨
    ∃ segments, Template.parse template = .ok (.ok segments) ∧
      ((∃ n, c.Reached (variableNames segments) n ∧ ∃ r, c.define? n = .error r) ∨
        ∃ s ∈ segments, c.Refuses out m [s])

/-- What a call has to come to: a trace that tells what the template means, and whether anything is
at fault, unless the template is declined. -/
inductive Answer (c : Context) (out : Reference → Except CallStop String) (m : Nat)
    (template : String) : Except Refusal Trace → Prop where
  | declined {r : Refusal} (hd : c.Declines out m template) (hr : r.IsOfDigits) :
      Answer c out m template (.error r)
  | malformed {f : Template.Fault} {t : Trace} (hp : Template.parse template = .ok (.error f))
      (hv : t.value = template) (hs : t.steps = []) (hf : t.failures = [.ofFault f]) :
      Answer c out m template (.ok t)
  | expanded {segments : List Segment} {t : Trace}
      (hp : Template.parse template = .ok (.ok segments)) (hd : ¬ c.Declines out m template)
      (hv : ∀ v, c.TemplateMeans out m segments v ↔ v = t.value)
      (hs : t.isSuccess = true ↔
        ∀ s ∈ segments, c.FaultlessSegment out s ∧ ¬ c.IsDeep m s) :
      Answer c out m template (.ok t)

end Context

namespace Engine

open Context Pass

variable {e : Engine} {c : Context} {graph : Graph} {template : String}
  {segments : List Segment} {out : Reference → Except CallStop String}

/-- The pass of a call knows what the template refers to. -/
theorem pass_knows (hg : Graph.ofContext c (variableNames segments) = .ok graph) {r : Reference}
    (hr : .reference r ∈ segments) (hc : r.isCall = false) :
    (e.pass c graph.cycles).Knows r.name := by
  intro m hm
  have hreach : c.Reached (variableNames segments) m :=
    ⟨r.name, mem_variableNames.2 ⟨r, hr, hc, rfl⟩, hm⟩
  exact ⟨(pass_circular hg).trans (and_iff_right hreach),
    (Graph.ofContext_depicts hg).defined m hreach⟩

/-- Where all that a template refers to is faultless there is no circular name. -/
theorem circular_eq_nil (hg : Graph.ofContext c (variableNames segments) = .ok graph)
    (hs : ∀ s ∈ segments, c.FaultlessSegment out s) :
    (e.pass c graph.cycles).circular = [] := by
  refine List.eq_nil_iff_forall_not_mem.2 fun x hx => ?_
  obtain ⟨⟨k, hk, hreach⟩, hcycle⟩ :=
    (pass_circular hg).1 (Pass.cycle?_isSome.2 (List.mem_map_of_mem hx))
  obtain ⟨r, hr, hc, rfl⟩ := mem_variableNames.1 hk
  obtain ⟨inner, ho, -⟩ := (hs _ hr r rfl).2 hc _ hreach
  exact ho.1 hcycle

/-- The expansion of a well-formed template by a call that keeps nothing. -/
theorem expandTemplate_ready (hout : e.library.Gives out)
    (hg : Graph.ofContext c (variableNames segments) = .ok graph) :
    TemplateAnswer (e.pass c graph.cycles) out segments
        ((e.pass c graph.cycles).failCircular e.bare.ledger)
        ((e.pass c graph.cycles).expandTemplate segments e.bare.ledger) ∧
      (((e.pass c graph.cycles).failCircular e.bare.ledger).recentFailures = [] ↔
        (e.pass c graph.cycles).circular = []) := by
  obtain ⟨hl, hf⟩ := failCircular_ready (p := e.pass c graph.cycles) (l := e.bare.ledger)
    Cache.isIdle_ofCapacity rfl rfl
  exact ⟨expandTemplate_answer hout (fun r hr hc => pass_knows hg hr hc) hl, hf⟩

theorem close_failures {r : Recorder} {l : Ledger} {x : Recorder.Ending} (hr : r.failures = [])
    (hx : x.failures = []) : ((replay r l).close x).1.failures = l.failures := by
  show (replay r l).failures ++ x.failures = _
  rw [hx, List.append_nil, replay_failures, hr, List.nil_append]

theorem isSuccess_close {r : Recorder} {l : Ledger} {x : Recorder.Ending} (hr : r.failures = [])
    (hx : x.failures = []) :
    ((replay r l).close x).1.isSuccess = true ↔ l.recentFailures = [] := by
  unfold Trace.isSuccess
  rw [close_failures hr hx, List.isEmpty_iff, Ledger.failures, List.reverse_eq_nil_iff]

theorem failures_nil_iff {U : Context → Prop} {p : Pass} {isFresh : Prop} {l l₀ : Ledger}
    (h : Agrees U p isFresh l l₀) : l.recentFailures = [] ↔ l₀.recentFailures = [] := by
  rw [← List.map_eq_nil_iff (f := Failure.outline), h.failures, List.map_eq_nil_iff]

/-- The call for a well-formed template whose names can all be looked up. -/
theorem expand_answer (hp : e.library.IsPure) (hl : e.library.IsSteady) (hs : e.sources.IsSteady)
    (hf : e.IsFresh) (ht : c.HasTexts) (hparse : Template.parse template = .ok (.ok segments))
    (hg : Graph.ofContext c (variableNames segments) = .ok graph) {r : Recorder}
    (hr : r.failures = []) :
    c.Answer (e.library.outcome e.sources) e.maxDepth template (e.expand c segments r).1 := by
  have hout := hp.gives e.sources
  have hsim := expandTemplate_fresh hl hs hf ht hparse hg
  -- what the call expands to is known of the cache that keeps nothing, and both agree
  obtain ⟨ha, hcirc⟩ := expandTemplate_ready hout hg
  generalize hx : (e.pass c graph.cycles).expandTemplate segments e.ledger = a at hsim
  generalize (e.pass c graph.cycles).expandTemplate segments e.bare.ledger = a₀ at hsim ha
  cases hsim with
  | error he h =>
    cases he
    cases ha with
    | refused hr' he =>
      obtain ⟨q, hq⟩ := he
      rw [expand_error hg hx]
      exact .declined (.inr ⟨segments, hparse, .inr hr'⟩) (.inr (Library.outcome_refused hq))
  | ok h =>
    cases ha with
    | ok hr' hm _ hfail =>
      rw [expand_ok hg hx]
      refine .expanded hparse ?_ (fun v => ⟨fun hv => hv.unique hm, fun hv => hv ▸ hm⟩) ?_
      · rintro (⟨r, hr⟩ | ⟨inner, hi, h⟩)
        · rw [hparse] at hr
          cases hr
        · rw [hparse] at hi
          cases hi
          rcases h with ⟨n, hn, r, hd⟩ | h
          · obtain ⟨d?, hd'⟩ := (Graph.ofContext_depicts hg).defined n hn
            rw [hd'] at hd
            cases hd
          · exact hr' h
      · rw [isSuccess_close hr rfl, failures_nil_iff h, hfail, hcirc]
        exact ⟨And.right, fun h => ⟨circular_eq_nil hg fun s hs => (h s hs).1, h⟩⟩

/-- **A call made with an empty cache tells what the template means, unless an integer has too many
digits.** -/
theorem resolve_answer (hp : e.library.IsPure) (hl : e.library.IsSteady)
    (hs : e.sources.IsSteady) (hf : e.IsFresh) (ht : c.HasTexts) (template : String)
    (stamp : Stamp) :
    c.Answer (e.library.outcome e.sources) e.maxDepth template
      (e.resolve c template stamp).1 := by
  cases resolve_goes c template with
  | overlong hparse =>
    rw [resolve_overlong hparse]
    exact .declined (.inl ⟨_, hparse⟩) (.inl (parse_refused hparse))
  | malformed hparse =>
    rw [resolve_malformed hparse]
    exact .malformed hparse rfl rfl rfl
  | unread hparse hg =>
    obtain ⟨n, hn, hd⟩ := Graph.ofContext_error hg
    rw [resolve_parsed hparse, expand_unread hg]
    exact .declined (.inr ⟨_, hparse, .inl ⟨n, hn, _, hd⟩⟩) (.inl (define?_tooLong ht hd))
  | expanded hparse hg =>
    rw [resolve_parsed hparse]
    exact expand_answer hp hl hs hf ht hparse hg rfl

/-- A call with a function that always gives the same, a variable that refers to another, and a
name that no scope defines. -/
theorem answer_greeting :
    let c : Context := { global := [
      { name := "host", value := .text "api.$\x7bdomain\x7d" },
      { name := "domain", value := .text "example.org" }] }
    let greet : Function := { name := "greet", run := fun _ s => (.ok (.text "hello"), s) }
    let e : Engine := {
      cache := some { capacity := .int 1, lifetime := some (.int 60) }
      library := ⟨[greet]⟩
      sources := .preview
      maxDepth := 2
      maxDepth_pos := by decide }
    c.Answer (e.library.outcome e.sources) e.maxDepth "$\x7bgreet()\x7d $\x7bhost\x7d $\x7bport\x7d"
      (e.resolve c "$\x7bgreet()\x7d $\x7bhost\x7d $\x7bport\x7d").1 := by
  intro c greet e
  have hp : e.library.IsPure := by
    intro f hf arguments s s'
    obtain rfl := List.mem_singleton.1 hf
    rfl
  have hl : e.library.IsSteady := by
    intro f hf arguments s hs
    obtain rfl := List.mem_singleton.1 hf
    exact hs
  have hf : e.IsFresh := by
    intro cache hc
    cases hc
    rfl
  have ht : c.HasTexts := by decide
  exact resolve_answer hp hl preview_isSteady hf ht _ _

end Engine
end Stencil
