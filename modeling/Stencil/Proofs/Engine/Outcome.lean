/-
# What calls come to

A call for a well-formed template comes to a trace of the ledger that its
expansion ended with, or it is refused for a number of too many digits. So what
is known of the ledger holds of the trace (`yields_of_records`).

Key definitions: `Trace.Records`, `Engine.Yields`, `Engine.IsStocked`.
Key theorems: `yields_of_records`, `resolve_success`, `calls_told`.
-/
import Stencil.Proofs.Engine.Capture
import Stencil.Proofs.Engine.Shared
import Stencil.Proofs.Expansion.Account

namespace Stencil

open Template

/-- The trace tells how an expansion ended. -/
structure Trace.Records (t : Trace) (graph : Graph) (x : Expansion) (l : Ledger) : Prop where
  value : t.value = x.text
  resolved : t.resolved = l.resolved.filter fun n => !l.unresolved.contains n
  unresolved : t.unresolved = l.unresolved
  failures : t.failures = l.failures
  dependencies : t.dependencies = graph.adjacency

namespace Engine

open Context Pass

/-- What a call comes to: a trace with the property `Q`, or a refusal. With a clock that can be read,
and that no function breaks, a call is refused only for a number of too many digits. -/
inductive Yields (e : Engine) (c : Context) (template : String) (Q : Trace → Prop) :
    Except Refusal Trace → Prop where
  | trace {t : Trace} (h : Q t) : Yields e c template Q (.ok t)
  | refused {r : Refusal} (h : e.sources.HasTime → e.library.Keeps Sources.HasTime →
      Captured c e.library template (.error r)) : Yields e c template Q (.error r)

/-- The cache, if there is one, was made from one without entries by engines that share it. -/
def IsStocked (U : Context → Prop) (e : Engine) : Prop :=
  ∀ k, e.cache = some k → ∃ k₀ : Cache, k₀.entries = [] ∧
    Relation.ReflTransGen (Cache.Change U) k₀ k

variable {U : Context → Prop} {e : Engine} {c : Context} {graph : Graph} {template : String}
  {segments : List Segment} {Q : Trace → Prop}

theorem IsStocked.isGenuine (hU : Context.CollisionFree U) (ht : ∀ c, U c → c.HasTexts)
    (h : e.IsStocked U) : e.IsGenuine U := by
  intro k hk
  obtain ⟨k₀, h₀, hr⟩ := h k hk
  have hempty : k₀.All (Genuine U) := fun x hx => absurd (h₀ ▸ hx) List.not_mem_nil
  exact hempty.of_changes hU ht hr

/-- **What holds of every trace that records the end of the expansion holds of what the call comes
to.** -/
theorem yields_of_records (ht : c.HasTexts) (hp : Template.parse template = .ok (.ok segments))
    (stamp : Stamp)
    (h : ∀ graph x l t, Graph.ofContext c (variableNames segments) = .ok graph →
      (e.pass c graph.cycles).expandTemplate segments e.ledger = (.ok x, l) →
        t.Records graph x l → Q t) :
    e.Yields c template Q (e.resolve c template stamp).1 := by
  rw [resolve_parsed hp]
  cases hg : Graph.ofContext c (variableNames segments) with
  | error r =>
    obtain ⟨n, hn, hd⟩ := Graph.ofContext_error hg
    rw [expand_unread hg]
    exact .refused fun _ _ => .overlong (.inr ⟨segments, n, r, hp, hn, hd⟩) (define?_tooLong ht hd)
  | ok graph =>
    rcases hx : (e.pass c graph.cycles).expandTemplate segments e.ledger with ⟨r | x, l⟩
    · rw [expand_error hg hx]
      refine .refused fun hs hl => ?_
      have hcap := expand_captured (r := Recorder.start stamp.id template
        (some (c.summary c.fingerprint)) e.tracking stamp.clock) hs hl hp hg rfl
      rwa [expand_error hg hx] at hcap
    · rw [expand_ok hg hx]
      exact .trace (h graph x l _ hg hx ⟨rfl, rfl, rfl, close_failures rfl rfl, rfl⟩)

/-! ### Calls for well-formed templates -/

theorem resolve_expand {x : Expansion} {l : Ledger}
    (hp : Template.parse template = .ok (.ok segments))
    (hg : Graph.ofContext c (variableNames segments) = .ok graph)
    (hx : (e.pass c graph.cycles).expandTemplate segments e.ledger = (.ok x, l)) (stamp : Stamp) :
    ∃ t, (e.resolve c template stamp).1 = .ok t ∧ t.value = x.text ∧
      (t.isSuccess = true ↔ l.recentFailures = []) := by
  rw [resolve_parsed hp, expand_ok hg hx]
  exact ⟨_, rfl, rfl, isSuccess_close rfl rfl⟩

/-- A call that succeeds is one for a well-formed template, and its trace has the text that the
expansion came to. -/
theorem resolve_success {stamp : Stamp} {t : Trace} (h : (e.resolve c template stamp).1 = .ok t)
    (hs : t.isSuccess = true) :
    ∃ segments graph x l, Template.parse template = .ok (.ok segments) ∧
      Graph.ofContext c (variableNames segments) = .ok graph ∧
      (e.pass c graph.cycles).expandTemplate segments e.ledger = (.ok x, l) ∧
      t.value = x.text ∧ l.recentFailures = [] := by
  cases resolve_goes c template with
  | overlong hp =>
    rw [resolve_overlong hp] at h
    cases h
  | malformed hp =>
    rw [resolve_malformed hp] at h
    cases h
    cases hs
  | unread hp hg =>
    rw [resolve_parsed hp, expand_unread hg] at h
    cases h
  | @expanded segments graph hp hg =>
    rw [resolve_parsed hp] at h
    rcases hx : (e.pass c graph.cycles).expandTemplate segments e.ledger with ⟨r | x, l⟩
    · rw [expand_error hg hx] at h
      cases h
    · rw [expand_ok hg hx] at h
      cases h
      exact ⟨segments, graph, x, l, hp, hg, hx, rfl, (isSuccess_close rfl rfl).1 hs⟩

/-- Where nothing is circular, a call with an empty cache comes to what an expansion under no
fingerprint comes to. -/
theorem resolve_acyclic (hf : e.IsFresh) (text : String) (ok : Bool)
    (hp : Template.parse template = .ok (.ok segments))
    (hg : Graph.ofContext c (variableNames segments) = .ok graph) (hc : graph.cycles = [])
    (hx : let a := (Pass.mk c "" e.library e.maxDepth []).expandTemplate segments e.ledger
      a.1.toOption.map Expansion.text = some text ∧ a.2.recentFailures.isEmpty = ok)
    (stamp : Stamp) :
    ∃ t, (e.resolve c template stamp).1 = .ok t ∧ t.value = text ∧ t.isSuccess = ok := by
  have hsame := pass_acyclic hf c hc segments
  obtain ⟨htext, hfailed⟩ := hx
  generalize (Pass.mk c "" e.library e.maxDepth []).expandTemplate segments e.ledger = a
    at hsame htext hfailed
  rcases ha : (e.pass c graph.cycles).expandTemplate segments e.ledger with ⟨r | x, l⟩ <;>
    rw [ha] at hsame <;> obtain ⟨-, hl⟩ := hsame
  · cases htext
  rw [← hl.failures] at hfailed
  obtain ⟨t, ht, hv, hs⟩ := resolve_expand hp hg ha stamp
  refine ⟨t, ht, hv.trans (Option.some.inj htext), ?_⟩
  rw [← hfailed, Bool.eq_iff_iff, hs, List.isEmpty_iff]

/-! ### Passes -/

/-- A pass begins with a ledger in which nothing is unresolved just where no failure is listed. -/
theorem failCircular_ledger (e : Engine) (c : Context) (cycles : List (List String)) :
    (e.pass c cycles).Candid (fun _ => True) ((e.pass c cycles).failCircular e.ledger) :=
  failCircular_candid trivial rfl rfl rfl

/-- Whatever the cache holds, where anything fails in a pass a failure is listed. -/
theorem pass_runs (e : Engine) (c : Context) (graph : Graph) (segments : List Segment) :
    let p := e.pass c graph.cycles
    Ledger.Run e.library (fun _ _ => True) e.ledger (p.failCircular e.ledger) ∧
      Runs p (fun _ _ => True) (p.failCircular e.ledger) (p.expandTemplate segments e.ledger) := by
  intro p
  have hB : p.Grants fun _ _ => True := ⟨fun _ _ _ => trivial, fun _ _ _ _ _ _ => trivial⟩
  exact ⟨failCircular_run p p.circular e.ledger fun _ _ => trivial,
    expandTemplate_runs (I := fun _ => True) hB (fun _ _ _ => trivial)
      (fun _ _ _ _ _ _ _ => trivial) (failCircular_ledger e c graph.cycles).warned trivial⟩

theorem calls_expand (hp : Template.parse template = .ok (.ok segments))
    (hg : Graph.ofContext c (variableNames segments) = .ok graph) :
    e.calls c template =
      ((e.pass c graph.cycles).expandTemplate segments e.ledger).2.recentCalls.reverse := by
  rw [calls, ending_expand hp hg]

/-- **Each call of a function tells what the function made of its arguments.** -/
theorem calls_told (e : Engine) (c : Context) (template : String) :
    ∀ ev ∈ e.calls c template, Ledger.Tells e.library ev := by
  have hnone : ∀ ev ∈ e.ledger.recentCalls, Ledger.Tells e.library ev :=
    fun ev hev => absurd hev List.not_mem_nil
  intro ev hev
  rw [calls, List.mem_reverse] at hev
  obtain hend | ⟨segments, graph, -, -, hend⟩ := ending_cases e c template
  · rw [hend] at hev
    exact hnone ev hev
  · rw [hend] at hev
    obtain ⟨hstart, hrest⟩ := pass_runs e c graph segments
    exact Ledger.Run.told (hstart.trans hrest.run) hnone ev hev

end Engine
end Stencil
