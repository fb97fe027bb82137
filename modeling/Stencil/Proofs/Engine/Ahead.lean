/-
# Values expanded ahead of use

A value that is expanded ahead of use is replaced by the text that the call for
it came to, and that text is a template again. Later uses leave it as it is just
where no expression starts in it (`isInert_iff`). None of its literal parts
starts one, but what a function gave may, and so may the seam of two parts: then
the value is expanded a second time when it is used (`live_ahead`).

Key definitions: `IsInert`, `Engine.Held`, `Engine.Ahead`.
Key theorems: `isInert_iff`, `resolve_unfolds`, `preResolve_ahead`.
-/
import Stencil.Proofs.Engine.Outcome
import Stencil.Proofs.Expansion.Origin

namespace Stencil

open Template Grammar

/-- A text that every later use leaves as it is, by whatever engine and in whatever context. -/
def IsInert (s : String) : Prop :=
  ∀ (e : Engine) (c : Context) (stamp : Engine.Stamp), ∃ t,
    (e.resolve c s stamp).1 = .ok t ∧ t.isSuccess = true ∧ t.value = s

namespace Engine

open Context Pass

/-- The cache holds a text for a name in a context. -/
def Held (e : Engine) (c : Context) (n text : String) : Prop :=
  ∃ x ∈ e.ledger.cache.entries, x.1 = ⟨n, c.fingerprint⟩ ∧ x.2.value = text

/-- What comes of expanding a variable's value ahead of its use. -/
inductive Ahead (e : Engine) (v : Variable) (template : String) (c : Context) (moment : String) :
    Except Refusal (Option Variable) → Prop where
  /-- The value is the text that a call for it came to without a failure. It is inert just where no
  expression starts in it: inside of none of the parts that it is made of, and at none of their
  seams. -/
  | changed {t : Trace} {segments : List Segment} {ps : List Part}
      (hp : Template.parse template = .ok (.ok segments)) (hc : Template.calls segments ≠ [])
      (hr : (e.resolve c template).1 = .ok t) (hs : t.isSuccess = true)
      (hu : c.Unfolds e.library (e.Held c) segments ps) (ht : Part.joined ps = t.value.toList)
      (hi : IsInert t.value ↔ IsFlat t.value.toList)
      (hparts : IsFlat t.value.toList ↔ Part.AreInert ps) :
      Ahead e v template c moment (.ok (some { v with
        value := .text t.value
        created := v.created.or (some moment)
        updated := some moment }))
  /-- No function is called, or the call for the value lists a failure. -/
  | unchanged (h : (∃ reading, Template.read template = .ok reading ∧
        Template.calls reading.segments = []) ∨
      ∃ t, (e.resolve c template).1 = .ok t ∧ t.failures ≠ []) :
      Ahead e v template c moment (.ok none)
  | refused {r : Refusal}
      (h : Template.read template = .error r ∨ (e.resolve c template).1 = .error r) :
      Ahead e v template c moment (.error r)

variable {e : Engine} {c : Context} {template s moment : String} {segments : List Segment}
  {stamp : Stamp} {t : Trace} {graph : Graph} {v : Variable}

/-! ### What a call is made of -/

theorem ledger_backed (e : Engine) (c : Context) (cycles : List (List String)) :
    e.ledger.cache.All ((e.pass c cycles).Backed (e.Held c)) :=
  fun x hx _ hk => .kept ⟨x, hx, hk, rfl⟩

/-- **The text that a call comes to without a failure is made of the parts that stand for its
template.** -/
theorem resolve_unfolds (h : (e.resolve c template stamp).1 = .ok t) (hs : t.isSuccess = true) :
    ∃ segments ps, Template.parse template = .ok (.ok segments) ∧
      c.Unfolds e.library (e.Held c) segments ps ∧ Part.joined ps = t.value.toList := by
  obtain ⟨segments, graph, x, l, hp, hg, hx, hv, hf⟩ := resolve_success h hs
  have hok : x.isOk = true := by
    by_contra ho
    have hruns := (pass_runs e c graph segments).2
    rw [hx] at hruns
    exact hruns.listed x rfl (by simpa using ho) hf
  obtain ⟨ps, hps, ht⟩ := expandTemplate_unfolds (e.ledger_backed c graph.cycles) hx hok
  exact ⟨segments, ps, hp, hps, hv ▸ ht⟩

/-! ### Inert texts -/

/-- A template without references comes to itself. -/
theorem isInert_of_isFlat (h : IsFlat s.toList) : IsInert s := by
  intro e c stamp
  obtain ⟨segments, hp, hr⟩ := isFlat_iff.1 h
  have hroots : ∀ n, n ∉ variableNames segments := by
    intro n hn
    obtain ⟨r, hm, -⟩ := mem_variableNames.1 hn
    cases hr _ hm
  obtain ⟨graph, hg⟩ : ∃ graph, Graph.ofContext c (variableNames segments) = .ok graph := by
    cases hg : Graph.ofContext c (variableNames segments) with
    | ok graph => exact ⟨graph, rfl⟩
    | error r =>
      obtain ⟨n, ⟨m, hm, -⟩, -⟩ := Graph.ofContext_error hg
      exact absurd hm (hroots m)
  have hfaultless : ∀ s ∈ segments, c.FaultlessSegment (e.library.outcome e.sources) s := by
    intro s hs r hsr
    subst hsr
    cases hr _ hs
  have hcircular := circular_eq_nil (e := e) hg hfaultless
  have hstart : (e.pass c graph.cycles).failCircular e.ledger = e.ledger := by
    rw [failCircular, hcircular]
    rfl
  have hx : (e.pass c graph.cycles).expandTemplate segments e.ledger =
      (.ok { text := s }, e.ledger) := by
    rw [expandTemplate, hstart, expandAll_literals hr, parse_source hp, String.ofList_toList]
  obtain ⟨t, ht, hv, hs⟩ := resolve_expand hp hg hx stamp
  exact ⟨t, ht, hs.2 rfl, hv⟩

/-- An engine that has no functions and keeps nothing. -/
def idle : Engine where
  cache := none
  library := ⟨[]⟩
  sources := .preview
  maxDepth := 1
  maxDepth_pos := Nat.one_pos

/-- Without functions and variables no reference can be expanded. -/
theorem resolve_idle (h : (idle.resolve {} s).1 = .ok t) (hs : t.isSuccess = true) :
    IsFlat s.toList := by
  have hnone : ∀ f ∈ idle.library.functions, False := fun _ hf => List.not_mem_nil hf
  have hanswer := resolve_answer (e := idle) (c := {}) (fun f hf => (hnone f hf).elim)
    (fun f hf => (hnone f hf).elim) preview_isSteady (fun k hk => by cases hk)
    (fun s v hv => by cases s <;> cases hv) s {}
  rw [h] at hanswer
  cases hanswer with
  | malformed hp hv hst hf =>
    rw [Trace.isSuccess, hf] at hs
    cases hs
  | @expanded segments _ hp hd hv hsuccess =>
    refine isFlat_iff.2 ⟨segments, hp, fun x hx => ?_⟩
    cases x with
    | literal => rfl
    | reference r =>
      obtain ⟨hcall, hvar⟩ := (hsuccess.1 hs _ hx).1 r rfl
      cases hc : r.isCall with
      | true =>
        obtain ⟨text, htext⟩ := hcall hc
        cases htext
      | false =>
        obtain ⟨inner, ⟨-, d, hdef, -⟩, -⟩ := hvar hc r.name .refl
        cases hdef

/-- **A text is inert just where no expression starts in it.** -/
theorem isInert_iff : IsInert s ↔ IsFlat s.toList := by
  refine ⟨fun h => ?_, isInert_of_isFlat⟩
  obtain ⟨t, ht, hs, -⟩ := h idle {} {}
  exact resolve_idle ht hs

/-! ### Values -/

theorem template?_text (hv : v.value = .text template) : v.template? = .ok template := by
  rw [Variable.template?, hv]
  rfl

theorem preResolve_eq (hv : v.value = .text template) {reading : Reading}
    (hr : Template.read template = .ok reading) :
    (e.preResolve v c moment).1 =
      if (Template.calls reading.segments).isEmpty then .ok none
      else (e.resolve c template).1.map fun t =>
        if t.isSuccess then some (withValue v t.value moment) else none := by
  unfold preResolve
  rw [template?_text hv]
  dsimp only
  rw [hr]
  dsimp only
  split_ifs
  · rfl
  · rcases e.resolve c template with ⟨r | t, e'⟩ <;> rfl

theorem preResolve_refused (hv : v.value = .text template) {r : Refusal}
    (hr : Template.read template = .error r) : (e.preResolve v c moment).1 = .error r := by
  unfold preResolve
  rw [template?_text hv]
  dsimp only
  rw [hr]

/-- **What comes of expanding a value ahead of its use**; without a context it is expanded in the
empty one. -/
theorem preResolve_ahead (e : Engine) (hv : v.value = .text template) (c? : Option Context)
    (moment : String) :
    Ahead e v template (c?.getD {}) moment (e.preResolve v (c?.getD {}) moment).1 := by
  generalize c?.getD {} = c
  cases hread : Template.read template with
  | error r =>
    rw [preResolve_refused hv hread]
    exact .refused (.inl hread)
  | ok reading =>
    rw [preResolve_eq hv hread]
    split_ifs with hcalls
    · exact .unchanged (.inl ⟨reading, hread, List.isEmpty_iff.1 hcalls⟩)
    cases hr : (e.resolve c template).1 with
    | error r => exact .refused (.inr hr)
    | ok t =>
      show Ahead e v template c moment (.ok (if t.isSuccess then _ else none))
      split_ifs with hs
      · obtain ⟨segments, ps, hp, hu, ht⟩ := resolve_unfolds hr hs
        obtain rfl := segments_of_read hread hp
        refine .changed hp (by simpa using hcalls) hr hs hu ht isInert_iff ?_
        rw [← ht]
        exact Part.isFlat_joined (hu.isFlat_literal fun _ _ hm => isFlat_of_parse hp hm)
      · refine .unchanged (.inr ⟨t, hr, fun hf => hs ?_⟩)
        rw [Trace.isSuccess, hf]
        rfl

/-- A value with one call. -/
theorem token_ahead :
    let v : Variable := { name := "token", value := .text "id-$\x7buuid()\x7d" }
    let e : Engine := {
      cache := none
      library := .standard
      sources := .preview
      maxDepth := 1
      maxDepth_pos := by decide }
    v.value = .text "id-$\x7buuid()\x7d" ∧
      Ahead e v "id-$\x7buuid()\x7d" {} "now" (e.preResolve v {} "now").1 := by
  intro v e
  exact ⟨rfl, preResolve_ahead e rfl none "now"⟩

/-- A dollar sign, and the value of a variable that begins with a brace: the text that is saved
refers to another variable, so the engine that made it cannot expand it where there is none. -/
theorem live_ahead :
    let c : Context := { global := [{ name := "b", value := .text "\x7bx\x7d" }] }
    let v : Variable := { name := "v", value := .text "$$\x7bb\x7d$\x7buuid()\x7d" }
    let e : Engine := {
      cache := none
      library := .standard
      sources := .preview
      maxDepth := 1
      maxDepth_pos := by decide }
    let saved := "$\x7bx\x7d550e8400-e29b-41d4-a716-446655440000"
    ∃ w t, (e.preResolve v c "now").1 = .ok (some w) ∧ w.value = .text saved ∧
      ((e.preResolve v c "now").2.resolve {} saved).1 = .ok t ∧ t.isSuccess = false := by
  intro c v e saved
  let segments : List Segment := [
    .literal "$" ⟨0, 1⟩, .reference ⟨"b", none, "$\x7bb\x7d", ⟨1, 5⟩⟩,
    .reference ⟨"uuid", some [], "$\x7buuid()\x7d", ⟨5, 14⟩⟩]
  have hread : Template.read "$$\x7bb\x7d$\x7buuid()\x7d" = .ok ⟨segments, []⟩ := by cbv
  have hp : Template.parse "$$\x7bb\x7d$\x7buuid()\x7d" = .ok (.ok segments) := by
    rw [Template.parse, hread]
    rfl
  obtain ⟨graph, hg, hcycles⟩ : ∃ graph,
      Graph.ofContext c (variableNames segments) = .ok graph ∧ graph.cycles = [] := ⟨{
    roots := ["b"]
    nodes := [⟨"b", some { isDefined := true, scope := some "global", value := some "\x7bx\x7d" }⟩]
    edges := [] }, by cbv, by cbv⟩
  obtain ⟨t, ht, hv, hs⟩ := resolve_acyclic (e := e) (by rintro k ⟨⟩) saved true hp hg hcycles
    (by decide +kernel +zetaReduce) {}
  have hsaved : (e.preResolve v c "now").1 = .ok (some (withValue v saved "now")) := by
    rw [preResolve_eq rfl hread, if_neg (by decide), ht, ← hv]
    show Except.ok (if t.isSuccess then _ else none) = _
    rw [if_pos hs]
  -- without a cache an engine changes its sources only, and the second expansion takes none
  obtain ⟨src, he⟩ : ∃ src, (e.preResolve v c "now").2 = { e with sources := src } := by
    rcases preResolve_engine e v c "now" with he | ⟨template, he⟩
    · exact ⟨_, he⟩
    · exact ⟨_, he.trans (resolve_engine e c template {})⟩
  let segments' : List Segment := [
    .reference ⟨"x", none, "$\x7bx\x7d", ⟨0, 4⟩⟩,
    .literal "550e8400-e29b-41d4-a716-446655440000" ⟨4, 40⟩]
  have hp' : Template.parse "$\x7bx\x7d550e8400-e29b-41d4-a716-446655440000" =
      .ok (.ok segments') := by cbv
  obtain ⟨graph', hg', hcycles'⟩ : ∃ graph,
      Graph.ofContext {} (variableNames segments') = .ok graph ∧ graph.cycles = [] := ⟨{
    roots := ["x"]
    nodes := [⟨"x", some { isDefined := false, scope := none, value := none }⟩]
    edges := [] }, by cbv, by cbv⟩
  obtain ⟨t', ht', -, hs'⟩ := resolve_acyclic (e := { e with sources := src }) (by rintro k ⟨⟩)
    "<<unresolved:x>>550e8400-e29b-41d4-a716-446655440000" false hp' hg' hcycles' ⟨rfl, rfl⟩ {}
  exact ⟨_, t', hsaved, rfl, he ▸ ht', hs'⟩

end Engine
end Stencil
