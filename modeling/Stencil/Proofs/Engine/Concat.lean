/-
# References do not influence each other

A call for two templates put together, made with an empty cache and with
functions whose values depend on their arguments only, answers with what the
calls for each of them answer with: the values one after the other, a success
where both are, and the names that either leaves unresolved. So nothing that
fails in one reference of a template changes the text of another, in whichever
order they come.

The calls have much in common with each other: a cache for the time of the
call, the names that have failed already, and one graph of all references. What
comes of the template is read off an expansion with a cache that keeps nothing,
where a reference comes to the same whatever was expanded before
(`expandSegments_uniform`).

Key definitions: `Tells`, `Joined`.
Key theorems: `expand_tells`, `resolve_append`.
-/
import Stencil.Proofs.Engine.Semantics
import Stencil.Proofs.Expansion.Capture
import Stencil.Proofs.Expansion.Uniform

namespace Stencil

open Template

/-- What a call for segments that come to `a`, where names of `F` fail, answers with. -/
inductive Tells (c : Context) (segments : List Segment) (F : String → Prop) :
    Except Refusal Expansion → Except Refusal Trace → Prop where
  | trace {x : Expansion} {t : Trace} (hv : t.value = x.text)
      (hs : t.isSuccess = true ↔ t.unresolved = [])
      (hu : ∀ n, n ∈ t.unresolved ↔ (c.Reached (variableNames segments) n ∧ c.OnCycle n) ∨ F n) :
      Tells c segments F (.ok x) (.ok t)
  | refused (r : Refusal) : Tells c segments F (.error r) (.error r)

/-- The answers for two templates, and that for the two put together. -/
inductive Joined : Except Refusal Trace → Except Refusal Trace → Except Refusal Trace → Prop where
  | traces {a b ab : Trace} (hv : ab.value = a.value ++ b.value)
      (hs : ab.isSuccess = (a.isSuccess && b.isSuccess))
      (hu : ∀ n, n ∈ ab.unresolved ↔ n ∈ a.unresolved ∨ n ∈ b.unresolved) :
      Joined (.ok a) (.ok b) (.ok ab)
  | first {r r' : Refusal} (x : Except Refusal Trace) : Joined (.error r) x (.error r')
  | second {r r' : Refusal} (x : Except Refusal Trace) : Joined x (.error r) (.error r')

/-- What is told of two lists of segments, and of the two put together. -/
theorem Tells.append {c : Context} {segments ss ts : List Segment} {F G : String → Prop}
    {a b : Except Refusal Expansion} {x y xy : Except Refusal Trace}
    (hst : ∀ n, c.Reached (variableNames segments) n ↔
      c.Reached (variableNames ss) n ∨ c.Reached (variableNames ts) n)
    (hx : Tells c ss F a x) (hy : Tells c ts G b y)
    (hxy : Tells c segments (fun m => F m ∨ (∃ z, a = .ok z) ∧ G m)
      (a.bind fun z => b.map z.append) xy) : Joined x y xy := by
  cases hx with
  | refused r =>
    cases hxy
    exact .first y
  | @trace xa ta hva hsa hua =>
    cases hy with
    | refused r =>
      cases hxy
      exact .second _
    | @trace xb tb hvb hsb hub =>
      cases hxy with
      | @trace _ tab hv hs hu =>
        have hunion : ∀ n, n ∈ tab.unresolved ↔ n ∈ ta.unresolved ∨ n ∈ tb.unresolved := by
          intro n
          rw [hu, hua, hub, hst]
          simp only [Except.ok.injEq, exists_eq', true_and]
          tauto
        refine .traces ?_ ?_ hunion
        · rw [hv, hva, hvb]
          rfl
        · rw [Bool.eq_iff_iff, Bool.and_eq_true, hs, hsa, hsb]
          simp only [List.eq_nil_iff_forall_not_mem, hunion, not_or, forall_and]

namespace Engine

open Context Pass

variable {e : Engine} {c : Context} {graph : Graph} {template s t : String}
  {segments ss ts : List Segment} {F G : String → Prop} {a b : Except Refusal Expansion}

/-- The pass of a call, before it is known which names are circular. -/
def start (e : Engine) (c : Context) : Pass := e.pass c []

theorem pass_knowsAll (hg : Graph.ofContext c (variableNames segments) = .ok graph) :
    (e.pass c graph.cycles).KnowsAll segments := by
  intro n hn
  obtain ⟨r, hr, hc, rfl⟩ := mem_variableNames.1 hn
  exact pass_knows hg hr hc

/-- What a call answers with, by what the segments come to with a cache that keeps nothing. -/
theorem expand_tells (hl : e.library.IsSteady) (hs : e.sources.IsSteady) (hf : e.IsFresh)
    (ht : c.HasTexts) (hp : Template.parse template = .ok (.ok segments))
    (hg : Graph.ofContext c (variableNames segments) = .ok graph)
    (h : ∀ l, l.cache.IsIdle → Comes a F l
      ((e.pass c graph.cycles).expandAll 0 id (e.pass c graph.cycles).expandTop segments l))
    {r : Recorder} (hr : r.failures = []) : Tells c segments F a (e.expand c segments r).1 := by
  have hsim := expandTemplate_fresh hl hs hf ht hp hg
  have hcaught := expandTemplate_caught (p := e.pass c graph.cycles) (M := fun _ => True)
    isSteady_isReadable hl (fun q hq hcall => ⟨trivial, parse_arguments hp hq⟩)
    (fun q hq hcall => ⟨pass_knows hg hq hcall, fun _ _ _ _ _ _ _ => trivial⟩)
    (failCircular_candid (l := e.ledger) hs rfl rfl rfl)
  obtain ⟨rfl, hfails⟩ := Comes.template (l := e.bare.ledger) Cache.isIdle_ofCapacity h
  generalize hx : (e.pass c graph.cycles).expandTemplate segments e.ledger = x at hsim hcaught
  generalize (e.pass c graph.cycles).expandTemplate segments e.bare.ledger = x₀ at hsim hfails
  cases hsim with
  | error he _ =>
    cases he
    rw [expand_error hg hx]
    exact .refused _
  | @ok x l l₀ hagree =>
    rw [expand_ok hg hx]
    cases hcaught with
    | ok hcandid _ _ =>
      refine .trace rfl ?_ fun n => ?_
      · rw [isSuccess_close hr rfl]
        exact hcandid.failures_eq_nil
      · show n ∈ l.unresolved ↔ _
        rw [hagree.unresolved, Ledger.mem_unresolved, hfails.failed, pass_circular hg]
        simp [bare, withCache, ledger]

/-- What a call answers with, by what the pieces of its template come to. -/
theorem resolve_tells (hl : e.library.IsSteady) (hs : e.sources.IsSteady) (hf : e.IsFresh)
    (ht : c.HasTexts) {ps : List Piece}
    (hp : Template.parse template = .ok (.ok (layOut 0 [] ps).segments))
    (hg : Graph.ofContext c (variableNames (layOut 0 [] ps).segments) = .ok graph)
    (h : ∀ l, (e.pass c graph.cycles).KnowsAll (ps.map Piece.segment) → l.cache.IsIdle →
      Comes a F l ((e.pass c graph.cycles).expandAll 0 id (e.pass c graph.cycles).expandTop
        (ps.map Piece.segment) l)) (k : Stamp) :
    Tells c (layOut 0 [] ps).segments F a (e.resolve c template k).1 := by
  simp only [resolve, hp]
  refine expand_tells hl hs hf ht hp hg (fun l hi => ?_) rfl
  rw [expandAll_pieces]
  exact h l (knowsAll_pieces.1 (pass_knowsAll hg)) hi

/-- There is no answer where a name that is reached cannot be looked up. -/
theorem resolve_refused {n : String} {r : Refusal}
    (hp : Template.parse template = .ok (.ok segments))
    (hn : c.Reached (variableNames segments) n) (hd : c.define? n = .error r) (k : Stamp) :
    ∃ r', (e.resolve c template k).1 = .error r' := by
  cases hg : Graph.ofContext c (variableNames segments) with
  | error r' => exact ⟨r', by rw [resolve_parsed hp, expand_unread hg]⟩
  | ok graph =>
    obtain ⟨d?, hd'⟩ := (Graph.ofContext_depicts hg).defined n hn
    rw [hd'] at hd
    cases hd

/-- **Two templates put together come to what each of them comes to.** -/
theorem resolve_append (hp : e.library.IsPure) (hl : e.library.IsSteady)
    (hs : e.sources.IsSteady) (hf : e.IsFresh) (ht : c.HasTexts)
    (hps : Template.parse s = .ok (.ok ss)) (hpt : Template.parse t = .ok (.ok ts))
    (hst : ¬ (s.toList.getLast? = some '$' ∧ t.toList.head? = some '{')) (k₁ k₂ k : Stamp) :
    (∃ segments, Template.parse (s ++ t) = .ok (.ok segments)) ∧
      Joined (e.resolve c s k₁).1 (e.resolve c t k₂).1 (e.resolve c (s ++ t) k).1 := by
  obtain ⟨ps, qs, rfl, rfl, hpst⟩ := parse_append hps hpt hst
  refine ⟨⟨_, hpst⟩, ?_⟩
  have hreached : ∀ n, c.Reached (variableNames (layOut 0 [] (ps ++ qs)).segments) n ↔
      c.Reached (variableNames (layOut 0 [] ps).segments) n ∨
        c.Reached (variableNames (layOut 0 [] qs).segments) n := by
    intro n
    rw [variableNames_layOut, variableNames_layOut, variableNames_layOut, List.map_append,
      reached_append]
  cases hgs : Graph.ofContext c (variableNames (layOut 0 [] ps).segments) with
  | error r =>
    obtain ⟨n, hn, hd⟩ := Graph.ofContext_error hgs
    obtain ⟨r₁, h₁⟩ := resolve_refused hps hn hd k₁
    obtain ⟨r', h'⟩ := resolve_refused hpst ((hreached n).2 (.inl hn)) hd k
    rw [h₁, h']
    exact .first _
  | ok gs =>
  cases hgt : Graph.ofContext c (variableNames (layOut 0 [] qs).segments) with
  | error r =>
    obtain ⟨n, hn, hd⟩ := Graph.ofContext_error hgt
    obtain ⟨r₂, h₂⟩ := resolve_refused hpt hn hd k₂
    obtain ⟨r', h'⟩ := resolve_refused hpst ((hreached n).2 (.inr hn)) hd k
    rw [h₂, h']
    exact .second _
  | ok gt =>
  obtain ⟨g, hg⟩ := Graph.ofContext_ok_iff.2 fun n hn => ((hreached n).1 hn).elim
    ((Graph.ofContext_depicts hgs).defined n) ((Graph.ofContext_depicts hgt).defined n)
  -- the pieces of each template come to the same in its own call and in the common one
  have hout := hp.gives e.sources
  obtain ⟨a, F, ha⟩ := expandSegments_uniform (p := e.start c) hout (ps.map Piece.segment)
  obtain ⟨b, G, hb⟩ := expandSegments_uniform (p := e.start c) hout (qs.map Piece.segment)
  have hx := resolve_tells hl hs hf ht hps hgs (ha _) k₁
  have hy := resolve_tells hl hs hf ht hpt hgt (hb _) k₂
  refine hx.append hreached hy (resolve_tells hl hs hf ht hpst hg (fun l hk hi => ?_) k)
  rw [List.map_append] at hk ⊢
  rw [expandAll_append]
  exact (ha _ l (hk.subset (List.subset_append_left _ _)) hi).andThen fun l hi =>
    hb _ l (hk.subset (List.subset_append_right _ _)) hi

/-- A variable that refers to itself, one that is too deep and a `$`, put together with one that no
scope defines and a brace. -/
theorem append_failures :
    let c : Context := { global := [
      { name := "loop", value := .text "$\x7bloop\x7d" },
      { name := "host", value := .text "api.$\x7bdomain\x7d" },
      { name := "domain", value := .text "example.org" }] }
    let e : Engine := {
      cache := some { capacity := .int 1, lifetime := some (.int 60) }
      library := ⟨[]⟩
      sources := .preview
      maxDepth := 1
      maxDepth_pos := by decide }
    (∃ segments, Template.parse ("$\x7bloop\x7d-$\x7bhost\x7d$" ++ "$\x7bport\x7d\x7b") =
        .ok (.ok segments)) ∧
      Joined (e.resolve c "$\x7bloop\x7d-$\x7bhost\x7d$").1 (e.resolve c "$\x7bport\x7d\x7b").1
        (e.resolve c ("$\x7bloop\x7d-$\x7bhost\x7d$" ++ "$\x7bport\x7d\x7b")).1 := by
  intro c e
  have hf : e.IsFresh := by
    intro cache hc
    cases hc
    rfl
  have ht : c.HasTexts := by decide
  have hs : Template.parse "$\x7bloop\x7d-$\x7bhost\x7d$" = .ok (.ok [
      .reference ⟨"loop", none, "$\x7bloop\x7d", ⟨0, 7⟩⟩, .literal "-" ⟨7, 8⟩,
      .reference ⟨"host", none, "$\x7bhost\x7d", ⟨8, 15⟩⟩, .literal "$" ⟨15, 16⟩]) := by cbv
  have ht' : Template.parse "$\x7bport\x7d\x7b" = .ok (.ok [
      .reference ⟨"port", none, "$\x7bport\x7d", ⟨0, 7⟩⟩, .literal "\x7b" ⟨7, 8⟩]) := by cbv
  exact resolve_append (fun f hf => absurd hf List.not_mem_nil)
    (fun f hf => absurd hf List.not_mem_nil) preview_isSteady hf ht hs ht' (by decide) {} {} {}

end Engine
end Stencil
