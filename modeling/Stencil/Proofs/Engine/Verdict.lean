/-
# A trace tells the truth about its failures

A call lists a failure just where it lists a name as unresolved, and lists each
name that the template refers to once, as resolved or as unresolved. Where
nothing but markers puts a `<` into the text, the markers tell the same: there
is one just where the call lists a failure, and each of their names is
unresolved.

Key definitions: `Trace.IsTruthful`, `Trace.IsMarked`, `Engine.IsUnmarked`.
Key theorem: `verdict_truthful`.
-/
import Stencil.Proofs.Engine.Outcome
import Stencil.Proofs.Expansion.Markers

namespace Stencil

open Template

/-- Each reference of the template is listed, as resolved or as unresolved, and something is
unresolved just where a failure is listed. -/
structure Trace.IsTruthful (t : Trace) (segments : List Segment) : Prop where
  success : t.isSuccess = true ↔ t.unresolved = []
  listed : ∀ r, .reference r ∈ segments →
    Xor (r.displayName ∈ t.resolved) (r.displayName ∈ t.unresolved)
  resolved_once : t.resolved.Nodup
  unresolved_once : t.unresolved.Nodup

/-- The markers in the text tell what failed. -/
structure Trace.IsMarked (t : Trace) : Prop where
  success : t.isSuccess = true ↔ Marker.markedNames t.value = []
  unresolved : ∀ n ∈ Marker.markedNames t.value, n ∈ t.unresolved

namespace Engine

open Context Pass

/-- Nothing but markers puts a `<` into what a call expands: no literal text of the template, no
value that a name means, and no output of a function that is called. What the cache holds was put
there by calls for contexts of `U`, which their fingerprints tell apart. -/
structure IsUnmarked (U : Context → Prop) (e : Engine) (c : Context) (template : String)
    (segments : List Segment) : Prop where
  collisionFree : Context.CollisionFree U
  texts : ∀ c, U c → c.HasTexts
  member : U c
  stocked : e.IsStocked U
  literals : Template.IsClean segments
  values : c.IsClean
  outputs : ∀ ev ∈ e.calls c template, ev.error = none → '<' ∉ ev.output.toList

variable {U : Context → Prop} {e : Engine} {c : Context} {graph : Graph} {template : String}
  {segments : List Segment} {x : Expansion} {l : Ledger} {t : Trace}

/-- No value that a name means holds a `<` if no variable's value does. -/
theorem isClean_of_texts (ht : c.HasTexts)
    (h : ∀ s, ∀ v ∈ c.inScope s, ∀ text, v.value = .text text → '<' ∉ text.toList) :
    c.IsClean := by
  intro n d hd
  unfold define? at hd
  split at hd
  · cases hd
  · rename_i s v hl
    have hv := lookup?_mem hl
    obtain ⟨text, htext⟩ := ht s v hv
    rw [Variable.template?, htext] at hd
    dsimp only [Value.template?] at hd
    split at hd
    · cases hd
    · cases hd
      exact h s v hv text htext

/-- The outputs of the calls hold no `<` if no function ever gives a text with one. -/
theorem outputs_of_library
    (h : ∀ s r text, e.library.outcome s r = .ok text → '<' ∉ text.toList) :
    ∀ ev ∈ e.calls c template, ev.error = none → '<' ∉ ev.output.toList := by
  intro ev hev herror
  cases calls_told e c template ev hev with
  | ok _ _ ho => exact h _ _ _ ho
  | failed _ he _ =>
    rw [herror] at he
    cases he

/-- A trace of an expansion is truthful. -/
theorem records_truthful
    (hx : (e.pass c graph.cycles).expandTemplate segments e.ledger = (.ok x, l))
    (hr : t.Records graph x l) : t.IsTruthful segments := by
  obtain ⟨hstart, hrest⟩ := pass_runs e c graph segments
  have hrun := hrest.run
  rw [hx] at hrun
  have hcandid := hrun.candid (failCircular_ledger e c graph.cycles)
  have honce : l.names.Nodup := hrun.names_nodup (hstart.names_nodup List.nodup_nil)
  have hnames := expandAll_names (failCircular_ledger e c graph.cycles).warned
    (fun n hn => List.mem_map_of_mem (failCircular_posted _ _ n hn)) hx
  have hsub : ∀ q : String × Bool → Bool, ((l.status.filter q).map Prod.fst).Nodup :=
    fun q => (List.filter_sublist.map Prod.fst).nodup honce
  refine ⟨?_, fun r hm => ?_, hr.resolved ▸ (hsub _).filter _, hr.unresolved ▸ hsub _⟩
  · rw [Trace.isSuccess, hr.failures, List.isEmpty_iff, Ledger.failures, List.reverse_eq_nil_iff,
      hcandid.failures_eq_nil, hr.unresolved]
  · obtain ⟨⟨n, ok⟩, hs, hn⟩ := List.mem_map.1 (hnames r hm)
    rw [hr.resolved, hr.unresolved, ← hn]
    by_cases hu : n ∈ l.unresolved
    · exact .inr ⟨hu, fun hres => by simp [hu] at hres⟩
    · cases ok with
      | false => exact absurd (Ledger.mem_unresolved.2 hs) hu
      | true => exact .inl ⟨by simp [hu, mem_resolved.2 hs], hu⟩

/-- Where nothing inside failed no name is circular, so no failure is listed at all. -/
theorem failures_eq_nil (hg : Graph.ofContext c (variableNames segments) = .ok graph)
    (hf : l.recentFailures = ((e.pass c graph.cycles).failCircular e.ledger).recentFailures)
    (hu : ∀ n ∈ variableNames segments, (e.pass c graph.cycles).Unblocked n) :
    l.recentFailures = [] := by
  have hnone : (e.pass c graph.cycles).circular = [] := by
    refine List.eq_nil_iff_forall_not_mem.2 fun y hy => ?_
    have hsome := cycle?_isSome.2 (List.mem_map_of_mem (f := Prod.fst) hy)
    obtain ⟨⟨n, hn, hreach⟩, -⟩ := (pass_circular hg).1 hsome
    rw [hu n hn y.1 hreach] at hsome
    cases hsome
  rw [hf, failCircular, hnone]
  rfl

/-- The markers in the text of a trace tell what failed. -/
theorem records_marked (hm : e.IsUnmarked U c template segments)
    (hp : Template.parse template = .ok (.ok segments))
    (hg : Graph.ofContext c (variableNames segments) = .ok graph)
    (hx : (e.pass c graph.cycles).expandTemplate segments e.ledger = (.ok x, l))
    (hr : t.Records graph x l) : t.IsMarked := by
  have hgenuine := hm.stocked.isGenuine hm.collisionFree hm.texts
  have hspeaks := expandTemplate_speaks (p := e.pass c graph.cycles)
    (upholds_genuine hm.collisionFree hm.texts hm.member graph.cycles)
    (pass_isSound hg) hm.values hm.literals (parse_names hp) (all_ledger hgenuine)
  obtain ⟨-, hruns⟩ := pass_runs e c graph segments
  rw [hx] at hspeaks hruns
  have hclean : l.IsClean := by
    intro ev hev
    refine hm.outputs ev ?_
    rw [calls_expand hp hg, hx]
    exact List.mem_reverse.2 hev
  obtain ⟨ns, hns, hfailed, hok⟩ := hspeaks.marked x rfl hclean
  have hmarked : Marker.markedNames t.value = ns := by
    rw [hr.value, Marker.markedNames, hns.names]
  refine ⟨?_, fun n hn => ?_⟩
  · rw [hmarked, hok, Trace.isSuccess, hr.failures, List.isEmpty_iff, Ledger.failures,
      List.reverse_eq_nil_iff]
    constructor
    · -- an inner failure without a failure of its own still follows a listed one
      intro hf
      by_contra ho
      exact hruns.listed x rfl (by simpa using ho) hf
    · -- a circular name that the expansion never met would have been listed at the start
      intro ho
      obtain ⟨hf, hu⟩ := hspeaks.silent x rfl ho
      exact failures_eq_nil hg hf hu
  · rw [hr.unresolved]
    exact Ledger.mem_unresolved.2 (hfailed n (hmarked ▸ hn))

/-- **A call tells the truth about its failures**, and where nothing but markers puts a `<` into the
text, so do the markers. -/
theorem verdict_truthful {c : Context} (ht : c.HasTexts) (e : Engine) {template : String}
    {segments : List Segment} (hp : Template.parse template = .ok (.ok segments)) (stamp : Stamp) :
    e.Yields c template
      (fun t => t.IsTruthful segments ∧ ∀ U, e.IsUnmarked U c template segments → t.IsMarked)
      (e.resolve c template stamp).1 :=
  yields_of_records ht hp stamp fun _ _ _ _ hg hx hr =>
    ⟨records_truthful hx hr, fun _ hm => records_marked hm hp hg hx hr⟩

/-- A name on a cycle that is reached through another one, which is too deep to be looked into, and a
function that is not there. -/
theorem truthful_markers :
    let c : Context := { global := [
      { name := "loop", value := .text "$\x7bloop\x7d" },
      { name := "deep", value := .text "$\x7bdeeper\x7d" },
      { name := "deeper", value := .text "$\x7bloop\x7d" }] }
    let e : Engine := {
      cache := some { capacity := .int 1, lifetime := some (.int 60) }
      library := ⟨[]⟩
      sources := .preview
      maxDepth := 1
      maxDepth_pos := by decide }
    let template := "> $\x7bdeep\x7d $\x7bf()\x7d"
    ∃ segments, Template.parse template = .ok (.ok segments) ∧
      e.IsUnmarked (· = c) c template segments ∧
      e.Yields c template
        (fun t => t.IsTruthful segments ∧ ∀ U, e.IsUnmarked U c template segments → t.IsMarked)
        (e.resolve c template).1 := by
  intro c e template
  have hv : ∀ s, ∀ v ∈ c.inScope s, ∃ text, v.value = .text text ∧ '<' ∉ text.toList := by
    intro s v hv
    cases s <;> simp [c, Context.inScope] at hv
    rcases hv with rfl | rfl | rfl <;> exact ⟨_, rfl, by decide⟩
  have ht : c.HasTexts := fun s v hm => (hv s v hm).imp fun _ h => h.1
  have hp : Template.parse "> $\x7bdeep\x7d $\x7bf()\x7d" = .ok (.ok [
      .literal "> " ⟨0, 2⟩,
      .reference ⟨"deep", none, "$\x7bdeep\x7d", ⟨2, 9⟩⟩,
      .literal " " ⟨9, 10⟩,
      .reference ⟨"f", some [], "$\x7bf()\x7d", ⟨10, 16⟩⟩]) := by cbv
  refine ⟨_, hp, ?_, verdict_truthful ht e hp {}⟩
  refine ⟨Context.CollisionFree.single c, by rintro _ rfl; exact ht, rfl, ?_, ?_, ?_, ?_⟩
  · rintro k ⟨⟩
    exact ⟨_, rfl, .refl⟩
  · intro text span hm
    simp only [List.mem_cons, Segment.literal.injEq, reduceCtorEq, false_or, List.not_mem_nil,
      or_false] at hm
    rcases hm with ⟨rfl, -⟩ | ⟨rfl, -⟩ <;> decide
  · refine isClean_of_texts ht fun s v hm text htext => ?_
    obtain ⟨_, h, hclean⟩ := hv s v hm
    rw [htext] at h
    cases h
    exact hclean
  · exact outputs_of_library fun s r text h => by cases h

end Engine
end Stencil
