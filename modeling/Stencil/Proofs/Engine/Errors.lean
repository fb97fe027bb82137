/-
# The failures that a trace lists

The list of failures is exact. Each circular name that is reached from the
template has one failure of its own, with a cycle that it lies on, and no other
name has any; every other name accounts for one failure at most, however often
it is met; only names of the template itself are too deep; and the failures of
calls are, one for one, those of the calls that failed.

Key definitions: `Failure.circular?`, `Trace.DependsOn`, `Trace.IsExact`.
Key theorem: `failures_exact`.
-/
import Stencil.Proofs.Engine.Outcome

namespace Stencil

open Template

/-- The name of a circular reference, with the cycle that is listed for it. -/
def Failure.circular? : Failure → Option (String × List String)
  | circular n cycle => some (n, cycle)
  | _ => none

theorem Failure.circular?_eq_some {f : Failure} {x : String × List String} :
    f.circular? = some x ↔ f = .circular x.1 x.2 := by
  constructor
  · intro h
    cases f with
    | circular n cycle =>
      cases h
      rfl
    | _ => cases h
  · rintro rfl
    rfl

/-- The trace says that `a` refers to `b`. -/
def Trace.DependsOn (t : Trace) (a b : String) : Prop := b ∈ Graph.lookIn t.dependencies a

/-- The failures of a trace are just those that there were: for a template that refers to `roots`,
with the bound on the depth and the library that it was expanded with, and the calls made then. -/
structure Trace.IsExact (t : Trace) (c : Context) (roots : List String) (bound : Nat)
    (library : Library) (calls : List Event) : Prop where
  circular_once : ((t.failures.filterMap Failure.circular?).map Prod.fst).Nodup
  circular_iff : ∀ n, n ∈ (t.failures.filterMap Failure.circular?).map Prod.fst ↔
    c.Reached roots n ∧ c.OnCycle n
  cycle : ∀ n cycle, .circular n cycle ∈ t.failures → n ∈ cycle ∧ Graph.IsCycle t.DependsOn cycle
  /-- Each failure beside those of calls stands for a name of its own. -/
  account : ∃ account : List (String × Failure),
    account.map Prod.snd = t.failures.filter (fun f => !f.isCall) ∧
      (account.map Prod.fst).Nodup ∧ ∀ x ∈ account, c.Blames roots bound x.1 x.2
  tooDeep : ∀ n inner m, .tooDeep n inner m ∈ t.failures → n ∈ roots
  told : ∀ e ∈ calls, Ledger.Tells library e
  /-- The failures of calls are those of the calls that failed. -/
  failed : List.Forall₂ (fun f e => Event.error e = some (Failure.message f))
    (t.failures.filter Failure.isCall) (calls.filter fun e => e.error.isSome)

namespace Context

variable {c : Context} {roots : List String} {bound : Nat} {n : String}
  {account : List (String × Failure)} {failures : List Failure}

theorem Blames.circular? {f : Failure} {x : String × List String} (h : c.Blames roots bound n f)
    (hf : f.circular? = some x) : x.1 = n ∧ x.1 ∈ x.2 ∧ Graph.IsCycle (c.RefersAmong roots) x.2 := by
  obtain rfl := Failure.circular?_eq_some.1 hf
  cases h with
  | circular hn hc => exact ⟨rfl, hn, hc⟩

/-- The circular names are among the names that the failures are accounted to, in order. -/
theorem circular_sublist (h : ∀ x ∈ account, c.Blames roots bound x.1 x.2) :
    (((account.map Prod.snd).filterMap Failure.circular?).map Prod.fst).Sublist
      (account.map Prod.fst) := by
  induction account with
  | nil => exact .slnil
  | cons x account ih =>
    have hx := h x List.mem_cons_self
    have hrest := ih fun y hy => h y (List.mem_cons_of_mem _ hy)
    rw [List.map_cons, List.map_cons, List.filterMap_cons]
    cases hf : x.2.circular? with
    | none => exact hrest.cons _
    | some y =>
      rw [List.map_cons, (hx.circular? hf).1]
      exact hrest.cons_cons _

/-- No failure of a call is circular. -/
theorem filterMap_circular (failures : List Failure) :
    (failures.filter fun f => !f.isCall).filterMap Failure.circular? =
      failures.filterMap Failure.circular? := by
  rw [List.filterMap_filter]
  refine List.filterMap_congr fun f _ => ?_
  cases f <;> rfl

end Context

namespace Ledger

variable {c : Context} {roots : List String} {bound : Nat} {account : List (String × Failure)}
  {l : Ledger}

/-- A failure that is not a call's is one that a name is to blame for. -/
theorem Accounts.blames (h : Accounts (c.Blames roots bound) account l) {f : Failure}
    (hf : f ∈ l.failures) (hcall : f.isCall = false) : ∃ n, c.Blames roots bound n f := by
  have hm : f ∈ account.map Prod.snd :=
    h.failures ▸ List.mem_filter.2 ⟨List.mem_reverse.1 hf, by simp [hcall]⟩
  obtain ⟨x, hx, rfl⟩ := List.mem_map.1 hm
  exact ⟨x.1, h.granted x hx⟩

theorem Accounts.circular_once (h : Accounts (c.Blames roots bound) account l) :
    ((l.failures.filterMap Failure.circular?).map Prod.fst).Nodup := by
  have hs := (Context.circular_sublist h.granted).nodup h.names
  rw [h.failures, Context.filterMap_circular] at hs
  rwa [Ledger.failures, List.filterMap_reverse, List.map_reverse, List.nodup_reverse]

/-- The accounts of the failures, in the order in which these were listed. -/
theorem Accounts.exists_account (h : Accounts (c.Blames roots bound) account l) :
    ∃ account : List (String × Failure),
      account.map Prod.snd = l.failures.filter (fun f => !f.isCall) ∧
        (account.map Prod.fst).Nodup ∧ ∀ x ∈ account, c.Blames roots bound x.1 x.2 := by
  refine ⟨account.reverse, ?_, ?_, fun x hx => h.granted x (List.mem_reverse.1 hx)⟩
  · rw [List.map_reverse, h.failures, Ledger.failures, List.filter_reverse]
  · rw [List.map_reverse, List.nodup_reverse]
    exact h.names

end Ledger

namespace Engine

open Context Pass

variable {U : Context → Prop} {e : Engine} {c : Context} {graph : Graph} {template : String}
  {segments : List Segment} {n : String} {I : Cache → Prop} {L : Library}
  {B : String → Failure → Prop}

/-- The cycles of a pass consist of references among the names that are reached. -/
theorem pass_cycle (hg : Graph.ofContext c (variableNames segments) = .ok graph)
    {x : String × List String} (hx : x ∈ (e.pass c graph.cycles).circular) :
    x.1 ∈ x.2 ∧ Graph.IsCycle (c.RefersAmong (variableNames segments)) x.2 := by
  have hd := Graph.ofContext_depicts hg
  have hedge : graph.Edge = c.RefersAmong (variableNames segments) := by
    funext a b
    exact propext (hd.edge a b)
  obtain ⟨hc, hn⟩ := Graph.of_mem_cycleMembers hx
  exact ⟨hn, hedge ▸ (Graph.sound_cycles hd.wellFormed).cycle _ hc⟩

/-- What is too deep is a name of the template whose value can be read. -/
theorem pass_tooDeep (hI : (e.pass c graph.cycles).Upholds I)
    (hg : Graph.ofContext c (variableNames segments) = .ok graph) {m : String}
    {inner : List String} {l : Ledger} (hn : n ∈ variableNames segments) (hl : I l.cache)
    (h : ((e.pass c graph.cycles).expandVariable e.maxDepth n l).1 = .error (.tooDeep m inner)) :
    c.Blames (variableNames segments) e.maxDepth n (.tooDeep m inner e.maxDepth) := by
  obtain rfl := expandVariable_outermost h
  obtain ⟨hc, d, inner, hd, hp⟩ := expandVariable_tooDeep hI e.maxDepth_pos hl h
  refine .tooDeep hn ⟨fun ho => ?_, d, hd, hp⟩
  have hsome := (pass_circular (e := e) hg).2 ⟨⟨m, hn, .refl⟩, ho⟩
  rw [hc] at hsome
  cases hsome

/-- A pass lists nothing but failures of calls and what names are to blame for; the circular names
come first. -/
theorem pass_run (hU : Context.CollisionFree U) (ht : ∀ c, U c → c.HasTexts) (hc : U c)
    (he : e.IsGenuine U) (hg : Graph.ofContext c (variableNames segments) = .ok graph) :
    let p := e.pass c graph.cycles
    let B := c.Blames (variableNames segments) e.maxDepth
    Ledger.Run e.library B e.ledger (p.failCircular e.ledger) ∧
      Ledger.Run e.library B (p.failCircular e.ledger) (p.expandTemplate segments e.ledger).2 := by
  intro p B
  have hI : p.Upholds fun k => k.All (Genuine U) := upholds_genuine hU ht hc graph.cycles
  have hcircular : ∀ x ∈ p.circular, B x.1 (.circular x.1 x.2) := by
    intro x hx
    obtain ⟨hn, hcycle⟩ := pass_cycle hg hx
    exact .circular hn hcycle
  refine ⟨failCircular_run p p.circular e.ledger hcircular, ?_⟩
  exact (expandTemplate_runs (blames_grants p _ _) (fun n _ hl => expandTop_cache hI n hl)
    (fun n l m inner hn hl h => pass_tooDeep hI hg hn hl h)
    (failCircular_ledger e c graph.cycles).warned (all_ledger he)).run

/-- Each circular name is listed, with its cycle, from the start. -/
theorem circular_listed {l : Ledger} {x : String × List String}
    (hr : Ledger.Run L B ((e.pass c graph.cycles).failCircular e.ledger) l)
    (hx : x ∈ (e.pass c graph.cycles).circular) : .circular x.1 x.2 ∈ l.recentFailures := by
  have hf : ((e.pass c graph.cycles).failCircular e.ledger).recentFailures = _ :=
    failCircular_failures (e.pass c graph.cycles) (Graph.cycleMembers_nodup graph.cycles)
      fun _ _ _ => List.not_mem_nil
  refine hr.failures.subset (hf ▸ List.mem_append_left _ (List.mem_reverse.2 ?_))
  exact List.mem_map_of_mem hx

/-- A trace tells the references among the names that are reached. -/
theorem depends_eq {l : Ledger} {x : Expansion} {t : Trace}
    (hg : Graph.ofContext c (variableNames segments) = .ok graph) (hr : t.Records graph x l) :
    t.DependsOn = c.RefersAmong (variableNames segments) := by
  have hd := Graph.ofContext_depicts hg
  funext a b
  unfold Trace.DependsOn
  rw [hr.dependencies, propext hd.wellFormed.mem_lookIn]
  exact propext (hd.edge a b)

/-- A trace of an expansion is exact. -/
theorem records_exact {l : Ledger} {x : Expansion} {t : Trace} (hU : Context.CollisionFree U)
    (ht : ∀ c, U c → c.HasTexts) (hc : U c) (he : e.IsGenuine U)
    (hp : Template.parse template = .ok (.ok segments))
    (hg : Graph.ofContext c (variableNames segments) = .ok graph)
    (hx : (e.pass c graph.cycles).expandTemplate segments e.ledger = (.ok x, l))
    (hr : t.Records graph x l) :
    t.IsExact c (variableNames segments) e.maxDepth e.library (e.calls c template) := by
  obtain ⟨hstart, hrest⟩ := pass_run hU ht hc he hg
  rw [hx] at hrest
  have hrun : Ledger.Run e.library (c.Blames (variableNames segments) e.maxDepth) e.ledger l :=
    hstart.trans hrest
  have hB : ∀ n f, c.Blames (variableNames segments) e.maxDepth n f → f.isCall = false :=
    fun _ _ h => h.not_isCall
  obtain ⟨account, ha⟩ := hrun.accounts hB (blames_oneWay _ _ _)
    ⟨[], rfl, List.nodup_nil, fun x hx => absurd hx List.not_mem_nil,
      fun x hx => absurd hx List.not_mem_nil⟩
  have hfailed : l.CallsListed := hrun.callsListed hB .nil
  have hcalls : e.calls c template = l.recentCalls.reverse := by rw [calls_expand hp hg, hx]
  have hedge := depends_eq hg hr
  have hcircular : ∀ {x : String × List String}, x ∈ t.failures.filterMap Failure.circular? →
      x.1 ∈ x.2 ∧ Graph.IsCycle (c.RefersAmong (variableNames segments)) x.2 := by
    intro x hx
    obtain ⟨f, hf, hfx⟩ := List.mem_filterMap.1 hx
    obtain rfl := Failure.circular?_eq_some.1 hfx
    obtain ⟨n, hn⟩ := ha.blames (hr.failures ▸ hf) rfl
    exact (hn.circular? hfx).2
  refine ⟨hr.failures ▸ ha.circular_once, fun n => ⟨fun hn => ?_, fun hn => ?_⟩,
    fun n cycle hf => ?_, hr.failures ▸ ha.exists_account, fun n inner m hf => ?_,
    calls_told e c template, ?_⟩
  · obtain ⟨x, hx, rfl⟩ := List.mem_map.1 hn
    obtain ⟨hn, hcycle⟩ := hcircular hx
    exact reached_of_cycle hn hcycle
  · obtain ⟨x, hx, rfl⟩ := List.mem_map.1 (cycle?_isSome.1 ((pass_circular (e := e) hg).2 hn))
    have hm : .circular x.1 x.2 ∈ t.failures :=
      hr.failures ▸ List.mem_reverse.2 (circular_listed hrest hx)
    exact List.mem_map.2 ⟨x, List.mem_filterMap.2 ⟨_, hm, Failure.circular?_eq_some.2 rfl⟩, rfl⟩
  · rw [hedge]
    exact hcircular (x := (n, cycle)) (List.mem_filterMap.2 ⟨_, hf, rfl⟩)
  · obtain ⟨k, hk⟩ := ha.blames (hr.failures ▸ hf) rfl
    cases hk with
    | tooDeep hn => exact hn
  · rw [hr.failures, hcalls, Ledger.failures, List.filter_reverse, List.filter_reverse]
    exact List.rel_reverse hfailed

/-- **The failures that a call lists are exact**, whatever engines that share the cache have put into
it. -/
theorem failures_exact {U : Context → Prop} (hU : Context.CollisionFree U)
    (ht : ∀ c, U c → c.HasTexts) {e : Engine} (he : e.IsStocked U) {c : Context} (hc : U c)
    {template : String} {segments : List Segment}
    (hp : Template.parse template = .ok (.ok segments)) (stamp : Stamp) :
    e.Yields c template
      (fun t => t.IsExact c (variableNames segments) e.maxDepth e.library (e.calls c template))
      (e.resolve c template stamp).1 :=
  yields_of_records (ht c hc) hp stamp fun _ _ _ _ hg hx hr =>
    records_exact hU ht hc (he.isGenuine hU ht) hp hg hx hr

/-- A name on a cycle, one that is undefined and met twice, one that is malformed, one that is too
deep, and a function that is not there. -/
theorem exact_faults :
    let c : Context := { global := [
      { name := "loop", value := .text "$\x7bloop\x7d" },
      { name := "open", value := .text "$\x7b" },
      { name := "host", value := .text "api.$\x7bdomain\x7d" }] }
    let e : Engine := {
      cache := some { capacity := .int 1, lifetime := some (.int 60) }
      library := ⟨[]⟩
      sources := .preview
      maxDepth := 1
      maxDepth_pos := by decide }
    let template := "$\x7bloop\x7d$\x7bgone\x7d$\x7bgone\x7d$\x7bopen\x7d$\x7bhost\x7d$\x7bf()\x7d"
    ∃ segments, Template.parse template = .ok (.ok segments) ∧
      variableNames segments = ["loop", "gone", "open", "host"] ∧
      e.Yields c template
        (fun t => t.IsExact c (variableNames segments) 1 ⟨[]⟩ (e.calls c template))
        (e.resolve c template).1 := by
  intro c e template
  have ht : ∀ d, d = c → d.HasTexts := by
    rintro d rfl
    decide
  have he : e.IsStocked (· = c) := by
    rintro k ⟨⟩
    exact ⟨_, rfl, .refl⟩
  have hp : Template.parse
      "$\x7bloop\x7d$\x7bgone\x7d$\x7bgone\x7d$\x7bopen\x7d$\x7bhost\x7d$\x7bf()\x7d" = .ok (.ok [
      .reference ⟨"loop", none, "$\x7bloop\x7d", ⟨0, 7⟩⟩,
      .reference ⟨"gone", none, "$\x7bgone\x7d", ⟨7, 14⟩⟩,
      .reference ⟨"gone", none, "$\x7bgone\x7d", ⟨14, 21⟩⟩,
      .reference ⟨"open", none, "$\x7bopen\x7d", ⟨21, 28⟩⟩,
      .reference ⟨"host", none, "$\x7bhost\x7d", ⟨28, 35⟩⟩,
      .reference ⟨"f", some [], "$\x7bf()\x7d", ⟨35, 41⟩⟩]) := by cbv
  exact ⟨_, hp, by cbv, failures_exact (Context.CollisionFree.single c) ht he rfl hp {}⟩

end Engine
end Stencil
