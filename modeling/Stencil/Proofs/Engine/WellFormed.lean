/-
# Traces are well formed

Where every step of a call was kept, its trace is well formed: the steps are
numbered from one, a miss is followed by the lookup of its variable, what ends
the expansion of a value has a lookup before it that began it with only deeper
steps in between, and no step is deeper than the bound. The lookups and hits are
the references that were evaluated, each of them once. The cache counts the
hits and misses that the trace counts.

Key definitions: `Trace.WellFormed`, `Engine.visits`.
Key theorem: `resolve_wellFormed`.
-/
import Stencil.Proofs.Engine.Replay
import Stencil.Proofs.Expansion.Visits

namespace Stencil

open Template

namespace Tracking

/-- Every step and every detail is kept as long as there is room. -/
structure KeepsAll (k : Tracking) : Prop where
  isEnabled : k.isEnabled = true
  keepsCache : k.keepsCache = true
  keepsDetails : k.keepsDetails = true

/-- Setting a detail changes what is told under its key, and nothing else. -/
theorem lookup_setDetail (key k : String) (v : Value) (ds : List (String × Value)) :
    (setDetail k v ds).lookup key = if key = k then some v else ds.lookup key := by
  induction ds with
  | nil =>
    rw [setDetail, List.lookup_cons]
    by_cases h : key = k
    · rw [if_pos h, beq_iff_eq.2 h]
    · rw [if_neg h, beq_eq_false_iff_ne.2 h]
  | cons d ds ih =>
    obtain ⟨k', v'⟩ := d
    rw [setDetail]
    split_ifs with hk hkey hkey
    · obtain rfl := beq_iff_eq.1 hk
      subst hkey
      exact List.lookup_cons_self
    · obtain rfl := beq_iff_eq.1 hk
      rw [List.lookup_cons, List.lookup_cons, beq_eq_false_iff_ne.2 hkey]
    · subst hkey
      have hne : (key == k') = false := by
        rw [beq_eq_false_iff_ne]
        rintro rfl
        exact hk (beq_self_eq_true _)
      rw [List.lookup_cons, hne, ih, if_pos rfl]
    · rw [List.lookup_cons, List.lookup_cons, ih, if_neg hkey]

variable {k : Tracking} {e : Event}

/-- The depth of an event is told with the step it becomes. -/
theorem lookup_depth_shape (hk : k.keepsDetails = true)
    (he : "depth" ∉ e.details.map Prod.fst) :
    (k.shape e).details.lookup "depth" = some (.int e.depth) := by
  have h : ∀ (ds base : List (String × Value)), "depth" ∉ ds.map Prod.fst →
      (ds.foldl (fun ds kv => setDetail kv.1 kv.2 ds) base).lookup "depth" = base.lookup "depth" := by
    intro ds
    induction ds with
    | nil => exact fun _ _ => rfl
    | cons d ds ih =>
      intro base hd
      rw [List.map_cons, List.mem_cons, not_or] at hd
      rw [List.foldl_cons, ih _ hd.2, lookup_setDetail, if_neg hd.1]
  unfold shape
  rw [hk]
  exact h _ _ he

/-- The last detail of an event is told with the step it becomes. -/
theorem lookup_last_shape (hk : k.keepsDetails = true) {key : String} {v : Value}
    (he : e.details.getLast? = some (key, v)) : (k.shape e).details.lookup key = some v := by
  obtain ⟨ds, hds⟩ := List.getLast?_eq_some_iff.1 he
  unfold shape
  rw [hk, hds]
  dsimp only
  rw [if_pos rfl, List.foldl_append, List.foldl_cons, List.foldl_nil, lookup_setDetail, if_pos rfl]

end Tracking

namespace Metrics

variable {m : Metrics} {es : List Event} {bound : Int}

/-- What is counted of events. -/
theorem foldl_count (es : List Event) (m : Metrics) :
    (es.foldl count m).lookups = m.lookups + (es.filterMap Event.visit?).length ∧
      (es.foldl count m).hits = m.hits + (es.countP fun e => e.kind = .hit) ∧
      (es.foldl count m).misses = m.misses + (es.countP fun e => e.kind = .miss) := by
  induction es generalizing m with
  | nil => exact ⟨rfl, rfl, rfl⟩
  | cons e es ih =>
    obtain ⟨hl, hh, hm⟩ := ih (m.count e)
    rw [List.foldl_cons, hl, hh, hm, List.countP_cons, List.countP_cons, List.filterMap_cons]
    unfold count Event.visit?
    refine ⟨?_, ?_, ?_⟩ <;> split_ifs <;> simp_all <;> omega

/-- No depth is counted that no event has. -/
theorem foldl_count_maxDepth (hm : m.maxDepth ≤ bound) (h : ∀ e ∈ es, e.depth ≤ bound) :
    (es.foldl count m).maxDepth ≤ bound := by
  induction es generalizing m with
  | nil => exact hm
  | cons e es ih =>
    rw [List.foldl_cons]
    exact ih (max_le hm (h e List.mem_cons_self)) fun x hx => h x (List.mem_cons_of_mem _ hx)

end Metrics

/-- The steps of a trace are numbered and nested as they should be, and none is too deep. -/
structure Trace.WellFormed (t : Trace) (maxDepth : Nat) : Prop where
  numbers : t.steps.map Step.number = List.range' 1 t.steps.length
  /-- A miss is followed at once by the lookup of its variable. -/
  miss : ∀ i m, t.steps[i]? = some m → m.event.kind = .miss →
    ∃ s, t.steps[i + 1]? = some s ∧ s.event.kind = .lookup ∧ s.event.name = m.event.name ∧
      s.event.depth = m.event.depth
  /-- What ends a value comes after the lookup that began it, and all in between is deeper. -/
  nested : ∀ (i : Nat) n, t.steps[i]? = some n → n.event.kind = .nested →
    ∃ j s, j < i ∧ t.steps[j]? = some s ∧ s.event.kind = .lookup ∧
      s.event.name = n.event.name ∧ s.event.depth = n.event.depth ∧
      s.event.details.lookup "recursive" = some (.bool true) ∧
      ∀ k x, j < k → k < i → t.steps[k]? = some x → n.event.depth < x.event.depth
  /-- The depth of a step is one of its details. -/
  depth : ∀ s ∈ t.steps, s.event.details.lookup "depth" = some (.int s.event.depth) ∧
    s.event.depth ≤ maxDepth
  maxDepth : t.metrics.maxDepth ≤ maxDepth

namespace Engine

variable {e : Engine} {c : Context} {template : String} {stamp : Stamp} {t : Trace}

/-- The references to variables that a call evaluates, with their depths. -/
def visits (e : Engine) (c : Context) (template : String) : List (String × Int) :=
  match Template.parse template with
  | .ok (.ok segments) =>
    match Graph.ofContext c (variableNames segments) with
    | .ok graph => (e.pass c graph.cycles).visitsTemplate segments e.ledger
    | .error _ => []
  | _ => []

/-- A call that is not refused notes what it evaluates. -/
theorem ending_notes {x : Recorder.Ending} (h : e.outcome c template = .ok x) :
    ∃ es, Notes e.maxDepth 0 (e.visits c template) es e.ledger (e.ending c template) := by
  unfold visits ending
  cases outcome_concludes h with
  | malformed hp =>
    rw [hp]
    exact ⟨[], .quiet ⟨rfl, rfl, rfl⟩⟩
  | expanded hp hg hx =>
    rw [hp]
    dsimp only
    rw [hg]
    dsimp only
    rw [hx]
    exact Pass.expandTemplate_notes hx

/-- The outlines of events tell which of them are visits. -/
theorem visits_of_outlines {es : List Event} {os : List (StepKind × String × Int)}
    (h : es.map Event.outline = os) :
    es.filterMap Event.visit? =
      os.filterMap fun o => if o.1 = .lookup ∨ o.1 = .hit then some o.2 else none := by
  rw [← h, List.filterMap_map]
  rfl

theorem ledger_events (e : Engine) : e.ledger.events = [] := rfl

/-- Where every step was kept, the steps are those of all events. -/
theorem steps_of_untruncated {x : Recorder.Ending} (hk : e.tracking.KeepsAll)
    (ht : ((e.recorded c template stamp).close x).1.isTruncated = false) :
    ((e.recorded c template stamp).close x).1.steps.map Step.event =
        (e.ending c template).events.map e.tracking.shape ∧
      ((e.recorded c template stamp).close x).1.steps.map Step.number =
        List.range' 1 ((e.recorded c template stamp).close x).1.steps.length := by
  obtain ⟨hevents, hnumbers, htrunc⟩ := e.recorded_steps c template stamp
  have hall : e.wanted c template = (e.ending c template).events := by
    refine List.filter_eq_self.2 fun y _ => ?_
    rw [Tracking.wants, hk.isEnabled, hk.keepsCache]
    rfl
  have hroom : (e.wanted c template).length ≤ e.room c template :=
    Nat.not_lt.1 fun hlt => by
      have htrue : ((e.recorded c template stamp).close x).1.isTruncated = true := htrunc.2 hlt
      rw [ht] at htrue
      cases htrue
  rw [List.take_of_length_le hroom, hall] at hevents
  have hlength := congrArg List.length hnumbers
  rw [List.length_map, List.length_range'] at hlength
  exact ⟨hevents, hnumbers.trans (congrArg (List.range' 1) hlength.symm)⟩

/-- Steps that are those of events in order are in order. -/
theorem wellFormed_of_spells {es : List Event} {k : Tracking} {maxDepth : Nat} {d : Int}
    (hk : k.keepsDetails = true) (hs : Spells maxDepth d es)
    (hsteps : t.steps.map Step.event = es.map k.shape)
    (hnumbers : t.steps.map Step.number = List.range' 1 t.steps.length)
    (hmetrics : t.metrics.maxDepth ≤ maxDepth) : t.WellFormed maxDepth := by
  -- each step is that of the event at its place
  have hto : ∀ {i : Nat} {s : Stencil.Step}, t.steps[i]? = some s →
      ∃ x, es[i]? = some x ∧ s.event = k.shape x := by
    intro i s hi
    have h := congrArg (fun l : List Event => l[i]?) hsteps
    simp only [List.getElem?_map, hi, Option.map_some] at h
    obtain ⟨x, hx, hsx⟩ := Option.map_eq_some_iff.1 h.symm
    exact ⟨x, hx, hsx.symm⟩
  have hfrom : ∀ {i : Nat} {x : Event}, es[i]? = some x →
      ∃ s, t.steps[i]? = some s ∧ s.event = k.shape x := by
    intro i x hi
    have h := congrArg (fun l : List Event => l[i]?) hsteps
    simp only [List.getElem?_map, hi, Option.map_some] at h
    exact Option.map_eq_some_iff.1 h
  refine ⟨hnumbers, fun i m hi hm => ?_, fun i n hi hn => ?_, fun s hmem => ?_, hmetrics⟩
  · obtain ⟨x, hx, hmx⟩ := hto hi
    rw [hmx] at hm ⊢
    obtain ⟨y, hy, hkind, hname, hdepth⟩ := hs.miss_followed hx hm
    obtain ⟨s, hs', hsy⟩ := hfrom hy
    exact ⟨s, hs', by rw [hsy]; exact hkind, by rw [hsy]; exact hname, by rw [hsy]; exact hdepth⟩
  · obtain ⟨x, hx, hnx⟩ := hto hi
    rw [hnx] at hn ⊢
    obtain ⟨j, y, hj, hy, hkind, hname, hdepth, hrec, hdeep⟩ := hs.nested_opened hx hn
    obtain ⟨s, hs', hsy⟩ := hfrom hy
    refine ⟨j, s, hj, hs', by rw [hsy]; exact hkind, by rw [hsy]; exact hname,
      by rw [hsy]; exact hdepth, by rw [hsy]; exact Tracking.lookup_last_shape hk hrec,
      fun l z hjl hli hz => ?_⟩
    obtain ⟨w, hw, hzw⟩ := hto hz
    rw [hzw]
    exact hdeep l w hjl hli hw
  · obtain ⟨i, hi⟩ := List.mem_iff_getElem?.1 hmem
    obtain ⟨x, hx, hsx⟩ := hto hi
    obtain ⟨d', -, hat⟩ := hs.at_depth (List.mem_of_getElem? hx)
    rw [hsx]
    exact ⟨Tracking.lookup_depth_shape hk hat.untold, hat.depth_eq.symm ▸ hat.le_bound⟩

/-- **A trace of which every step was kept is well formed, tells of each reference evaluated once,
and agrees with the cache on hits and misses.** -/
theorem resolve_wellFormed (hk : e.tracking.KeepsAll)
    (h : (e.resolve c template stamp).1 = .ok t) (ht : t.isTruncated = false) :
    t.WellFormed e.maxDepth ∧
      (t.steps.map Step.event).filterMap Event.visit? = e.visits c template ∧
      t.metrics.lookups = (e.visits c template).length ∧
      ∀ k, e.cache = some k → ∃ k', (e.resolve c template stamp).2.cache = some k' ∧
        k'.hits = k.hits + t.metrics.hits ∧ k'.misses = k.misses + t.metrics.misses := by
  obtain ⟨x, hx, rfl⟩ := resolve_trace h
  obtain ⟨es, hes⟩ := ending_notes hx
  obtain ⟨hsteps, hnumbers⟩ := steps_of_untruncated hk ht
  have hevents : (e.ending c template).events = es := by
    rw [hes.events, ledger_events, List.nil_append]
  rw [hevents] at hsteps
  have hmetrics : ((e.recorded c template stamp).close x).1.metrics =
      es.foldl Metrics.count {} := by
    rw [← hevents]
    exact e.recorded_metrics c template stamp
  obtain ⟨hlookups, hhits, hmisses⟩ := Metrics.foldl_count es {}
  have hdepth : (es.foldl Metrics.count {}).maxDepth ≤ e.maxDepth :=
    Metrics.foldl_count_maxDepth (Int.natCast_nonneg _) fun y hy => by
      obtain ⟨d, -, hat⟩ := hes.spells.at_depth hy
      exact hat.depth_eq.symm ▸ hat.le_bound
  refine ⟨wellFormed_of_spells hk.keepsDetails hes.spells hsteps hnumbers (hmetrics ▸ hdepth), ?_,
    ?_, fun k hc => ?_⟩
  · rw [hsteps, List.filterMap_map, ← hes.visits]
    rfl
  · rw [hmetrics, hlookups, hes.visits]
    exact Nat.zero_add _
  · have hl : e.ledger.cache = k := by rw [ledger, hc]; rfl
    refine ⟨(e.ending c template).cache, ?_, ?_, ?_⟩
    · rw [resolve_engine, after, hc]
      rfl
    · rw [hes.hits, hl, hmetrics, hhits, Nat.zero_add]
    · rw [hes.misses, hl, hmetrics, hmisses, Nat.zero_add]

/-- A value that is expanded, and a variable in it that is in the cache when it is met again. -/
theorem greeting_wellFormed :
    let c : Context := { global := [
      { name := "greeting", value := .text "Hi $\x7bname\x7d" },
      { name := "name", value := .text "Ada" }] }
    let e : Engine := {
      cache := some (.ofCapacity 8)
      library := ⟨[]⟩
      sources := .preview
      maxDepth := 4
      maxDepth_pos := by decide }
    let template := "$\x7bgreeting\x7d$\x7bname\x7d"
    ∃ t, (e.resolve c template).1 = .ok t ∧ t.WellFormed 4 ∧
      (t.steps.map Step.event).filterMap Event.visit? =
        [("greeting", 0), ("name", 1), ("name", 0)] ∧
      t.metrics.lookups = 3 ∧
      ∃ k, (e.resolve c template).2.cache = some k ∧ k.hits = t.metrics.hits ∧
        k.misses = t.metrics.misses := by
  intro c e template
  let segments : List Segment := [
    .reference ⟨"greeting", none, "$\x7bgreeting\x7d", ⟨0, 11⟩⟩,
    .reference ⟨"name", none, "$\x7bname\x7d", ⟨11, 18⟩⟩]
  have hp : Template.parse "$\x7bgreeting\x7d$\x7bname\x7d" = .ok (.ok segments) := by cbv
  obtain ⟨graph, hg, hcycles⟩ : ∃ graph, Graph.ofContext c (variableNames segments) = .ok graph ∧
      graph.cycles = [] := ⟨{
    roots := ["greeting", "name"]
    nodes := [
      ⟨"greeting", some {
        isDefined := true, scope := some "global", value := some "Hi $\x7bname\x7d" }⟩,
      ⟨"name", some { isDefined := true, scope := some "global", value := some "Ada" }⟩]
    edges := [("greeting", "name")] }, by cbv, by cbv⟩
  -- the expansion does the same whatever the fingerprint of the context is
  have hrun : let a := (Pass.mk c "" e.library e.maxDepth []).expandTemplate segments e.ledger
      a.1.toOption.isSome ∧ a.2.events.map Event.outline = [
        (.miss, "greeting", 0), (.lookup, "greeting", 0), (.miss, "name", 1), (.lookup, "name", 1),
        (.nested, "greeting", 0), (.hit, "name", 0)] := by decide +kernel +zetaReduce
  obtain ⟨hsome, houtlines⟩ := hrun
  have hf : e.IsFresh := by
    rintro k ⟨⟩
    rfl
  have hsame := pass_acyclic hf c hcycles segments
  generalize (Pass.mk c "" e.library e.maxDepth []).expandTemplate segments e.ledger = a
    at hsame hsome houtlines
  rcases hx : (e.pass c graph.cycles).expandTemplate segments e.ledger with ⟨r | x, l⟩ <;>
    rw [hx] at hsame <;> obtain ⟨-, hl⟩ := hsame
  · cases hsome
  have hevents : l.events.map Event.outline = _ := hl.told.trans houtlines
  have hending : e.ending c template = l := by rw [ending_expand hp hg, hx]
  have hroom : ¬ e.room c template < (e.wanted c template).length := by
    have hwanted : (e.wanted c template).length ≤ 6 := by
      rw [wanted, hending]
      calc
        _ ≤ l.events.length := List.length_filter_le _ _
        _ = (l.events.map Event.outline).length := (List.length_map _).symm
        _ = 6 := congrArg List.length hevents
    rw [room, Tracking.room_int (b := 1000) rfl]
    omega
  have hk : e.tracking.KeepsAll := ⟨rfl, rfl, rfl⟩
  have hans : (e.resolve c template).1 = .ok ((e.recorded c template {}).close {
      value := x.text
      resolved := l.resolved
      unresolved := l.unresolved
      dependencies := graph.adjacency
      cycles := graph.cycles }).1 := by
    rw [resolve_eq, outcome_expand hp hg hx]
    rfl
  have htrunc : (e.recorded c template {}).isTruncated = false := by
    rw [← Bool.not_eq_true, (e.recorded_steps c template {}).2.2]
    exact hroom
  have hv : e.visits c template = [("greeting", 0), ("name", 1), ("name", 0)] := by
    unfold visits
    rw [hp]
    dsimp only
    rw [hg]
    obtain ⟨es, hes⟩ := Pass.expandTemplate_notes hx
    rw [hes.events, ledger_events, List.nil_append] at hevents
    exact hes.visits.symm.trans (visits_of_outlines hevents)
  obtain ⟨hwell, htold, hlookups, hcache⟩ := resolve_wellFormed hk hans htrunc
  obtain ⟨k, hk', hhits, hmisses⟩ := hcache _ rfl
  rw [hv] at htold hlookups
  exact ⟨_, hans, hwell, htold, hlookups, k, hk', hhits.trans (Nat.zero_add _),
    hmisses.trans (Nat.zero_add _)⟩

end Engine
end Stencil
