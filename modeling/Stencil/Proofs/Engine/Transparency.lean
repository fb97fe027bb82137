/-
# The cache is transparent

Whatever calls an engine has answered, and however its cache was cleaned and
its clock moved in between, the next call has the same answer as it would have
with an empty cache, and invokes the same functions; only fewer of the names
that an entry stands for may be listed as resolved.

An entry is genuine if it says what its name stands for in every context that
it may be found for. Calls put genuine entries into a cache only, and an
expansion that finds genuine entries agrees with one that finds none.

Key definitions: `Engine.Step`, `Engine.IsSane`, `Trace.Matches`, `Outcome`.
Key theorems: `IsSane.of_run`, `cache_is_transparent`.
-/
import Stencil.Proofs.Engine.Call
import Stencil.Proofs.Expansion.Agreement

namespace Stencil

open Template

/-- What a trace has in common with that of the same call made with an empty cache. -/
structure Trace.Matches (t cold : Trace) : Prop where
  value : t.value = cold.value
  isSuccess : t.isSuccess = cold.isSuccess
  unresolved : t.unresolved = cold.unresolved
  failures : t.failures.map Failure.outline = cold.failures.map Failure.outline
  cycles : t.cycles = cold.cycles
  dependencies : t.dependencies = cold.dependencies
  resolved : t.resolved ⊆ cold.resolved

theorem Trace.Matches.refl (t : Trace) : t.Matches t :=
  ⟨rfl, rfl, rfl, rfl, rfl, rfl, fun _ h => h⟩

/-- What a call comes to, compared with the same call made with an empty cache. -/
inductive Outcome : Except Refusal Trace → Except Refusal Trace → Prop where
  | trace {t cold : Trace} (h : t.Matches cold) : Outcome (.ok t) (.ok cold)
  | refused (r : Refusal) : Outcome (.error r) (.error r)

namespace Pass

open Ledger

variable {U : Context → Prop} {p : Pass} {isFresh : Prop} {l l₀ : Ledger}

/-! ### What ledgers that agree list -/

theorem unresolved_others {marks : List (String × Bool)}
    (h : ∀ s ∈ marks, p.IsPlain s.1 → s.2 = true) :
    marks.filter (fun s => !s.2) = (p.others marks).filter fun s => !s.2 := by
  unfold others
  rw [List.filter_filter]
  refine List.filter_congr fun s hs => ?_
  by_cases hp : p.IsPlain s.1
  · simp [h s hs hp]
  · simp [hp]

theorem Agrees.unresolved (h : Agrees U p isFresh l l₀) : l.unresolved = l₀.unresolved := by
  unfold Ledger.unresolved
  rw [unresolved_others fun s hs hp => h.status.resolved s (h.status.fewer s hs hp) hp,
    unresolved_others h.status.resolved, h.status.others]

theorem Tallies.mem {marks marks₀ : List (String × Bool)} (h : Tallies p isFresh marks marks₀)
    {s : String × Bool} (hs : s ∈ marks) : s ∈ marks₀ := by
  by_cases hp : p.IsPlain s.1
  · exact h.fewer s hs hp
  · have hm := mem_others.2 ⟨hs, hp⟩
    rw [h.others] at hm
    exact (mem_others.1 hm).1

theorem Tallies.mem_of_fresh {marks marks₀ : List (String × Bool)}
    (h : Tallies p isFresh marks marks₀) (hf : isFresh) {s : String × Bool} (hs : s ∈ marks₀) :
    s ∈ marks := by
  by_cases hp : p.IsPlain s.1
  · exact h.same hf s hs hp
  · have hm := mem_others.2 ⟨hs, hp⟩
    rw [← h.others] at hm
    exact (mem_others.1 hm).1

theorem mem_resolved {n : String} : n ∈ l.resolved ↔ (n, true) ∈ l.status := by
  unfold resolved
  simp

theorem Agrees.resolved_subset {lc : Ledger} (h : Agrees U p isFresh l l₀)
    (hc : Agrees U p True lc l₀) : l.resolved ⊆ lc.resolved := by
  intro n hn
  exact mem_resolved.2 (hc.status.mem_of_fresh trivial (h.status.mem (mem_resolved.1 hn)))

end Pass

namespace Engine

open Pass

/-- What an engine does in a run over the contexts of `U`: calls, invalidations, clearing the cache,
and time going by or other sources taking over in between. -/
inductive Step (U : Context → Prop) : Engine → Engine → Prop where
  | resolve {c : Context} (hc : U c) (e : Engine) (template : String) (stamp : Stamp) :
      Step U e (e.resolve c template stamp).2
  | invalidate (e : Engine) (name : String) : Step U e (e.invalidate name).2
  | clear (e : Engine) : Step U e { e with cache := e.cache.map Cache.clear }
  | sources (e : Engine) {s : Sources} (hs : s.IsSteady) : Step U e { e with sources := s }

/-- Each entry of the cache is genuine, the clock is steady and no function changes that. -/
structure IsSane (U : Context → Prop) (e : Engine) : Prop where
  entries : ∀ cache, e.cache = some cache → cache.All (Genuine U)
  steady : e.sources.IsSteady
  library : e.library.IsSteady

/-- The engine with another cache, or with none. -/
def withCache (e : Engine) (k : Option Cache) : Engine := { e with cache := k }

/-- The engine with a cache that keeps nothing, even during a call. -/
def bare (e : Engine) : Engine := e.withCache (some (.ofCapacity 0))

variable {U : Context → Prop} {e : Engine} {c : Context} {graph : Graph} {template : String}
  {segments : List Segment}

theorem withCache_pass (e : Engine) (k : Option Cache) (c : Context) (cycles : List (List String)) :
    (e.withCache k).pass c cycles = e.pass c cycles := rfl

theorem withCache_bare (e : Engine) (k : Option Cache) : (e.withCache k).bare = e.bare := rfl

theorem IsSane.entries_ledger (h : e.IsSane U) : e.ledger.cache.All (Genuine U) :=
  all_ledger h.entries

theorem IsFresh.isSane (h : e.IsFresh) (hs : e.sources.IsSteady) (hl : e.library.IsSteady) :
    e.IsSane U :=
  ⟨fun cache hc x hx => absurd hx (by rw [h cache hc]; exact List.not_mem_nil), hs, hl⟩

/-- Fingerprints tell what names mean in the pass of a call. -/
theorem fits (hU : Context.CollisionFree U) (ht : ∀ c, U c → c.HasTexts) (hl : e.library.IsSteady)
    {roots : List String} (hc : U c) (hg : Graph.ofContext c roots = .ok graph) :
    Fits U (e.pass c graph.cycles) :=
  ⟨pass_isSound hg, hc, rfl,
    fun d hd he n => hU.reading_eq hc hd (ht c hc) (ht d hd) he.symm n, hl⟩

/-- A call begins with a ledger that agrees with that of a call that keeps nothing. -/
theorem agrees_ledger {p : Pass} {isFresh : Prop} (h : e.IsSane U) (hf : isFresh → e.IsFresh) :
    Agrees U p isFresh e.ledger e.bare.ledger := by
  refine ⟨fun x hx => ⟨h.entries_ledger x hx, fun hx' => ?_⟩, Cache.isIdle_ofCapacity, h.steady,
    rfl, rfl, rfl, rfl, .start⟩
  rw [(hf hx').entries_ledger] at hx
  exact absurd hx List.not_mem_nil

theorem expandTemplate_bare (hU : Context.CollisionFree U) (ht : ∀ c, U c → c.HasTexts)
    (isFresh : Prop) (h : e.IsSane U) (hf : isFresh → e.IsFresh) (hc : U c)
    (hp : Template.parse template = .ok (.ok segments))
    (hg : Graph.ofContext c (variableNames segments) = .ok graph) :
    Simulates U (e.pass c graph.cycles) isFresh Eq
      ((e.pass c graph.cycles).expandTemplate segments e.ledger)
      ((e.pass c graph.cycles).expandTemplate segments e.bare.ledger) :=
  expandTemplate_simulates (fits hU ht h.library hc hg) (parse_names hp) (agrees_ledger h hf)

/-- With an empty cache there is but one context to be told from. -/
theorem expandTemplate_fresh (hl : e.library.IsSteady) (hs : e.sources.IsSteady) (hf : e.IsFresh)
    (ht : c.HasTexts) (hp : Template.parse template = .ok (.ok segments))
    (hg : Graph.ofContext c (variableNames segments) = .ok graph) :
    Simulates (· = c) (e.pass c graph.cycles) True Eq
      ((e.pass c graph.cycles).expandTemplate segments e.ledger)
      ((e.pass c graph.cycles).expandTemplate segments e.bare.ledger) := by
  have hU := Context.CollisionFree.single c
  have hT : ∀ d, d = c → d.HasTexts := by
    rintro d rfl
    exact ht
  exact expandTemplate_bare hU hT True (hf.isSane hs hl) (fun _ => hf) rfl hp hg

/-! ### Runs -/

/-- A call leaves genuine entries only. -/
theorem IsSane.resolve (hU : Context.CollisionFree U) (ht : ∀ c, U c → c.HasTexts)
    (h : e.IsSane U) (hc : U c) (template : String) (stamp : Stamp) :
    (e.resolve c template stamp).2.IsSane U := by
  have hl : (e.ending c template).cache.All (Genuine U) ∧
      (e.ending c template).sources.IsSteady := by
    obtain hend | ⟨segments, graph, hp, hg, hend⟩ := ending_cases e c template
    · rw [hend]
      exact ⟨h.entries_ledger, h.steady⟩
    · rw [hend]
      have hs := expandTemplate_bare hU ht False h False.elim hc hp hg
      generalize (e.pass c graph.cycles).expandTemplate segments e.ledger = a at hs ⊢
      generalize (e.pass c graph.cycles).expandTemplate segments e.bare.ledger = a₀ at hs
      cases hs with
      | ok ha => exact ⟨ha.entries.mono fun _ _ _ hk => hk.1, ha.steady⟩
      | error _ ha => exact ⟨ha.entries.mono fun _ _ _ hk => hk.1, ha.steady⟩
  rw [resolve_engine]
  refine ⟨fun cache hcache => ?_, hl.2, h.library⟩
  obtain ⟨_, -, rfl⟩ := Option.map_eq_some_iff.1 hcache
  exact hl.1

/-- Each step of a run leaves genuine entries only. -/
theorem IsSane.step (hU : Context.CollisionFree U) (ht : ∀ c, U c → c.HasTexts)
    {e' : Engine} (h : e.IsSane U) (hs : Step U e e') : e'.IsSane U := by
  cases hs with
  | resolve hc _ template stamp => exact h.resolve hU ht hc template stamp
  | invalidate _ name =>
    unfold invalidate
    split
    · exact h
    · rename_i cache hcache
      refine ⟨fun cache' hc' => ?_, h.steady, h.library⟩
      cases hc'
      exact (h.entries cache hcache).invalidate name
  | clear =>
    refine ⟨fun cache' hc' => ?_, h.steady, h.library⟩
    obtain ⟨cache, -, rfl⟩ := Option.map_eq_some_iff.1 hc'
    exact Cache.All.clear cache
  | sources _ hs => exact ⟨h.entries, hs, h.library⟩

/-- A run that begins without entries never has any but genuine ones. -/
theorem IsSane.of_run (hU : Context.CollisionFree U) (ht : ∀ c, U c → c.HasTexts)
    {e₀ : Engine} (h : e₀.IsSane U) (hr : Relation.ReflTransGen (Step U) e₀ e) : e.IsSane U := by
  induction hr with
  | refl => exact h
  | tail _ hs ih => exact ih.step hU ht hs

/-! ### The answer of a call -/

/-- Expansions of a template that agree with one that keeps nothing make traces that match. -/
theorem matches_close {p : Pass} {l lc l₀ : Ledger} {x : Expansion} {r : Recorder}
    (h : Agrees U p False l l₀) (hc : Agrees U p True lc l₀) :
    ((replay r l).close {
      value := x.text
      resolved := l.resolved
      unresolved := l.unresolved
      dependencies := graph.adjacency
      cycles := graph.cycles }).1.Matches
    ((replay r lc).close {
      value := x.text
      resolved := lc.resolved
      unresolved := lc.unresolved
      dependencies := graph.adjacency
      cycles := graph.cycles }).1 := by
  have hu : l.unresolved = lc.unresolved := h.unresolved.trans hc.unresolved.symm
  have hf : ((replay r l).failures ++ []).map Failure.outline =
      ((replay r lc).failures ++ []).map Failure.outline := by
    have hl := h.failures.trans hc.failures.symm
    rw [List.append_nil, List.append_nil, replay_failures, replay_failures, List.map_append,
      List.map_append]
    unfold Ledger.failures
    rw [List.map_reverse, List.map_reverse, hl]
  refine ⟨rfl, ?_, hu, hf, rfl, rfl, fun n hn => ?_⟩
  · have hlen := congrArg List.length hf
    rw [List.length_map, List.length_map] at hlen
    unfold Trace.isSuccess
    rw [Bool.eq_iff_iff, List.isEmpty_iff_length_eq_zero, List.isEmpty_iff_length_eq_zero]
    exact hlen ▸ Iff.rfl
  · obtain ⟨hn, hx⟩ := List.mem_filter.1 hn
    exact List.mem_filter.2 ⟨h.resolved_subset hc hn, by rwa [← hu]⟩

/-- Two calls that differ in the cache only, the second with an empty one: their answers match, they
invoke the same functions, and they leave the same sources. -/
theorem resolve_matches (hU : Context.CollisionFree U) (ht : ∀ c, U c → c.HasTexts)
    {k : Option Cache} (h : e.IsSane U) (hk : (e.withCache k).IsFresh) (hc : U c)
    (template : String) (stamp : Stamp) :
    Outcome (e.resolve c template stamp).1 ((e.withCache k).resolve c template stamp).1 ∧
      e.calls c template = (e.withCache k).calls c template ∧
      (e.resolve c template stamp).2.sources =
        ((e.withCache k).resolve c template stamp).2.sources := by
  rw [resolve_engine, resolve_engine]
  unfold calls
  cases resolve_goes c template with
  | overlong hp =>
    rw [resolve_overlong hp, resolve_overlong hp, ending_overlong hp, ending_overlong hp]
    exact ⟨.refused _, rfl, rfl⟩
  | malformed hp =>
    rw [resolve_malformed hp, resolve_malformed hp, ending_malformed hp, ending_malformed hp]
    exact ⟨.trace (.refl _), rfl, rfl⟩
  | unread hp hg =>
    rw [resolve_parsed hp, resolve_parsed hp, expand_unread hg, expand_unread hg,
      ending_unread hp hg, ending_unread hp hg]
    exact ⟨.refused _, rfl, rfl⟩
  | @expanded segments graph hp hg =>
    have hs := expandTemplate_bare hU ht False h False.elim hc hp hg
    have hs' := expandTemplate_bare hU ht True
      (hk.isSane (U := U) h.steady h.library) (fun _ => hk) hc hp hg
    rw [withCache_pass, withCache_bare] at hs'
    rw [resolve_parsed hp, resolve_parsed hp, ending_expand hp hg, ending_expand hp hg,
      withCache_pass]
    generalize hx : (e.pass c graph.cycles).expandTemplate segments e.ledger = a at hs ⊢
    generalize hx' : (e.pass c graph.cycles).expandTemplate segments
      (e.withCache k).ledger = a' at hs' ⊢
    generalize (e.pass c graph.cycles).expandTemplate segments e.bare.ledger = a₀ at hs hs'
    cases hs with
    | ok hl =>
      cases hs' with
      | ok hl' =>
        refine ⟨?_, by rw [hl.calls, hl'.calls], hl.sources.symm.trans hl'.sources⟩
        rw [expand_ok hg hx, expand_ok hg hx']
        exact .trace (matches_close hl hl')
    | error he hl =>
      cases he
      cases hs' with
      | error he' hl' =>
        cases he'
        refine ⟨?_, by rw [hl.calls, hl'.calls], hl.sources.symm.trans hl'.sources⟩
        rw [expand_error hg hx, expand_error hg hx']
        exact .refused _

/-- **Every call of a run has the answer that it would have with an empty cache, or with none.** -/
theorem cache_is_transparent {U : Context → Prop} (hU : Context.CollisionFree U)
    (ht : ∀ c, U c → c.HasTexts) {e₀ e : Engine} (hl : e₀.library.IsSteady)
    (hs : e₀.sources.IsSteady) (hf : e₀.IsFresh) (hr : Relation.ReflTransGen (Step U) e₀ e)
    {c : Context} (hc : U c) (template : String) (stamp : Stamp) {k : Option Cache}
    (hk : (e.withCache k).IsFresh) :
    Outcome (e.resolve c template stamp).1 ((e.withCache k).resolve c template stamp).1 ∧
      e.calls c template = (e.withCache k).calls c template ∧
      (e.resolve c template stamp).2.sources =
        ((e.withCache k).resolve c template stamp).2.sources :=
  resolve_matches hU ht ((hf.isSane hs hl).of_run hU ht hr) hk hc template stamp

theorem preview_isSteady : Sources.preview.IsSteady := ⟨.float 1704067200, by rfl⟩

/-- An engine that keeps one entry for a minute expands a variable, forgets what it refers to, and
expands it again. -/
theorem transparent_after_invalidation :
    let c : Context := { global := [
      { name := "host", value := .text "api.$\x7bdomain\x7d" },
      { name := "domain", value := .text "example.org" }] }
    let e₀ : Engine := {
      cache := some { capacity := .int 1, lifetime := some (.int 60) }
      library := .standard
      sources := .preview
      maxDepth := 2
      maxDepth_pos := by decide }
    let e := ((e₀.resolve c "$\x7bhost\x7d").2.invalidate "domain").2
    Outcome (e.resolve c "$\x7bhost\x7d $\x7buuid()\x7d").1
        ((e.withCache none).resolve c "$\x7bhost\x7d $\x7buuid()\x7d").1 ∧
      e.calls c "$\x7bhost\x7d $\x7buuid()\x7d" =
        (e.withCache none).calls c "$\x7bhost\x7d $\x7buuid()\x7d" ∧
      (e.resolve c "$\x7bhost\x7d $\x7buuid()\x7d").2.sources =
        ((e.withCache none).resolve c "$\x7bhost\x7d $\x7buuid()\x7d").2.sources := by
  intro c e₀ e
  have ht : ∀ d, d = c → d.HasTexts := by
    rintro d rfl
    decide
  have hU : Context.CollisionFree (· = c) := by
    rintro _ _ rfl rfl _
    rfl
  have hf : e₀.IsFresh := by
    intro cache hc
    cases hc
    rfl
  have hr : Relation.ReflTransGen (Step (· = c)) e₀ e :=
    .tail (.single (Step.resolve (U := (· = c)) (c := c) rfl _ _ _)) (.invalidate _ _)
  exact cache_is_transparent hU ht standard_isSteady preview_isSteady hf hr rfl _ _
    (k := none) fun cache hc => by cases hc

end Engine
end Stencil
