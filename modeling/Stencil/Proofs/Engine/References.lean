/-
# The references that a trace lists

A trace lists a graph: the names that are reached from those its template refers
to, with what they refer to, and its cycles are those of the graph
(`resolve_depicts`). All these names are identifiers, so none is the name of a
call. Its steps tell of events that the expansion may note (`step_tells`).

Key definition: `Trace.Depicts`.
Key theorems: `resolve_depicts`, `Trace.Depicts.cycles_ne_nil_iff`, `step_tells`.
-/
import Stencil.Proofs.Engine.Replay
import Stencil.Proofs.Expansion.Events
import Stencil.Proofs.Tree.Build

namespace Stencil

open Template Relation

/-- A trace lists a graph that is reached from what its template refers to. -/
structure Trace.Depicts (t : Trace) (reading : Reading) (g : Graph) : Prop where
  read : Template.read t.template = .ok reading
  wellFormed : g.IsWellFormed
  dependencies : t.dependencies = g.adjacency
  cycles : t.cycles = g.cycles
  named : ∀ n ∈ g.names, isIdentifier n.toList = true
  reached : ∀ n ∈ g.names, ∃ r ∈ variableNames reading.segments, ReflTransGen g.Edge r n

namespace Trace.Depicts

variable {t : Trace} {reading : Reading} {g : Graph}

theorem refers_iff (h : t.Depicts reading g) {a b : String} : t.Refers a b ↔ g.Edge a b := by
  unfold Refers
  rw [h.dependencies]
  exact h.wellFormed.mem_adjacency_iff

/-- A trace lists a cycle just where some name refers to itself, directly or through others. -/
theorem cycles_ne_nil_iff (h : t.Depicts reading g) :
    t.cycles ≠ [] ↔ ∃ n, TransGen t.Refers n n := by
  have hrefers : t.Refers = g.Edge := funext fun a => funext fun b => propext h.refers_iff
  rw [hrefers, h.cycles]
  constructor
  · intro hne
    obtain ⟨cycle, hc⟩ := List.exists_mem_of_ne_nil _ hne
    obtain ⟨n, hn⟩ :=
      List.exists_mem_of_ne_nil _ ((Graph.sound_cycles h.wellFormed).cycle cycle hc).ne_nil
    exact ⟨n, (Graph.mem_cycles_iff h.wellFormed).1 ⟨cycle, hc, hn⟩⟩
  · rintro ⟨n, hn⟩
    obtain ⟨cycle, hc, -⟩ := (Graph.mem_cycles_iff h.wellFormed).2 hn
    exact List.ne_nil_of_mem hc

/-- Names that a trace lists are no names of calls. -/
theorem not_isCallName (h : t.Depicts reading g) {a b : String} (hab : t.Refers a b) :
    ¬ IsCallName a := by
  rintro ⟨m, rfl⟩
  have hid := h.named _ (h.wellFormed.ends _ (h.refers_iff.1 hab)).1
  have hmem : '(' ∈ (Reference.callName m).toList := by simp [Reference.callName]
  exact absurd (Marker.isNameChar_of_identifier hid _ hmem) (by decide)

end Trace.Depicts

/-- What is reached from identifiers are identifiers. -/
theorem Context.Reached.named {c : Context} {roots : List String} {n : String}
    (h : c.Reached roots n) (hr : ∀ r ∈ roots, isIdentifier r.toList = true) :
    isIdentifier n.toList = true := by
  obtain ⟨r, hm, hrn⟩ := h
  cases hrn with
  | refl => exact hr n hm
  | tail _ hab =>
    obtain ⟨d, hd, hn⟩ := hab
    unfold Definition.references at hn
    split at hn
    · rename_i segments hp
      obtain ⟨q, hq, -, rfl⟩ := Context.mem_variableNames.1 hn
      exact Context.define?_names hd hp q hq
    · exact absurd hn List.not_mem_nil

theorem variableNames_named {segments : List Segment} (h : Pass.AreNamed segments) :
    ∀ n ∈ variableNames segments, isIdentifier n.toList = true := by
  intro n hn
  obtain ⟨q, hq, -, rfl⟩ := Context.mem_variableNames.1 hn
  exact h q hq

namespace Engine

variable {e : Engine} {c : Context} {template : String} {stamp : Stamp} {t : Trace}

/-- **A trace lists what is reached from its template.** -/
theorem resolve_depicts (h : (e.resolve c template stamp).1 = .ok t) :
    ∃ reading g, t.Depicts reading g := by
  obtain ⟨x, hx, rfl⟩ := resolve_trace h
  have htemplate : ((e.recorded c template stamp).close x).1.template = template :=
    e.recorded_template c template stamp
  cases outcome_concludes hx with
  | malformed hp =>
    obtain ⟨reading, hread, -⟩ := read_of_parse hp
    -- a malformed template lists nothing
    refine ⟨reading, {}, by rw [htemplate, hread], ⟨List.nodup_nil, ?_⟩, rfl, rfl, ?_, ?_⟩
    · exact fun e he => absurd he List.not_mem_nil
    · exact fun n hn => absurd hn List.not_mem_nil
    · exact fun n hn => absurd hn List.not_mem_nil
  | expanded hp hg _ =>
    rename_i segments g _ _ _
    obtain ⟨reading, hread, -⟩ := read_of_parse hp
    have hd := Graph.ofContext_depicts hg
    have hsegments := segments_of_read hread hp
    refine ⟨reading, g, by rw [htemplate, hread], hd.wellFormed, rfl, rfl, fun n hn => ?_,
      fun n hn => ?_⟩
    · exact ((hd.names n).1 hn).named (variableNames_named (parse_names hp))
    · obtain ⟨r, hr, hrn⟩ := (hd.names n).1 hn
      exact ⟨r, hsegments ▸ hr, hd.reach ⟨r, hr, .refl⟩ hrn⟩

/-- The ledger of a call has only events that its pass may note. -/
theorem ending_tells (e : Engine) (c : Context) (template : String) :
    ∃ p : Pass, p.OnlyTells (e.ending c template) := by
  have hstart : ∀ p : Pass, p.OnlyTells e.ledger := fun p x hx => absurd hx List.not_mem_nil
  obtain hend | ⟨segments, g, hp, -, hend⟩ := ending_cases e c template
  · exact ⟨e.pass c [], hend ▸ hstart _⟩
  · exact ⟨e.pass c g.cycles, hend ▸ Pass.expandTemplate_tells (parse_names hp) (hstart _)⟩

/-- **The steps of a trace tell of events that a pass may note.** -/
theorem step_tells (h : (e.resolve c template stamp).1 = .ok t) {s : Stencil.Step}
    (hs : s ∈ t.steps) :
    ∃ (p : Pass) (x : Event), p.Tells x ∧ s.event = e.tracking.shape x := by
  obtain ⟨ending, -, rfl⟩ := resolve_trace h
  obtain ⟨x, hx, he⟩ := recorded_step hs
  obtain ⟨p, hp⟩ := ending_tells e c template
  exact ⟨p, x, hp x hx, he⟩

end Engine
end Stencil
