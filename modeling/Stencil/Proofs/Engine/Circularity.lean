/-
# A trace, its tree and the walk agree on cycles

A trace lists cycles just where its tree has some, and just where the walk of the
tree has a circular line; each circular line is about a name on a cycle
(`Tree.Agrees`). That is so for every call, whatever the cache holds and whatever
tracking leaves out. The one thing in the way is that there may be no tree: where
the text of a hit holds an integer literal with too many digits, that text cannot
be searched for calls (`circularity_agrees`).

Key definition: `Tree.Agrees`.
Key theorem: `circularity_agrees`.
-/
import Stencil.Proofs.Engine.References
import Stencil.Proofs.Tree.Walk

namespace Stencil

open Template Relation

/-- The tree and its walk tell of cycles just where the trace does. -/
structure Tree.Agrees (tree : Tree) (t : Trace) : Prop where
  hasCycles : tree.hasCycles = true ↔ t.cycles ≠ []
  circular : (∃ line ∈ tree.walk, line.mark = .circular) ↔ t.cycles ≠ []
  onCycle : ∀ line ∈ tree.walk, line.mark = .circular →
    TransGen tree.graph.Edge line.name line.name

namespace Tree

variable {tree : Tree} {t : Trace} {reading : Reading} {g : Graph}

theorem mem_rootsOf {n : String} (h : n ∈ variableNames reading.segments) :
    n ∈ rootsOf reading := List.mem_eraseDups.2 (List.mem_append_left _ h)

/-- What a trace lists is reached from the roots of its tree. -/
theorem Shows.reach_cycle (h : Shows t tree) (hd : t.Depicts reading g) {n : String}
    (hn : TransGen t.Refers n n) : ∃ r ∈ tree.roots, ReflTransGen tree.graph.Edge r n := by
  obtain ⟨m, hnm, -⟩ := TransGen.head'_iff.1 hn
  obtain ⟨r, hr, hrn⟩ := hd.reached n (hd.wellFormed.ends _ (hd.refers_iff.1 hnm)).1
  obtain ⟨reading', hread, hroots⟩ := h.roots
  obtain rfl : reading = reading' := by
    have hsame := hd.read.symm.trans hread
    injection hsame
  exact ⟨r, hroots ▸ mem_rootsOf hr,
    ReflTransGen.mono (fun a b hab => h.refers a b (hd.refers_iff.2 hab)) _ _ hrn⟩

/-- **The tree of a trace agrees with it on cycles.** -/
theorem Shows.agrees (h : Shows t tree) (hd : t.Depicts reading g) : tree.Agrees t := by
  have hcycle : ∀ n, TransGen tree.graph.Edge n n ↔ TransGen t.Refers n n :=
    fun n => h.transGen_iff fun a b => hd.not_isCallName
  have hends : ∀ e ∈ tree.graph.edges, e.1 ∈ tree.names := fun e he =>
    h.sound.names ▸ (h.sound.wellFormed.ends e he).1
  refine ⟨?_, ?_, walk_circular⟩
  · rw [hd.cycles_ne_nil_iff, hasCycles, Bool.not_eq_true', ← Bool.not_eq_true,
      Graph.isAcyclic_iff h.sound.wellFormed h.sound.isSimple, not_forall_not]
    exact exists_congr hcycle
  · rw [walk_circular_iff hends, hd.cycles_ne_nil_iff]
    constructor
    · rintro ⟨r, -, n, -, hn⟩
      exact ⟨n, (hcycle n).1 hn⟩
    · rintro ⟨n, hn⟩
      obtain ⟨r, hr, hrn⟩ := h.reach_cycle hd hn
      exact ⟨r, hr, n, hrn, (hcycle n).2 hn⟩

end Tree

namespace Engine

variable {e : Engine} {c : Context} {template : String} {stamp : Stamp} {t : Trace}

/-- Where there is no tree, it is for a hit. -/
theorem ofTrace_refused {r : Refusal} (h : (e.resolve c template stamp).1 = .ok t)
    (hr : Tree.ofTrace t = .error r) :
    ∃ s ∈ t.steps, s.event.kind = .hit ∧ Template.read s.event.output = .error r := by
  obtain ⟨reading, g, hd⟩ := resolve_depicts h
  rcases Tree.ofTrace_error hr with hread | ⟨n, v, ⟨s, hs, hkind, rfl, rfl⟩, hcall, hread⟩
  · rw [hd.read] at hread
    cases hread
  refine ⟨s, hs, ?_, hread⟩
  obtain ⟨p, x, hx, he⟩ := step_tells h hs
  rw [he] at hkind hcall hread ⊢
  -- a step keeps the kind, the name and the output of its event
  change Tree.isAboutName x.kind = true at hkind
  change ¬ IsCallName x.name at hcall
  change Template.read x.output = .error r at hread
  show x.kind = .hit
  cases hk : x.kind with
  | hit => rfl
  | lookup =>
    obtain ⟨reading, hok⟩ := hx.read_lookup hk
    rw [hok] at hread
    cases hread
  | call =>
    obtain ⟨q, hq, hname⟩ := hx.call_name hk
    exact absurd (hname ▸ isCallName_displayName hq) hcall
  | nested =>
    rw [hk] at hkind
    cases hkind
  | miss =>
    rw [hk] at hkind
    cases hkind

/-- **A trace, its tree and the walk agree on cycles.** There is a tree unless the text of a hit
holds an integer literal with too many digits. -/
theorem circularity_agrees (h : (e.resolve c template stamp).1 = .ok t) :
    (∃ tree, Tree.ofTrace t = .ok tree ∧ tree.Agrees t) ∨
      ∃ r, Tree.ofTrace t = .error r ∧ TooLong r ∧
        ∃ s ∈ t.steps, s.event.kind = .hit ∧ Template.read s.event.output = .error r := by
  cases hr : Tree.ofTrace t with
  | ok tree =>
    obtain ⟨reading, g, hd⟩ := resolve_depicts h
    exact .inl ⟨tree, rfl, (Tree.ofTrace_shows hr).agrees hd⟩
  | error r =>
    obtain ⟨s, hs, hhit, hread⟩ := ofTrace_refused h hr
    exact .inr ⟨r, rfl, read_refused hread, s, hs, hhit, hread⟩

/-- Two variables that refer to each other. -/
theorem circularity_loop :
    let c : Context := { global := [
      { name := "left", value := .text "$\x7bright\x7d" },
      { name := "right", value := .text "<$\x7bleft\x7d>" }] }
    let e : Engine := {
      cache := some (.ofCapacity 8)
      library := ⟨[]⟩
      sources := .preview
      maxDepth := 4
      maxDepth_pos := by decide }
    ∃ t tree, (e.resolve c "$\x7bleft\x7d").1 = .ok t ∧ Tree.ofTrace t = .ok tree ∧
      tree.hasCycles = true ∧ ∃ line ∈ tree.walk, line.mark = .circular ∧
        TransGen tree.graph.Edge line.name line.name := by
  intro c e
  let segments : List Segment := [.reference ⟨"left", none, "$\x7bleft\x7d", ⟨0, 7⟩⟩]
  have hp : Template.parse "$\x7bleft\x7d" = .ok (.ok segments) := by cbv
  obtain ⟨graph, hg, hcycles⟩ : ∃ graph, Graph.ofContext c (variableNames segments) = .ok graph ∧
      graph.cycles = [["left", "right"]] := ⟨{
    roots := ["left"]
    nodes := [
      ⟨"left", some {
        isDefined := true, scope := some "global", value := some "$\x7bright\x7d" }⟩,
      ⟨"right", some {
        isDefined := true, scope := some "global", value := some "<$\x7bleft\x7d>" }⟩]
    edges := [("left", "right"), ("right", "left")] }, by cbv, by cbv⟩
  have hcycle : (e.pass c graph.cycles).cycle? "left" = some ["left", "right"] := by
    rw [Pass.cycle?, pass, hcycles]
    decide
  have htop : (e.pass c graph.cycles).expandTop "left"
      ((e.pass c graph.cycles).failCircular e.ledger) = (.ok (.failed "left"),
        ((e.pass c graph.cycles).failCircular e.ledger).note
          (Pass.circularEvent "left" ["left", "right"] ((e.pass c graph.cycles).depthAt 4))) := by
    rw [Pass.expandTop, show (e.pass c graph.cycles).maxDepth = 4 from rfl,
      Pass.expandVariable_circular hcycle]
  have hx : (e.pass c graph.cycles).expandTemplate segments e.ledger = _ :=
    Pass.expandAll_ok ((Pass.expandSegment_variable rfl).trans htop) rfl
  obtain ⟨t, hans, hcyclic, hsteps⟩ : ∃ t, (e.resolve c "$\x7bleft\x7d").1 = .ok t ∧
      t.cycles ≠ [] ∧ ∀ s ∈ t.steps, ∃ x ∈ (e.ending c "$\x7bleft\x7d").events,
        s.event = e.tracking.shape x := by
    rw [resolve_eq, outcome_expand hp hg hx]
    refine ⟨_, rfl, fun hnil => ?_, fun s hs => recorded_step hs⟩
    exact List.cons_ne_nil _ _ (hcycles.symm.trans hnil)
  rcases circularity_agrees hans with ⟨tree, htree, hagrees⟩ | ⟨r, -, -, s, hs, hhit, -⟩
  · obtain ⟨line, hl, hm⟩ := hagrees.circular.2 hcyclic
    exact ⟨t, tree, hans, htree, hagrees.hasCycles.2 hcyclic, line, hl, hm,
      hagrees.onCycle line hl hm⟩
  · -- the one event is no hit
    obtain ⟨y, hy, he⟩ := hsteps s hs
    rw [ending_expand hp hg, hx, Ledger.events_note, (Pass.failCircular_quiet _ _).events] at hy
    obtain rfl := List.mem_singleton.1 hy
    rw [he] at hhit
    cases hhit

end Engine
end Stencil
