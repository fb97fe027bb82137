/-
# The sequence in which the names of a trace are resolved

The tree of a trace lists its names, each once. Without cycles a name comes after the
variables that its value refers to. It comes after the calls in its value as well,
if the first step kept about it tells the value. That need not be so: where the name
was stopped at the bound the step tells no value, and then the name may come before
its calls, though it is expanded elsewhere and they are made (`stopped_before_call`).
With cycles the names that were met come first, in the order in which they were met.

Key definitions: `Context.Invokes`, `Trace.TellsValue`, `Tree.Follows`, `Tree.IsSequenced`.
Key theorems: `Trace.Quoted.follows`, `resolve_quoted`, `resolve_sequenced`.
-/
import Mathlib.Tactic.FinCases
import Stencil.Proofs.Engine.TreeErrors
import Stencil.Proofs.Expansion.Values
import Stencil.Proofs.Tree.Sequence

namespace Stencil

open Template

/-- The value of a name calls functions under the name `m`. -/
def Context.Invokes (c : Context) (n m : String) : Prop :=
  ∃ d, c.define? n = .ok (some d) ∧ CallsIn d.text m

/-- The first step kept about a name tells its value: it is no hit, and the name was not stopped at
the bound. -/
def Trace.TellsValue (t : Trace) (p : Pass) (n : String) : Prop :=
  ∃ s, Tree.meeting? t.steps n = some s ∧ s.event.kind ≠ .hit ∧
    s.event.error ≠ some p.boundMessage

/-- A variable comes after what its value refers to: after variables always, and after calls if the
first step kept about it tells the value. -/
structure Tree.Follows (tree : Tree) (t : Trace) (p : Pass) (n : String) : Prop where
  refers : ∀ m, p.context.Refers n m → [m, n].Sublist tree.sequence
  calls : t.TellsValue p n → ∀ m ∈ tree.names, p.context.Invokes n m →
    [m, n].Sublist tree.sequence

/-- The sequence of a tree lists its names, each once. Without cycles a name comes after its
children, the names that are no children come last, and a variable of a well-formed template comes
after what its value refers to. With cycles the names that were met come first, in the order of their
places. -/
structure Tree.IsSequenced (tree : Tree) (t : Trace) (p : Pass) : Prop where
  perm : tree.sequence.Perm tree.names
  nodup : tree.sequence.Nodup
  children : tree.hasCycles = false → ∀ n, ∀ m ∈ tree.children n, [m, n].Sublist tree.sequence
  last : tree.hasCycles = false → ∀ m ∈ tree.names, (∀ x, m ∉ tree.children x) →
    ∀ x, ∀ n ∈ tree.children x, [n, m].Sublist tree.sequence
  follows : tree.hasCycles = false → ∀ segments, Template.parse t.template = .ok (.ok segments) →
    ∀ n ∈ tree.names, ¬ IsCallName n → tree.Follows t p n
  place : ∀ n, tree.place? n = Tree.placeOf t.steps n
  met : tree.hasCycles = true → tree.sequence.Pairwise tree.Precedes

/-- A trace lists the references of what is reached from the roots, and its steps quote that. -/
structure Trace.Quoted (t : Trace) (p : Pass) (roots : List String) : Prop where
  listed : ∀ n ∈ t.dependencies.map Prod.fst, p.context.Reached roots n
  refers : ∀ a b, t.Refers a b ↔ p.context.Reached roots a ∧ p.context.Refers a b
  steps : ∀ s ∈ t.steps, p.Quotes (p.context.Reached roots) s.event

variable {t : Trace} {tree : Tree} {p : Pass} {roots : List String} {reading : Reading}
  {n m : String}

namespace Trace.Quoted

/-- The variables of the tree are reached from the template. -/
theorem reached (h : t.Quoted p (variableNames reading.segments))
    (hr : Template.read t.template = .ok reading) (ht : Tree.ofTrace t = .ok tree)
    (hn : n ∈ tree.names) (hc : ¬ IsCallName n) :
    p.context.Reached (variableNames reading.segments) n := by
  obtain ⟨reading', hread, hnames, -⟩ := Tree.ofTrace_edge ht
  cases hr.symm.trans hread
  rw [hnames] at hn
  rcases Tree.beforeCalls_named n hn with hroot | hlisted | ⟨m, hm⟩ | ⟨s, hs, hk, rfl⟩
  · rcases List.mem_append.1 (List.mem_eraseDups.1 hroot) with hv | hcall
    · exact ⟨n, hv, .refl⟩
    · obtain ⟨q, hq, rfl⟩ := List.mem_map.1 hcall
      exact absurd (isCallName_of_calls hq) hc
  · exact h.listed n hlisted
  · obtain ⟨hreached, href⟩ := (h.refers m n).1 hm
    exact hreached.refers href
  · exact ((h.steps s hs hk).resolve_left hc).named

/-- **Without cycles a variable of the tree comes after what its value refers to.** -/
theorem follows (h : t.Quoted p (variableNames reading.segments))
    (hr : Template.read t.template = .ok reading) (ht : Tree.ofTrace t = .ok tree)
    (hcycle : ∀ n, p.cycle? n = none) (hc : tree.hasCycles = false) (hn : n ∈ tree.names)
    (hcall : ¬ IsCallName n) : tree.Follows t p n := by
  have hshows := Tree.ofTrace_shows ht
  constructor
  · intro m hm
    have hlisted : t.Refers n m := (h.refers n m).2 ⟨h.reached hr ht hn hcall, hm⟩
    exact Tree.sequence_after hshows.sound hc (hshows.refers n m hlisted)
  · rintro ⟨s, hs, hhit, hbound⟩ m hm ⟨d, hd, hin⟩
    obtain ⟨hmem, hk, rfl⟩ := Tree.meeting?_some hs
    have htext : s.event.output = d.text := by
      rcases ((h.steps s hmem hk).resolve_left hcall).text d hd with hx | hx | hx | hx
      · exact absurd hx hhit
      · exact absurd hx hbound
      · rw [hcycle] at hx
        cases hx
      · exact hx
    have hname : s.event.name.endsWith "()" = false :=
      Bool.not_eq_true _ ▸ fun he => hcall (isCallName_iff.2 he)
    have hedge : tree.graph.Edge s.event.name m :=
      (Tree.ofTrace_edge_iff ht).2 (.inr ⟨hname, hm, s, hs, htext ▸ hin⟩)
    exact Tree.sequence_after hshows.sound hc hedge

end Trace.Quoted

namespace Engine

variable {e : Engine} {c : Context} {template : String} {stamp : Stamp} {segments : List Segment}

/-- **A trace quotes what is reached from its template.** -/
theorem resolve_quoted (h : (e.resolve c template stamp).1 = .ok t)
    (hp : Template.parse template = .ok (.ok segments)) :
    t.Quoted (e.pass c t.cycles) (variableNames segments) := by
  obtain ⟨ending, hending, rfl⟩ := resolve_trace h
  cases outcome_concludes hending with
  | malformed hp' => cases hp.symm.trans hp'
  | expanded hp' hg hx =>
    rename_i segments' graph x l
    cases hp.symm.trans hp'
    have hd := Graph.ofContext_depicts hg
    constructor
    · intro n hn
      obtain ⟨⟨a, ms⟩, hm, rfl⟩ := List.mem_map.1 hn
      exact (hd.names a).1 (Graph.mem_adjacency.1 hm).1
    · exact fun a b => hd.wellFormed.mem_adjacency_iff.trans (hd.edge a b)
    · intro s hs
      obtain ⟨y, hy, he⟩ := recorded_step hs
      rw [ending_expand hp hg, Ledger.events, List.mem_reverse] at hy
      rw [he]
      exact (Pass.expandTemplate_quotes (e.pass c graph.cycles) segments rfl y hy).shape e.tracking

/-- **The sequence of a trace's tree.** -/
theorem resolve_sequenced (h : (e.resolve c template stamp).1 = .ok t)
    (ht : Tree.ofTrace t = .ok tree) : tree.IsSequenced t (e.pass c t.cycles) := by
  have hshows := Tree.ofTrace_shows ht
  have hplaced := Tree.ofTrace_placed ht
  have hperm := Tree.sequence_perm hshows.sound
  refine ⟨hperm, hperm.nodup_iff.2 hplaced.nodup, fun hc n m hm => ?_,
    fun hc m hm hlast x n hn => ?_, fun hc segments hp n hn hcall => ?_, hplaced.place?_eq,
    Tree.sequence_met hplaced⟩
  · exact Tree.sequence_after hshows.sound hc (Graph.mem_successors.1 hm)
  · exact Tree.sequence_last hshows.sound hc hm (fun y hy => hlast y (Graph.mem_successors.2 hy))
      ⟨x, Graph.mem_successors.1 hn⟩
  · obtain ⟨reading, hread, -⟩ := read_of_parse hp
    have htemplate : t.template = template := by
      obtain ⟨ending, -, rfl⟩ := resolve_trace h
      exact e.recorded_template c template stamp
    have hacyclic : t.cycles = [] := by
      obtain ⟨reading, g, hd⟩ := resolve_depicts h
      by_contra hne
      rw [(hshows.agrees hd).hasCycles.2 hne] at hc
      cases hc
    have hquoted := resolve_quoted h (htemplate ▸ hp)
    rw [← segments_of_read hread hp] at hquoted
    exact hquoted.follows hread ht (fun n => by rw [hacyclic]; rfl) hc hn hcall

/-! ### A call before which its variable comes -/

open Pass

/-- Two variables, of which the first refers to the second, which calls a function. -/
def callingContext : Context := { global := [
  { name := "a", value := .text "$\x7bb\x7d" },
  { name := "b", value := .text "$\x7buuid()\x7d" }] }

/-- An engine that expands no variable inside another one. -/
def callingEngine : Engine := { flatEngine with
  library := ⟨[Function.uuid]⟩
  sources := { Sources.preview with identifier := fun _ => "id" } }

def uuidCall : Reference := ⟨"uuid", some [], "$\x7buuid()\x7d", ⟨0, 9⟩⟩

theorem graph_calling : ∃ graph,
    Graph.ofContext callingContext (variableNames pairSegments) = .ok graph ∧
      graph.cycles = [] ∧ graph.adjacency = [("a", ["b"]), ("b", [])] := ⟨_, by cbv, by cbv, by cbv⟩

theorem calling_invokes : callingContext.Invokes "b" "uuid()" :=
  ⟨⟨.global, { name := "b", value := .text "$\x7buuid()\x7d" }, "$\x7buuid()\x7d",
    .ok [.reference uuidCall]⟩, by cbv, _, by cbv, List.mem_singleton_self _⟩

/-- The call is made. -/
theorem expand_uuidCall {f : String} {p : Pass}
    (hp : p = ⟨callingContext, f, ⟨[Function.uuid]⟩, 1, []⟩)
    (expand : String → Ledger → Except Stop Expansion × Ledger) {l : Ledger}
    (hs : l.sources = callingEngine.sources) :
    ∃ s, p.expandAll (0 + 1) .refused expand [.reference uuidCall] l =
      (.ok ((Expansion.called "id").append .empty), ({ l with sources := s }.note
        (callEvent uuidCall "id" none 1)).markResolved "uuid()") := by
  obtain ⟨s, hinvoke⟩ : ∃ s, p.library.invoke "uuid" [] l.sources = (.ok "id", s) := by
    rw [hp, hs]
    exact ⟨_, rfl⟩
  have hcall : p.expandCall (0 + 1) uuidCall l = (.ok (.called "id"),
      ({ l with sources := s }.note (callEvent uuidCall "id" none 1)).markResolved "uuid()") :=
    expandCall_called hinvoke
  have hsegment : p.expandSegment (0 + 1) .refused expand (.reference uuidCall) l =
      (.ok (.called "id"), ({ l with sources := s }.note
        (callEvent uuidCall "id" none 1)).markResolved "uuid()") := by
    simp only [expandSegment]
    rw [if_pos (show uuidCall.isCall = true from rfl), hcall]
    rfl
  exact ⟨s, expandAll_ok hsegment rfl⟩

/-- The second variable is met at the bound, in the value of the first one, and again above it,
where its call is made. -/
def callingEvents (p : Pass) (d : Definition) : List Event := [
  missEvent "a" 0, p.lookupEvent "a" pairDefinition true 0, p.boundEvent "b" 1, missEvent "b" 0,
  p.lookupEvent "b" d true 0, callEvent uuidCall "id" none 1,
  nestedEvent "b" d ((Expansion.called "id").append .empty) 0]

theorem expand_calling (f : String) (p : Pass)
    (hp : p = ⟨callingContext, f, ⟨[Function.uuid]⟩, 1, []⟩) :
    ∃ x l d, p.expandTemplate pairSegments callingEngine.ledger = (.ok x, l) ∧
      l.events = callingEvents p d := by
  let c : Cache := { Cache.ofCapacity memoCapacity with misses := 1 }
  let d : Definition := ⟨.global, { name := "b", value := .text "$\x7buuid()\x7d" },
    "$\x7buuid()\x7d", .ok [.reference uuidCall]⟩
  have hm : p.maxDepth = 0 + 1 := by rw [hp]
  have hc : p.circular = [] := by rw [hp]
  have hfirst : p.context.define? "a" = .ok (some pairDefinition) := by
    rw [hp]
    cbv
  have hsecond : p.context.define? "b" = .ok (some d) := by
    rw [hp]
    cbv
  let l₁ : Ledger := stopped p c callingEngine.ledger
  let l₂ : Ledger := ({ l₁ with cache := { c with misses := 2 } }.note (missEvent "b" 0)).note
    (p.lookupEvent "b" d true 0)
  obtain ⟨s, hinner⟩ :=
    expand_uuidCall hp (fun n l => below (p.expandVariable 0 n l)) (l := l₂) rfl
  obtain ⟨x, l, hlast, hl⟩ : ∃ x l, p.expandTop "b" l₁ = (.ok x, l) ∧
      l.recentEvents = nestedEvent "b" d ((Expansion.called "id").append .empty) 0 ::
        callEvent uuidCall "id" none 1 :: l₂.recentEvents :=
    ⟨_, _, expandTop_value hm (by rw [cycle?, hc]; rfl) rfl hsecond rfl
      (expandValue_ok rfl hinner), rfl⟩
  refine ⟨_, l, d, expand_stopped hm hc hfirst rfl hlast, ?_⟩
  rw [Ledger.events, hl]
  rfl

theorem resolve_calling :
    ∃ t p d, (callingEngine.resolve callingContext "$\x7ba\x7d$\x7bb\x7d").1 = .ok t ∧
      t.cycles = [] ∧ t.dependencies = [("a", ["b"]), ("b", [])] ∧
        t.steps.map Step.event = (callingEvents p d).map callingEngine.tracking.shape := by
  obtain ⟨graph, hg, hcycles, hadj⟩ := graph_calling
  have hpass : callingEngine.pass callingContext graph.cycles =
      ⟨callingContext, callingContext.fingerprint, ⟨[Function.uuid]⟩, 1, []⟩ := by
    rw [hcycles]
    rfl
  obtain ⟨y, l, d, hx, hl⟩ := expand_calling _ _ hpass
  have hwanted : callingEngine.wanted callingContext "$\x7ba\x7d$\x7bb\x7d" = l.events := by
    rw [wanted, ending_expand parse_pair hg, hx, hl]
    rfl
  have hlength : l.events.length = 7 := by
    rw [hl]
    rfl
  obtain ⟨hsteps, -⟩ := callingEngine.recorded_all callingContext "$\x7ba\x7d$\x7bb\x7d" {}
    (b := 1000) rfl (by rw [hwanted, hlength]; decide)
  rw [hwanted, hl] at hsteps
  rw [resolve_eq, outcome_expand parse_pair hg hx]
  exact ⟨_, _, d, rfl, hcycles, hadj, hsteps⟩

/-- The tree does not link the call. -/
theorem calling_unlinked {p : Pass} {d : Definition}
    (hdeps : t.dependencies = [("a", ["b"]), ("b", [])])
    (hmet : Tree.metNames t.steps = ["a", "b", "uuid()"])
    (hsteps : t.steps.map Step.event = (callingEvents p d).map callingEngine.tracking.shape)
    (htree : Tree.ofTrace t = .ok tree) (x : String) : "uuid()" ∉ tree.children x := by
  intro hx
  rcases (Tree.ofTrace_edge_iff htree).1 (Graph.mem_successors.1 hx) with
    ⟨ms, hms, hm⟩ | ⟨hcall, -, s, hs, hin⟩
  · -- the trace lists only the reference to the second variable
    rw [hdeps] at hms
    fin_cases hms
    · exact absurd (List.mem_singleton.1 hm) (by decide)
    · exact absurd hm List.not_mem_nil
  have hname : x ∈ Tree.metNames t.steps := Tree.meeting?_isSome.1 (by rw [hs]; rfl)
  have hfirst := Tree.meeting?_event t.steps x
  rw [hs, hsteps] at hfirst
  rw [hmet] at hname
  fin_cases hname
  · -- the first variable tells its value, which calls nothing
    have he : s.event = callingEngine.tracking.shape (p.lookupEvent "a" pairDefinition true 0) :=
      Option.some.inj hfirst
    rw [he] at hin
    change CallsIn "$\x7bb\x7d" "uuid()" at hin
    have hread : Template.read "$\x7bb\x7d" =
        .ok ⟨[.reference ⟨"b", none, "$\x7bb\x7d", ⟨0, 4⟩⟩], []⟩ := by cbv
    rw [Tree.callsIn_iff hread] at hin
    exact absurd hin List.not_mem_nil
  · -- the second one was stopped
    have he : s.event = callingEngine.tracking.shape (p.boundEvent "b" 1) :=
      Option.some.inj hfirst
    rw [he] at hin
    exact Tree.not_callsIn_empty hin
  · -- calls refer to nothing
    exact absurd (IsCallName.endsWith ⟨"uuid", rfl⟩) (Bool.eq_false_iff.1 hcall)

/-- The second variable comes before the call in its value, though the call is made and the tree has
no cycles. -/
theorem stopped_before_call :
    ∃ t tree, (callingEngine.resolve callingContext "$\x7ba\x7d$\x7bb\x7d").1 = .ok t ∧
      Tree.ofTrace t = .ok tree ∧ tree.hasCycles = false ∧
        callingContext.Invokes "b" "uuid()" ∧ ["b", "uuid()"].Sublist tree.sequence := by
  obtain ⟨t, p, d, hans, hcycles, hdeps, hsteps⟩ := resolve_calling
  have hmet : Tree.metNames t.steps = ["a", "b", "uuid()"] := by
    rw [Tree.metNames_event, hsteps]
    rfl
  obtain ⟨tree, htree⟩ : ∃ tree, Tree.ofTrace t = .ok tree := by
    cases hr : Tree.ofTrace t with
    | ok tree => exact ⟨tree, rfl⟩
    | error r =>
      -- none of the steps is a hit
      obtain ⟨s, hs, hhit, -⟩ := ofTrace_refused hans hr
      have hmem : s.event ∈ t.steps.map Step.event := List.mem_map_of_mem hs
      obtain ⟨z, hz, he⟩ := List.mem_map.1 (hsteps ▸ hmem)
      rw [← he] at hhit
      fin_cases hz <;> cases hhit
  have hshows := Tree.ofTrace_shows htree
  have hacyclic : tree.hasCycles = false := by
    obtain ⟨reading, g, hdepicts⟩ := resolve_depicts hans
    rw [← Bool.not_eq_true, (hshows.agrees hdepicts).hasCycles, not_not]
    exact hcycles
  have hcall : "uuid()" ∈ tree.names :=
    (Tree.ofTrace_placed htree).named (by rw [hmet]; decide)
  have hchild : "b" ∈ tree.children "a" :=
    Graph.mem_successors.2 (hshows.refers "a" "b"
      ⟨["b"], by rw [hdeps]; exact List.mem_cons_self, List.mem_singleton_self _⟩)
  exact ⟨t, tree, hans, htree, hacyclic, calling_invokes,
    (resolve_sequenced hans htree).last hacyclic _ hcall
      (calling_unlinked hdeps hmet hsteps htree) _ _ hchild⟩

end Engine
end Stencil
