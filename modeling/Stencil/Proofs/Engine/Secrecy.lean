/-
# What hides secrets

Before the text that a template stands for is printed, the values that secret
variables had are hidden in it. They are taken from the steps of the trace, so
a value that a step shows is hidden, and every value is shown as long as steps
are kept at all and there was room for each of them. But secrets should be hidden
however much of the trace is kept: where no step is kept nothing is hidden, and
they are printed (`secret_printed`).

Key definition: `Engine.Takes`.
Key theorems: `step_shows`, `secret_printed`.
-/
import Stencil.Proofs.Context.Secret
import Stencil.Proofs.Engine.Call
import Stencil.Proofs.Expansion.Shown
import Stencil.Proofs.Secret.Hiding

namespace Stencil

open Template

namespace Secret

variable {t : Trace} {names : List String} {n v : String} {s : Step}

theorem mem_values : v ∈ values t names ↔ ∃ s ∈ t.steps, valueOf? names s = some v := by
  unfold values
  rw [List.mem_mergeSort, List.mem_eraseDups, List.mem_filterMap]

theorem valueOf?_shows (hs : s.event.Shows n v) (hn : n ∈ names) (hne : v ≠ "") :
    valueOf? names s = some v := by
  have he : v.isEmpty = false := by
    rw [← Bool.not_eq_true, String.isEmpty_iff]
    exact hne
  unfold valueOf?
  rw [hs.name, hs.output, hs.error, he, List.contains_iff_mem.2 hn]
  rfl

/-- **A value that a step shows of one of the names does not occur where the names' values are
hidden.** -/
theorem hide_values (hm : s ∈ t.steps) (hs : s.event.Shows n v) (hn : n ∈ names) (hne : v ≠ "")
    (hv : '*' ∉ v.toList) (text : String) :
    ¬ v.toList <:+: (hide (values t names) text).toList :=
  hide_hides (mem_values.2 ⟨s, hm, valueOf?_shows hs hn hne⟩) hne hv text

/-- Where no step shows a text nothing is hidden. -/
theorem hide_of_no_outputs (h : ∀ s ∈ t.steps, s.event.output = "") (text : String) :
    hide (values t names) text = text := by
  have hv : values t names = [] := by
    rw [List.eq_nil_iff_forall_not_mem]
    intro v hv
    obtain ⟨s, hs, hsv⟩ := mem_values.1 hv
    have he : s.event.output.isEmpty = true := by rw [h s hs]; rfl
    unfold valueOf? at hsv
    rw [he, Bool.not_true, Bool.and_false, Bool.false_and] at hsv
    cases hsv
  rw [hv, hide, List.foldl_nil, String.ofList_toList]

end Secret

theorem Tracking.shape_shows {e : Event} {n v : String} (t : Tracking) (h : e.Shows n v) :
    (t.shape e).Shows n v := ⟨h.name, h.output, h.error, h.kind⟩

namespace Engine

/-- A text that a name stands for at some time in the call for a template. -/
def Takes (e : Engine) (c : Context) (template n v : String) : Prop :=
  ∃ segments graph, Template.parse template = .ok (.ok segments) ∧
    Graph.ofContext c (variableNames segments) = .ok graph ∧
    (e.pass c graph.cycles).Takes segments e.ledger n v

variable {e : Engine} {c : Context} {template n v : String} {segments : List Segment}
  {graph : Graph} {t : Trace} {l : Ledger} {stamp : Stamp}

/-- The trace of a call that was not refused. -/
theorem resolve_ok (hp : Template.parse template = .ok (.ok segments))
    (hg : Graph.ofContext c (variableNames segments) = .ok graph)
    (ht : (e.resolve c template stamp).1 = .ok t) :
    ∃ x, t = ((replay (.start stamp.id template (some (c.summary c.fingerprint)) e.tracking
      stamp.clock) (e.ending c template)).close {
        value := x
        resolved := (e.ending c template).resolved
        unresolved := (e.ending c template).unresolved
        dependencies := graph.adjacency
        cycles := graph.cycles }).1 := by
  rw [ending_expand hp hg]
  rw [resolve_parsed hp] at ht
  rcases hx : (e.pass c graph.cycles).expandTemplate segments e.ledger with ⟨r | x, l⟩
  · rw [expand_error hg hx] at ht
    cases ht
  · rw [expand_ok hg hx] at ht
    cases ht
    exact ⟨x.text, rfl⟩

/-- The steps of a trace show what the ledger does, as long as there was room for each. -/
theorem replay_shows {r : Recorder} (hw : r.tracking.isEnabled = true)
    (ht : (replay r l).isTruncated = false) (hs : l.Shows n v) :
    ∃ s ∈ (replay r l).steps, s.event.Shows n v := by
  obtain ⟨ev, hm, hev⟩ := hs
  obtain ⟨hrecent, htrunc, -, -⟩ := replay_tracking r l
  rw [htrunc] at ht
  have hwants : r.tracking.wants ev = true := by
    unfold Tracking.wants
    rw [hw, hev.kind, Bool.not_false, Bool.or_true, Bool.and_true]
  obtain ⟨s, hsm, hse⟩ := Recorder.kept_of_not_truncated (List.mem_reverse.2 hm) hwants ht
  refine ⟨s, ?_, hse ▸ r.tracking.shape_shows hev⟩
  rw [Recorder.steps, List.mem_reverse, hrecent]
  exact hsm

theorem replay_untracked {r : Recorder} (hw : r.tracking.isEnabled = false) (hr : r.recent = []) :
    (replay r l).steps = [] := by
  rw [Recorder.steps, (replay_tracking r l).1, Recorder.foldl_take_untracked _ hw, hr]
  rfl

theorem not_failed_of_resolved {r : Recorder} {x : Recorder.Ending}
    (hu : x.unresolved = l.unresolved) (hn : n ∈ ((replay r l).close x).1.resolved) :
    (n, false) ∉ l.status := by
  intro hf
  have hm : n ∈ l.unresolved := List.mem_map.2 ⟨(n, false), List.mem_filter.2 ⟨hf, rfl⟩, rfl⟩
  have hc := (List.mem_filter.1 hn).2
  rw [hu, List.contains_iff_mem.2 hm] at hc
  cases hc

/-- Each text that a name stood for in the call is shown by a step, as long as there was room for each,
or the name has failed and stands for its marker. -/
theorem step_shows_or_failed (hf : e.IsFresh) (ht : (e.resolve c template stamp).1 = .ok t)
    (hv : e.Takes c template n v) (hw : e.tracking.isEnabled = true) (hk : t.isTruncated = false) :
    (n ∉ t.resolved ∧ v = Marker.marker n) ∨ ∃ s ∈ t.steps, s.event.Shows n v := by
  obtain ⟨segments, graph, hp, hg, htakes⟩ := hv
  have hshown := htakes.shown (Pass.failCircular_shown hf.entries_ledger)
  rw [← ending_expand hp hg] at hshown
  obtain ⟨text, rfl⟩ := resolve_ok hp hg ht
  rcases hshown with ⟨hfailed, hm⟩ | hs
  · exact .inl ⟨fun hn => not_failed_of_resolved rfl hn hfailed, hm⟩
  · exact .inr (replay_shows hw hk hs)

/-- Of a name that is resolved, each text that it stood for in the call is shown by a step, as long
as there was room for each. -/
theorem step_shows (hf : e.IsFresh) (ht : (e.resolve c template stamp).1 = .ok t)
    (hn : n ∈ t.resolved) (hv : e.Takes c template n v) (hw : e.tracking.isEnabled = true)
    (hk : t.isTruncated = false) : ∃ s ∈ t.steps, s.event.Shows n v :=
  (step_shows_or_failed hf ht hv hw hk).resolve_left fun h => h.1 hn

/-- With tracking off there are no steps. -/
theorem steps_untracked (hp : Template.parse template = .ok (.ok segments))
    (hg : Graph.ofContext c (variableNames segments) = .ok graph)
    (ht : (e.resolve c template stamp).1 = .ok t) (hw : e.tracking.isEnabled = false) :
    t.steps = [] := by
  obtain ⟨text, rfl⟩ := resolve_ok hp hg ht
  exact replay_untracked hw rfl

/-- **A value that a secret variable took is printed only where no step shows it, for which tracking
has to be off or a step to be dropped; and with tracking off nothing is hidden.** -/
theorem secret_printed (hf : e.IsFresh) (ht : (e.resolve c template stamp).1 = .ok t) {s : Scope}
    {x : Variable} (hl : c.lookup? n = some (s, x)) (hx : x.isSecret = true)
    (hn : n ∈ t.resolved) (hv : e.Takes c template n v) (hne : v ≠ "") (hstar : '*' ∉ v.toList) :
    (v.toList <:+: (Secret.hide (Secret.values t c.secretNames) t.value).toList →
      (∀ s ∈ t.steps, ¬ s.event.Shows n v) ∧
        (e.tracking.isEnabled = false ∨ t.isTruncated = true)) ∧
    (e.tracking.isEnabled = false →
      Secret.hide (Secret.values t c.secretNames) t.value = t.value) := by
  have hsecret : n ∈ c.secretNames := Context.mem_secretNames.2 ⟨s, x, hl, hx⟩
  have hhidden : v.toList <:+: (Secret.hide (Secret.values t c.secretNames) t.value).toList →
      ∀ s ∈ t.steps, ¬ s.event.Shows n v :=
    fun ho s hs hsv => Secret.hide_values hs hsv hsecret hne hstar _ ho
  refine ⟨fun ho => ⟨hhidden ho, ?_⟩, fun hoff => ?_⟩
  · by_contra hkept
    rw [not_or, Bool.not_eq_false, Bool.not_eq_true] at hkept
    obtain ⟨s, hs, hsv⟩ := step_shows hf ht hn hv hkept.1 hkept.2
    exact hhidden ho s hs hsv
  · obtain ⟨segments, graph, hp, hg, -⟩ := hv
    refine Secret.hide_of_no_outputs (fun s hs => ?_) _
    rw [steps_untracked hp hg ht hoff] at hs
    cases hs

/-! ### One secret -/

/-- A context with one secret. -/
def tokenContext : Context :=
  { global := [{ name := "token", value := .text "s3cr3t", isSecret := true }] }

/-- An engine without a cache and without functions. -/
def tokenEngine (k : Tracking) : Engine where
  cache := none
  library := ⟨[]⟩
  sources := .preview
  maxDepth := 1
  maxDepth_pos := Nat.one_pos
  tracking := k

/-- The segments of a template that refers to the secret. -/
def tokenSegments : List Segment :=
  [.reference { name := "token", arguments? := none, raw := "$\x7btoken\x7d", span := ⟨0, 8⟩ }]

theorem parse_token : Template.parse "$\x7btoken\x7d" = .ok (.ok tokenSegments) := by cbv

theorem graph_token :
    ∃ graph, Graph.ofContext tokenContext (variableNames tokenSegments) = .ok graph ∧
      graph.cycles = [] := ⟨_, by cbv, by cbv⟩

/-- What the name of the secret means. -/
def tokenDefinition : Definition where
  scope := .global
  winner := { name := "token", value := .text "s3cr3t", isSecret := true }
  text := "s3cr3t"
  parsed := .ok [.literal "s3cr3t" ⟨0, 6⟩]

theorem define_token : tokenContext.define? "token" = .ok (some tokenDefinition) := by cbv

/-- The secret is expanded to its text. -/
theorem variable_token (f : String) (k : Tracking) :
    ∃ l, Pass.expandVariable ⟨tokenContext, f, ⟨[]⟩, 1, []⟩ 1 "token" (tokenEngine k).ledger =
      (.ok { text := "s3cr3t" }, l) ∧ l.resolved = ["token"] ∧ l.unresolved = [] := by
  have hx : Pass.expandVariable ⟨tokenContext, f, ⟨[]⟩, 1, []⟩ (0 + 1) "token"
      (tokenEngine k).ledger = _ := Pass.expandVariable_value rfl rfl define_token rfl
  exact ⟨_, hx.trans rfl, rfl, rfl⟩

theorem expand_token (f : String) (k : Tracking) :
    ∃ l, Pass.expandTemplate ⟨tokenContext, f, ⟨[]⟩, 1, []⟩ tokenSegments (tokenEngine k).ledger =
      (.ok { text := "s3cr3t" }, l) ∧ l.resolved = ["token"] ∧ l.unresolved = [] := by
  obtain ⟨l, hx, hmarks⟩ := variable_token f k
  let p : Pass := ⟨tokenContext, f, ⟨[]⟩, 1, []⟩
  have htop : p.expandTop "token" (tokenEngine k).ledger = (.ok { text := "s3cr3t" }, l) :=
    Pass.expandTop_ok hx
  have hall : p.expandTemplate tokenSegments (tokenEngine k).ledger =
      (.ok (Expansion.append { text := "s3cr3t" } .empty), l) :=
    Pass.expandAll_ok ((Pass.expandSegment_variable rfl).trans htop) rfl
  exact ⟨l, hall, hmarks⟩

theorem resolve_token (k : Tracking) :
    ∃ t, ((tokenEngine k).resolve tokenContext "$\x7btoken\x7d").1 = .ok t ∧
      t.resolved = ["token"] := by
  obtain ⟨graph, hg, hc⟩ := graph_token
  obtain ⟨l, hx, hr, hu⟩ := expand_token tokenContext.fingerprint k
  have hpass : (tokenEngine k).pass tokenContext graph.cycles =
      ⟨tokenContext, tokenContext.fingerprint, ⟨[]⟩, 1, []⟩ := by
    rw [hc]
    rfl
  rw [← hpass] at hx
  rw [resolve_parsed parse_token, expand_ok hg hx]
  refine ⟨_, rfl, ?_⟩
  show l.resolved.filter _ = _
  rw [hr, hu]
  rfl

theorem takes_token (k : Tracking) :
    (tokenEngine k).Takes tokenContext "$\x7btoken\x7d" "token" "s3cr3t" := by
  obtain ⟨graph, hg, hc⟩ := graph_token
  refine ⟨_, graph, parse_token, hg, ?_⟩
  have hpass : (tokenEngine k).pass tokenContext graph.cycles =
      ⟨tokenContext, tokenContext.fingerprint, ⟨[]⟩, 1, []⟩ := by
    rw [hc]
    rfl
  rw [hpass]
  generalize tokenContext.fingerprint = f
  obtain ⟨l, hx, -⟩ := variable_token f k
  refine ⟨1, (tokenEngine k).ledger, _, l, ?_, hx, rfl⟩
  have hs : tokenSegments = [] ++ tokenSegments.head (List.cons_ne_nil _ _) :: [] := rfl
  exact .top hs rfl rfl

/-- With the usual tracking the secret takes its value and is hidden. -/
theorem token_hidden :
    ∃ t, ((tokenEngine {}).resolve tokenContext "$\x7btoken\x7d").1 = .ok t ∧
      ("s3cr3t".toList <:+:
          (Secret.hide (Secret.values t tokenContext.secretNames) t.value).toList →
        (∀ s ∈ t.steps, ¬ s.event.Shows "token" "s3cr3t") ∧
          ((tokenEngine {}).tracking.isEnabled = false ∨ t.isTruncated = true)) ∧
      ((tokenEngine {}).tracking.isEnabled = false →
        Secret.hide (Secret.values t tokenContext.secretNames) t.value = t.value) := by
  obtain ⟨t, ht, hresolved⟩ := resolve_token {}
  have hfresh : (tokenEngine {}).IsFresh := fun cache hc => by cases hc
  have hn : "token" ∈ t.resolved := by
    rw [hresolved]
    exact List.mem_cons_self
  exact ⟨t, ht, secret_printed hfresh ht (s := .global) (x := tokenContext.global.head (by decide))
    rfl rfl hn (takes_token {}) (by decide) (by decide)⟩

end Engine
end Stencil
