/-
# What is printed of a secret

Before a trace is printed, the values that its steps show of secret variables
are hidden in it. So a value that has a character of its own is printed only
where nothing is hidden, which is in what the trace tells of calls: a secret
whose value calls a function is printed with the call. And the value of a
secret that is malformed is not among the hidden ones, so it is printed as it
is (`secret_disclosed`).

Key definitions: `Context.IsTelltale`, `Context.HasCall`.
Key theorems: `resolve_confines`, `secret_disclosed`.
-/
import Stencil.Proofs.Engine.References
import Stencil.Proofs.Engine.Secrecy
import Stencil.Proofs.Expansion.Telltale
import Stencil.Proofs.Template.Literals

namespace Stencil

open Template Report

namespace Context

/-- A name that a template refers to, directly or through the values of other names. -/
def IsMentioned (c : Context) (template m : String) : Prop :=
  ∃ segments, Template.parse template = .ok (.ok segments) ∧ c.Reached (variableNames segments) m

/-- The value of a name calls a function. -/
def HasCall (c : Context) (n : String) (r : Reference) : Prop :=
  ∃ d segments, c.define? n = .ok (some d) ∧ d.parsed = .ok segments ∧
    .reference r ∈ segments ∧ r.isCall = true

/-- Of all that a template may come upon, only the value of `n` has the character: no fixed text has
it, nor has the template, a name, or the value of another name. -/
structure IsTelltale (c : Context) (template n : String) (χ : Char) : Prop where
  uncommon : IsUncommon χ
  top : χ ∉ template.toList
  self : χ ∉ n.toList
  name : ∀ m, c.IsMentioned template m → χ ∉ m.toList
  callee : ∀ r, c.HasCall n r → χ ∉ r.name.toList
  value : ∀ m d, c.IsMentioned template m → m ≠ n → c.define? m = .ok (some d) →
    χ ∉ d.text.toList

/-- A call whose name does not have the character, and whose text has it only if it stands in the
value of `n`. -/
def Withholds (c : Context) (n : String) (χ : Char) (r : Reference) : Prop :=
  χ ∉ r.name.toList ∧ (χ ∈ r.raw.toList → c.HasCall n r)

variable {c : Context} {template n m text : String} {χ : Char} {segments : List Segment}

theorem lookup?_of_define? {d : Definition} (hd : c.define? n = .ok (some d)) :
    c.lookup? n = some (d.scope, d.winner) := by
  unfold define? at hd
  split at hd
  · cases hd
  · rename_i scope winner hl
    split at hd
    · cases hd
    · split at hd
      · cases hd
      · cases hd
        exact hl

/-- What stands in a text without the character does not have it. -/
theorem meet_of_lacks (hp : Template.parse text = .ok (.ok segments)) (hx : χ ∉ text.toList)
    {N : String → Prop} (hN : ∀ k ∈ variableNames segments, N k) :
    Segment.Meet N (c.Withholds n χ) segments := by
  intro r hr
  obtain ⟨hraw, hname⟩ := reference_of_parse hp hr
  have hlacks : χ ∉ r.raw.toList := fun h => hx (hraw.subset h)
  unfold Reference.Meets
  split_ifs with hc
  · exact ⟨fun h => hlacks (hname.subset h), fun h => absurd h hlacks⟩
  · exact hN _ (mem_variableNames.2 ⟨r, hr, by simpa using hc, rfl⟩)

/-- The value of a name that is mentioned mentions names, and calls that withhold the character. -/
theorem IsTelltale.meet (h : c.IsTelltale template n χ) {d : Definition}
    (hm : c.IsMentioned template m) (hd : c.define? m = .ok (some d))
    (hp : d.parsed = .ok segments) :
    Segment.Meet (c.IsMentioned template) (c.Withholds n χ) segments := by
  have hparse := define?_parse hd
  rw [hp] at hparse
  have hN : ∀ k ∈ variableNames segments, c.IsMentioned template k := by
    intro k hk
    obtain ⟨top, ht, hreached⟩ := hm
    have href : c.Refers m k := by
      refine ⟨d, hd, ?_⟩
      rw [Definition.references, hp]
      exact hk
    exact ⟨top, ht, hreached.refers href⟩
  by_cases hmn : m = n
  · subst hmn
    intro r hr
    unfold Reference.Meets
    split_ifs with hc
    · have hcall : c.HasCall m r := ⟨d, segments, hd, hp, hr, hc⟩
      exact ⟨h.callee r hcall, fun _ => hcall⟩
    · exact hN _ (mem_variableNames.2 ⟨r, hr, by simpa using hc, rfl⟩)
  · exact meet_of_lacks hparse (h.value m d hm hmn hd) hN

end Context

namespace Engine

open Context

variable {e : Engine} {c : Context} {template n v : String} {stamp : Stamp} {t : Trace} {χ : Char}
  {d : Definition} {segments : List Segment} {graph : Graph}

theorem pass_isTelltale (h : c.IsTelltale template n χ)
    (hp : Template.parse template = .ok (.ok segments))
    (hg : Graph.ofContext c (variableNames segments) = .ok graph) :
    (e.pass c graph.cycles).IsTelltale (c.IsMentioned template) (c.Withholds n χ) n χ where
  uncommon := h.uncommon
  name := h.name
  value := h.value
  callee _ hr := hr.1
  cycle entry hentry := by
    obtain ⟨hcycle, hmem⟩ := Graph.of_mem_cycleMembers hentry
    have hmentioned : ∀ m ∈ entry.2, c.IsMentioned template m :=
      fun m hm => ⟨segments, hp, ((Graph.ofContext_depicts hg).of_mem_cycles hcycle hm).1⟩
    exact ⟨hmentioned _ hmem, hmentioned⟩

/-- The ledger of a call confines what it lists. -/
theorem ending_confines (h : c.IsTelltale template n χ) (e : Engine) :
    (e.ending c template).Confines c (c.Withholds n χ) n χ := by
  have hstart : e.ledger.Confines c (c.Withholds n χ) n χ := by
    refine ⟨fun x hx => absurd hx List.not_mem_nil, fun f hf => absurd hf List.not_mem_nil,
      fun m hm => absurd hm List.not_mem_nil⟩
  obtain hend | ⟨segments, graph, hp, hg, hend⟩ := ending_cases e c template
  · exact hend ▸ hstart
  · have hroots : ∀ k ∈ variableNames segments, c.IsMentioned template k :=
      fun k hk => ⟨segments, hp, k, hk, .refl⟩
    rw [hend]
    exact Pass.expandTemplate_confines (pass_isTelltale (e := e) h hp hg)
      (fun _ _ _ hm hd hs => h.meet hm hd hs) (meet_of_lacks hp h.top hroots) hstart

/-- What is known at the end of a call has the character only in failures that may have it. -/
structure Ends (c : Context) (n : String) (χ : Char) (x : Recorder.Ending) : Prop where
  failures : ∀ f ∈ x.failures, f.Confines c n χ
  resolved : ∀ m ∈ x.resolved, χ ∉ m.toList
  unresolved : ∀ m ∈ x.unresolved, χ ∉ m.toList
  dependencies : ∀ d ∈ x.dependencies, χ ∉ d.1.toList ∧ ∀ m ∈ d.2, χ ∉ m.toList
  cycles : ∀ cycle ∈ x.cycles, ∀ m ∈ cycle, χ ∉ m.toList

theorem outcome_ends (h : c.IsTelltale template n χ) {x : Recorder.Ending}
    (hx : e.outcome c template = .ok x) : Ends c n χ x := by
  cases outcome_concludes hx with
  | malformed hp =>
    refine ⟨fun f hf => ?_, nofun, nofun, nofun, nofun⟩
    rw [List.mem_singleton.1 hf]
    exact .inr (.inl (Failure.lacks_malformed h.uncommon (fault_of_parse hp) h.top))
  | expanded hp hg hr =>
    rename_i l
    have hl := (ending_confines h e).names
    rw [ending_expand hp hg, hr] at hl
    have hstatus : ∀ b, ∀ m ∈ (l.status.filter b).map Prod.fst, χ ∉ m.toList := by
      intro b m hm
      obtain ⟨s, hs, rfl⟩ := List.mem_map.1 hm
      exact hl _ (List.mem_map_of_mem (List.mem_of_mem_filter hs))
    have hd := Graph.ofContext_depicts hg
    have hnames : ∀ m ∈ Graph.names _, χ ∉ m.toList :=
      fun m hm => h.name m ⟨_, hp, (hd.names m).1 hm⟩
    refine ⟨nofun, hstatus _, hstatus _, fun a ha => ?_, fun cycle hc m hm => ?_⟩
    · obtain ⟨m, hm, rfl⟩ := List.mem_map.1 ha
      refine ⟨hnames m hm, fun k hk => hnames k ?_⟩
      exact (hd.wellFormed.ends _ (Graph.mem_successors.1 hk)).2
    · exact h.name m ⟨_, hp, (hd.of_mem_cycles hc hm).1⟩

/-- **A trace confines what it tells**, apart from its value and its outputs. -/
theorem resolve_confines (h : c.IsTelltale template n χ)
    (ht : (e.resolve c template stamp).1 = .ok t) : t.Confines c (c.Withholds n χ) n χ := by
  have hl := ending_confines h e
  have htext : (e.recorded c template stamp).template = template :=
    e.recorded_template c template stamp
  have hfailures := recorded_failures e c template stamp
  obtain ⟨x, hx, rfl⟩ := resolve_trace ht
  have hends := outcome_ends h hx
  exact {
    template := by
      show χ ∉ (e.recorded c template stamp).template.toList
      rw [htext]
      exact h.top
    steps := by
      intro s hs
      obtain ⟨x, hx, he⟩ := recorded_step hs
      obtain ⟨hc, hv⟩ := hl.events x (List.mem_reverse.1 hx)
      rw [he]
      exact ⟨hc.shape h.uncommon _, hv⟩
    failures := by
      intro f hf
      rcases List.mem_append.1 hf with hf | hf
      · rw [hfailures] at hf
        exact hl.failures f (List.mem_reverse.1 hf)
      · exact hends.failures f hf
    resolved := fun m hm => hends.resolved m (List.mem_of_mem_filter hm)
    unresolved := hends.unresolved
    dependencies := hends.dependencies
    cycles := hends.cycles }

/-- A lookup that found the value of a name shows it, unless something is malformed in it. -/
theorem shows_of_looksUp (hc : t.Confines c (c.Withholds n χ) n χ)
    (hd : c.define? n = .ok (some d)) (hl : t.LooksUp n) :
    ∃ s ∈ t.steps, s.event.kind = .lookup ∧ s.event.name = n ∧ s.event.output = d.text ∧
      ∀ segments, d.parsed = .ok segments → s.event.Shows n d.text := by
  obtain ⟨s, hs, hk, hname, hscope⟩ := hl
  obtain ⟨d', hd', hout, herr⟩ := (hc.steps s hs).2 hk hscope
  rw [hname, hd] at hd'
  cases hd'
  refine ⟨s, hs, hk, hname, hout, fun segments hp => ⟨hname, hout, ?_, by rw [hk]; rfl⟩⟩
  rw [herr, hp]

/-- **Once its values are hidden, a secret that is not malformed is printed only where the trace lays
it bare**, which is in what is told of calls, of owners and of the context; of the inputs of calls
only those of its own have a part of it. **A malformed one is printed as it is**, if no value that is
hidden occurs in it. -/
theorem secret_disclosed (hf : e.IsFresh) (hw : e.tracking.isEnabled = true)
    (ht : (e.resolve c template stamp).1 = .ok t) (hk : t.isTruncated = false)
    (hd : c.define? n = .ok (some d)) (hsecret : d.winner.isSecret = true)
    (hχ : c.IsTelltale template n χ) :
    (∀ segments, d.parsed = .ok segments →
      (∀ v, χ ∈ v.toList → '*' ∉ v.toList →
        (t.LooksUp n ∧ v = d.text) ∨ e.Takes c template n v →
        (t.Prints c v ↔ ∃ x, t.LaysBare x ∧ v.toList <:+: x.toList)) ∧
      ∀ s ∈ t.steps, s.event.kind = .call → χ ∈ s.event.input.toList →
        ∃ r, .reference r ∈ segments ∧ r.isCall = true ∧ s.event.input = r.raw) ∧
    ∀ f, d.parsed = .error f → t.LooksUp n →
      (∀ w ∈ Secret.values t c.secretNames, ¬ w.toList <:+: d.text.toList) →
        t.Prints c d.text := by
  have hc := resolve_confines hχ ht
  have hn : n ∈ c.secretNames := mem_secretNames.2 ⟨d.scope, d.winner, lookup?_of_define? hd, hsecret⟩
  refine ⟨fun segments hp => ⟨fun v hv hstar hval => ?_, fun s hs hkind hmem => ?_⟩,
    fun f hp hl hvalues => ?_⟩
  · have hok : ∀ f, ¬ c.IsFaulty n f := by
      rintro f ⟨d', hd', hp'⟩
      rw [hd] at hd'
      cases hd'
      rw [hp] at hp'
      cases hp'
    have hne : v ≠ "" := by
      rintro rfl
      exact absurd hv List.not_mem_nil
    have hshown : ∃ s ∈ t.steps, s.event.Shows n v := by
      rcases hval with ⟨hl, rfl⟩ | htakes
      · obtain ⟨s, hs, -, -, -, hshows⟩ := shows_of_looksUp hc hd hl
        exact ⟨s, hs, hshows segments hp⟩
      · refine (step_shows_or_failed hf ht htakes hw hk).resolve_left fun h => ?_
        exact not_mem_marker hχ.uncommon hχ.self (h.2 ▸ hv)
    obtain ⟨s, hs, hshows⟩ := hshown
    constructor
    · rintro ⟨x, hx, hvx⟩
      have hhide := Secret.hide_values hs hshows hn hne hstar
      exact ⟨x, hc.laysBare hχ.uncommon hok hn hv hhide hx hvx, hvx⟩
    · rintro ⟨x, hx, hvx⟩
      exact ⟨x, hx.printed, hvx⟩
  · rcases (hc.steps s hs).1.input hmem with ⟨-, r, hr, hraw⟩ | ⟨hnested, -⟩
    · obtain ⟨d', segments', hd', hp', hmem', hcall⟩ := hr.2 (hraw ▸ hmem)
      rw [hd] at hd'
      cases hd'
      rw [hp] at hp'
      cases hp'
      exact ⟨r, hmem', hcall, hraw⟩
    · rw [hkind] at hnested
      cases hnested
  · obtain ⟨s, hs, hkind, hname, hout, -⟩ := shows_of_looksUp hc hd hl
    refine ⟨d.text, ?_, List.infix_rfl⟩
    refine Trace.report_of_step (List.mem_map_of_mem hs) ?_
    refine hasText_field (k := "output") (v := .text d.text) ?_ (.text _)
    have hhide : Secret.hide (Secret.values t c.secretNames) s.event.output = d.text := by
      rw [hout, Secret.hide_of_not_infix hvalues]
    simp [Secret.hideStep, hhide]

/-! ### A secret that calls a function -/

/-- A call of a function with a text. -/
def keyExpression : Grammar.Expression := callExpression .single ⟨['f'], by decide⟩ [.text "k#y"]

/-- A context with a secret whose value is the call. -/
def keyContext : Context :=
  { global := [{ name := "key", value := .text "$\x7bf('k#y')\x7d", isSecret := true }] }

/-- The meaning of the secret. -/
def keyDefinition : Definition where
  scope := .global
  winner := { name := "key", value := .text "$\x7bf('k#y')\x7d", isSecret := true }
  text := "$\x7bf('k#y')\x7d"
  parsed := .ok [.reference (keyExpression.reference 0)]

/-- The segments of a template that refers to the secret. -/
def keySegments : List Segment :=
  [.reference { name := "key", arguments? := none, raw := "$\x7bkey\x7d", span := ⟨0, 6⟩ }]

theorem parse_key : Template.parse "$\x7bkey\x7d" = .ok (.ok keySegments) := by cbv

theorem define_key : keyContext.define? "key" = .ok (some keyDefinition) := by
  have hlookup : keyContext.lookup? "key" = some (.global, keyDefinition.winner) := by rfl
  have hparse : Template.parse keyDefinition.text = .ok keyDefinition.parsed := by
    have hshort : keyExpression.IsShort := by
      rintro c ⟨⟩
      exact (argumentList_read .single [.text "k#y"]).1
    exact parse_of_outline (o := .next ⟨[], Grammar.isFlat_nil⟩ keyExpression
      (.last ⟨[], Grammar.isFlat_nil⟩)) (by rfl) ⟨hshort, trivial⟩
  have htext : keyDefinition.winner.template? = .ok keyDefinition.text := by rfl
  unfold define?
  rw [hlookup]
  dsimp only
  rw [htext]
  dsimp only
  rw [hparse]
  rfl

/-- The value of the secret refers to no variable. -/
theorem not_refers_key {k : String} : ¬ keyContext.Refers "key" k := by
  rintro ⟨d, hd, hk⟩
  rw [define_key] at hd
  cases hd
  have hnames : keyDefinition.references = [] := by rfl
  rw [hnames] at hk
  exact absurd hk List.not_mem_nil

/-- The template mentions the secret only. -/
theorem mentioned_key {m : String} (h : keyContext.IsMentioned "$\x7bkey\x7d" m) : m = "key" := by
  obtain ⟨segments, hp, r, hr, hreach⟩ := h
  rw [parse_key] at hp
  cases hp
  have hroots : variableNames keySegments = ["key"] := by cbv
  rw [hroots] at hr
  cases List.mem_singleton.1 hr
  rcases Relation.ReflTransGen.cases_head hreach with h | ⟨k, hk, -⟩
  · exact h.symm
  · exact absurd hk not_refers_key

theorem telltale_key : keyContext.IsTelltale "$\x7bkey\x7d" "key" '#' where
  uncommon := by unfold IsUncommon; decide +kernel
  top := by decide
  self := by decide
  name m hm := mentioned_key hm ▸ by decide
  callee := by
    rintro r ⟨d, segments, hd, hp, hr, -⟩
    rw [define_key] at hd
    cases hd
    cases hp
    cases List.mem_singleton.1 hr
    decide
  value m d hm hne := absurd (mentioned_key hm) hne

/-- What the pass does for the secret: the cache is asked, the value is looked up, and the call in it
is made. -/
theorem expand_key (f : String) :
    ∃ x l, Pass.expandTemplate ⟨keyContext, f, ⟨[]⟩, 1, []⟩ keySegments (tokenEngine {}).ledger =
        (.ok x, l) ∧
      ∃ miss lookup call nested, l.events = [miss, lookup, call, nested] ∧
        (lookup.kind = .lookup ∧ lookup.name = "key" ∧ lookup.scope = some "global") ∧
        call.kind = .call ∧ call.input = keyDefinition.text := by
  let p : Pass := ⟨keyContext, f, ⟨[]⟩, 1, []⟩
  obtain ⟨c, s, hf⟩ : ∃ c s, (tokenEngine {}).ledger.cache.findNow (p.key "key")
      (tokenEngine {}).ledger.sources = .ok (none, c, s) := ⟨_, _, rfl⟩
  have hvar : p.expandVariable (0 + 1) "key" (tokenEngine {}).ledger = _ :=
    Pass.expandVariable_value rfl hf define_key rfl
  obtain ⟨x, l, hx, hevents⟩ : ∃ x l,
      p.expandVariable 1 "key" (tokenEngine {}).ledger = (.ok x, l) ∧
      ∃ miss lookup call nested, l.events = [miss, lookup, call, nested] ∧
        (lookup.kind = .lookup ∧ lookup.name = "key" ∧ lookup.scope = some "global") ∧
        call.kind = .call ∧ call.input = keyDefinition.text := by
    rw [hvar]
    exact ⟨_, _, rfl, _, _, _, _, rfl, ⟨rfl, rfl, rfl⟩, rfl, rfl⟩
  have htop : p.expandTop "key" (tokenEngine {}).ledger = (.ok x, l) := Pass.expandTop_ok hx
  exact ⟨_, l, Pass.expandAll_ok ((Pass.expandSegment_variable rfl).trans htop) rfl, hevents⟩

/-- The graph of the template is made, and it has no cycle. -/
theorem graph_key :
    ∃ graph, Graph.ofContext keyContext (variableNames keySegments) = .ok graph ∧
      graph.cycles = [] := by
  have hmentioned : ∀ {m}, keyContext.Reached (variableNames keySegments) m → m = "key" :=
    fun hm => mentioned_key ⟨_, parse_key, hm⟩
  cases hg : Graph.ofContext keyContext (variableNames keySegments) with
  | error r =>
    obtain ⟨m, hm, hd⟩ := Graph.ofContext_error hg
    rw [hmentioned hm, define_key] at hd
    cases hd
  | ok graph =>
    refine ⟨graph, rfl, List.eq_nil_iff_forall_not_mem.2 fun cycle hc => ?_⟩
    have hd := Graph.ofContext_depicts hg
    obtain ⟨m, hm⟩ :=
      List.exists_mem_of_ne_nil _ ((Graph.sound_cycles hd.wellFormed).cycle cycle hc).ne_nil
    obtain ⟨hreached, k, hrefers⟩ := hd.of_mem_cycles hc hm
    rw [hmentioned hreached] at hrefers
    exact not_refers_key hrefers

/-- The steps for the secret tell of its lookup and of the call. -/
theorem steps_key :
    ∃ t, ((tokenEngine {}).resolve keyContext "$\x7bkey\x7d").1 = .ok t ∧ t.isTruncated = false ∧
      t.LooksUp "key" ∧ ∃ s ∈ t.steps, s.event.kind = .call ∧ s.event.input = keyDefinition.text := by
  obtain ⟨graph, hg, hc⟩ := graph_key
  obtain ⟨x, l, hx, miss, lookup, call, nested, hevents, hlookup, hcall⟩ :=
    expand_key keyContext.fingerprint
  have hpass : (tokenEngine {}).pass keyContext graph.cycles =
      ⟨keyContext, keyContext.fingerprint, ⟨[]⟩, 1, []⟩ := by
    rw [hc]
    rfl
  rw [← hpass] at hx
  have hwanted : (tokenEngine {}).wanted keyContext "$\x7bkey\x7d" =
      [miss, lookup, call, nested] := by
    rw [wanted, ending_expand parse_key hg, hx, hevents]
    rfl
  have hroom : (tokenEngine {}).room keyContext "$\x7bkey\x7d" = 4 := by
    rw [room, hwanted]
    exact Tracking.room_int (b := 1000) rfl 0 4
  obtain ⟨hsteps, -, htrunc⟩ :=
    (tokenEngine {}).recorded_steps keyContext "$\x7bkey\x7d" {}
  rw [hwanted, hroom] at hsteps htrunc
  have hstep : ∀ ev ∈ [miss, lookup, call, nested],
      ∃ s ∈ ((tokenEngine {}).recorded keyContext "$\x7bkey\x7d" {}).steps,
        s.event = (tokenEngine {}).tracking.shape ev := by
    intro ev hev
    have hmem : (tokenEngine {}).tracking.shape ev ∈
        ((tokenEngine {}).recorded keyContext "$\x7bkey\x7d" {}).steps.map Step.event := by
      rw [hsteps]
      exact List.mem_map_of_mem hev
    exact List.mem_map.1 hmem
  obtain ⟨s, hs, he⟩ := hstep lookup (by simp)
  obtain ⟨s', hs', he'⟩ := hstep call (by simp)
  rw [resolve_eq, outcome_expand parse_key hg hx]
  refine ⟨_, rfl, ?_, ⟨s, hs, ?_⟩, s', hs', ?_⟩
  · exact Bool.eq_false_iff.2 fun h => absurd (htrunc.1 h) (lt_irrefl 4)
  · rw [he]
    exact ⟨hlookup.1, hlookup.2.1, by simp [Tracking.shape, hlookup.2.2]⟩
  · rw [he']
    exact hcall

/-- **The secret is printed with its call.** -/
theorem key_printed :
    ∃ t, ((tokenEngine {}).resolve keyContext "$\x7bkey\x7d").1 = .ok t ∧
      t.Prints keyContext "$\x7bf('k#y')\x7d" := by
  obtain ⟨t, ht, htrunc, hl, s, hs, hkind, hinput⟩ := steps_key
  have hfresh : (tokenEngine {}).IsFresh := fun cache hc => by cases hc
  have hprints := ((secret_disclosed hfresh rfl ht htrunc define_key rfl telltale_key).1 _ rfl).1
    keyDefinition.text (by decide) (by decide) (.inl ⟨hl, rfl⟩)
  exact ⟨t, ht, hprints.2 ⟨_, .input hs hkind, hinput ▸ List.infix_rfl⟩⟩

end Engine
end Stencil
