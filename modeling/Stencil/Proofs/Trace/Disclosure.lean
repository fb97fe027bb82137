/-
# What a trace without secret values still discloses

Hiding the values of secrets in a trace replaces them in its value, in the
outputs of its steps and in what its steps show of the secrets themselves.
What is told of calls is left as it is: inputs, arguments, errors and failures
(`LaysBare`). If a character occurs in one variable's value only, those are the
only texts in which that value can still be found once it is hidden at all
(`Confines.laysBare`).

Key definitions: `Event.Confines`, `Trace.Confines`, `Trace.LaysBare`,
`Trace.Prints`.
Key theorems: `LaysBare.printed`, `Confines.laysBare`.
-/
import Stencil.Context.Definition
import Stencil.Proofs.Function
import Stencil.Proofs.Trace.Texts
import Stencil.Secret

namespace Stencil

open Template Report

/-- Something is malformed in the value of a name. -/
def Context.IsFaulty (c : Context) (n : String) (f : Template.Fault) : Prop :=
  ∃ d, c.define? n = .ok (some d) ∧ d.parsed = .error f

/-- An event tells of its name, its scope and its details nothing with the character, unless it is
an argument or an owner; its input and its error have it only if the event is that of a call, or if
it is about the name `n`. -/
structure Event.Confines (e : Event) (c : Context) (K : Reference → Prop) (n : String) (χ : Char) :
    Prop where
  name : χ ∉ e.name.toList
  scope : ∀ x, e.scope = some x → χ ∉ x.toList
  input : χ ∈ e.input.toList → (e.kind = .call ∧ ∃ r, K r ∧ e.input = r.raw) ∨
    (e.kind = .nested ∧ e.name = n)
  error : ∀ x, e.error = some x → χ ∈ x.toList → e.kind = .call ∨ ∃ f, c.IsFaulty n f
  details : ∀ d ∈ e.details, χ ∉ d.1.toList ∧ (d.2.Lacks χ ∨ d.1 = "args" ∨ d.1 = "owner_id")

/-- A lookup that tells a scope tells the value that was found there, and what is malformed in it. -/
def Event.TellsValue (e : Event) (c : Context) : Prop :=
  e.kind = .lookup → e.scope ≠ none → ∃ d, c.define? e.name = .ok (some d) ∧ e.output = d.text ∧
    e.error = match d.parsed with
      | .ok _ => none
      | .error f => some (Failure.ofFault f).message

/-- The report of a failure has the character only if the failure is that of a call, or says what is
malformed in the value of `n`. -/
def Failure.Confines (f : Failure) (c : Context) (n : String) (χ : Char) : Prop :=
  f.isCall = true ∨ f.Lacks χ ∨ ∃ fault, c.IsFaulty n fault ∧ f = .ofFault fault

namespace Trace

/-- Apart from its value and its outputs, a trace has the character only in such places. -/
structure Confines (t : Trace) (c : Context) (K : Reference → Prop) (n : String) (χ : Char) :
    Prop where
  template : χ ∉ t.template.toList
  steps : ∀ s ∈ t.steps, s.event.Confines c K n χ ∧ s.event.TellsValue c
  failures : ∀ f ∈ t.failures, f.Confines c n χ
  resolved : ∀ m ∈ t.resolved, χ ∉ m.toList
  unresolved : ∀ m ∈ t.unresolved, χ ∉ m.toList
  dependencies : ∀ d ∈ t.dependencies, χ ∉ d.1.toList ∧ ∀ m ∈ d.2, χ ∉ m.toList
  cycles : ∀ cycle ∈ t.cycles, ∀ m ∈ cycle, χ ∉ m.toList

/-- The texts of a trace that tell where it comes from, who owns a variable, or anything of a call
but its output. Nothing is hidden in them. -/
inductive LaysBare (t : Trace) : String → Prop where
  | id : LaysBare t t.id
  | context {s : Summary} {x : String} (hs : t.context = some s) (hx : s.report.HasText x) :
      LaysBare t x
  | owner {s : Step} {v : Value} {x : String} (hs : s ∈ t.steps)
      (hv : ("owner_id", v) ∈ s.event.details) (hx : v.HasText x) : LaysBare t x
  | argument {s : Step} {v : Value} {x : String} (hs : s ∈ t.steps)
      (hv : ("args", v) ∈ s.event.details) (hx : v.HasText x) : LaysBare t x
  | input {s : Step} (hs : s ∈ t.steps) (hk : s.event.kind = .call) : LaysBare t s.event.input
  | error {s : Step} {x : String} (hs : s ∈ t.steps) (hk : s.event.kind = .call)
      (hx : s.event.error = some x) : LaysBare t x
  | failure {f : Failure} {x : String} (hf : f ∈ t.failures) (hc : f.isCall = true)
      (hx : f.report.HasText x) : LaysBare t x

/-- A text is a part of one that is printed of the trace of a call in the context, secrets being
hidden. -/
def Prints (t : Trace) (c : Context) (v : String) : Prop :=
  ∃ x, (t.hideSecrets c.secretNames (Secret.values t c.secretNames)).report.HasText x ∧
    v.toList <:+: x.toList

/-- A name was looked up, and a scope was found that defines it. -/
def LooksUp (t : Trace) (n : String) : Prop :=
  ∃ s ∈ t.steps, s.event.kind = .lookup ∧ s.event.name = n ∧ s.event.scope ≠ none

end Trace

/-! ### What is kept of an event -/

namespace Event

variable {c : Context} {K : Reference → Prop} {n : String} {χ : Char} {e : Event}

/-- An event that is no lookup, or that tells no scope, tells no value. -/
theorem tellsValue_of_ne (h : e.kind ≠ .lookup ∨ e.scope = none) : e.TellsValue c :=
  fun hk hs => absurd hs (by simpa using h.resolve_left (fun hne => hne hk))

theorem mem_setDetail {d : String × Value} {k : String} {v : Value} {ds : List (String × Value)}
    (h : d ∈ Tracking.setDetail k v ds) : d = (k, v) ∨ d ∈ ds := by
  induction ds with
  | nil => exact .inl (List.mem_singleton.1 h)
  | cons x ds ih =>
    obtain ⟨l, w⟩ := x
    unfold Tracking.setDetail at h
    split_ifs at h with hl
    · rw [beq_iff_eq] at hl
      subst hl
      exact (List.mem_cons.1 h).imp_right (List.mem_cons_of_mem _)
    · rcases List.mem_cons.1 h with rfl | h
      · exact .inr List.mem_cons_self
      · exact (ih h).imp_right (List.mem_cons_of_mem _)

theorem mem_shape_details {d : String × Value} {t : Tracking} (h : d ∈ (t.shape e).details) :
    d = ("depth", .int e.depth) ∨ d ∈ e.details := by
  have hfold : ∀ (ds base : List (String × Value)),
      d ∈ ds.foldl (fun ds kv => Tracking.setDetail kv.1 kv.2 ds) base → d ∈ base ∨ d ∈ ds := by
    intro ds
    induction ds with
    | nil => exact fun base h => .inl h
    | cons x ds ih =>
      intro base h
      rcases ih _ h with h | h
      · rcases mem_setDetail h with rfl | h
        · exact .inr List.mem_cons_self
        · exact .inl h
      · exact .inr (List.mem_cons_of_mem _ h)
  unfold Tracking.shape at h
  dsimp only at h
  split_ifs at h
  · exact (hfold _ _ h).imp_left List.mem_singleton.1
  · exact absurd h List.not_mem_nil

/-- What is kept of an event confines what the event does. -/
theorem Confines.shape (h : e.Confines c K n χ) (hχ : IsUncommon χ) (t : Tracking) :
    (t.shape e).Confines c K n χ where
  name := h.name
  scope := h.scope
  input := h.input
  error := h.error
  details d hd := by
    rcases mem_shape_details hd with rfl | hd
    · exact ⟨hχ _ (by simp [fixedTexts]), .inl (by simp)⟩
    · exact h.details d hd

end Event

/-! ### What is printed -/

namespace Trace

variable {t : Trace} {c : Context} {K : Reference → Prop} {n v x : String} {χ : Char}
  {names values : List String}

/-- A text of a step is one of the trace. -/
theorem report_of_step {s : Step} (hs : s ∈ t.steps) (h : s.report.HasText x) :
    t.report.HasText x :=
  hasText_field (k := "steps") (by simp)
    (Value.hasText_list.2 ⟨_, List.mem_map_of_mem hs, h⟩)

/-- **What a trace lays bare is printed.** -/
theorem LaysBare.printed (h : t.LaysBare x) : (t.hideSecrets names values).report.HasText x := by
  have hstep : ∀ {s : Step} {y : String}, s ∈ t.steps →
      (Secret.hideStep names values s).report.HasText y →
      (t.hideSecrets names values).report.HasText y :=
    fun hs hy => report_of_step (List.mem_map_of_mem hs) hy
  have hdetail : ∀ {s : Step} {k y : String} {v : Value}, s ∈ t.steps → (k, v) ∈ s.event.details →
      v.HasText y → (t.hideSecrets names values).report.HasText y :=
    fun hs hv hy => hstep hs (hasText_field (k := "metadata") (by simp [Secret.hideStep])
      (hasText_field hv hy))
  cases h with
  | id => exact hasText_field (k := "id") (by simp [hideSecrets]) (.text _)
  | context hs hx =>
    refine hasText_field (k := "context") (v := Summary.report _) ?_ hx
    simp [hideSecrets, hs]
  | owner hs hv hx => exact hdetail hs hv hx
  | argument hs hv hx => exact hdetail hs hv hx
  | @input s hs hk =>
    refine hstep hs (hasText_field (k := "input") (v := .text s.event.input) ?_ (.text _))
    simp [Secret.hideStep, hk]
  | error hs hk hx =>
    refine hstep hs (hasText_field (k := "error") (v := .text x) ?_ (.text _))
    simp [Secret.hideStep, hx, textOrNull]
  | failure hf hc hx =>
    refine hasText_field (k := "errors") (v := .list (t.failures.map Failure.report)) ?_
      (Value.hasText_list.2 ⟨_, List.mem_map_of_mem hf, hx⟩)
    simp [hideSecrets]

variable (ht : t.Confines c K n χ) (hχ : IsUncommon χ) (hok : ∀ f, ¬ c.IsFaulty n f)
include ht hχ hok

/-- Where a step shows the character once secrets are hidden, apart from what was hidden. -/
theorem Confines.laysBare_step {s : Step} (hn : n ∈ names) (hs : s ∈ t.steps)
    (hx : (Secret.hideStep names values s).report.HasText x) (hmem : χ ∈ x.toList) :
    t.LaysBare x ∨ ∃ y, x = Secret.hide values y := by
  obtain ⟨hc, -⟩ := ht.steps s hs
  rcases Step.hasText_report hx with hx | rfl | rfl | rfl | hx | hx | hx
  · exact absurd hmem (hχ _ hx)
  · exact absurd hmem hc.name
  · dsimp only [Secret.hideStep] at hmem ⊢
    split_ifs at hmem ⊢ with hhidden
    · exact .inr ⟨_, rfl⟩
    · rcases hc.input hmem with ⟨hk, -⟩ | ⟨hk, rfl⟩
      · exact .inl (.input hs hk)
      · exact absurd (by simp [hk, hn]) hhidden
  · exact .inr ⟨_, rfl⟩
  · exact absurd hmem (hc.scope x hx)
  · rcases hc.error x hx hmem with hk | ⟨f, hf⟩
    · exact .inl (.error hs hk hx)
    · exact absurd hf (hok f)
  · obtain ⟨⟨k, v⟩, hd, h⟩ := hasText_record.1 hx
    obtain ⟨hk, hv⟩ := hc.details (k, v) hd
    rcases h with rfl | h
    · exact absurd hmem hk
    · rcases hv with hv | rfl | rfl
      · exact absurd hmem (hv x h)
      · exact .inl (.argument hs hd h)
      · exact .inl (.owner hs hd h)

/-- **A value that is hidden at all is printed only where the trace lays it bare.** -/
theorem Confines.laysBare (hn : n ∈ names) (hv : χ ∈ v.toList)
    (hhide : ∀ text, ¬ v.toList <:+: (Secret.hide values text).toList)
    (hx : (t.hideSecrets names values).report.HasText x) (hvx : v.toList <:+: x.toList) :
    t.LaysBare x := by
  have hmem : χ ∈ x.toList := hvx.subset hv
  rcases hasText_report hx with hx | rfl | rfl | rfl | ⟨s', hs', hx⟩ | hx | hx | ⟨f, hf, hx⟩ |
    ⟨s, hs, hx⟩ | ⟨d, hd, hx⟩ | ⟨cycle, hc, hx⟩
  · exact absurd hmem (hχ _ hx)
  · exact .id
  · exact absurd hmem ht.template
  · exact absurd hvx (hhide _)
  · obtain ⟨s, hs, rfl⟩ := List.mem_map.1 hs'
    rcases ht.laysBare_step hχ hok hn hs hx hmem with h | ⟨y, rfl⟩
    · exact h
    · exact absurd hvx (hhide y)
  · exact absurd hmem (ht.resolved x hx)
  · exact absurd hmem (ht.unresolved x hx)
  · rcases ht.failures f hf with hc | hl | ⟨fault, hfault, -⟩
    · exact .failure hf hc hx
    · exact absurd hmem (hl x hx)
    · exact absurd hfault (hok fault)
  · exact .context hs hx
  · rcases hx with rfl | hx
    · exact absurd hmem (ht.dependencies d hd).1
    · exact absurd hmem ((ht.dependencies d hd).2 x hx)
  · exact absurd hmem (ht.cycles cycle hc x hx)

end Trace
end Stencil
