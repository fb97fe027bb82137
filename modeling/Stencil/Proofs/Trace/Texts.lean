/-
# The texts of a report

A report is a value with texts in it: keys, names, messages, inputs and
outputs. Some of them are the same in every report, or are made of texts that
are (`fixedTexts`); the others are what the trace holds (`Trace.hasText_report`).
So a character that no fixed text has is in the report of a failure only where
it is in a name or in an expression that the failure is about.

Key definitions: `Value.HasText`, `fixedTexts`, `IsUncommon`, `Failure.Lacks`.
Key theorems: `Trace.hasText_report`, `Step.hasText_report`, `lacks_malformed`.
-/
import Stencil.Marker
import Stencil.Proofs.Template.Parts
import Stencil.Proofs.Text.Quoted
import Stencil.Trace.Report

namespace Stencil

open Template Report Text

/-- A text that stands in a value: it is the value, or stands in an item, a key or an entry. -/
inductive Value.HasText : Value → String → Prop where
  | text (x : String) : HasText (.text x) x
  | item {items : List Value} {v : Value} {x : String} (hv : v ∈ items) (h : HasText v x) :
      HasText (.list items) x
  | key {entries : List (Value × Value)} {k v : Value} {x : String} (hv : (k, v) ∈ entries)
      (h : HasText k x) : HasText (.map entries) x
  | entry {entries : List (Value × Value)} {k v : Value} {x : String} (hv : (k, v) ∈ entries)
      (h : HasText v x) : HasText (.map entries) x

/-- The texts that a trace and its messages are made of, whatever is expanded. -/
def fixedTexts : List String := [
  "id", "original_template", "final_value", "success", "steps", "resolved_variables",
  "unresolved_variables", "errors", "metrics", "start_time", "end_time", "total_time_ms", "context",
  "dependencies", "cycles", "truncated", "step_number", "type", "name", "input", "output", "scope",
  "execution_time_ms", "cache_hit", "error", "metadata", "timestamp", "kind", "message", "span",
  "cycle", "chain", "max_depth", "variable_count", "function_count", "cache_hits", "cache_misses",
  "profile_id", "rule_id", "request_url", "request_method", "fingerprint", "secret", "owner_id",
  "shadowed", "recursive", "height", "hit_count", "args", "depth",
  "variable", "function", "nested", "cache_miss", "system", "global", "profile", "rule",
  "TemplateSyntaxError", "UndefinedVariableError", "CircularDependencyError", "DepthExceededError",
  "syntax", "undefined", "circular",
  "circular reference", "maximum nesting depth of ", " reached", "Variable '",
  "' is not defined in any scope", "' is part of a circular reference: ",
  "' exceeds the maximum nesting depth of ", " (", ": ", ")", " -> ", "; ", "<<unresolved:", ">>",
  Reason.nested.text, Reason.unterminated.text, Reason.emptyName.text, "Invalid identifier ",
  Reason.unclosedCall.text, Reason.openArguments.text, Reason.bracedArguments.text,
  Reason.nestedArgument.text, Reason.emptyArgument.text, Reason.unseparated.text,
  Reason.openText.text, " at ", "-", "()", digits, quotingMarks]

/-- A character that no fixed text has. -/
def IsUncommon (χ : Char) : Prop := ∀ x ∈ fixedTexts, χ ∉ x.toList

/-- A character that no text of a value is written with. -/
def Value.Lacks (v : Value) (χ : Char) : Prop := ∀ x, v.HasText x → χ ∉ x.toList

/-- A character that no text of a failure's report is written with. -/
def Failure.Lacks (f : Failure) (χ : Char) : Prop := f.report.Lacks χ

variable {v : Value} {vs : List Value} {x k : String} {χ : Char} {fields : List (String × Value)}

/-! ### Values -/

@[simp]
theorem Value.hasText_text {s : String} : (Value.text s).HasText x ↔ x = s :=
  ⟨fun h => by cases h; rfl, fun h => h ▸ .text x⟩

@[simp]
theorem Value.hasText_list : (Value.list vs).HasText x ↔ ∃ v ∈ vs, v.HasText x :=
  ⟨fun h => by cases h with | item hv h => exact ⟨_, hv, h⟩, fun ⟨_, hv, h⟩ => .item hv h⟩

@[simp]
theorem Value.not_hasText_null : ¬ Value.null.HasText x := nofun

@[simp]
theorem Value.not_hasText_bool {b : Bool} : ¬ (Value.bool b).HasText x := nofun

@[simp]
theorem Value.not_hasText_int {i : Int} : ¬ (Value.int i).HasText x := nofun

@[simp]
theorem Value.not_hasText_float {y : Float} : ¬ (Value.float y).HasText x := nofun

@[simp]
theorem Value.lacks_text {s : String} : (Value.text s).Lacks χ ↔ χ ∉ s.toList := by
  simp [Lacks]

@[simp]
theorem Value.lacks_int {i : Int} : (Value.int i).Lacks χ := nofun

@[simp]
theorem Value.lacks_bool {b : Bool} : (Value.bool b).Lacks χ := nofun

@[simp]
theorem Value.lacks_list : (Value.list vs).Lacks χ ↔ ∀ v ∈ vs, v.Lacks χ := by
  simp only [Lacks, hasText_list]
  exact ⟨fun h v hv x hx => h x ⟨v, hv, hx⟩, fun h x ⟨v, hv, hx⟩ => h v hv x hx⟩

namespace Report

@[simp]
theorem not_hasText_natural {n : Nat} : ¬ (natural n).HasText x := nofun

@[simp]
theorem hasText_texts {names : List String} : (texts names).HasText x ↔ x ∈ names := by
  simp [texts]

@[simp]
theorem hasText_textOrNull {s : Option String} : (textOrNull s).HasText x ↔ s = some x := by
  cases s with
  | none => simp [textOrNull]
  | some s => simp [textOrNull, eq_comm]

@[simp]
theorem lacks_texts {names : List String} :
    (texts names).Lacks χ ↔ ∀ n ∈ names, χ ∉ n.toList := by
  simp [texts]

@[simp]
theorem lacks_textOrNull {s : Option String} :
    (textOrNull s).Lacks χ ↔ ∀ m, s = some m → χ ∉ m.toList := by
  simp [Value.Lacks]

theorem hasText_record :
    (record fields).HasText x ↔ ∃ f ∈ fields, x = f.1 ∨ f.2.HasText x := by
  constructor
  · intro h
    cases h with
    | key hv h =>
      obtain ⟨f, hf, he⟩ := List.mem_map.1 hv
      cases he
      exact ⟨f, hf, .inl (Value.hasText_text.1 h)⟩
    | entry hv h =>
      obtain ⟨f, hf, he⟩ := List.mem_map.1 hv
      cases he
      exact ⟨f, hf, .inr h⟩
  · rintro ⟨f, hf, h⟩
    rcases h with rfl | h
    · exact .key (List.mem_map.2 ⟨f, hf, rfl⟩) (.text _)
    · exact .entry (List.mem_map.2 ⟨f, hf, rfl⟩) h

/-- What a field of a record has, the record has. -/
theorem hasText_field (hf : (k, v) ∈ fields) (h : v.HasText x) : (record fields).HasText x :=
  hasText_record.2 ⟨_, hf, .inr h⟩

/-- A record lacks a character if its keys and its fields do. -/
theorem lacks_record (h : ∀ f ∈ fields, χ ∉ f.1.toList ∧ f.2.Lacks χ) :
    (record fields).Lacks χ := by
  intro x hx
  obtain ⟨f, hf, rfl | hx⟩ := hasText_record.1 hx
  · exact (h f hf).1
  · exact (h f hf).2 x hx

/-- A record with fixed keys has nothing else but what its fields have. -/
theorem hasText_fields (hk : ∀ f ∈ fields, f.1 ∈ fixedTexts) (h : (record fields).HasText x) :
    x ∈ fixedTexts ∨ ∃ f ∈ fields, f.2.HasText x := by
  obtain ⟨f, hf, rfl | h⟩ := hasText_record.1 h
  · exact .inl (hk f hf)
  · exact .inr ⟨f, hf, h⟩

end Report

/-! ### Traces -/

theorem StepKind.name_mem (k : StepKind) : k.name ∈ fixedTexts := by
  cases k <;> simp [StepKind.name, fixedTexts]

theorem Scope.name_mem (s : Scope) : s.name ∈ fixedTexts := by
  cases s <;> simp [Scope.name, fixedTexts]

/-- **What the report of a step tells.** -/
theorem Step.hasText_report {s : Step} (h : s.report.HasText x) :
    x ∈ fixedTexts ∨ x = s.event.name ∨ x = s.event.input ∨ x = s.event.output ∨
      s.event.scope = some x ∨ s.event.error = some x ∨ (record s.event.details).HasText x := by
  rcases hasText_fields (by simp [fixedTexts]) h with h | ⟨f, hf, h⟩
  · exact .inl h
  have hkind : x = s.event.kind.name → x ∈ fixedTexts := fun h => h ▸ s.event.kind.name_mem
  rcases hhit : s.event.isHit with _ | b
  all_goals
    simp only [hhit, List.mem_cons, List.not_mem_nil, or_false] at hf
    rcases hf with rfl | rfl | rfl | rfl | rfl | rfl | rfl | rfl | rfl | rfl | rfl
    all_goals simp_all

theorem Metrics.hasText_report {m : Metrics} (h : m.report.HasText x) : x ∈ fixedTexts := by
  rcases hasText_fields (by simp [fixedTexts]) h with h | ⟨f, hf, h⟩
  · exact h
  simp only [List.mem_cons, List.not_mem_nil, or_false] at hf
  rcases hf with rfl | rfl | rfl | rfl | rfl
  all_goals simp at h

/-- **What the report of a trace tells.** -/
theorem Trace.hasText_report {t : Trace} (h : t.report.HasText x) :
    x ∈ fixedTexts ∨ x = t.id ∨ x = t.template ∨ x = t.value ∨
      (∃ s ∈ t.steps, s.report.HasText x) ∨ x ∈ t.resolved ∨ x ∈ t.unresolved ∨
      (∃ f ∈ t.failures, f.report.HasText x) ∨ (∃ s, t.context = some s ∧ s.report.HasText x) ∨
      (∃ d ∈ t.dependencies, x = d.1 ∨ x ∈ d.2) ∨ ∃ c ∈ t.cycles, x ∈ c := by
  rcases hasText_fields (by simp [fixedTexts]) h with h | ⟨f, hf, h⟩
  · exact .inl h
  have hmetrics : t.metrics.report.HasText x → x ∈ fixedTexts := Metrics.hasText_report
  rcases hcontext : t.context with _ | c
  all_goals
    simp only [hcontext, List.mem_cons, List.not_mem_nil, or_false] at hf
    rcases hf with rfl | rfl | rfl | rfl | rfl | rfl | rfl | rfl | rfl | rfl | rfl | rfl | rfl |
      rfl | rfl | rfl
    all_goals simp_all [Report.hasText_record]

/-! ### Failures -/

theorem not_mem_joined {texts : List String} {separator : String} (hs : χ ∉ separator.toList)
    (h : ∀ x ∈ texts, χ ∉ x.toList) : χ ∉ (joined separator texts).toList := by
  rw [joined, String.toList_intercalate]
  induction texts with
  | nil => simp [List.intercalate]
  | cons x texts ih =>
    have hx := h x List.mem_cons_self
    have hrest := ih fun y hy => h y (List.mem_cons_of_mem _ hy)
    cases texts with
    | nil => simpa [List.intercalate] using hx
    | cons y texts =>
      simp only [List.map_cons] at hrest ⊢
      rw [List.intercalate_cons_cons]
      simp [hx, hs, hrest]

theorem not_mem_intText (hχ : IsUncommon χ) (i : Int) : χ ∉ (intText i).toList := by
  intro h
  rcases mem_intText h with h | h
  · exact hχ "-" (by simp [fixedTexts]) h
  · exact hχ digits (by simp [fixedTexts]) h

theorem not_mem_quoted (hχ : IsUncommon χ) (hx : χ ∉ x.toList) : χ ∉ (quoted x).toList := by
  intro h
  rcases mem_quoted h with h | h
  · exact hx h
  · exact hχ quotingMarks (by simp [fixedTexts]) h

theorem not_mem_marker (hχ : IsUncommon χ) (hx : χ ∉ x.toList) :
    χ ∉ (Marker.marker x).toList := by
  have h₁ : χ ∉ "<<unresolved:".toList := hχ _ (by simp [fixedTexts])
  have h₂ : χ ∉ ">>".toList := hχ _ (by simp [fixedTexts])
  rw [Marker.marker, String.toList_ofList, Marker.chars]
  simp only [List.mem_append, not_or]
  exact ⟨⟨h₁, hx⟩, h₂⟩

theorem not_mem_callName (hχ : IsUncommon χ) (hx : χ ∉ x.toList) :
    χ ∉ (Reference.callName x).toList := by
  have h : χ ∉ "()".toList := hχ _ (by simp [fixedTexts])
  rw [Reference.callName, String.toList_append, List.mem_append, not_or]
  exact ⟨hx, h⟩

theorem not_mem_path (hχ : IsUncommon χ) {names : List String}
    (h : ∀ n ∈ names, χ ∉ n.toList) : χ ∉ (Failure.path names).toList :=
  not_mem_joined (hχ _ (by simp [fixedTexts])) h

namespace Failure

/-- The message of a failure is a part of its report. -/
theorem Lacks.message {f : Failure} (h : f.Lacks χ) : χ ∉ f.message.toList := by
  refine h f.message ?_
  unfold report
  split
  · exact hasText_field (k := "message") (by simp) (.text _)
  · exact hasText_field (k := "message") (by simp) (.text _)

/-- A failure that has a kind is told with fixed texts, its name, its message and what else failures
of its kind have. -/
theorem lacks {f : Failure} {kind : String} (hχ : IsUncommon χ) (hk : f.kind? = some kind)
    (hfixed : kind ∈ fixedTexts ∧ f.typeName ∈ fixedTexts)
    (hname : ∀ m, f.name? = some m → χ ∉ m.toList) (hmessage : χ ∉ f.message.toList)
    (hown : ∀ g ∈ f.ownFields, g.1 ∈ fixedTexts ∧ g.2.Lacks χ) : f.Lacks χ := by
  have hkey : ∀ {k}, k ∈ fixedTexts → χ ∉ k.toList := fun h => hχ _ h
  rw [Lacks, report, hk]
  refine lacks_record fun g hg => ?_
  rcases List.mem_append.1 hg with hg | hg
  · have hmem : g.1 ∈ fixedTexts := by
      simp only [List.mem_cons, List.not_mem_nil, or_false] at hg
      rcases hg with rfl | rfl | rfl | rfl <;> simp [fixedTexts]
    refine ⟨hkey hmem, ?_⟩
    simp only [List.mem_cons, List.not_mem_nil, or_false] at hg
    rcases hg with rfl | rfl | rfl | rfl
    · exact Value.lacks_text.2 (hkey hfixed.2)
    · exact Value.lacks_text.2 (hkey hfixed.1)
    · exact lacks_textOrNull.2 hname
    · exact Value.lacks_text.2 hmessage
  · exact ⟨hkey (hown g hg).1, (hown g hg).2⟩

variable {n : String}

theorem lacks_undefined (hχ : IsUncommon χ) (hn : χ ∉ n.toList) : (undefined n).Lacks χ := by
  have hmessage : χ ∉ ("Variable '" ++ n ++ "' is not defined in any scope").toList := by
    have h₁ : χ ∉ "Variable '".toList := hχ _ (by simp [fixedTexts])
    have h₂ : χ ∉ "' is not defined in any scope".toList := hχ _ (by simp [fixedTexts])
    simp only [String.toList_append, List.mem_append, not_or]
    exact ⟨⟨h₁, hn⟩, h₂⟩
  refine lacks hχ rfl (by simp [typeName, fixedTexts]) ?_ hmessage (by simp [ownFields])
  rintro m ⟨⟩
  exact hn

theorem lacks_circular (hχ : IsUncommon χ) {cycle : List String} (hn : χ ∉ n.toList)
    (hc : ∀ m ∈ cycle, χ ∉ m.toList) : (circular n cycle).Lacks χ := by
  have hpath : χ ∉ (path (cycle ++ cycle.take 1)).toList := by
    refine not_mem_path hχ fun m hm => ?_
    rcases List.mem_append.1 hm with hm | hm
    · exact hc m hm
    · exact hc m (List.mem_of_mem_take hm)
  have hmessage : χ ∉ ("Variable '" ++ n ++ "' is part of a circular reference: " ++
      path (cycle ++ cycle.take 1)).toList := by
    have h₁ : χ ∉ "Variable '".toList := hχ _ (by simp [fixedTexts])
    have h₂ : χ ∉ "' is part of a circular reference: ".toList := hχ _ (by simp [fixedTexts])
    simp only [String.toList_append, List.mem_append, not_or]
    exact ⟨⟨⟨h₁, hn⟩, h₂⟩, hpath⟩
  refine lacks hχ rfl (by simp [typeName, fixedTexts]) ?_ hmessage ?_
  · rintro m ⟨⟩
    exact hn
  · simpa [ownFields, fixedTexts] using hc

theorem not_mem_withContext (hχ : IsUncommon χ) {message : String} {context : List (Value × Value)}
    (hm : χ ∉ message.toList) (hc : ∀ x ∈ contextParts context, χ ∉ x.toList) :
    χ ∉ (withContext message context).toList := by
  unfold withContext
  split
  · exact hm
  · have h₁ : χ ∉ " (".toList := hχ _ (by simp [fixedTexts])
    have h₂ : χ ∉ ")".toList := hχ _ (by simp [fixedTexts])
    have hj := not_mem_joined (hχ "; " (by simp [fixedTexts])) hc
    simp only [String.toList_append, List.mem_append, not_or]
    exact ⟨⟨⟨hm, h₁⟩, hj⟩, h₂⟩

theorem lacks_tooDeep (hχ : IsUncommon χ) {inner : List String} {bound : Int}
    (hn : ∀ m ∈ n :: inner, χ ∉ m.toList) : (tooDeep n inner bound).Lacks χ := by
  have hpath : χ ∉ (path (n :: inner)).toList := not_mem_path hχ hn
  have hplain : χ ∉ ("Variable '" ++ n ++ "' exceeds the maximum nesting depth of " ++
      intText bound).toList := by
    have h₁ : χ ∉ "Variable '".toList := hχ _ (by simp [fixedTexts])
    have h₂ : χ ∉ "' exceeds the maximum nesting depth of ".toList := hχ _ (by simp [fixedTexts])
    simp only [String.toList_append, List.mem_append, not_or]
    exact ⟨⟨⟨h₁, hn n List.mem_cons_self⟩, h₂⟩, not_mem_intText hχ bound⟩
  have hmessage : χ ∉ (tooDeep n inner bound).message.toList := by
    refine not_mem_withContext hχ hplain fun x hx => ?_
    have hk : χ ∉ "chain".toList := hχ _ (by simp [fixedTexts])
    have hs : χ ∉ ": ".toList := hχ _ (by simp [fixedTexts])
    have hpart : "chain" ++ ": " ++ path (n :: inner) = x := by
      obtain ⟨e, he, hx⟩ := List.mem_filterMap.1 hx
      rw [List.mem_singleton.1 he] at hx
      dsimp only [Value.plain] at hx
      split_ifs at hx
      exact Option.some.inj hx
    rw [← hpart]
    simp only [String.toList_append, List.mem_append, not_or]
    exact ⟨⟨hk, hs⟩, hpath⟩
  refine lacks hχ rfl (by simp [typeName, fixedTexts]) ?_ hmessage ?_
  · rintro m ⟨⟩
    exact hn n List.mem_cons_self
  · simpa [ownFields, fixedTexts] using hn

theorem lacks_malformed (hχ : IsUncommon χ) {f : Fault} {cs : List Char}
    (hf : f.IsTakenFrom cs) (hcs : χ ∉ cs) : (ofFault f).Lacks χ := by
  have hreason : χ ∉ f.reason.text.toList := by
    have h₁ : χ ∉ "Invalid identifier ".toList := hχ _ (by simp [fixedTexts])
    have hquoted : ∀ m, f.reason = .invalidName m → χ ∉ (quoted m).toList :=
      fun m hm => not_mem_quoted hχ fun h => hcs (hf.reason m hm h)
    cases hr : f.reason with
    | invalidName m =>
      show χ ∉ ("Invalid identifier " ++ quoted m).toList
      rw [String.toList_append, List.mem_append, not_or]
      exact ⟨h₁, hquoted m hr⟩
    | _ => exact hχ _ (by simp [fixedTexts])
  have hmessage : χ ∉ (placedMessage f.reason.text f.span.start f.span.stop f.fragment).toList := by
    have h₁ : χ ∉ " at ".toList := hχ _ (by simp [fixedTexts])
    have h₂ : χ ∉ "-".toList := hχ _ (by simp [fixedTexts])
    have h₃ : χ ∉ ": ".toList := hχ _ (by simp [fixedTexts])
    have hi := not_mem_intText hχ
    have hq := not_mem_quoted hχ fun h => hcs (hf.fragment h)
    simp only [placedMessage, String.toList_append, List.mem_append, not_or]
    exact ⟨⟨⟨⟨⟨⟨hreason, h₁⟩, hi _⟩, h₂⟩, hi _⟩, h₃⟩, hq⟩
  refine lacks hχ rfl (by simp [ofFault, typeName, fixedTexts]) ?_ hmessage ?_
  · exact fun m hm hc => hcs (hf.name m hm hc)
  · simp [ofFault, ownFields, fixedTexts]

end Failure
end Stencil
