/-
# Where the characters of a value come to light

A character that of all names, values and fixed texts only one variable's value
has gives that value away. Besides the outputs of events, an expansion lets it
into few places: into what is told of calls, into the input of the event that
tells of the value itself, and, if the value is malformed, into what is said
of that.

Key definitions: `IsTelltale`, `Ledger.Confines`.
Key theorems: `Move.confines`, `expandTemplate_confines`.
-/
import Stencil.Proofs.Expansion.Moves
import Stencil.Proofs.Trace.Disclosure

namespace Stencil

open Template Report

/-- What a ledger lists has the character only in such places. -/
structure Ledger.Confines (l : Ledger) (c : Context) (K : Reference → Prop) (n : String) (χ : Char) :
    Prop where
  events : ∀ e ∈ l.recentEvents, e.Confines c K n χ ∧ e.TellsValue c
  failures : ∀ f ∈ l.recentFailures, f.Confines c n χ
  names : ∀ m ∈ l.names, χ ∉ m.toList

namespace Pass

/-- Of all that a pass comes upon for the names `N` and the calls `K`, only the value of `n` has the
character. -/
structure IsTelltale (p : Pass) (N : String → Prop) (K : Reference → Prop) (n : String) (χ : Char) :
    Prop where
  uncommon : IsUncommon χ
  name : ∀ m, N m → χ ∉ m.toList
  value : ∀ m d, N m → m ≠ n → p.context.define? m = .ok (some d) → χ ∉ d.text.toList
  callee : ∀ r, K r → χ ∉ r.name.toList
  cycle : ∀ c ∈ p.circular, N c.1 ∧ ∀ m ∈ c.2, N m

end Pass

/-! ### Ledgers -/

namespace Ledger

variable {l : Ledger} {c : Context} {K : Reference → Prop} {n m : String} {χ : Char} {f : Failure}
  {e : Event}

theorem names_markFailed (h : m ∈ (l.markFailed n).names) : m = n ∨ m ∈ l.names := by
  have hset : ∀ marks : List (String × Bool), m ∈ (setFailed n marks).map Prod.fst →
      m = n ∨ m ∈ marks.map Prod.fst := by
    intro marks
    induction marks with
    | nil => simp [setFailed]
    | cons mark marks ih =>
      obtain ⟨k, ok⟩ := mark
      unfold setFailed
      split_ifs with hk
      · exact .inr
      · simp only [List.map_cons, List.mem_cons]
        rintro (rfl | hm)
        · exact .inr (.inl rfl)
        · exact (ih hm).imp_right .inr
  exact hset l.status h

theorem names_markResolved (h : m ∈ (l.markResolved n).names) : m = n ∨ m ∈ l.names := by
  unfold names markResolved setResolved at h
  dsimp only at h
  split_ifs at h
  · exact .inr h
  · rw [List.map_append, List.mem_append] at h
    exact h.symm.imp_left List.mem_singleton.1

namespace Confines

theorem note (h : l.Confines c K n χ) (he : e.Confines c K n χ) (hv : e.TellsValue c) :
    (l.note e).Confines c K n χ :=
  ⟨List.forall_mem_cons.2 ⟨⟨he, hv⟩, h.events⟩, h.failures, h.names⟩

theorem markResolved (h : l.Confines c K n χ) (hm : χ ∉ m.toList) :
    (l.markResolved m).Confines c K n χ :=
  ⟨h.events, h.failures, fun k hk => (names_markResolved hk).elim (fun he => he ▸ hm) (h.names k)⟩

theorem markFailed (h : l.Confines c K n χ) (hm : χ ∉ m.toList) :
    (l.markFailed m).Confines c K n χ :=
  ⟨h.events, h.failures, fun k hk => (names_markFailed hk).elim (fun he => he ▸ hm) (h.names k)⟩

theorem list (h : l.Confines c K n χ) (hm : χ ∉ m.toList) (hf : f.Confines c n χ) :
    (l.list m f).Confines c K n χ := by
  refine ⟨h.events, List.forall_mem_cons.2 ⟨hf, h.failures⟩, fun k hk => ?_⟩
  exact (names_markFailed hk).elim (fun he => he ▸ hm) (h.names k)

theorem fail (h : l.Confines c K n χ) (hm : χ ∉ m.toList) (hf : f.Confines c n χ) :
    (l.fail m f).Confines c K n χ := by
  unfold Ledger.fail
  split_ifs
  · exact h.markFailed hm
  · exact h.list hm hf

end Confines
end Ledger

/-! ### Events -/

namespace Pass

variable {p : Pass} {N : String → Prop} {K : Reference → Prop} {n m : String} {χ : Char}
  {l l' : Ledger} {d : Definition}

theorem not_mem_boundMessage (hχ : IsUncommon χ) (p : Pass) : χ ∉ p.boundMessage.toList := by
  have h₁ : χ ∉ "maximum nesting depth of ".toList := hχ _ (by simp [fixedTexts])
  have h₂ : χ ∉ " reached".toList := hχ _ (by simp [fixedTexts])
  have hn : χ ∉ (Nat.repr p.maxDepth).toList :=
    fun h => hχ _ (by simp [fixedTexts]) (Text.mem_repr h)
  show χ ∉ ("maximum nesting depth of " ++ Nat.repr p.maxDepth ++ " reached").toList
  simp only [String.toList_append, List.mem_append, not_or]
  exact ⟨⟨h₁, hn⟩, h₂⟩

theorem definitionDetails_confine (hχ : IsUncommon χ) (p : Pass) (m : String) (d : Definition) :
    ∀ f ∈ p.definitionDetails m d,
      χ ∉ f.1.toList ∧ (f.2.Lacks χ ∨ f.1 = "args" ∨ f.1 = "owner_id") := by
  have hkey : ∀ k ∈ fixedTexts, χ ∉ k.toList := hχ
  intro f hf
  unfold definitionDetails at hf
  rcases List.mem_append.1 hf with hf | hf
  · rcases List.mem_append.1 hf with hf | hf
    · rw [List.mem_singleton.1 hf]
      exact ⟨hkey _ (by simp [fixedTexts]), .inl (by simp)⟩
    · split at hf
      · split_ifs at hf
        · exact absurd hf List.not_mem_nil
        · rw [List.mem_singleton.1 hf]
          exact ⟨hkey _ (by simp [fixedTexts]), .inr (.inr rfl)⟩
      · exact absurd hf List.not_mem_nil
  · split at hf
    · exact absurd hf List.not_mem_nil
    · rw [List.mem_singleton.1 hf]
      refine ⟨hkey _ (by simp [fixedTexts]), .inl ?_⟩
      simp only [Value.lacks_list, List.mem_map]
      rintro v ⟨w, -, rfl⟩
      exact Value.lacks_text.2 (hkey _ w.scope.name_mem)

/-- An event about a variable of whose value it tells no more than its scope. -/
theorem confines_of_name {e : Event} (hname : χ ∉ e.name.toList) (hinput : e.input = e.name)
    (hscope : ∀ x, e.scope = some x → x ∈ fixedTexts) (hχ : IsUncommon χ)
    (herror : ∀ x, e.error = some x → χ ∈ x.toList → ∃ f, p.context.IsFaulty n f)
    (hdetails : ∀ f ∈ e.details,
      χ ∉ f.1.toList ∧ (f.2.Lacks χ ∨ f.1 = "args" ∨ f.1 = "owner_id")) :
    e.Confines p.context K n χ where
  name := hname
  scope x hx := hχ x (hscope x hx)
  input h := absurd (hinput ▸ h) hname
  error x hx h := .inr (herror x hx h)
  details := hdetails

variable (ht : p.IsTelltale N K n χ)
include ht

theorem circularEvent_confines (hm : N m) {cycle : List String} (hc : ∀ k ∈ cycle, N k)
    (depth : Int) : (circularEvent m cycle depth).Confines p.context K n χ := by
  have hχ := ht.uncommon
  refine confines_of_name (ht.name m hm) rfl nofun hχ ?_ ?_
  · rintro x ⟨⟩ hx
    exact absurd hx (hχ _ (by simp [fixedTexts]))
  · intro f hf
    rw [List.mem_singleton.1 hf]
    refine ⟨hχ _ (by simp [fixedTexts]), .inl ?_⟩
    simpa using fun k hk => ht.name k (hc k hk)

theorem boundEvent_confines (hm : N m) (depth : Int) :
    (p.boundEvent m depth).Confines p.context K n χ := by
  refine confines_of_name (ht.name m hm) rfl nofun ht.uncommon ?_ nofun
  rintro x ⟨⟩ hx
  exact absurd hx (not_mem_boundMessage ht.uncommon p)

theorem missEvent_confines (hm : N m) (depth : Int) :
    (missEvent m depth).Confines p.context K n χ :=
  confines_of_name (ht.name m hm) rfl nofun ht.uncommon nofun nofun

theorem hitEvent_confines (hm : N m) (entry : Cache.Entry) (b : Bool) (depth : Int) :
    (p.hitEvent m entry b depth).Confines p.context K n χ := by
  have hχ := ht.uncommon
  refine confines_of_name (ht.name m hm) rfl ?_ hχ ?_ ?_
  · intro x hx
    obtain ⟨s, -, rfl⟩ := Option.map_eq_some_iff.1 hx
    exact s.name_mem
  · intro x hx hmem
    dsimp only [hitEvent] at hx
    split_ifs at hx
    cases hx
    exact absurd hmem (not_mem_boundMessage hχ p)
  · intro f hf
    simp only [hitEvent, List.mem_cons, List.not_mem_nil, or_false] at hf
    rcases hf with rfl | rfl | rfl
    all_goals exact ⟨hχ _ (by simp [fixedTexts]), .inl (by simp)⟩

theorem undefinedEvent_confines (hm : N m) (depth : Int) :
    (undefinedEvent m depth).Confines p.context K n χ := by
  refine confines_of_name (ht.name m hm) rfl nofun ht.uncommon ?_ nofun
  rintro x ⟨⟩ hx
  exact absurd hx (Failure.lacks_undefined ht.uncommon (ht.name m hm)).message

theorem lookupEvent_confines (hm : N m) (d : Definition) (b : Bool) (depth : Int) :
    (p.lookupEvent m d b depth).Confines p.context K n χ := by
  refine confines_of_name (ht.name m hm) rfl ?_ ht.uncommon nofun ?_
  · rintro x ⟨⟩
    exact d.scope.name_mem
  · intro f hf
    rcases List.mem_append.1 hf with hf | hf
    · exact definitionDetails_confine ht.uncommon p m d f hf
    · rw [List.mem_singleton.1 hf]
      exact ⟨ht.uncommon _ (by simp [fixedTexts]), .inl (by simp)⟩

/-- What is malformed in a value is told with characters of it only. -/
theorem ofFault_confines {fault : Template.Fault} (hm : N m)
    (hd : p.context.define? m = .ok (some d)) (hp : d.parsed = .error fault) :
    (Failure.ofFault fault).Lacks χ ∨ p.context.IsFaulty n fault := by
  by_cases hmn : m = n
  · subst hmn
    exact .inr ⟨d, hd, hp⟩
  · have hparse := Context.define?_parse hd
    rw [hp] at hparse
    exact .inl (Failure.lacks_malformed ht.uncommon (fault_of_parse hparse) (ht.value m d hm hmn hd))

theorem malformedEvent_confines {fault : Template.Fault} (hm : N m)
    (hd : p.context.define? m = .ok (some d)) (hp : d.parsed = .error fault) (depth : Int) :
    (p.malformedEvent m d (.ofFault fault) depth).Confines p.context K n χ := by
  refine confines_of_name (ht.name m hm) rfl ?_ ht.uncommon ?_
    (definitionDetails_confine ht.uncommon p m d)
  · rintro x ⟨⟩
    exact d.scope.name_mem
  · rintro x ⟨⟩ hx
    exact ⟨fault, (ofFault_confines ht hm hd hp).resolve_left fun h => h.message hx⟩

theorem nestedEvent_confines (hm : N m) (hd : p.context.define? m = .ok (some d)) (x : Expansion)
    (depth : Int) : (nestedEvent m d x depth).Confines p.context K n χ where
  name := ht.name m hm
  scope := by
    rintro x ⟨⟩
    exact ht.uncommon _ d.scope.name_mem
  input h := by
    by_cases hmn : m = n
    · exact .inr ⟨rfl, hmn⟩
    · exact absurd h (ht.value m d hm hmn hd)
  error := nofun
  details f hf := by
    simp only [nestedEvent, List.mem_cons, List.not_mem_nil, or_false] at hf
    rcases hf with rfl | rfl
    all_goals exact ⟨ht.uncommon _ (by simp [fixedTexts]), .inl (by simp)⟩

theorem displayName_lacks {r : Reference} (hr : K r) : χ ∉ r.displayName.toList := by
  unfold Reference.displayName
  split_ifs
  · exact not_mem_callName ht.uncommon (ht.callee r hr)
  · exact ht.callee r hr

theorem callEvent_confines {r : Reference} (hr : K r) (output : String) (error : Option String)
    (depth : Int) : (callEvent r output error depth).Confines p.context K n χ where
  name := displayName_lacks ht hr
  scope := nofun
  input _ := .inl ⟨rfl, r, hr, rfl⟩
  error _ _ _ := .inl rfl
  details f hf := by
    rw [List.mem_singleton.1 hf]
    exact ⟨ht.uncommon _ (by simp [fixedTexts]), .inr (.inl rfl)⟩

/-- **Each move confines what it tells.** -/
theorem Move.confines (h : p.Move N K l l') (hl : l.Confines p.context K n χ) :
    l'.Confines p.context K n χ := by
  have hχ := ht.uncommon
  have hname := ht.name
  cases h with
  | shift => exact ⟨hl.events, hl.failures, hl.names⟩
  | list cycle hc =>
    obtain ⟨hn, hm⟩ := ht.cycle cycle hc
    exact hl.fail (hname _ hn) (.inr (.inl (Failure.lacks_circular hχ (hname _ hn)
      fun m h => hname m (hm m h))))
  | circular m cycle depth hm hc =>
    obtain ⟨c, hfind, rfl⟩ := Option.map_eq_some_iff.1 hc
    have hcycle := (ht.cycle c (List.mem_of_find?_eq_some hfind)).2
    exact hl.note (circularEvent_confines ht hm hcycle depth) (Event.tellsValue_of_ne (.inr rfl))
  | bound m depth hm =>
    exact hl.note (boundEvent_confines ht hm depth) (Event.tellsValue_of_ne (.inr rfl))
  | miss m depth hm =>
    exact hl.note (missEvent_confines ht hm depth) (Event.tellsValue_of_ne (.inr rfl))
  | hit m entry b depth hm =>
    exact hl.note (hitEvent_confines ht hm entry b depth) (Event.tellsValue_of_ne (.inl nofun))
  | undefined m depth hm hd =>
    exact (hl.note (undefinedEvent_confines ht hm depth) (Event.tellsValue_of_ne (.inr rfl))).fail
      (hname m hm) (.inr (.inl (Failure.lacks_undefined hχ (hname m hm))))
  | malformed m d fault depth hm hd hp =>
    refine (hl.note (malformedEvent_confines ht hm hd hp depth) fun _ _ => ?_).fail (hname m hm) ?_
    · exact ⟨d, hd, rfl, by rw [hp]; rfl⟩
    · exact .inr ((ofFault_confines ht hm hd hp).imp_right fun hf => ⟨fault, hf, rfl⟩)
  | lookup m d segments b depth hm hd hp =>
    refine hl.note (lookupEvent_confines ht hm d b depth) fun _ _ => ?_
    exact ⟨d, hd, rfl, by rw [hp]; rfl⟩
  | nested m d segments x depth hm hd hp =>
    exact hl.note (nestedEvent_confines ht hm hd x depth) (Event.tellsValue_of_ne (.inl nofun))
  | resolve m hm => exact hl.markResolved (hname m hm)
  | spoil m hm => exact hl.markFailed (hname m hm)
  | tooDeep m inner hm hi =>
    exact hl.fail (hname m hm) (.inr (.inl (Failure.lacks_tooDeep hχ
      (List.forall_mem_cons.2 ⟨hname m hm, fun k hk => hname k (hi k hk)⟩))))
  | called r text depth hr hc =>
    exact (hl.note (callEvent_confines ht hr _ _ depth) (Event.tellsValue_of_ne (.inr rfl))).markResolved
      (displayName_lacks ht hr)
  | broken r f depth hr hc ho =>
    obtain ⟨s, ho⟩ := ho
    exact (hl.note (callEvent_confines ht hr _ _ depth) (Event.tellsValue_of_ne (.inr rfl))).list
      (displayName_lacks ht hr) (.inl (Library.outcome_failed ho))

/-- **An expansion confines what it tells.** -/
theorem expandTemplate_confines (hp : p.IsClosed N K) {segments : List Segment}
    (hs : Segment.Meet N K segments) (hl : l.Confines p.context K n χ) :
    (p.expandTemplate segments l).2.Confines p.context K n χ :=
  (expandTemplate_moves hp hs l).keeps (fun hm hl => hm.confines ht hl) hl

end Pass
end Stencil
