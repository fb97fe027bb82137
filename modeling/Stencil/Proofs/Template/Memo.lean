/-
# The memo is invisible

A memo holds well-formed templates with the segments that they have
(`IsFaithful`), and a call keeps it so. Hence it is of no consequence for an answer
what was asked before, and how much the memo may hold. The answers for one text also
agree with each other, as all of them are read off that text (`Agrees`).

Only a template that is parsed with success goes into the memo. A full memo is
emptied first, so it never holds more than it may, or one template where it may
hold none.

Key definitions: `Parses`, `IsFaithful`, `Fits`, `Agrees`.
Key theorems: `parse_parses`, `IsFaithful.answer_eq`, `answer_snd`, `agrees`,
`run_invisible`.
-/
import Stencil.Proofs.Lists
import Stencil.Proofs.Template.Overlong
import Stencil.Template.Memo

namespace Stencil
namespace Template
namespace Memo

open ListFacts (FirstSeen firstSeen_eraseDups)

/-- The ways in which a template is parsed, with the memo afterwards. -/
inductive Parses (m : Memo) (t : String) :
    Except Refusal (Except Fault (List Segment)) × Memo → Prop where
  | remembered {segments : List Segment} (hf : m.find? t = some segments) :
      Parses m t (.ok (.ok segments), m)
  | stored {segments : List Segment} (hf : m.find? t = none)
      (hp : Template.parse t = .ok (.ok segments)) :
      Parses m t (.ok (.ok segments), m.insert t segments)
  | failed {r : Except Refusal (Except Fault (List Segment))} (hp : Template.parse t = r)
      (hr : ∀ segments, r ≠ .ok (.ok segments)) : Parses m t (r, m)

/-- What is remembered of a template are the segments that it has. -/
def IsFaithful (m : Memo) : Prop := ∀ e ∈ m.entries, Template.parse e.1 = .ok (.ok e.2)

/-- The memo holds no more than it may, or one template where it may hold none. -/
def Fits (m : Memo) : Prop := (m.size : Int) ≤ max 1 m.capacity

/-- The answers for a text agree with each other. Each of them is refused if the text holds an
integer that is too long. Otherwise it is malformed just where it has faults, of which the first one
is told; and if it is well-formed, the names and calls asked for are those in its segments. -/
inductive Agrees (m : Memo) (t : String) : Prop where
  | refused {n : Nat} (hlong : HoldsOverlong t.toList n)
      (hall : ∀ c ∈ [Call.parse (.text t), .validate (.text t), .variableNames (.text t),
        .calls (.text t)], (m.answer c).1 = .refused (.literalTooLong n))
  | malformed {f : Fault} {messages : List String}
      (hparse : (m.answer (.parse (.text t))).1 = .malformed f)
      (hvalidate : (m.answer (.validate (.text t))).1 = .verdict false (f.message :: messages))
  | wellFormed {segments : List Segment} {names : List String}
      (hparse : (m.answer (.parse (.text t))).1 = .segments segments)
      (hvalidate : (m.answer (.validate (.text t))).1 = .verdict true [])
      (hnames : (m.answer (.variableNames (.text t))).1 = .names names)
      (hseen : FirstSeen names (segments.filterMap Segment.variableName?))
      (hcalls : (m.answer (.calls (.text t))).1 = .calls (segments.filterMap Segment.call?))
      (hkept : (m.answer (.parse (.text t))).2.find? t = some segments)

variable {m : Memo} {t : String} {segments : List Segment}

/-! ### Parsing -/

theorem parse_parses (m : Memo) (t : String) : m.Parses t (m.parse t) := by
  unfold parse
  cases hf : m.find? t with
  | some segments => exact .remembered hf
  | none =>
    dsimp only
    rcases hp : Template.parse t with r | (f | segments)
    · exact .failed hp fun _ h => nomatch h
    · exact .failed hp fun _ h => nomatch h
    · exact .stored hf hp

theorem mem_of_find? (h : m.find? t = some segments) : (t, segments) ∈ m.entries := by
  obtain ⟨e, he, rfl⟩ := Option.map_eq_some_iff.1 h
  have ht : e.1 = t := by simpa using List.find?_some he
  exact ht ▸ List.mem_of_find?_eq_some he

/-- What a faithful memo remembers is what would be parsed. -/
theorem IsFaithful.parse_fst (h : m.IsFaithful) : (m.parse t).1 = Template.parse t := by
  have hp := m.parse_parses t
  generalize m.parse t = x at hp
  cases hp with
  | remembered hf => exact (h _ (mem_of_find? hf)).symm
  | stored _ hp => exact hp.symm
  | failed hp => exact hp.symm

theorem mem_insert {e : String × List Segment} (h : e ∈ (m.insert t segments).entries) :
    e ∈ m.entries ∨ e = (t, segments) := by
  unfold insert at h
  refine (List.mem_append.1 h).imp (fun h => ?_) List.mem_singleton.1
  split_ifs at h
  · exact absurd h List.not_mem_nil
  · exact h

theorem IsFaithful.parse_snd (h : m.IsFaithful) : (m.parse t).2.IsFaithful := by
  have hp := m.parse_parses t
  generalize m.parse t = x at hp
  cases hp with
  | remembered => exact h
  | failed => exact h
  | stored _ hp =>
    intro e he
    rcases mem_insert he with he | rfl
    · exact h e he
    · exact hp

theorem fits_empty (capacity : Int) : (empty capacity).Fits :=
  le_trans (Int.zero_le_ofNat 1) (le_max_left 1 capacity)

/-- A memo that takes one more template is not full afterwards, or holds nothing else. -/
theorem fits_insert (m : Memo) (t : String) (segments : List Segment) :
    (m.insert t segments).Fits := by
  unfold Fits insert size
  dsimp only
  split_ifs with hfull
  · exact le_max_left _ _
  · rw [List.length_append, List.length_singleton]
    omega

/-- What was parsed with success is remembered. -/
theorem find?_parse (h : (m.parse t).1 = .ok (.ok segments)) :
    (m.parse t).2.find? t = some segments := by
  have hp := m.parse_parses t
  generalize m.parse t = x at hp h
  cases hp with
  | remembered hf =>
    cases h
    exact hf
  | failed _ hr => exact absurd h (hr segments)
  | stored hf _ =>
    cases h
    have hnone : (if m.capacity ≤ m.size then [] else m.entries).find? (fun e => e.1 == t) =
        none := by
      split_ifs
      · rfl
      · exact Option.map_eq_none_iff.1 hf
    unfold find? insert
    dsimp only
    rw [List.find?_append, hnone, Option.none_or, List.find?_singleton, if_pos (beq_self_eq_true t)]
    rfl

/-! ### Calls -/

theorem IsFaithful.answer (h : m.IsFaithful) (c : Call) : (m.answer c).2.IsFaithful := by
  cases c with
  | parse v =>
    unfold Memo.answer
    dsimp only
    split
    · exact h
    · exact h.parse_snd
  | clear => exact fun e he => absurd he List.not_mem_nil
  | _ => exact h

/-- **Faithful memos answer alike**, whatever they remember. -/
theorem IsFaithful.answer_eq {m' : Memo} (h : m.IsFaithful) (h' : m'.IsFaithful) (c : Call) :
    (m.answer c).1 = (m'.answer c).1 := by
  cases c with
  | parse v =>
    unfold Memo.answer
    dsimp only
    split
    · rfl
    · dsimp only
      rw [h.parse_fst, h'.parse_fst]
  | _ => rfl

theorem answer_capacity (m : Memo) (c : Call) : (m.answer c).2.capacity = m.capacity := by
  cases c with
  | parse v =>
    unfold answer
    dsimp only
    split
    · rfl
    · rename_i t _
      have hp := m.parse_parses t
      dsimp only
      generalize m.parse t = x at hp
      cases hp <;> rfl
  | _ => rfl

/-- A call leaves the memo as it is, unless it parses a template with success or clears the memo. -/
theorem answer_snd (m : Memo) (c : Call) :
    (m.answer c).2 = m ∨ c = .clear ∨
      ∃ t segments, c = .parse (.text t) ∧ (m.answer c).1 = .segments segments ∧
        (m.answer c).2 = m.insert t segments := by
  cases c with
  | parse v =>
    cases v with
    | text t =>
      have hp := m.parse_parses t
      unfold answer
      dsimp only [Value.template?]
      generalize m.parse t = x at hp
      cases hp with
      | remembered => exact .inl rfl
      | failed => exact .inl rfl
      | @stored segments _ _ => exact .inr (.inr ⟨t, segments, rfl, rfl, rfl⟩)
    | _ => exact .inl rfl
  | clear => exact .inr (.inl rfl)
  | _ => exact .inl rfl

theorem Fits.answer (h : m.Fits) (c : Call) : (m.answer c).2.Fits := by
  rcases m.answer_snd c with hm | rfl | ⟨t, segments, -, -, hm⟩
  · rwa [hm]
  · exact fits_empty m.capacity
  · rw [hm]
    exact fits_insert m t segments

theorem IsFaithful.answer_parse (h : m.IsFaithful) (t : String) :
    (m.answer (.parse (.text t))).1 = .ofParsed (Template.parse t) := by
  show Answer.ofParsed (m.parse t).1 = _
  rw [h.parse_fst]

theorem ofReading_error {r : Refusal} (hr : Template.read t = .error r)
    (answer : Reading → Answer) : Answer.ofReading answer (.text t) = .refused r := by
  unfold Answer.ofReading Value.template?
  dsimp only
  rw [hr]

theorem ofReading_ok {reading : Reading} (hr : Template.read t = .ok reading)
    (answer : Reading → Answer) : Answer.ofReading answer (.text t) = answer reading := by
  unfold Answer.ofReading Value.template?
  dsimp only
  rw [hr]

/-- **The answers of a faithful memo agree with each other.** -/
theorem agrees (h : m.IsFaithful) (t : String) : m.Agrees t := by
  have hparse := h.answer_parse t
  unfold Template.parse at hparse
  cases hr : Template.read t with
  | error r =>
    obtain ⟨n, rfl, hlong⟩ := read_overlong hr
    have hofReading := ofReading_error hr
    rw [hr] at hparse
    refine .refused hlong ?_
    simp only [List.forall_mem_cons, List.not_mem_nil, false_imp_iff, implies_true, and_true]
    exact ⟨hparse, hofReading _, hofReading _, hofReading _⟩
  | ok reading =>
    have hofReading := ofReading_ok hr
    rw [hr] at hparse
    dsimp only at hparse
    unfold Reading.parsed at hparse
    cases hfaults : reading.faults with
    | cons f fs =>
      rw [hfaults] at hparse
      have hvalidate : (m.answer (.validate (.text t))).1 =
          .verdict false (f.message :: fs.map Fault.message) := by
        refine (hofReading _).trans ?_
        rw [hfaults]
        rfl
      exact .malformed hparse hvalidate
    | nil =>
      rw [hfaults] at hparse
      have hstored : (m.parse t).1 = .ok (.ok reading.segments) := by
        rw [h.parse_fst, Template.parse, hr]
        dsimp only
        rw [Reading.parsed, hfaults]
      refine .wellFormed hparse ((hofReading _).trans ?_) (hofReading _) (firstSeen_eraseDups _)
        (hofReading _) (find?_parse hstored)
      rw [hfaults]
      rfl

/-! ### Runs -/

theorem isFaithful_empty (capacity : Int) : (empty capacity).IsFaithful :=
  fun _ he => absurd he List.not_mem_nil

theorem run_fst (h : m.IsFaithful) {m' : Memo} (h' : m'.IsFaithful) (calls : List Call) :
    (m.run calls).1 = calls.map fun c => (m'.answer c).1 := by
  induction calls generalizing m with
  | nil => rfl
  | cons c calls ih =>
    rw [List.map_cons, ← h.answer_eq h' c, ← ih (h.answer c)]
    rfl

theorem run_snd (h : m.IsFaithful) (hs : m.Fits) (calls : List Call) :
    (m.run calls).2.IsFaithful ∧ (m.run calls).2.Fits ∧ (m.run calls).2.capacity = m.capacity := by
  induction calls generalizing m with
  | nil => exact ⟨h, hs, rfl⟩
  | cons c calls ih =>
    obtain ⟨hf, hsize, hc⟩ := ih (h.answer c) (hs.answer c)
    exact ⟨hf, hsize, hc.trans (m.answer_capacity c)⟩

/-- **The memo is invisible.** Whatever a memo was asked, and however much it may hold, each call is
answered as by a memo that was asked nothing before. After any calls it holds no more than it may, or
one template; only a template that is parsed with success, or clearing, changes it; and its answers
for each text agree with each other. -/
theorem run_invisible (capacity : Int) (calls : List Call) :
    (∀ fresh : Int, ((empty capacity).run calls).1 =
      calls.map fun c => ((empty fresh).answer c).1) ∧
    let m := ((empty capacity).run calls).2
    (m.size : Int) ≤ max 1 capacity ∧
    (∀ c, (m.answer c).2 = m ∨ c = .clear ∨
      ∃ t segments, c = .parse (.text t) ∧ (m.answer c).1 = .segments segments) ∧
    ∀ t, m.Agrees t := by
  have hempty := isFaithful_empty capacity
  obtain ⟨hf, hs, hc⟩ := run_snd hempty (fits_empty capacity) calls
  rw [Fits, hc] at hs
  refine ⟨fun fresh => run_fst hempty (isFaithful_empty fresh) calls, hs, fun c => ?_, agrees hf⟩
  refine (answer_snd _ c).imp_right (Or.imp_right ?_)
  rintro ⟨t, segments, hcall, hanswer, -⟩
  exact ⟨t, segments, hcall, hanswer⟩

end Memo
end Template
end Stencil
