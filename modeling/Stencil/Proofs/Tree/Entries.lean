/-
# What the entries of a tree tell

The steps of a trace are taken in first: the first step about a name gives its
entry the value, the error, and a place: the number of names met until then. Then
the names are marked as resolved, and the failures are taken in: the first failure
about a name gives its entry the error, if there is none. So an entry tells what its
first step and its first failure say (`ofTrace_tells`), and its place is that of its
name among the names met (`ofTrace_placed`).

Key definitions: `meeting?`, `metNames`, `placeOf`, `blame?`, `metError`, `HasMet`,
`Tells`.
Key theorems: `HasMet.takeStep`, `HasMet.foldl_takeStep`, `Tells.takeFailure`,
`Tells.foldl_takeFailure`, `ofTrace_tells`, `ofTrace_placed`, `ofTrace_edge_iff`.
-/
import Stencil.Proofs.Tree.Build

namespace Stencil
namespace Tree

/-- The first step that tells what a name stood for. -/
def meeting? (steps : List Step) (name : String) : Option Step :=
  steps.find? fun s => isAboutName s.event.kind && s.event.name == name

/-- The names that steps are about, in the order in which they are first met. -/
def metNames (steps : List Step) : List String :=
  ((steps.filter fun s => isAboutName s.event.kind).map fun s => s.event.name).eraseDups

/-- The place of a name among those that are met. -/
def placeOf (steps : List Step) (name : String) : Option Nat :=
  if name ∈ metNames steps then some ((metNames steps).idxOf name + 1) else none

/-- The first failure that is about the entry of a name. -/
def blame? (failures : List Failure) (name : String) : Option Failure :=
  failures.find? fun f => failedName? f == some name

/-- What the name stood for, as the first step about it tells. -/
def metValue (steps : List Step) (name : String) : String :=
  ((meeting? steps name).map fun s => s.event.output).getD ""

/-- The error that the first step about a name tells. -/
def metError (steps : List Step) (name : String) : Option String :=
  (meeting? steps name).bind fun s => errorOf s.event

/-- The steps about the entry's name have been taken in: it has a place if there is one, and then
the value and the error of the first. -/
structure Entry.HasMet (steps : List Step) (x : Entry) : Prop where
  place : x.order = placeOf steps x.name
  value : x.value = metValue steps x.name
  error : x.error = metError steps x.name

/-- The steps have been taken in. -/
structure HasMet (steps : List Step) (t : Tree) : Prop where
  sound : t.IsSound
  entries : ∀ x ∈ t.entries, x.HasMet steps
  named : metNames steps ⊆ t.names

/-- The entries of the names met have their places, and no others have one. -/
structure Placed (steps : List Step) (t : Tree) : Prop where
  nodup : t.names.Nodup
  order : ∀ x ∈ t.entries, x.order = placeOf steps x.name
  named : metNames steps ⊆ t.names

/-- The entries tell of the given errors, and are resolved if their names are among those given. -/
structure Tells (resolved : List String) (error : String → Option String) (t : Tree) : Prop where
  isResolved : ∀ x ∈ t.entries, x.isResolved = resolved.contains x.name
  error : ∀ x ∈ t.entries, x.error = error x.name

variable {t t' : Tree} {trace : Trace} {done : List Step} {s : Step} {n : String} {x : Entry}

/-- What holds of the entries of a name once they are changed, and of all others anyway, holds of
all entries. -/
theorem forall_mem_update {P Q : Entry → Prop} {f : Entry → Entry}
    (hf : ∀ x, x.name = n → P x → Q (f x)) (ho : ∀ x, x.name ≠ n → P x → Q x)
    (h : ∀ x ∈ t.entries, P x) : ∀ x ∈ (t.update n f).entries, Q x := by
  intro x hx
  obtain ⟨y, hy, rfl⟩ := List.mem_map.1 hx
  by_cases hn : y.name = n
  · rw [if_pos (beq_iff_eq.2 hn)]
    exact hf y hn (h y hy)
  · rw [if_neg fun hb => hn (beq_iff_eq.1 hb)]
    exact ho y hn (h y hy)

/-! ### Names that are met -/

theorem meeting?_some {steps : List Step} (h : meeting? steps n = some s) :
    s ∈ steps ∧ isAboutName s.event.kind = true ∧ s.event.name = n := by
  have hp := List.find?_some h
  rw [Bool.and_eq_true, beq_iff_eq] at hp
  exact ⟨List.mem_of_find?_eq_some h, hp⟩

/-- The first step about a name has the first event about it. -/
theorem meeting?_event (steps : List Step) (n : String) :
    (meeting? steps n).map Step.event =
      (steps.map Step.event).find? fun x => isAboutName x.kind && x.name == n := by
  rw [List.find?_map]
  rfl

/-- The names met are those that the events are about. -/
theorem metNames_event (steps : List Step) :
    metNames steps =
      (((steps.map Step.event).filter fun x => isAboutName x.kind).map Event.name).eraseDups := by
  rw [List.filter_map, List.map_map]
  rfl

theorem meeting?_isSome {steps : List Step} :
    (meeting? steps n).isSome = true ↔ n ∈ metNames steps := by
  simp only [meeting?, metNames, List.find?_isSome, List.mem_eraseDups, List.mem_map,
    List.mem_filter, Bool.and_eq_true, beq_iff_eq, and_assoc]

theorem meeting?_eq_none {steps : List Step} : meeting? steps n = none ↔ n ∉ metNames steps := by
  rw [← meeting?_isSome, Bool.not_eq_true, Option.isSome_eq_false_iff, Option.isNone_iff_eq_none]

theorem placeOf_isSome {steps : List Step} :
    (placeOf steps n).isSome = true ↔ n ∈ metNames steps := by
  unfold placeOf
  split_ifs with h <;> simp [h]

theorem metNames_nodup (steps : List Step) : (metNames steps).Nodup :=
  (ListFacts.firstSeen_eraseDups _).nodup

/-- A step adds its name if it is about one that was not met before. -/
theorem metNames_snoc (done : List Step) (s : Step) :
    metNames (done ++ [s]) = metNames done ++
      if isAboutName s.event.kind && !(metNames done).contains s.event.name then [s.event.name]
      else [] := by
  have hsame : ∀ names : List String,
      names.eraseDups.contains s.event.name = names.contains s.event.name := by simp
  unfold metNames
  rw [List.filter_append, List.map_append, List.eraseDups_append, hsame]
  cases hk : isAboutName s.event.kind with
  | false => simp [hk, List.removeAll]
  | true =>
    rw [List.filter_singleton, hk, cond_true, List.map_singleton, List.removeAll,
      List.filter_singleton, Bool.true_and, List.elem_eq_contains]
    cases (List.map _ _).contains s.event.name <;> rfl

theorem placeOf_snoc (done : List Step) (s : Step) (n : String) :
    placeOf (done ++ [s]) n = (placeOf done n).or
      (if isAboutName s.event.kind && s.event.name == n then some ((metNames done).length + 1)
      else none) := by
  unfold placeOf
  rw [metNames_snoc]
  by_cases hn : n ∈ metNames done
  · rw [if_pos hn, if_pos (List.mem_append_left _ hn), List.idxOf_append_of_mem hn, Option.some_or]
  · rw [if_neg hn, Option.none_or]
    by_cases hs : (isAboutName s.event.kind && s.event.name == n) = true
    · obtain ⟨hk, he⟩ := Bool.and_eq_true_iff.1 hs
      obtain rfl := beq_iff_eq.1 he
      have hnew : (isAboutName s.event.kind && !(metNames done).contains s.event.name) = true := by
        simp [hk, hn]
      rw [if_pos hs, if_pos hnew, if_pos (List.mem_append_right _ (List.mem_singleton_self _)),
        List.idxOf_append_of_notMem hn, List.idxOf_cons_self, Nat.add_zero]
    · rw [if_neg hs]
      refine if_neg fun hm => hs ?_
      have hlast := (List.mem_append.1 hm).resolve_left hn
      split_ifs at hlast with hk
      · rw [Bool.and_eq_true] at hk
        rw [hk.1, List.mem_singleton.1 hlast, beq_self_eq_true, Bool.and_self]
      · exact absurd hlast List.not_mem_nil

/-- A step comes after those before it. -/
theorem meeting?_snoc (done : List Step) (s : Step) (n : String) :
    meeting? (done ++ [s]) n = (meeting? done n).or
      (if isAboutName s.event.kind && s.event.name == n then some s else none) := by
  rw [meeting?, List.find?_append, List.find?_singleton]
  rfl

/-! ### Steps -/

theorem HasMet.touch (h : HasMet done t) (n : String) : HasMet done (t.touch n) := by
  have hs := h.sound.touch n
  have hn : metNames done ⊆ (t.touch n).names := fun m hm => mem_touch (h.named hm) n
  unfold Tree.touch at hs hn ⊢
  split_ifs at hs hn ⊢ with hc
  · exact h
  · -- no step is about a name that has no entry yet
    have hnew : n ∉ metNames done := fun hm => hc (contains_iff.2 (h.named hm))
    have hnone := meeting?_eq_none.2 hnew
    have hentry : Entry.HasMet done { name := n } :=
      ⟨(if_neg hnew).symm, by rw [metValue, hnone]; rfl, by rw [metError, hnone]; rfl⟩
    exact ⟨hs, List.forall_mem_append.2 ⟨h.entries, List.forall_mem_singleton.2 hentry⟩, hn⟩

theorem HasMet.link (h : HasMet done t) (a b : String) : HasMet done (t.link a b) :=
  ⟨h.sound.link a b, ((h.touch a).touch b).entries, ((h.touch a).touch b).named⟩

/-- What is done for each element of a list leaves the steps taken in. -/
theorem HasMet.foldl {α : Type} {f : Tree → α → Tree} (xs : List α)
    (hf : ∀ t x, HasMet done t → HasMet done (f t x)) (h : HasMet done t) :
    HasMet done (xs.foldl f t) := by
  induction xs generalizing t with
  | nil => exact h
  | cons x xs ih => exact ih (hf t x h)

theorem HasMet.addDependencies (h : HasMet done t) (n : String) (ms : List String) :
    HasMet done (t.addDependencies n ms) :=
  .foldl ms (fun _ m ht => ht.link n m) (h.touch n)

theorem HasMet.linkCalls {es : List Entry} (h : HasMet done t)
    (hl : linkCalls es t = .ok t') : HasMet done t' := by
  fun_induction Tree.linkCalls es t with
  | case1 t => exact Except.ok.inj hl ▸ h
  | case2 e es t hskip ih => exact ih h hl
  | case3 => cases hl
  | case4 e es t hskip reading hread ih =>
    refine ih (.foldl _ (fun t c ht => ?_) h) hl
    split_ifs
    · exact ht.link _ _
    · exact ht

/-- The names met are those of the entries that have a place. -/
theorem HasMet.metCount (h : HasMet done t) : t.metCount = (metNames done).length := by
  have hplaced : t.metCount = (t.names.filter fun n => decide (n ∈ metNames done)).length := by
    rw [Tree.metCount, names, List.filter_map, List.length_map]
    refine congrArg List.length (List.filter_congr fun x hx => ?_)
    rw [Bool.eq_iff_iff, (h.entries x hx).place, placeOf_isSome]
    exact decide_eq_true_iff.symm
  have hnodup : t.names.Nodup := h.sound.names ▸ h.sound.wellFormed.nodup
  rw [hplaced]
  refine List.Perm.length_eq ((List.perm_ext_iff_of_nodup (hnodup.filter _) (metNames_nodup _)).2
    fun n => ?_)
  rw [List.mem_filter, decide_eq_true_iff]
  exact and_iff_right_of_imp fun hn => h.named hn

/-- A step that is about another name, or about one that has a place, is of no account. -/
theorem Entry.HasMet.keep (h : x.HasMet done)
    (ho : (isAboutName s.event.kind && s.event.name == x.name) = true → x.order.isSome = true) :
    x.HasMet (done ++ [s]) := by
  have hmet : meeting? (done ++ [s]) x.name = meeting? done x.name := by
    rw [meeting?_snoc]
    split_ifs with hs
    · have hsome := ho hs
      rw [h.place, placeOf_isSome, ← meeting?_isSome] at hsome
      exact Option.or_of_isSome hsome
    · exact Option.or_none
  have hplace : placeOf (done ++ [s]) x.name = placeOf done x.name := by
    rw [placeOf_snoc]
    split_ifs with hs
    · exact Option.or_of_isSome (h.place ▸ ho hs)
    · exact Option.or_none
  exact ⟨h.place.trans hplace.symm, by rw [metValue, hmet]; exact h.value,
    by rw [metError, hmet]; exact h.error⟩

/-- The first step about a name tells its place, its value and its error. -/
theorem Entry.HasMet.first (hk : isAboutName s.event.kind = true) (hn : x.name = s.event.name)
    (hm : x.name ∉ metNames done) (hp : x.order = some ((metNames done).length + 1))
    (hv : x.value = s.event.output) (he : x.error = errorOf s.event) : x.HasMet (done ++ [s]) := by
  have habout : (isAboutName s.event.kind && s.event.name == x.name) = true := by simp [hk, hn]
  have hmet : meeting? (done ++ [s]) x.name = some s := by
    rw [meeting?_snoc, meeting?_eq_none.2 hm, habout, if_pos rfl, Option.none_or]
  have hplace : placeOf done x.name = none := if_neg hm
  refine ⟨?_, by rw [metValue, hmet]; exact hv, by rw [metError, hmet]; exact he⟩
  rw [placeOf_snoc, hplace, habout, if_pos rfl, Option.none_or, hp]

/-- The names met have entries once a step is taken in. -/
theorem HasMet.takeStep_named (h : HasMet done t) (s : Step) :
    metNames (done ++ [s]) ⊆ (t.takeStep s).names := by
  rw [metNames_snoc]
  cases hk : isAboutName s.event.kind with
  | false =>
    unfold Tree.takeStep
    rw [hk, if_neg Bool.false_ne_true, Bool.false_and, if_neg Bool.false_ne_true, List.append_nil]
    exact h.named
  | true =>
    rw [takeStep_names hk]
    refine List.append_subset.2 ⟨fun n hn => mem_touch (h.named hn) _, ?_⟩
    split_ifs
    · exact List.cons_subset.2 ⟨mem_touch_self t _, List.nil_subset _⟩
    · exact List.nil_subset _

/-- The entries have taken in a step once the tree has. -/
theorem HasMet.takeStep_entries (h : HasMet done t) (s : Step) :
    ∀ x ∈ (t.takeStep s).entries, x.HasMet (done ++ [s]) := by
  unfold Tree.takeStep
  cases hk : isAboutName s.event.kind with
  | false =>
    rw [if_neg Bool.false_ne_true]
    refine fun x hx => (h.entries x hx).keep fun hx => ?_
    rw [hk, Bool.false_and] at hx
    cases hx
  | true =>
    have ht := h.touch s.event.name
    rw [if_pos rfl]
    dsimp only
    refine forall_mem_update (fun x hn hx => ?_) (fun x hn hx => hx.keep fun he => ?_) ht.entries
    · cases hp : x.order.isSome with
      | true =>
        have hx' := hx.keep (s := s) fun _ => hp
        exact ⟨hx'.place, hx'.value, hx'.error⟩
      | false =>
        have hnew : x.name ∉ metNames done := by
          rw [← placeOf_isSome, ← hx.place, hp]
          exact Bool.false_ne_true
        rw [if_neg Bool.false_ne_true, ht.metCount]
        exact .first hk hn hnew rfl rfl rfl
    · rw [Bool.and_eq_true, beq_iff_eq] at he
      exact absurd he.2.symm hn

/-- **A step is taken in.** -/
theorem HasMet.takeStep (h : HasMet done t) (s : Step) : HasMet (done ++ [s]) (t.takeStep s) := by
  have hedits : Edits (fun _ _ => True) (fun _ _ => True) t (t.takeStep s) :=
    takeStep_edits (fun _ => trivial) t
  exact ⟨hedits.sound h.sound, h.takeStep_entries s, h.takeStep_named s⟩

/-- **Steps are taken in one after another.** -/
theorem HasMet.foldl_takeStep (ss : List Step) (h : HasMet done t) :
    HasMet (done ++ ss) (ss.foldl Tree.takeStep t) := by
  induction ss generalizing done t with
  | nil => rwa [List.append_nil]
  | cons s ss ih =>
    rw [List.append_cons]
    exact ih (h.takeStep s)

/-- The tree has taken in all steps before its calls are linked. -/
theorem beforeCalls_hasMet (trace : Trace) (reading : Template.Reading) :
    HasMet trace.steps (beforeCalls trace reading) := by
  have hnil : HasMet [] { roots := rootsOf reading, cycles := trace.cycles } :=
    ⟨⟨⟨List.nodup_nil, fun e he => absurd he List.not_mem_nil⟩, List.nodup_nil, rfl⟩,
      fun x hx => absurd hx List.not_mem_nil, List.nil_subset _⟩
  have hroots := HasMet.foldl (rootsOf reading) (fun t n ht => ht.touch n) hnil
  have hlinked := HasMet.foldl trace.dependencies
    (fun t d ht => ht.addDependencies d.1 d.2) hroots
  exact hlinked.foldl_takeStep trace.steps

/-! ### Failures -/

variable {resolved : List String} {error : String → Option String}

/-- **A failure is taken in.** -/
theorem Tells.takeFailure (h : Tells resolved error t) (f : Failure) :
    Tells resolved (fun n => (error n).or ((blame? [f] n).map Failure.message))
      (t.takeFailure f) := by
  unfold Tree.takeFailure
  cases hf : failedName? f with
  | none =>
    have hb : ∀ n, blame? [f] n = none := fun n => by
      rw [blame?, List.find?_singleton, hf]
      rfl
    exact ⟨h.isResolved, fun x hx => by rw [hb, Option.map_none, Option.or_none, h.error x hx]⟩
  | some name =>
    have hb : ∀ n, blame? [f] n = if name = n then some f else none := fun n => by
      rw [blame?, List.find?_singleton, hf]
      simp
    refine ⟨forall_mem_update (fun x _ hx => hx) (fun x _ hx => hx) h.isResolved,
      forall_mem_update (fun x hn hx => ?_) (fun x hn hx => ?_) h.error⟩
    · show x.error.or _ = _
      rw [hb, if_pos hn.symm, hx]
      rfl
    · rw [hb, if_neg (Ne.symm hn), Option.map_none, Option.or_none, hx]

/-- **Failures are taken in one after another.** -/
theorem Tells.foldl_takeFailure (fs : List Failure) (h : Tells resolved error t) :
    Tells resolved (fun n => (error n).or ((blame? fs n).map Failure.message))
      (fs.foldl Tree.takeFailure t) := by
  induction fs generalizing error t with
  | nil => exact ⟨h.isResolved, fun x hx => (h.error x hx).trans (Option.or_none).symm⟩
  | cons f fs ih =>
    have hfs := ih (h.takeFailure f)
    refine ⟨hfs.isResolved, fun x hx => (hfs.error x hx).trans ?_⟩
    have hcons : blame? (f :: fs) x.name = (blame? [f] x.name).or (blame? fs x.name) := by
      rw [blame?, ← List.singleton_append, List.find?_append]
      rfl
    rw [hcons, Option.map_or, Option.or_assoc]

/-- Failures change no place. -/
theorem foldl_takeFailure_order {steps : List Step} (fs : List Failure)
    (h : ∀ x ∈ t.entries, x.order = placeOf steps x.name) :
    ∀ x ∈ (fs.foldl Tree.takeFailure t).entries, x.order = placeOf steps x.name := by
  induction fs generalizing t with
  | nil => exact h
  | cons f fs ih =>
    refine ih ?_
    unfold Tree.takeFailure
    split
    · exact h
    · exact forall_mem_update (fun _ _ hx => hx) (fun _ _ hx => hx) h

/-! ### All of a tree -/

/-- **An entry tells the error of its first step, or else that of its first failure.** -/
theorem ofTrace_tells (h : ofTrace trace = .ok t) :
    Tells trace.resolved (fun n => (metError trace.steps n).or
      ((blame? trace.failures n).map Failure.message)) t := by
  obtain ⟨reading, t', -, hcalls, rfl⟩ := ofTrace_ok h
  have hmet := (beforeCalls_hasMet trace reading).linkCalls hcalls
  refine Tells.foldl_takeFailure trace.failures ⟨fun x hx => ?_, fun x hx => ?_⟩
  · obtain ⟨y, -, rfl⟩ := List.mem_map.1 hx
    rfl
  · obtain ⟨y, hy, rfl⟩ := List.mem_map.1 hx
    exact (hmet.entries y hy).error

/-- **A name has the place at which it was first met**, if it was met. -/
theorem ofTrace_placed (h : ofTrace trace = .ok t) : Placed trace.steps t := by
  have hsound := (ofTrace_shows h).sound
  obtain ⟨reading, t', -, hcalls, rfl⟩ := ofTrace_ok h
  have hmet := (beforeCalls_hasMet trace reading).linkCalls hcalls
  let marked : Tree := { t' with
    entries := t'.entries.map fun e => { e with isResolved := trace.resolved.contains e.name } }
  have hmarked : ∀ x ∈ marked.entries, x.order = placeOf trace.steps x.name := by
    intro x hx
    obtain ⟨y, hy, rfl⟩ := List.mem_map.1 hx
    exact (hmet.entries y hy).place
  have hnames : marked.names = t'.names := by simp [marked, names]
  refine ⟨hsound.names ▸ hsound.wellFormed.nodup, foldl_takeFailure_order _ hmarked, ?_⟩
  rw [(foldl_takeFailure_same trace.failures marked).1, hnames]
  exact hmet.named

/-- **The links of a tree** are the references of the trace, and from each variable to the calls in
what its first step tells that it stood for, as far as they have entries. -/
theorem ofTrace_edge_iff {a b : String} (h : ofTrace trace = .ok t) :
    t.graph.Edge a b ↔ trace.Refers a b ∨ (a.endsWith "()" = false ∧ b ∈ t.names ∧
      ∃ s, meeting? trace.steps a = some s ∧ Template.CallsIn s.event.output b) := by
  obtain ⟨reading, -, -, hedge⟩ := ofTrace_edge h
  have hmet := beforeCalls_hasMet trace reading
  rw [hedge]
  refine or_congr_right ⟨?_, ?_⟩
  · rintro ⟨x, hx, rfl, hcall, hin, hb⟩
    refine ⟨hcall, hb, ?_⟩
    rw [(hmet.entries x hx).value, metValue] at hin
    cases hs : meeting? trace.steps x.name with
    | none =>
      rw [hs] at hin
      exact absurd hin not_callsIn_empty
    | some s =>
      rw [hs] at hin
      exact ⟨s, rfl, hin⟩
  · rintro ⟨hcall, hb, s, hs, hin⟩
    have hmem : a ∈ metNames trace.steps := meeting?_isSome.1 (by rw [hs]; rfl)
    obtain ⟨x, hx, rfl⟩ := List.mem_map.1 (hmet.named hmem)
    have hvalue : x.value = s.event.output := by
      rw [(hmet.entries x hx).value, metValue, hs]
      rfl
    exact ⟨x, hx, rfl, hcall, hvalue ▸ hin, hb⟩

end Tree
end Stencil
