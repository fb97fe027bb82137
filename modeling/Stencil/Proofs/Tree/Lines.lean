/-
# The lines of a walk

A walk takes the names on its stack one by one and gives each a line. A name that
was not met before is opened: the names it refers to go on top of the stack. What
the walk does is said by `Walks`, which sets no bound on the number of lines; so
that there are lines at all is a result (`lines_walks`). It holds where all names
that can be met have entries, as each of them is opened once.

All else follows by induction on the lines. Every name that is met was opened
before or is opened then (`Walks.covers`), and none is opened twice
(`Walks.opens`); each opened name gives as many lines as it refers to names
(`Walks.length`). A line below the roots stands under the last line one level
further out (`Walks.attached`): the stack is sorted by depth, so that line is not
followed by another one of its depth while names wait below it.

Key definitions: `Walks`, `Reached`, `opened`, `lastAt`, `Attached`, `Tours`.
Key theorems: `lines_walks`, `Walks.length`, `Walks.opens`, `Walks.covers`,
`Walks.attached`, `ofTrace_tours`.
-/
import Mathlib.Algebra.BigOperators.Ring.Finset
import Stencil.Proofs.Tree.Build
import Stencil.Proofs.Tree.Walk

namespace Stencil
namespace Tree

open Relation

/-- The lines that the names on a stack come to, where the names in `seen` have been opened. -/
inductive Walks (t : Tree) : List String → List Waiting → List Line → Prop where
  | done (seen : List String) : Walks t seen [] []
  | circular {seen path : List String} {name : String} {rest : List Waiting} {ls : List Line}
      (hp : name ∈ path) (h : Walks t seen rest ls) :
      Walks t seen ((name, path) :: rest) (⟨path.length, name, .circular⟩ :: ls)
  | repeated {seen path : List String} {name : String} {rest : List Waiting} {ls : List Line}
      (hp : name ∉ path) (hs : name ∈ seen) (h : Walks t seen rest ls) :
      Walks t seen ((name, path) :: rest) (⟨path.length, name, .repeated⟩ :: ls)
  | first {seen path : List String} {name : String} {rest : List Waiting} {ls : List Line}
      (hp : name ∉ path) (hs : name ∉ seen)
      (h : Walks t (name :: seen) (t.waitingBelow name path ++ rest) ls) :
      Walks t seen ((name, path) :: rest) (⟨path.length, name, .first⟩ :: ls)

/-- The root names, and what they refer to, directly or through others. -/
def Reached (t : Tree) (n : String) : Prop := ∃ r ∈ t.roots, ReflTransGen t.graph.Edge r n

/-- The names that lines open, in order. -/
def opened (ls : List Line) : List String :=
  (ls.filter fun l => l.mark == .first).map Line.name

/-- The last line of a depth. -/
def lastAt (depth : Nat) (ls : List Line) : Option Line :=
  ls.reverse.find? fun l => l.depth == depth

/-- After the lines `done`, each line that is not at the left margin names a child of the last line
before it that is one level further out, and that line opens its name. -/
def Attached (t : Tree) (done ls : List Line) : Prop :=
  ∀ before line after, ls = before ++ line :: after → ∀ d, line.depth = d + 1 →
    ∃ above, lastAt d (done ++ before) = some above ∧ above.mark = .first ∧
      line.name ∈ t.children above.name

/-- The lines as text, if each name has an entry. -/
def text? (t : Tree) : Option String :=
  (t.walk.mapM fun l => (t.find? l.name).map l.written).map (Text.joined "\n")

open Classical in
/-- The entries that are reached from the roots. -/
noncomputable def reachedNames (t : Tree) : Finset String := {n ∈ t.names.toFinset | t.Reached n}

/-- A walk ends, and it goes over everything once. -/
structure Tours (t : Tree) : Prop where
  ends : t.Walks [] (t.roots.map fun r => (r, [])) t.walk
  met : ∀ line ∈ t.walk, t.Reached line.name
  once : ∀ n, t.Reached n → t.walk.countP (fun l => l.mark == .first && l.name == n) = 1
  length : t.walk.length = t.roots.length + ∑ n ∈ t.reachedNames, (t.children n).length
  attached : t.Attached [] t.walk
  named : ∀ line ∈ t.walk, line.name ∈ t.names
  text : t.text? = some t.text

variable {t : Tree} {seen path fresh : List String} {name n m : String} {rest stack : List Waiting}
  {ls done : List Line} {line : Line} {trace : Trace}

@[simp] theorem opened_first (d : Nat) (n : String) (ls : List Line) :
    opened (⟨d, n, .first⟩ :: ls) = n :: opened ls := rfl

@[simp] theorem opened_circular (d : Nat) (n : String) (ls : List Line) :
    opened (⟨d, n, .circular⟩ :: ls) = opened ls := rfl

@[simp] theorem opened_repeated (d : Nat) (n : String) (ls : List Line) :
    opened (⟨d, n, .repeated⟩ :: ls) = opened ls := rfl

theorem count_opened (n : String) (ls : List Line) :
    (opened ls).count n = ls.countP fun l => l.mark == .first && l.name == n := by
  have hcomp : (fun l : Line => l.name == n && l.mark == .first) =
      fun l => l.mark == .first && l.name == n := funext fun l => Bool.and_comm _ _
  rw [opened, List.count, List.countP_map, List.countP_filter, ← hcomp]
  rfl

/-! ### The walk ends -/

/-- **A walk ends** where all that can be met has entries: the names that have not been opened are
fewer with each that is. -/
theorem lines_walks (he : ∀ a b, t.graph.Edge a b → b ∈ t.names)
    (hs : ∀ w ∈ stack, w.1 ∈ t.names) (hn : fresh.Nodup)
    (hf : ∀ n ∈ t.names, n ∈ fresh ↔ n ∉ seen) : t.Walks seen stack (t.lines fresh stack) := by
  fun_induction lines t fresh stack generalizing seen with
  | case1 => exact .done seen
  | case2 fresh name path rest hp ih =>
    have hrest := ih (fun w hw => hs w (List.mem_cons_of_mem _ hw)) hn hf
    exact .circular (List.contains_iff_mem.1 hp) hrest
  | case3 fresh name path rest hp hc ih =>
    have hname : name ∈ t.names := hs _ List.mem_cons_self
    have hnew : name ∉ seen := (hf name hname).1 (List.contains_iff_mem.1 hc)
    have hbelow : ∀ w ∈ t.waitingBelow name path ++ rest, w.1 ∈ t.names := by
      intro w hw
      rcases List.mem_append.1 hw with hw | hw
      · exact he _ _ (mem_waitingBelow.1 hw).1
      · exact hs w (List.mem_cons_of_mem _ hw)
    have hfresh : ∀ n ∈ t.names, n ∈ fresh.erase name ↔ n ∉ name :: seen := by
      intro n hm
      rw [hn.mem_erase_iff, hf n hm, List.mem_cons, not_or]
    exact .first (fun h => hp (List.contains_iff_mem.2 h)) hnew
      (ih hbelow (hn.erase name) hfresh)
  | case4 fresh name path rest hp hc ih =>
    have hname : name ∈ t.names := hs _ List.mem_cons_self
    have hseen : name ∈ seen := by
      by_contra h
      exact hc (List.contains_iff_mem.2 ((hf name hname).2 h))
    have hrest := ih (fun w hw => hs w (List.mem_cons_of_mem _ hw)) hn hf
    exact .repeated (fun h => hp (List.contains_iff_mem.2 h)) hseen hrest

namespace Walks

/-- **There is a line for each name that waited, and for each that an opened name refers to.** -/
theorem length (h : t.Walks seen stack ls) :
    ls.length = stack.length + ((opened ls).map fun n => (t.children n).length).sum := by
  induction h with
  | done => simp [opened]
  | circular hp h ih =>
    simp only [List.length_cons, opened_circular]
    omega
  | repeated hp hs h ih =>
    simp only [List.length_cons, opened_repeated]
    omega
  | @first seen path name rest ls hp hs h ih =>
    have hbelow : (t.waitingBelow name path).length = (t.children name).length :=
      List.length_map _
    rw [List.length_append, hbelow] at ih
    simp only [List.length_cons, opened_first, List.map_cons, List.sum_cons]
    omega

/-- **No name is opened that has been opened before.** -/
theorem opens (h : t.Walks seen stack ls) :
    (opened ls).Nodup ∧ ∀ n ∈ opened ls, n ∉ seen := by
  induction h with
  | done => simp [opened]
  | circular hp h ih => simpa using ih
  | repeated hp hs h ih => simpa using ih
  | @first seen path name rest ls hp hs h ih =>
    obtain ⟨hn, hnew⟩ := ih
    have hname : name ∉ opened ls := fun hm => hnew name hm List.mem_cons_self
    refine ⟨by simpa using ⟨hname, hn⟩, fun n hm => ?_⟩
    rcases List.mem_cons.1 hm with rfl | hm
    · exact hs
    · exact fun hm' => hnew n hm (List.mem_cons_of_mem _ hm')

/-- **Every name that waited has been opened in the end, and so has all that an opened name refers
to.** The names on a path were opened before, so a circular line leaves nothing out. -/
theorem covers (h : t.Walks seen stack ls) (hp : ∀ w ∈ stack, w.2 ⊆ seen) :
    (∀ w ∈ stack, w.1 ∈ seen ∨ w.1 ∈ opened ls) ∧
      ∀ n ∈ opened ls, ∀ m, t.graph.Edge n m → m ∈ seen ∨ m ∈ opened ls := by
  induction h with
  | done => simp [opened]
  | @circular seen path name rest ls hc h ih =>
    obtain ⟨hstack, hedges⟩ := ih fun w hw => hp w (List.mem_cons_of_mem _ hw)
    have hname : name ∈ seen := hp _ List.mem_cons_self hc
    refine ⟨fun w hw => ?_, hedges⟩
    rcases List.mem_cons.1 hw with rfl | hw
    · exact .inl hname
    · exact hstack w hw
  | @repeated seen path name rest ls hc hs h ih =>
    obtain ⟨hstack, hedges⟩ := ih fun w hw => hp w (List.mem_cons_of_mem _ hw)
    refine ⟨fun w hw => ?_, hedges⟩
    rcases List.mem_cons.1 hw with rfl | hw
    · exact .inl hs
    · exact hstack w hw
  | @first seen path name rest ls hc hs h ih =>
    have hpath : path ⊆ seen := hp _ List.mem_cons_self
    have hpaths : ∀ w ∈ t.waitingBelow name path ++ rest, w.2 ⊆ name :: seen := by
      intro w hw
      rcases List.mem_append.1 hw with hw | hw
      · rw [(mem_waitingBelow.1 hw).2]
        exact List.cons_subset_cons name hpath
      · exact List.subset_cons_of_subset _ (hp w (List.mem_cons_of_mem _ hw))
    obtain ⟨hstack, hedges⟩ := ih hpaths
    -- what was opened before the next line is `name` or was opened before
    have hmove : ∀ n, n ∈ name :: seen ∨ n ∈ opened ls → n ∈ seen ∨ n ∈ name :: opened ls := by
      intro n hn
      simp only [List.mem_cons] at hn ⊢
      tauto
    refine ⟨fun w hw => ?_, fun n hn m hm => ?_⟩
    · rcases List.mem_cons.1 hw with rfl | hw
      · exact .inr List.mem_cons_self
      · exact hmove _ (hstack w (List.mem_append_right _ hw))
    · rcases List.mem_cons.1 hn with rfl | hn
      · have hwait : (m, n :: path) ∈ t.waitingBelow n path := mem_waitingBelow.2 ⟨hm, rfl⟩
        exact hmove m (hstack _ (List.mem_append_left _ hwait))
      · exact hmove m (hedges n hn m hm)

end Walks

/-! ### Lines below lines -/

theorem lastAt_snoc (d : Nat) (done : List Line) (line : Line) :
    lastAt d (done ++ [line]) = if line.depth = d then some line else lastAt d done := by
  unfold lastAt
  rw [List.reverse_append, List.reverse_singleton, List.singleton_append, List.find?_cons]
  by_cases h : line.depth = d
  · simp [h]
  · simp [h, beq_eq_false_iff_ne.2 h]

/-- The nearest name on the path to a waiting one has the last line one level further out. -/
def HangsFrom (t : Tree) (done : List Line) (w : Waiting) : Prop :=
  ∀ m ms, w.2 = m :: ms →
    lastAt ms.length done = some ⟨ms.length, m, .first⟩ ∧ t.graph.Edge m w.1

/-- A line that is not further out than a waiting name is not the one it waits under. -/
theorem HangsFrom.later {w : Waiting} (h : t.HangsFrom done w) (hd : w.2.length ≤ line.depth) :
    t.HangsFrom (done ++ [line]) w := by
  intro m ms hw
  have hlt : ms.length < line.depth := by
    rw [hw, List.length_cons] at hd
    omega
  rw [lastAt_snoc, if_neg hlt.ne']
  exact h m ms hw

theorem Attached.nil : t.Attached done [] := by
  intro before line after h
  simp at h

/-- A line for a waiting name stands under the name that it waits under. -/
theorem Attached.cons {mark : Mark} (hw : t.HangsFrom done (name, path))
    (h : t.Attached (done ++ [⟨path.length, name, mark⟩]) ls) :
    t.Attached done (⟨path.length, name, mark⟩ :: ls) := by
  intro before line after hls d hd
  cases before with
  | nil =>
    obtain ⟨rfl, -⟩ := List.cons.inj hls
    cases path with
    | nil => simp at hd
    | cons m ms =>
      obtain ⟨hlast, hedge⟩ := hw m ms rfl
      have hlen : ms.length = d := by simpa using hd
      rw [List.append_nil, ← hlen]
      exact ⟨_, hlast, rfl, Graph.mem_successors.2 hedge⟩
  | cons x before =>
    obtain ⟨rfl, hrest⟩ := List.cons.inj hls
    have hafter := h before line after hrest d hd
    rwa [List.append_assoc, List.singleton_append] at hafter

/-- **Each line of a walk stands under the last line one level further out.** -/
theorem Walks.attached (h : t.Walks seen stack ls) (hw : ∀ w ∈ stack, t.HangsFrom done w)
    (hd : stack.Pairwise fun v w => w.2.length ≤ v.2.length) : t.Attached done ls := by
  have hrest : ∀ {name : String} {path : List String} {rest : List Waiting} {done : List Line}
      {mark : Mark}, (∀ w ∈ (name, path) :: rest, t.HangsFrom done w) →
      ((name, path) :: rest).Pairwise (fun v w => w.2.length ≤ v.2.length) →
      ∀ w ∈ rest, t.HangsFrom (done ++ [⟨path.length, name, mark⟩]) w :=
    fun hw hd w hm => (hw w (List.mem_cons_of_mem _ hm)).later ((List.pairwise_cons.1 hd).1 w hm)
  induction h generalizing done with
  | done => exact .nil
  | circular hp h ih =>
    exact .cons (hw _ List.mem_cons_self) (ih (hrest hw hd) (List.pairwise_cons.1 hd).2)
  | repeated hp hs h ih =>
    exact .cons (hw _ List.mem_cons_self) (ih (hrest hw hd) (List.pairwise_cons.1 hd).2)
  | @first seen path name rest ls hp hs h ih =>
    have hpath : ∀ w ∈ t.waitingBelow name path, w.2 = name :: path :=
      fun w hm => (mem_waitingBelow.1 hm).2
    refine .cons (hw _ List.mem_cons_self) (ih (fun w hm => ?_) ?_)
    · rcases List.mem_append.1 hm with hm | hm
      · -- the line that opens the name is the last one
        intro m ms hms
        obtain ⟨rfl, rfl⟩ := List.cons.inj (hms.symm.trans (hpath w hm))
        exact ⟨by simp [lastAt_snoc], (mem_waitingBelow.1 hm).1⟩
      · exact hrest hw hd w hm
    · refine List.pairwise_append.2 ⟨?_, (List.pairwise_cons.1 hd).2, fun v hv w hm => ?_⟩
      · refine List.pairwise_of_forall_mem_list fun v hv w hm => ?_
        rw [hpath v hv, hpath w hm]
      · have hle : w.2.length ≤ path.length := (List.pairwise_cons.1 hd).1 w hm
        rw [hpath v hv, List.length_cons]
        omega

/-! ### The walk of a tree -/

theorem mem_reachedNames : n ∈ t.reachedNames ↔ n ∈ t.names ∧ t.Reached n := by
  simp [reachedNames]

theorem Reached.mem_names (he : ∀ a b, t.graph.Edge a b → b ∈ t.names)
    (hr : ∀ r ∈ t.roots, r ∈ t.names) (h : t.Reached n) : n ∈ t.names := by
  obtain ⟨r, hm, hrn⟩ := h
  cases hrn with
  | refl => exact hr _ hm
  | tail _ hab => exact he _ _ hab

/-- A line can be written if its name has an entry. -/
theorem mapM_written (h : ∀ line ∈ ls, line.name ∈ t.names) :
    ls.mapM (fun l => (t.find? l.name).map l.written) = some (ls.map (Line.text t)) := by
  induction ls with
  | nil => rfl
  | cons line ls ih =>
    have hrest := ih fun l hl => h l (List.mem_cons_of_mem _ hl)
    obtain ⟨e, hentry⟩ := Option.isSome_iff_exists.1 (contains_iff.2 (h line List.mem_cons_self))
    simp [List.mapM_cons, hrest, hentry, Line.text]

/-- **A walk of a tree goes over everything once**, where what the tree refers to has entries. -/
theorem tours (hn : t.names.Nodup) (he : ∀ a b, t.graph.Edge a b → b ∈ t.names)
    (hr : ∀ r ∈ t.roots, r ∈ t.names) : t.Tours := by
  have hstack : ∀ w ∈ t.roots.map fun r => ((r, []) : Waiting), w.1 ∈ t.roots ∧ w.2 = [] := by
    intro w hw
    obtain ⟨r, hm, rfl⟩ := List.mem_map.1 hw
    exact ⟨hm, rfl⟩
  have hwalks : t.Walks [] (t.roots.map fun r => (r, [])) t.walk :=
    lines_walks he (fun w hw => hr _ (hstack w hw).1) hn fun n hm => by simp [hm]
  have hmet : ∀ line ∈ t.walk, t.Reached line.name := by
    intro line hl
    obtain ⟨w, hw, hreach⟩ := lines_names line hl
    exact ⟨w.1, (hstack w hw).1, hreach⟩
  have hnamed : ∀ line ∈ t.walk, line.name ∈ t.names :=
    fun line hl => (hmet line hl).mem_names he hr
  obtain ⟨hroots, hclosed⟩ := hwalks.covers fun w hw => by simp [(hstack w hw).2]
  -- the opened names hold the roots and are closed under references
  have hall : ∀ n, t.Reached n → n ∈ opened t.walk := by
    rintro n ⟨r, hm, hrn⟩
    induction hrn with
    | refl => simpa using hroots (r, []) (List.mem_map.2 ⟨r, hm, rfl⟩)
    | tail _ hab ih => simpa using hclosed _ ih _ hab
  have hset : (opened t.walk).toFinset = t.reachedNames := by
    ext n
    rw [List.mem_toFinset, mem_reachedNames]
    constructor
    · intro ho
      obtain ⟨line, hl, rfl⟩ := List.mem_map.1 ho
      have hl := (List.mem_filter.1 hl).1
      exact ⟨hnamed line hl, hmet line hl⟩
    · exact fun h => hall n h.2
  refine ⟨hwalks, hmet, fun n h => ?_, ?_, ?_, hnamed, ?_⟩
  · rw [← count_opened]
    exact List.count_eq_one_of_mem hwalks.opens.1 (hall n h)
  · rw [hwalks.length, List.length_map, ← hset, List.sum_toFinset _ hwalks.opens.1]
  · refine hwalks.attached (fun w hw m ms hms => ?_) ?_
    · rw [(hstack w hw).2] at hms
      cases hms
    · refine List.pairwise_of_forall_mem_list fun v _ w hw => ?_
      simp [(hstack w hw).2]
  · rw [text?, mapM_written hnamed]
    rfl

/-- **The walk of the tree of a trace goes over everything once.** -/
theorem ofTrace_tours (h : ofTrace trace = .ok t) : t.Tours := by
  have hsound := (ofTrace_shows h).sound
  have hends : ∀ a b, t.graph.Edge a b → b ∈ t.names :=
    fun a b hab => hsound.names ▸ (hsound.wellFormed.ends _ hab).2
  exact tours (hsound.names ▸ hsound.wellFormed.nodup) hends fun r hr => ofTrace_roots h hr

/-- A trace in which two names refer to each other and to a third one, which refers to itself. -/
def loopTrace : Trace where
  id := ""
  template := "$\x7ba\x7d$\x7bb\x7d$\x7bf()\x7d"
  value := ""
  steps := []
  resolved := []
  unresolved := []
  failures := []
  metrics := {}
  started := 0
  ended := 0
  context := none
  dependencies := [("a", ["b", "c"]), ("b", ["a", "c"]), ("c", ["c"])]
  cycles := [["a", "b"], ["c"]]
  isTruncated := false

/-- The walk of its tree opens four names and turns back at four. -/
theorem tours_loop : ∃ t, ofTrace loopTrace = .ok t ∧ t.Tours ∧ t.walk = [
    ⟨0, "a", .first⟩, ⟨1, "b", .first⟩, ⟨2, "a", .circular⟩, ⟨2, "c", .first⟩,
    ⟨3, "c", .circular⟩, ⟨1, "c", .repeated⟩, ⟨0, "b", .repeated⟩, ⟨0, "f()", .first⟩] := by
  let reading : Template.Reading := ⟨[
    .reference ⟨"a", none, "$\x7ba\x7d", ⟨0, 4⟩⟩, .reference ⟨"b", none, "$\x7bb\x7d", ⟨4, 8⟩⟩,
    .reference ⟨"f", some [], "$\x7bf()\x7d", ⟨8, 14⟩⟩], []⟩
  have hread : Template.read "$\x7ba\x7d$\x7bb\x7d$\x7bf()\x7d" = .ok reading := by cbv
  -- no step was recorded, so there are no values in which calls could stand
  have hlink : linkCalls (beforeCalls loopTrace reading).entries (beforeCalls loopTrace reading) =
      .ok (beforeCalls loopTrace reading) := linkCalls_unvalued (by decide)
  have ht : ofTrace loopTrace = _ := ofTrace_eq hread hlink
  exact ⟨_, ht, ofTrace_tours ht, by cbv⟩

end Tree
end Stencil
