/-
# How the tree of a trace is built

A tree is built by adding entries, linking them and changing them (`Edit`). So
its entries and the nodes of its graph stay in step, and it gets no other links
than the references that the trace lists and links from variables to calls
(`ofTrace_shows`): those to the calls in their values (`ofTrace_edge`). A call is not a
variable and links to nothing; so the links to calls make no cycle
(`Shows.transGen_iff`). A tree is refused only for the output of a step about a
variable (`ofTrace_error`).

Key definitions: `Edit`, `IsSound`, `Trace.Refers`, `CallsIn`, `Shows`.
Key theorems: `linkCalls_edge`, `ofTrace_shows`, `ofTrace_edge`, `ofTrace_error`,
`Shows.transGen_iff`.
-/
import Stencil.Proofs.Graph.Order
import Stencil.Proofs.Graph.Reach
import Stencil.Tree

namespace Stencil

open Relation

/-- The name under which calls of some function are listed. -/
def IsCallName (n : String) : Prop := ∃ m, n = Reference.callName m

theorem IsCallName.endsWith {n : String} (h : IsCallName n) : n.endsWith "()" = true := by
  obtain ⟨m, rfl⟩ := h
  rw [← String.endsWith_toSlice, String.Slice.endsWith_string_iff]
  exact ⟨m.toList, by simp [Reference.callName]⟩

theorem isCallName_iff {n : String} : IsCallName n ↔ n.endsWith "()" = true := by
  refine ⟨IsCallName.endsWith, fun h => ?_⟩
  rw [← String.endsWith_toSlice, String.Slice.endsWith_string_iff] at h
  obtain ⟨cs, hcs⟩ := h
  refine ⟨String.ofList cs, String.toList_inj.1 ?_⟩
  rw [← String.copy_toSlice (s := n), ← hcs]
  simp [Reference.callName]

theorem isCallName_displayName {r : Reference} (h : r.isCall = true) :
    IsCallName r.displayName := ⟨r.name, by rw [Reference.displayName, if_pos h]⟩

theorem isCallName_of_calls {segments : List Segment} {r : Reference}
    (h : r ∈ Template.calls segments) : IsCallName r.displayName := by
  obtain ⟨s, -, hs⟩ := List.mem_filterMap.1 h
  unfold Segment.call? at hs
  split at hs
  · cases hs
  · split_ifs at hs with hr
    cases hs
    exact isCallName_displayName hr

/-- The trace lists `b` among the names that `a` refers to. -/
def Trace.Refers (t : Trace) (a b : String) : Prop := ∃ ms, (a, ms) ∈ t.dependencies ∧ b ∈ ms

/-- Some step of the trace gives `value` as what `name` stood for. -/
def Trace.Gives (t : Trace) (name value : String) : Prop :=
  ∃ s ∈ t.steps, Tree.isAboutName s.event.kind = true ∧ s.event.name = name ∧
    s.event.output = value

/-- The text calls functions under the name. -/
def Template.CallsIn (text name : String) : Prop :=
  ∃ reading, Template.read text = .ok reading ∧
    name ∈ (Template.calls reading.segments).map Reference.displayName

namespace Tree

/-- The entries of a tree are the nodes of its graph. -/
structure IsSound (t : Tree) : Prop where
  wellFormed : t.graph.IsWellFormed
  isSimple : t.graph.IsSimple
  names : t.graph.names = t.names

/-- A change to a tree: it links only what `E` relates, and takes only what `V` relates to a name for
the name's value. -/
inductive Edit (E V : String → String → Prop) : Tree → Tree → Prop where
  | touch (t : Tree) (n : String) : Edit E V t (t.touch n)
  | link (t : Tree) (a b : String) (h : E a b) : Edit E V t (t.link a b)
  | change (t : Tree) (f : Entry → Entry) (hn : ∀ e, (f e).name = e.name)
      (hv : ∀ e, (f e).value = e.value ∨ V e.name (f e).value) :
      Edit E V t { t with entries := t.entries.map f }

/-- Changes to a tree, one after another. -/
abbrev Edits (E V : String → String → Prop) : Tree → Tree → Prop := ReflTransGen (Edit E V)

variable {E V : String → String → Prop} {t t' : Tree} {n m a b : String}

/-! ### What changes keep -/

theorem contains_iff : t.contains n = true ↔ n ∈ t.names := by
  simp [contains, find?, names]

theorem touch_roots (t : Tree) (n : String) : (t.touch n).roots = t.roots := by
  unfold touch
  split_ifs <;> rfl

theorem touch_edges (t : Tree) (n : String) : (t.touch n).graph.edges = t.graph.edges := by
  unfold touch
  split_ifs
  · rfl
  · exact Graph.touch_edges _ _

theorem IsSound.touch (h : t.IsSound) (n : String) : (t.touch n).IsSound := by
  have hg := h.wellFormed.touch n
  have hn := Graph.touch_names t.graph n
  have hs : (t.graph.touch n).IsSimple := by
    rw [Graph.IsSimple, Graph.touch_edges]
    exact h.isSimple
  unfold Tree.touch
  split_ifs with hc
  · exact h
  · rw [contains_iff, ← h.names] at hc
    rw [if_neg hc] at hn
    refine ⟨hg, hs, ?_⟩
    rw [hn, h.names]
    show t.names ++ [n] = (t.entries ++ [({ name := n } : Entry)]).map Entry.name
    rw [List.map_append]
    rfl

theorem mem_touch_self (t : Tree) (n : String) : n ∈ (t.touch n).names := by
  unfold touch
  split_ifs with hc
  · exact contains_iff.1 hc
  · simp [names]

theorem mem_touch (h : m ∈ t.names) (n : String) : m ∈ (t.touch n).names := by
  unfold touch
  split_ifs
  · exact h
  · rw [names, List.map_append]
    exact List.mem_append_left _ h

theorem touch_of_mem (h : n ∈ t.names) : t.touch n = t := if_pos (contains_iff.2 h)

theorem link_names (ha : a ∈ t.names) (hb : b ∈ t.names) : (t.link a b).names = t.names := by
  unfold link
  dsimp only
  rw [touch_of_mem ha, touch_of_mem hb]
  rfl

theorem update_names {f : Entry → Entry} (t : Tree) (hf : ∀ e, e.name = n → (f e).name = n) :
    (t.update n f).names = t.names := by
  unfold names update
  rw [List.map_map]
  refine List.map_congr_left fun e _ => ?_
  show (if (e.name == n) = true then f e else e).name = e.name
  split_ifs with he
  · have hn := beq_iff_eq.1 he
    rw [hf e hn, hn]
  · rfl

theorem edge_link : (t.link a b).graph.Edge n m ↔ t.graph.Edge n m ∨ (n = a ∧ m = b) := by
  unfold link
  dsimp only
  rw [Graph.edge_addEdge, Graph.Edge, touch_edges, touch_edges]
  rfl

theorem IsSound.link (h : t.IsSound) (a b : String) : (t.link a b).IsSound := by
  have ht := (h.touch a).touch b
  have ha : a ∈ ((t.touch a).touch b).graph.names := by
    rw [ht.names]
    exact mem_touch (mem_touch_self t a) b
  have hb : b ∈ ((t.touch a).touch b).graph.names := by
    rw [ht.names]
    exact mem_touch_self _ b
  unfold Tree.link
  generalize (t.touch a).touch b = u at ht ha hb
  -- the ends are nodes already, so only the edge is new
  have hta : u.graph.touch a = u.graph := if_pos (Graph.contains_iff.2 ha)
  have htb : u.graph.touch b = u.graph := if_pos (Graph.contains_iff.2 hb)
  refine ⟨ht.wellFormed.addEdge a b, ?_, ?_⟩
  · unfold Graph.IsSimple Graph.addEdge
    dsimp only
    rw [hta, htb]
    split_ifs with hc
    · exact ht.isSimple
    · rw [List.nodup_append']
      refine ⟨ht.isSimple, List.nodup_singleton _, ?_⟩
      exact List.disjoint_singleton.2 fun hm => hc (List.contains_iff_mem.2 hm)
  · unfold Graph.addEdge
    dsimp only
    rw [hta, htb]
    split_ifs <;> exact ht.names

/-- Every value is empty, or `V` relates the name to it. -/
def Values (V : String → String → Prop) (t : Tree) : Prop :=
  ∀ e ∈ t.entries, e.value = "" ∨ V e.name e.value

theorem Values.touch (h : t.Values V) (n : String) : (t.touch n).Values V := by
  unfold Tree.touch
  split_ifs
  · exact h
  · intro e he
    rcases List.mem_append.1 he with he | he
    · exact h e he
    · rw [List.mem_singleton.1 he]
      exact .inl rfl

theorem Edit.sound (h : Edit E V t t') (ht : t.IsSound) : t'.IsSound := by
  cases h with
  | touch n => exact ht.touch n
  | link a b => exact ht.link a b
  | change f hn =>
    refine ⟨ht.wellFormed, ht.isSimple, ht.names.trans ?_⟩
    simp [names, hn]

theorem Edit.roots (h : Edit E V t t') : t'.roots = t.roots := by
  cases h with
  | touch n => exact touch_roots t n
  | link a b => exact (touch_roots _ b).trans (touch_roots t a)
  | change => rfl

/-- No change takes an entry away. -/
theorem Edit.mem_names (h : Edit E V t t') (hn : n ∈ t.names) : n ∈ t'.names := by
  cases h with
  | touch m => exact mem_touch hn m
  | link a b => exact mem_touch (mem_touch hn a) b
  | change f hf =>
    have hsame : (t.entries.map f).map Entry.name = t.names := by simp [names, hf]
    show n ∈ (t.entries.map f).map Entry.name
    rwa [hsame]

theorem Edit.edge (h : Edit E V t t') (he : t'.graph.Edge a b) : t.graph.Edge a b ∨ E a b := by
  cases h with
  | touch n =>
    rw [Graph.Edge, touch_edges] at he
    exact .inl he
  | link x y hxy =>
    rcases edge_link.1 he with he | ⟨rfl, rfl⟩
    · exact .inl he
    · exact .inr hxy
  | change => exact .inl he

theorem Edit.keeps (h : Edit E V t t') (he : t.graph.Edge a b) : t'.graph.Edge a b := by
  cases h with
  | touch n =>
    rw [Graph.Edge, touch_edges]
    exact he
  | link x y => exact edge_link.2 (.inl he)
  | change => exact he

theorem Edit.mono {E' : String → String → Prop} (hE : ∀ a b, E a b → E' a b)
    (h : Edit E V t t') : Edit E' V t t' := by
  cases h with
  | touch n => exact .touch t n
  | link a b h => exact .link t a b (hE a b h)
  | change f hn hv => exact .change t f hn hv

theorem Edit.values (h : Edit E V t t') (hv : t.Values V) : t'.Values V := by
  cases h with
  | touch n => exact hv.touch n
  | link a b => exact (hv.touch a).touch b
  | change f hn hf =>
    intro e he
    obtain ⟨d, hd, rfl⟩ := List.mem_map.1 he
    rw [hn]
    rcases hf d with hf | hf
    · rw [hf]
      exact hv d hd
    · exact .inr hf

namespace Edits

theorem sound (h : Edits E V t t') (ht : t.IsSound) : t'.IsSound := by
  induction h with
  | refl => exact ht
  | tail _ hs ih => exact hs.sound ih

theorem roots (h : Edits E V t t') : t'.roots = t.roots := by
  induction h with
  | refl => rfl
  | tail _ hs ih => exact hs.roots.trans ih

theorem mem_names (h : Edits E V t t') (hn : n ∈ t.names) : n ∈ t'.names := by
  induction h with
  | refl => exact hn
  | tail _ hs ih => exact hs.mem_names ih

theorem edge (h : Edits E V t t') (he : t'.graph.Edge a b) : t.graph.Edge a b ∨ E a b := by
  induction h with
  | refl => exact .inl he
  | tail _ hs ih => exact (hs.edge he).elim ih .inr

theorem keeps (h : Edits E V t t') (he : t.graph.Edge a b) : t'.graph.Edge a b := by
  induction h with
  | refl => exact he
  | tail _ hs ih => exact hs.keeps ih

theorem mono {E' : String → String → Prop} (hE : ∀ a b, E a b → E' a b) (h : Edits E V t t') :
    Edits E' V t t' := ReflTransGen.mono (fun _ _ => Edit.mono hE) _ _ h

theorem values (h : Edits E V t t') (hv : t.Values V) : t'.Values V := by
  induction h with
  | refl => exact hv
  | tail _ hs ih => exact hs.values ih

/-- What is done for each element of a list, one after another. -/
theorem foldl {α : Type} {f : Tree → α → Tree} (xs : List α)
    (hf : ∀ t, ∀ x ∈ xs, Edits E V t (f t x)) (t : Tree) : Edits E V t (xs.foldl f t) := by
  induction xs generalizing t with
  | nil => exact .refl
  | cons x xs ih =>
    exact (hf t x List.mem_cons_self).trans (ih (fun t y hy => hf t y (List.mem_cons_of_mem _ hy)) _)

/-- A change to the entry of one name. -/
theorem update (t : Tree) (n : String) {f : Entry → Entry} (hn : ∀ e, (f e).name = e.name)
    (hv : ∀ e, e.name = n → (f e).value = e.value ∨ V n (f e).value) :
    Edits E V t (t.update n f) := by
  refine .single (.change t (fun e => if e.name == n then f e else e) (fun e => ?_) fun e => ?_)
  · split_ifs
    · exact hn e
    · rfl
  · split_ifs with h
    · have hen : e.name = n := beq_iff_eq.1 h
      exact hen ▸ hv e hen
    · exact .inl rfl

end Edits

/-! ### The steps of building -/

theorem addDependencies_edits {ms : List String} (h : ∀ m ∈ ms, E n m) (t : Tree) :
    Edits E V t (t.addDependencies n ms) :=
  .trans (.single (.touch t n)) (Edits.foldl ms (fun t m hm => .single (.link t n m (h m hm))) _)

theorem addDependencies_edge {ms : List String} (hm : m ∈ ms) (t : Tree) :
    (t.addDependencies n ms).graph.Edge n m := by
  have h : ∀ (ms : List String) (t : Tree), m ∈ ms →
      (ms.foldl (fun t m => t.link n m) t).graph.Edge n m := by
    intro ms
    induction ms with
    | nil => exact fun t hm => absurd hm List.not_mem_nil
    | cons x ms ih =>
      intro t hm
      by_cases hr : m ∈ ms
      · exact ih _ hr
      · obtain rfl := (List.mem_cons.1 hm).resolve_right hr
        have hl : (t.link n m).graph.Edge n m := edge_link.2 (.inr ⟨rfl, rfl⟩)
        exact (Edits.foldl (E := fun _ _ => True) (V := fun _ _ => True) ms
          (fun t y _ => .single (.link t n y trivial)) (t.link n m)).keeps hl
  exact h ms _ hm

/-- The references of a trace are linked. -/
theorem foldl_addDependencies_edge {ds : List (String × List String)} {ms : List String}
    (hd : (a, ms) ∈ ds) (hm : b ∈ ms) (t : Tree) :
    (ds.foldl (fun t (n, ms) => t.addDependencies n ms) t).graph.Edge a b := by
  induction ds generalizing t with
  | nil => exact absurd hd List.not_mem_nil
  | cons d ds ih =>
    by_cases hr : (a, ms) ∈ ds
    · exact ih hr _
    · obtain rfl := (List.mem_cons.1 hd).resolve_right hr
      exact (Edits.foldl (E := fun _ _ => True) (V := fun _ _ => True) ds
        (fun t _ _ => addDependencies_edits (fun _ _ => trivial) t) (t.addDependencies a ms)).keeps
          (addDependencies_edge hm t)

theorem takeStep_names {s : Step} (hk : isAboutName s.event.kind = true) :
    (t.takeStep s).names = (t.touch s.event.name).names := by
  unfold takeStep
  rw [if_pos hk]
  refine update_names _ fun e he => ?_
  dsimp only
  split_ifs <;> exact he

theorem takeStep_edits {s : Step}
    (hv : isAboutName s.event.kind = true → V s.event.name s.event.output) (t : Tree) :
    Edits E V t (t.takeStep s) := by
  unfold takeStep
  split_ifs with hk
  · refine .trans (.single (.touch t s.event.name)) (Edits.update _ _ (fun e => ?_) fun e he => ?_)
    · dsimp only
      split_ifs <;> rfl
    · dsimp only
      split_ifs
      · exact .inl rfl
      · exact .inr (hv hk)
  · exact .refl

theorem takeFailure_edits (t : Tree) (f : Failure) : Edits E V t (t.takeFailure f) := by
  unfold takeFailure
  split
  · exact .refl
  · exact .update _ _ (fun _ => rfl) fun _ _ => .inl rfl

/-- Failures change neither names nor links. -/
theorem foldl_takeFailure_same (fs : List Failure) (t : Tree) :
    (fs.foldl takeFailure t).names = t.names ∧ (fs.foldl takeFailure t).graph = t.graph := by
  induction fs generalizing t with
  | nil => exact ⟨rfl, rfl⟩
  | cons f fs ih =>
    have hone : (t.takeFailure f).names = t.names ∧ (t.takeFailure f).graph = t.graph := by
      unfold takeFailure
      split
      · exact ⟨rfl, rfl⟩
      · exact ⟨update_names t fun _ he => he, rfl⟩
    exact ⟨(ih _).1.trans hone.1, (ih _).2.trans hone.2⟩

theorem linkCalls_edits {es : List Entry} (hE : ∀ a b, ¬ IsCallName a → IsCallName b → E a b)
    (h : linkCalls es t = .ok t') : Edits E V t t' := by
  fun_induction linkCalls es t with
  | case1 =>
    cases h
    exact .refl
  | case2 e es t hskip ih => exact ih h
  | case3 => cases h
  | case4 e es t hskip reading hread ih =>
    have hcall : ¬ IsCallName e.name := fun hn => hskip (by rw [Entry.isCall, hn.endsWith]; rfl)
    refine .trans (Edits.foldl _ (fun t c hc => ?_) t) (ih h)
    split_ifs
    · exact .single (.link t _ _ (hE _ _ hcall (isCallName_of_calls hc)))
    · exact .refl

theorem callsIn_iff {text : String} {reading : Template.Reading}
    (h : Template.read text = .ok reading) :
    Template.CallsIn text b ↔ b ∈ (Template.calls reading.segments).map Reference.displayName :=
  ⟨fun ⟨_, hr, hb⟩ => Except.ok.inj (h.symm.trans hr) ▸ hb, fun hb => ⟨_, h, hb⟩⟩

theorem not_callsIn_empty : ¬ Template.CallsIn "" b := by
  have hread : Template.read "" = .ok (Template.layOut 0 [] []) := by
    unfold Template.read
    rw [String.toList_empty, Template.pieces]
  rw [callsIn_iff hread]
  exact List.not_mem_nil

/-- Calls that have entries are linked. -/
theorem foldl_link (cs : List Reference) (hn : n ∈ t.names) :
    let t' := cs.foldl
      (fun t c => if t.contains c.displayName then t.link n c.displayName else t) t
    t'.names = t.names ∧ ∀ a b, t'.graph.Edge a b ↔ t.graph.Edge a b ∨
      (a = n ∧ b ∈ t.names ∧ b ∈ cs.map Reference.displayName) := by
  induction cs generalizing t with
  | nil => simp
  | cons c cs ih =>
    rw [List.foldl_cons]
    by_cases hc : c.displayName ∈ t.names
    · have hnames := link_names hn hc
      obtain ⟨hsame, hedge⟩ := ih (t := t.link n c.displayName) (hnames ▸ hn)
      rw [if_pos (contains_iff.2 hc)]
      refine ⟨hsame.trans hnames, fun a b => ?_⟩
      rw [hedge, hnames, edge_link, List.map_cons, List.mem_cons]
      constructor
      · rintro ((h | ⟨ha, rfl⟩) | ⟨ha, hb, hm⟩)
        · exact .inl h
        · exact .inr ⟨ha, hc, .inl rfl⟩
        · exact .inr ⟨ha, hb, .inr hm⟩
      · rintro (h | ⟨ha, hb, rfl | hm⟩)
        · exact .inl (.inl h)
        · exact .inl (.inr ⟨ha, rfl⟩)
        · exact .inr ⟨ha, hb, hm⟩
    · obtain ⟨hsame, hedge⟩ := ih hn
      rw [if_neg fun h => hc (contains_iff.1 h)]
      refine ⟨hsame, fun a b => ?_⟩
      rw [hedge, List.map_cons, List.mem_cons]
      -- the call has no entry, so it is not the name
      refine or_congr_right (and_congr_right fun _ => and_congr_right fun hb => ?_)
      exact (or_iff_right fun he : b = c.displayName => hc (he ▸ hb)).symm

/-- **Linking adds the calls in the values of variables, as far as they have entries.** -/
theorem linkCalls_edge {es : List Entry} (h : linkCalls es t = .ok t')
    (hes : ∀ e ∈ es, e.name ∈ t.names) :
    t'.names = t.names ∧ ∀ a b, t'.graph.Edge a b ↔ t.graph.Edge a b ∨ ∃ e ∈ es,
      e.name = a ∧ e.isCall = false ∧ Template.CallsIn e.value b ∧ b ∈ t.names := by
  fun_induction linkCalls es t with
  | case1 =>
    cases h
    simp
  | case2 e es t hskip ih =>
    obtain ⟨hsame, hedge⟩ := ih h fun e he => hes e (List.mem_cons_of_mem _ he)
    refine ⟨hsame, fun a b => (hedge a b).trans (or_congr_right ?_)⟩
    rw [List.exists_mem_cons_iff]
    refine (or_iff_right ?_).symm
    rintro ⟨-, hcall, hin, -⟩
    rw [hcall, Bool.false_or, String.isEmpty_iff] at hskip
    exact not_callsIn_empty (hskip ▸ hin)
  | case3 => cases h
  | case4 e es t hskip reading hread ih =>
    rw [List.forall_mem_cons] at hes
    rw [Bool.or_eq_true, not_or, Bool.not_eq_true] at hskip
    obtain ⟨hnames, hlinked⟩ := foldl_link (Template.calls reading.segments) hes.1
    obtain ⟨hsame, hedge⟩ := ih h fun e he => hnames ▸ hes.2 e he
    refine ⟨hsame.trans hnames, fun a b => ?_⟩
    rw [hedge, hlinked, hnames, List.exists_mem_cons_iff, or_assoc, callsIn_iff hread]
    refine or_congr_right (or_congr_left ?_)
    rw [eq_comm (a := a)]
    exact and_congr_right fun _ =>
      ⟨fun ⟨hb, hm⟩ => ⟨hskip.1, hm, hb⟩, fun ⟨_, hm, hb⟩ => ⟨hb, hm⟩⟩

/-- Entries that stood for nothing call nothing. -/
theorem linkCalls_unvalued {es : List Entry} (h : ∀ e ∈ es, e.value = "") :
    linkCalls es t = .ok t := by
  induction es with
  | nil => rfl
  | cons e es ih =>
    have he : e.value.isEmpty = true := String.isEmpty_iff.2 (h e List.mem_cons_self)
    rw [linkCalls, he, Bool.or_true, if_pos rfl]
    exact ih fun d hd => h d (List.mem_cons_of_mem _ hd)

/-- Linking is refused only for a value of a variable. -/
theorem linkCalls_error {es : List Entry} {r : Refusal} (h : linkCalls es t = .error r) :
    ∃ e ∈ es, ¬ IsCallName e.name ∧ e.value ≠ "" ∧ Template.read e.value = .error r := by
  fun_induction linkCalls es t with
  | case1 => cases h
  | case2 e es t hskip ih =>
    obtain ⟨d, hd, hrest⟩ := ih h
    exact ⟨d, List.mem_cons_of_mem _ hd, hrest⟩
  | case3 e es t hskip refusal hread =>
    cases h
    rw [Bool.or_eq_true, not_or, String.isEmpty_iff] at hskip
    exact ⟨e, List.mem_cons_self, fun hn => hskip.1 hn.endsWith, hskip.2, hread⟩
  | case4 e es t hskip reading hread ih =>
    obtain ⟨d, hd, hrest⟩ := ih h
    exact ⟨d, List.mem_cons_of_mem _ hd, hrest⟩

/-! ### Where names come from -/

/-- All names are among `P`. -/
def Named (P : String → Prop) (t : Tree) : Prop := ∀ n ∈ t.names, P n

namespace Named

variable {P : String → Prop}

theorem touch (h : t.Named P) (hn : P n) : (t.touch n).Named P := by
  unfold Tree.touch
  split_ifs
  · exact h
  · intro m hm
    rw [names, List.map_append] at hm
    rcases List.mem_append.1 hm with hm | hm
    · exact h m hm
    · exact List.mem_singleton.1 hm ▸ hn

theorem link (h : t.Named P) (ha : P a) (hb : P b) : (t.link a b).Named P :=
  (h.touch ha).touch hb

theorem foldl {α : Type} {f : Tree → α → Tree} (xs : List α)
    (hf : ∀ t, ∀ x ∈ xs, t.Named P → (f t x).Named P) (h : t.Named P) : (xs.foldl f t).Named P := by
  induction xs generalizing t with
  | nil => exact h
  | cons x xs ih =>
    exact ih (fun t y hy => hf t y (List.mem_cons_of_mem _ hy)) (hf t x List.mem_cons_self h)

theorem addDependencies {ms : List String} (h : t.Named P) (hn : P n) (hms : ∀ m ∈ ms, P m) :
    (t.addDependencies n ms).Named P :=
  foldl ms (fun _ m hm ht => ht.link hn (hms m hm)) (h.touch hn)

theorem takeStep {s : Step} (h : t.Named P)
    (hs : isAboutName s.event.kind = true → P s.event.name) : (t.takeStep s).Named P := by
  cases hk : isAboutName s.event.kind with
  | false =>
    unfold Tree.takeStep
    rwa [hk, if_neg Bool.false_ne_true]
  | true =>
    unfold Named
    rw [takeStep_names hk]
    exact h.touch (hs hk)

end Named

/-! ### The tree of a trace -/

/-- What links a tree may have. -/
def Links (trace : Trace) (a b : String) : Prop :=
  trace.Refers a b ∨ (¬ IsCallName a ∧ IsCallName b)

/-- The tree before its calls are linked. -/
def beforeCalls (trace : Trace) (reading : Template.Reading) : Tree :=
  let t : Tree := { roots := rootsOf reading, cycles := trace.cycles }
  trace.steps.foldl takeStep
    (trace.dependencies.foldl (fun t (n, ms) => t.addDependencies n ms) (t.roots.foldl touch t))

/-- A tree that shows what a trace tells of references. -/
structure Shows (trace : Trace) (t : Tree) : Prop where
  sound : t.IsSound
  roots : ∃ reading, Template.read trace.template = .ok reading ∧ t.roots = rootsOf reading
  refers : ∀ a b, trace.Refers a b → t.graph.Edge a b
  edge : ∀ a b, t.graph.Edge a b → Links trace a b

variable {trace : Trace} {reading : Template.Reading}

theorem foldl_takeStep_edits (t : Tree) :
    Edits E trace.Gives t (trace.steps.foldl takeStep t) :=
  Edits.foldl trace.steps (fun t s hs => takeStep_edits (fun hk => ⟨s, hs, hk, rfl, rfl⟩) t) t

theorem beforeCalls_edits : Edits trace.Refers trace.Gives
    { roots := rootsOf reading, cycles := trace.cycles } (beforeCalls trace reading) := by
  refine .trans (Edits.foldl (rootsOf reading) (fun t n _ => .single (.touch t n)) _) ?_
  refine .trans (Edits.foldl trace.dependencies (fun t d hd => ?_) _) (foldl_takeStep_edits _)
  exact addDependencies_edits (fun m hm => ⟨d.2, hd, hm⟩) t

/-- Before its calls are linked a tree has the references of the trace. -/
theorem beforeCalls_edge (reading : Template.Reading) :
    (beforeCalls trace reading).graph.Edge a b ↔ trace.Refers a b := by
  constructor
  · exact fun h => (beforeCalls_edits.edge h).resolve_left List.not_mem_nil
  · rintro ⟨ms, hd, hm⟩
    have hlinked := foldl_addDependencies_edge hd hm
    exact (foldl_takeStep_edits (E := trace.Refers) _).keeps (hlinked _)

/-- The names of a template have entries. -/
theorem beforeCalls_roots (h : n ∈ rootsOf reading) : n ∈ (beforeCalls trace reading).names := by
  have htouch : ∀ (ns : List String) (t : Tree), n ∈ ns → n ∈ (ns.foldl touch t).names := by
    intro ns
    induction ns with
    | nil => exact fun t hm => absurd hm List.not_mem_nil
    | cons m ns ih =>
      intro t hm
      by_cases hr : n ∈ ns
      · exact ih _ hr
      · obtain rfl := (List.mem_cons.1 hm).resolve_right hr
        exact (Edits.foldl (E := fun _ _ => True) (V := fun _ _ => True) ns
          (fun t y _ => .single (.touch t y)) (t.touch n)).mem_names (mem_touch_self t n)
  have hdeps := Edits.foldl (E := Links trace) (V := trace.Gives) trace.dependencies
    (fun t d hd => addDependencies_edits (fun m hm => .inl ⟨d.2, hd, hm⟩) t)
    ((rootsOf reading).foldl touch { roots := rootsOf reading, cycles := trace.cycles })
  exact (foldl_takeStep_edits (E := Links trace) _).mem_names (hdeps.mem_names (htouch _ _ h))

/-- A tree is about the names of the template, those that the trace lists with what they refer to,
and those that its steps are about. -/
theorem beforeCalls_named : (beforeCalls trace reading).Named fun n =>
    n ∈ rootsOf reading ∨ n ∈ trace.dependencies.map Prod.fst ∨ (∃ m, trace.Refers m n) ∨
      ∃ s ∈ trace.steps, isAboutName s.event.kind = true ∧ s.event.name = n := by
  refine .foldl trace.steps (fun t s hs ht => ?_) ?_
  · exact ht.takeStep fun hk => .inr (.inr (.inr ⟨s, hs, hk, rfl⟩))
  refine .foldl trace.dependencies (fun t d hd ht => ?_) ?_
  · exact ht.addDependencies (.inr (.inl (List.mem_map_of_mem hd))) fun m hm =>
      .inr (.inr (.inl ⟨d.1, d.2, hd, hm⟩))
  refine .foldl (rootsOf reading) (fun t n hn ht => ht.touch (.inl hn)) ?_
  exact fun n hn => absurd hn List.not_mem_nil

theorem ofTrace_eq {reading : Template.Reading} (hr : Template.read trace.template = .ok reading)
    (hl : linkCalls (beforeCalls trace reading).entries (beforeCalls trace reading) = .ok t') :
    ofTrace trace = .ok (trace.failures.foldl takeFailure { t' with
      entries := t'.entries.map fun e =>
        { e with isResolved := trace.resolved.contains e.name } }) := by
  unfold beforeCalls at hl
  rw [ofTrace, hr]
  dsimp only
  rw [hl]

/-- How the tree of a trace is made: its calls are linked, its names are marked, and its failures
are taken in. -/
theorem ofTrace_ok (h : ofTrace trace = .ok t) :
    ∃ reading t', Template.read trace.template = .ok reading ∧
      linkCalls (beforeCalls trace reading).entries (beforeCalls trace reading) = .ok t' ∧
      t = trace.failures.foldl takeFailure { t' with
        entries := t'.entries.map fun e =>
          { e with isResolved := trace.resolved.contains e.name } } := by
  unfold ofTrace at h
  split at h
  · cases h
  rename_i reading hread
  dsimp only at h
  split at h
  · cases h
  rename_i t' hcalls
  cases h
  exact ⟨reading, t', hread, hcalls, rfl⟩

/-- What is done once the steps are taken in. -/
theorem ofTrace_edits (h : ofTrace trace = .ok t) :
    ∃ reading, Template.read trace.template = .ok reading ∧
      Edits (Links trace) trace.Gives (beforeCalls trace reading) t := by
  obtain ⟨reading, t', hread, hcalls, rfl⟩ := ofTrace_ok h
  have hlink : Edits (Links trace) trace.Gives (beforeCalls trace reading) t' :=
    linkCalls_edits (fun a b ha hb => .inr ⟨ha, hb⟩) hcalls
  have hmark : Edits (Links trace) trace.Gives t' { t' with
      entries := t'.entries.map fun e => { e with isResolved := trace.resolved.contains e.name } } :=
    .single (.change t' _ (fun _ => rfl) fun _ => .inl rfl)
  exact ⟨reading, hread,
    hlink.trans (hmark.trans (Edits.foldl trace.failures (fun t f _ => takeFailure_edits t f) _))⟩

/-- **The tree of a trace shows it.** -/
theorem ofTrace_shows (h : ofTrace trace = .ok t) : Shows trace t := by
  obtain ⟨reading, hread, hend⟩ := ofTrace_edits h
  have hall : Edits (Links trace) trace.Gives _ _ :=
    (beforeCalls_edits.mono fun _ _ => .inl).trans hend
  refine ⟨hall.sound ⟨⟨List.nodup_nil, ?_⟩, List.nodup_nil, rfl⟩, ⟨reading, hread, hall.roots⟩,
    fun a b hab => hend.keeps ((beforeCalls_edge reading).2 hab), fun a b hab => ?_⟩
  · exact fun e he => absurd he List.not_mem_nil
  · exact (hall.edge hab).resolve_left List.not_mem_nil

/-- **The links of a tree** are the references of the trace, and from each variable to the calls in
its value, as far as they have entries. -/
theorem ofTrace_edge (h : ofTrace trace = .ok t) :
    ∃ reading, Template.read trace.template = .ok reading ∧
      t.names = (beforeCalls trace reading).names ∧
        ∀ a b, t.graph.Edge a b ↔ trace.Refers a b ∨
          ∃ e ∈ (beforeCalls trace reading).entries,
            e.name = a ∧ e.isCall = false ∧ Template.CallsIn e.value b ∧ b ∈ t.names := by
  obtain ⟨reading, t', hread, hcalls, rfl⟩ := ofTrace_ok h
  obtain ⟨hnames, hedge⟩ := linkCalls_edge hcalls fun e he => List.mem_map_of_mem he
  let marked : Tree := { t' with
    entries := t'.entries.map fun e => { e with isResolved := trace.resolved.contains e.name } }
  have hmarked : marked.names = t'.names := by simp [marked, names]
  obtain ⟨hsame, hgraph⟩ := foldl_takeFailure_same trace.failures marked
  have hall := hsame.trans (hmarked.trans hnames)
  refine ⟨reading, hread, hall, fun a b => ?_⟩
  rw [← beforeCalls_edge reading, hall, ← hedge, hgraph]

/-- The roots of a tree have entries. -/
theorem ofTrace_roots (h : ofTrace trace = .ok t) (hn : n ∈ t.roots) : n ∈ t.names := by
  obtain ⟨reading, -, hend⟩ := ofTrace_edits h
  have hall : Edits (Links trace) trace.Gives _ _ :=
    (beforeCalls_edits.mono fun _ _ => .inl).trans hend
  rw [hall.roots] at hn
  exact hend.mem_names (beforeCalls_roots hn)

/-- **A tree is refused only for the template, or for what a variable stood for.** -/
theorem ofTrace_error {r : Refusal} (h : ofTrace trace = .error r) :
    Template.read trace.template = .error r ∨
      ∃ n v, trace.Gives n v ∧ ¬ IsCallName n ∧ Template.read v = .error r := by
  unfold ofTrace at h
  split at h
  · cases h
    exact .inl ‹_›
  rename_i reading hread
  dsimp only at h
  split at h
  · rename_i refusal hcalls
    cases h
    change linkCalls (beforeCalls trace reading).entries (beforeCalls trace reading) = _ at hcalls
    obtain ⟨e, he, hcall, hne, hr⟩ := linkCalls_error hcalls
    have hv : (beforeCalls trace reading).Values trace.Gives :=
      beforeCalls_edits.values fun e he => absurd he List.not_mem_nil
    exact .inr ⟨e.name, e.value, (hv e he).resolve_left hne, hcall, hr⟩
  · cases h

/-! ### Cycles -/

/-- **The links to calls make no cycle.** -/
theorem Shows.transGen_iff (h : Shows trace t) (hd : ∀ a b, trace.Refers a b → ¬ IsCallName a) :
    TransGen t.graph.Edge n n ↔ TransGen trace.Refers n n := by
  have hsource : ∀ a b, t.graph.Edge a b → ¬ IsCallName a := fun a b hab =>
    (h.edge a b hab).elim (hd a b) And.left
  -- a name on the way refers on, so it is no call
  have hway : ∀ m, TransGen t.graph.Edge n m → ¬ IsCallName m → TransGen trace.Refers n m := by
    intro m hm
    induction hm with
    | single hab =>
      exact fun hb => .single ((h.edge _ _ hab).resolve_right fun hc => hb hc.2)
    | tail _ hbc ih =>
      intro hc
      exact (ih (hsource _ _ hbc)).tail ((h.edge _ _ hbc).resolve_right fun hx => hc hx.2)
  constructor
  · intro hn
    obtain ⟨m, hnm, -⟩ := TransGen.head'_iff.1 hn
    exact hway n hn (hsource n m hnm)
  · exact TransGen.mono h.refers _ _

end Tree
end Stencil
