/-
# The order of events

The events of an expansion are nested like brackets. A variable that is not in
the cache makes a miss and, right after it, a lookup; what its value refers to
comes next, one level deeper; and if the value was expanded there is an event at
the end that says so. All else is a single event.

Key definitions: `Spells`, `FollowedAt`, `OpenedAt`.
Key theorems: `Spells.at_depth`, `Spells.miss_followed`, `Spells.nested_opened`.
-/
import Stencil.Trace

namespace Stencil

namespace Event

/-- The event is at a depth within the bound, and no detail but the depth itself is told as that. -/
structure At (bound depth : Int) (e : Event) : Prop where
  depth_eq : e.depth = depth
  le_bound : depth ≤ bound
  untold : "depth" ∉ e.details.map Prod.fst

/-- The last detail says that the value of a variable has references. -/
def IsRecursive (e : Event) : Prop := e.details.getLast? = some ("recursive", .bool true)

end Event

/-- The events of segments that are expanded at a depth. -/
inductive Spells (bound : Int) : Int → List Event → Prop where
  | nil {depth : Int} : Spells bound depth []
  | append {depth : Int} {es fs : List Event} (h : Spells bound depth es)
      (h' : Spells bound depth fs) : Spells bound depth (es ++ fs)
  /-- A variable that is not asked of the cache or found in it, or a call. -/
  | single {depth : Int} {e : Event} (hm : e.kind ≠ .miss) (hn : e.kind ≠ .nested)
      (h : e.At bound depth) : Spells bound depth [e]
  /-- A variable that is not in the cache, and what its value does. -/
  | opened {depth : Int} {m e : Event} {es : List Event} {n? : Option Event}
      (hm : m.kind = .miss) (he : e.kind = .lookup) (hname : e.name = m.name)
      (hmd : m.At bound depth) (hed : e.At bound depth) (h : Spells bound (depth + 1) es)
      (hn : ∀ n ∈ n?, n.kind = .nested ∧ n.name = e.name ∧ n.At bound depth ∧ e.IsRecursive) :
      Spells bound depth (m :: e :: (es ++ n?.toList))

/-- What comes right after place `i` is the lookup that a miss `m` announces. -/
def FollowedAt (es : List Event) (i : Nat) (m : Event) : Prop :=
  ∃ e, es[i + 1]? = some e ∧ e.kind = .lookup ∧ e.name = m.name ∧ e.depth = m.depth

/-- Before place `i` is the lookup whose value `n` ends, and all in between is deeper. -/
def OpenedAt (es : List Event) (i : Nat) (n : Event) : Prop :=
  ∃ j e, j < i ∧ es[j]? = some e ∧ e.kind = .lookup ∧ e.name = n.name ∧ e.depth = n.depth ∧
    e.IsRecursive ∧ ∀ k x, j < k → k < i → es[k]? = some x → n.depth < x.depth

section Places

variable {es : List Event} {i : Nat} {m n : Event}

theorem FollowedAt.append (h : FollowedAt es i m) (fs : List Event) : FollowedAt (es ++ fs) i m := by
  obtain ⟨e, he, hrest⟩ := h
  have hlt := (List.getElem?_eq_some_iff.1 he).1
  exact ⟨e, by rw [List.getElem?_append_left hlt, he], hrest⟩

theorem FollowedAt.shift (h : FollowedAt es i m) (fs : List Event) :
    FollowedAt (fs ++ es) (fs.length + i) m := by
  obtain ⟨e, he, hrest⟩ := h
  refine ⟨e, ?_, hrest⟩
  rw [List.getElem?_append_right (by omega), ← he]
  congr 1
  omega

theorem OpenedAt.append (h : OpenedAt es i n) (hi : i < es.length) (fs : List Event) :
    OpenedAt (es ++ fs) i n := by
  obtain ⟨j, e, hj, he, hk, hname, hdepth, hrec, hdeep⟩ := h
  refine ⟨j, e, hj, ?_, hk, hname, hdepth, hrec, fun k x hjk hki hx => hdeep k x hjk hki ?_⟩
  · rw [List.getElem?_append_left (by omega), he]
  · rwa [List.getElem?_append_left (by omega)] at hx

theorem OpenedAt.shift (h : OpenedAt es i n) (fs : List Event) :
    OpenedAt (fs ++ es) (fs.length + i) n := by
  obtain ⟨j, e, hj, he, hk, hname, hdepth, hrec, hdeep⟩ := h
  refine ⟨fs.length + j, e, by omega, ?_, hk, hname, hdepth, hrec, fun k x hjk hki hx =>
    hdeep (k - fs.length) x (by omega) (by omega) ?_⟩
  · rw [List.getElem?_append_right (by omega), Nat.add_sub_cancel_left, he]
  · rwa [List.getElem?_append_right (by omega)] at hx

end Places

namespace Spells

variable {bound depth : Int} {es fs : List Event}

/-- No event is above the depth of the segments, and none is below the bound. -/
theorem at_depth (h : Spells bound depth es) {x : Event} (hx : x ∈ es) :
    ∃ d, depth ≤ d ∧ x.At bound d := by
  induction h with
  | nil => cases hx
  | append _ _ ih ih' =>
    rcases List.mem_append.1 hx with hx | hx
    · exact ih hx
    · exact ih' hx
  | single _ _ h =>
    obtain rfl := List.mem_singleton.1 hx
    exact ⟨_, Int.le_refl _, h⟩
  | opened _ _ _ hmd hed _ hn ih =>
    rcases List.mem_cons.1 hx with rfl | hx
    · exact ⟨_, Int.le_refl _, hmd⟩
    rcases List.mem_cons.1 hx with rfl | hx
    · exact ⟨_, Int.le_refl _, hed⟩
    rcases List.mem_append.1 hx with hx | hx
    · obtain ⟨d, hd, hat⟩ := ih hx
      exact ⟨d, by omega, hat⟩
    · exact ⟨_, Int.le_refl _, (hn x (Option.mem_toList.1 hx)).2.2.1⟩

/-- **A miss is followed at once by a lookup of its name.** -/
theorem miss_followed (h : Spells bound depth es) {i : Nat} {m : Event} (hi : es[i]? = some m)
    (hm : m.kind = .miss) : FollowedAt es i m := by
  induction h generalizing i with
  | nil => cases hi
  | @append _ es fs _ _ ih ih' =>
    rcases Nat.lt_or_ge i es.length with hlt | hge
    · rw [List.getElem?_append_left hlt] at hi
      exact (ih hi).append fs
    · rw [List.getElem?_append_right hge] at hi
      simpa [hge] using (ih' hi).shift es
  | single hne _ _ =>
    obtain rfl := List.mem_singleton.1 (List.mem_of_getElem? hi)
    exact absurd hm hne
  | @opened _ m' e es n? _ he hname hmd hed _ hn ih =>
    match i, hi with
    | 0, hi =>
      obtain rfl := Option.some.inj hi
      exact ⟨e, rfl, he, hname, hed.depth_eq.trans hmd.depth_eq.symm⟩
    | 1, hi =>
      obtain rfl := Option.some.inj hi
      rw [he] at hm
      cases hm
    | i + 2, hi =>
      rw [List.getElem?_cons_succ, List.getElem?_cons_succ] at hi
      rcases Nat.lt_or_ge i es.length with hlt | hge
      · rw [List.getElem?_append_left hlt] at hi
        rw [Nat.add_comm]
        exact ((ih hi).append n?.toList).shift [m', e]
      · rw [List.getElem?_append_right hge] at hi
        rw [(hn m (Option.mem_toList.1 (List.mem_of_getElem? hi))).1] at hm
        cases hm

/-- **What ends the expansion of a value has the lookup before it that began it, and only deeper
events in between.** -/
theorem nested_opened (h : Spells bound depth es) {i : Nat} {n : Event} (hi : es[i]? = some n)
    (hn : n.kind = .nested) : OpenedAt es i n := by
  induction h generalizing i with
  | nil => cases hi
  | @append _ es fs _ _ ih ih' =>
    rcases Nat.lt_or_ge i es.length with hlt | hge
    · rw [List.getElem?_append_left hlt] at hi
      exact (ih hi).append hlt fs
    · rw [List.getElem?_append_right hge] at hi
      simpa [hge] using (ih' hi).shift es
  | single _ hne _ =>
    obtain rfl := List.mem_singleton.1 (List.mem_of_getElem? hi)
    exact absurd hn hne
  | @opened depth m e es n? hm he hname hmd hed hes hnest ih =>
    match i, hi with
    | 0, hi =>
      obtain rfl := Option.some.inj hi
      rw [hm] at hn
      cases hn
    | 1, hi =>
      obtain rfl := Option.some.inj hi
      rw [he] at hn
      cases hn
    | i + 2, hi =>
      rw [List.getElem?_cons_succ, List.getElem?_cons_succ] at hi
      rcases Nat.lt_or_ge i es.length with hlt | hge
      · rw [List.getElem?_append_left hlt] at hi
        rw [Nat.add_comm]
        exact ((ih hi).append hlt n?.toList).shift [m, e]
      · -- the event at the end: the lookup is that of this very variable
        rw [List.getElem?_append_right hge] at hi
        obtain ⟨-, hnn, hnd, hrec⟩ := hnest n (Option.mem_toList.1 (List.mem_of_getElem? hi))
        have hlast : i = es.length := by
          have hlen := (List.getElem?_eq_some_iff.1 hi).1
          have : n?.toList.length ≤ 1 := by cases n? <;> simp
          omega
        refine ⟨1, e, by omega, rfl, he, hnn.symm, hed.depth_eq.trans hnd.depth_eq.symm, hrec,
          fun k y hjk hki hy => ?_⟩
        obtain ⟨k, rfl⟩ : ∃ k', k = k' + 2 := ⟨k - 2, by omega⟩
        rw [List.getElem?_cons_succ, List.getElem?_cons_succ,
          List.getElem?_append_left (by omega)] at hy
        obtain ⟨d, hd, hat⟩ := hes.at_depth (List.mem_of_getElem? hy)
        rw [hat.depth_eq, hnd.depth_eq]
        omega

end Spells
end Stencil
