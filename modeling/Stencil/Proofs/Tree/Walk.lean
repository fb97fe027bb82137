/-
# Walks meet cycles

A name on the path to a line refers to the line's name, so a line whose name
lies on its own path is about a cycle (`mem_lines_circular`). Conversely, where
no line is such, every name is settled once all that waited below it is: nothing
refers on from it without end (`lines_settle`). So a walk has a circular line just
where a cycle is reached from the roots (`walk_circular_iff`).

Key definitions: `Settled`, `Nested`, `Owed`.
Key theorems: `mem_lines_circular`, `lines_settle`, `walk_circular_iff`.
-/
import Stencil.Proofs.Graph.Edge
import Stencil.Tree.Walk

namespace Stencil
namespace Tree

open Relation

variable {t : Tree} {fresh : List String} {stack : List Waiting} {name : String}
  {path : List String} {rest : List Waiting}

theorem mem_waitingBelow {w : Waiting} :
    w ∈ t.waitingBelow name path ↔ t.graph.Edge name w.1 ∧ w.2 = name :: path := by
  obtain ⟨c, p⟩ := w
  simp only [waitingBelow, children, List.mem_map, Graph.mem_successors, Prod.mk.injEq]
  constructor
  · rintro ⟨d, hd, rfl, rfl⟩
    exact ⟨hd, rfl⟩
  · rintro ⟨hc, rfl⟩
    exact ⟨c, hc, rfl, rfl⟩

/-! ### Circular lines -/

/-- Every name on the path to a waiting one refers to it, directly or through others. -/
def Leads (t : Tree) (stack : List Waiting) : Prop :=
  ∀ w ∈ stack, ∀ m ∈ w.2, TransGen t.graph.Edge m w.1

theorem Leads.below (h : t.Leads ((name, path) :: rest)) :
    t.Leads (t.waitingBelow name path ++ rest) := by
  intro w hw m hm
  rcases List.mem_append.1 hw with hw | hw
  · obtain ⟨hedge, hpath⟩ := mem_waitingBelow.1 hw
    rw [hpath] at hm
    rcases List.mem_cons.1 hm with rfl | hm
    · exact .single hedge
    · exact (h (name, path) List.mem_cons_self m hm).tail hedge
  · exact h w (List.mem_cons_of_mem _ hw) m hm

/-- A circular line is about a name on a cycle. -/
theorem mem_lines_circular (h : t.Leads stack) :
    ∀ line ∈ t.lines fresh stack, line.mark = .circular →
      TransGen t.graph.Edge line.name line.name := by
  fun_induction lines t fresh stack with
  | case1 => exact fun line hl => absurd hl List.not_mem_nil
  | case2 fresh name path rest hp ih =>
    intro line hl hm
    rcases List.mem_cons.1 hl with rfl | hl
    · exact h _ List.mem_cons_self name (List.contains_iff_mem.1 hp)
    · exact ih (fun w hw => h w (List.mem_cons_of_mem _ hw)) line hl hm
  | case3 fresh name path rest hp hf ih =>
    intro line hl hm
    rcases List.mem_cons.1 hl with rfl | hl
    · cases hm
    · exact ih h.below line hl hm
  | case4 fresh name path rest hp hf ih =>
    intro line hl hm
    rcases List.mem_cons.1 hl with rfl | hl
    · cases hm
    · exact ih (fun w hw => h w (List.mem_cons_of_mem _ hw)) line hl hm

/-! ### Walks without circular lines -/

/-- References from a name on do not go on for ever. -/
def Settled (t : Tree) (name : String) : Prop := Acc (fun b a => t.graph.Edge a b) name

theorem Settled.reach {a b : String} (h : t.Settled a) (hab : ReflTransGen t.graph.Edge a b) :
    t.Settled b := by
  induction hab with
  | refl => exact h
  | tail _ hbc ih => exact ih.inv hbc

/-- A settled name lies on no cycle. -/
theorem Settled.not_cycle {a : String} (h : t.Settled a) : ¬ TransGen t.graph.Edge a a := by
  induction h with
  | intro a _ ih =>
    intro hc
    obtain ⟨b, hab, hba⟩ := TransGen.head'_iff.1 hc
    exact ih b hab (TransGen.tail' hba hab)

/-- The names on the paths below the top of the stack lie on the path of the top. -/
def Nested : List Waiting → Prop
  | [] => True
  | (_, path) :: rest => (∀ w ∈ rest, w.2 ⊆ path) ∧ Nested rest

theorem nested_append (below : List Waiting) {path : List String} (hb : ∀ w ∈ below, w.2 = path)
    (hr : Nested rest) (hp : ∀ w ∈ rest, w.2 ⊆ path) : Nested (below ++ rest) := by
  induction below with
  | nil => exact hr
  | cons w below ih =>
    have hw := hb w List.mem_cons_self
    have hbelow : ∀ v ∈ below, v.2 = path := fun v hv => hb v (List.mem_cons_of_mem _ hv)
    refine ⟨fun v hv => ?_, ih hbelow⟩
    rw [hw]
    rcases List.mem_append.1 hv with hv | hv
    · exact fun m hm => hbelow v hv ▸ hm
    · exact hp v hv

theorem Nested.below (h : Nested ((name, path) :: rest)) :
    Nested (t.waitingBelow name path ++ rest) :=
  nested_append _ (fun _ hw => (mem_waitingBelow.1 hw).2) h.2
    fun w hw => List.subset_cons_of_subset _ (h.1 w hw)

/-- A name that has been opened is settled once all names are that wait with it on their paths. -/
def Owed (t : Tree) (fresh : List String) (stack : List Waiting) : Prop :=
  ∀ x, x ∉ fresh → (∀ w ∈ stack, x ∈ w.2 → t.Settled w.1) → t.Settled x

/-- A name met again that is not on its path is settled. -/
theorem Owed.again (h : t.Owed fresh ((name, path) :: rest)) (hn : Nested ((name, path) :: rest))
    (hf : name ∉ fresh) (hp : name ∉ path) : t.Settled name := by
  refine h name hf fun w hw hm => ?_
  rcases List.mem_cons.1 hw with rfl | hw
  · exact absurd hm hp
  · exact absurd (hn.1 w hw hm) hp

/-- A settled name need not wait. -/
theorem Owed.pop (h : t.Owed fresh ((name, path) :: rest)) (hs : t.Settled name) :
    t.Owed fresh rest := by
  refine fun x hx hall => h x hx fun w hw hm => ?_
  rcases List.mem_cons.1 hw with rfl | hw
  · exact hs
  · exact hall w hw hm

theorem settled_of_below (path : List String)
    (h : ∀ w ∈ t.waitingBelow name path, t.Settled w.1) : t.Settled name :=
  .intro name fun c hc => h (c, name :: path) (mem_waitingBelow.2 ⟨hc, rfl⟩)

/-- A name that is opened is owed its children. -/
theorem Owed.open (h : t.Owed fresh ((name, path) :: rest)) :
    t.Owed (fresh.erase name) (t.waitingBelow name path ++ rest) := by
  intro x hx hall
  have hbelow : x = name ∨ x ∈ path → t.Settled name := by
    intro hxp
    refine settled_of_below path fun w hw => hall w (List.mem_append_left _ hw) ?_
    rw [(mem_waitingBelow.1 hw).2]
    exact List.mem_cons.2 hxp
  by_cases hxn : x = name
  · exact hxn ▸ hbelow (.inl hxn)
  refine h x (fun hm => hx ((List.mem_erase_of_ne hxn).2 hm)) fun w hw hm => ?_
  rcases List.mem_cons.1 hw with rfl | hw
  · exact hbelow (.inr hm)
  · exact hall w (List.mem_append_right _ hw) hm

/-- **Where no line is circular, all that waited is settled.** -/
theorem lines_settle (hn : Nested stack) (ho : t.Owed fresh stack)
    (hc : ∀ line ∈ t.lines fresh stack, line.mark ≠ .circular) :
    ∀ w ∈ stack, t.Settled w.1 := by
  fun_induction lines t fresh stack with
  | case1 => exact fun w hw => absurd hw List.not_mem_nil
  | case2 fresh name path rest hp ih => exact absurd rfl (hc _ List.mem_cons_self)
  | case3 fresh name path rest hp hf ih =>
    have hrest := ih hn.below ho.open fun line hl => hc line (List.mem_cons_of_mem _ hl)
    intro w hw
    rcases List.mem_cons.1 hw with rfl | hw
    · exact settled_of_below path fun v hv => hrest v (List.mem_append_left _ hv)
    · exact hrest w (List.mem_append_right _ hw)
  | case4 fresh name path rest hp hf ih =>
    have hs : t.Settled name := ho.again hn (fun hm => hf (List.contains_iff_mem.2 hm))
      fun hm => hp (List.contains_iff_mem.2 hm)
    have hrest := ih hn.2 (ho.pop hs) fun line hl => hc line (List.mem_cons_of_mem _ hl)
    intro w hw
    rcases List.mem_cons.1 hw with rfl | hw
    · exact hs
    · exact hrest w hw

/-! ### The walk of a tree -/

/-- A circular line of the walk is about a name on a cycle. -/
theorem walk_circular : ∀ line ∈ t.walk, line.mark = .circular →
    TransGen t.graph.Edge line.name line.name := by
  refine mem_lines_circular fun w hw m hm => ?_
  obtain ⟨r, -, rfl⟩ := List.mem_map.1 hw
  exact absurd hm List.not_mem_nil

theorem lines_names (line : Line) (h : line ∈ t.lines fresh stack) :
    ∃ w ∈ stack, ReflTransGen t.graph.Edge w.1 line.name := by
  fun_induction lines t fresh stack with
  | case1 => exact absurd h List.not_mem_nil
  | case2 fresh name path rest hp ih =>
    rcases List.mem_cons.1 h with rfl | h
    · exact ⟨_, List.mem_cons_self, .refl⟩
    · obtain ⟨w, hw, hr⟩ := ih h
      exact ⟨w, List.mem_cons_of_mem _ hw, hr⟩
  | case3 fresh name path rest hp hf ih =>
    rcases List.mem_cons.1 h with rfl | h
    · exact ⟨_, List.mem_cons_self, .refl⟩
    obtain ⟨w, hw, hr⟩ := ih h
    rcases List.mem_append.1 hw with hw | hw
    · exact ⟨_, List.mem_cons_self, .head (mem_waitingBelow.1 hw).1 hr⟩
    · exact ⟨w, List.mem_cons_of_mem _ hw, hr⟩
  | case4 fresh name path rest hp hf ih =>
    rcases List.mem_cons.1 h with rfl | h
    · exact ⟨_, List.mem_cons_self, .refl⟩
    · obtain ⟨w, hw, hr⟩ := ih h
      exact ⟨w, List.mem_cons_of_mem _ hw, hr⟩

/-- **A walk has a circular line just where a cycle is reached from the roots.** -/
theorem walk_circular_iff (h : ∀ e ∈ t.graph.edges, e.1 ∈ t.names) :
    (∃ line ∈ t.walk, line.mark = .circular) ↔
      ∃ r ∈ t.roots, ∃ n, ReflTransGen t.graph.Edge r n ∧ TransGen t.graph.Edge n n := by
  constructor
  · rintro ⟨line, hl, hm⟩
    obtain ⟨w, hw, hr⟩ := lines_names line hl
    obtain ⟨r, hroot, rfl⟩ := List.mem_map.1 hw
    exact ⟨r, hroot, line.name, hr, walk_circular line hl hm⟩
  · rintro ⟨r, hroot, n, hr, hn⟩
    by_contra hall
    have hsettled : ∀ w ∈ t.roots.map fun r => ((r, []) : Waiting), t.Settled w.1 := by
      refine lines_settle ?_ (fun x hx _ => ?_) fun line hl hm => hall ⟨line, hl, hm⟩
      · induction t.roots with
        | nil => trivial
        | cons r rs ih =>
          refine ⟨fun w hw => ?_, ih⟩
          obtain ⟨r', -, rfl⟩ := List.mem_map.1 hw
          exact List.Subset.refl _
      · -- a name without an entry refers to nothing
        exact .intro x fun b hb => absurd (h _ hb) hx
    exact ((hsettled (r, []) (List.mem_map.2 ⟨r, hroot, rfl⟩)).reach hr).not_cycle hn

end Tree
end Stencil
