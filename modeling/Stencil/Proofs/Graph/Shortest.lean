/-
# The shortest cycle through a name

What the search for a shortest cycle gives is a cycle that starts with its
source (`shortestCycle_starts`), and it gives one whenever there is one among
the names that it may use (`shortestCycle_ne_nil`). The paths in the queue are
ways from the source to different names; a name that has been reached is either
the end of a path in the queue, or everything it refers to has been reached
(`Tended`).

Key definitions: `Way`, `Lengthened`, `Searched`, `Tended`.
Key theorems: `IsCycle.around`, `shortestCycle_starts`, `shortestCycle_isCycle`,
`shortestCycle_ne_nil`.
-/
import Mathlib.Data.List.Cycle
import Stencil.Graph.Cycle
import Stencil.Proofs.Graph.Search

namespace Stencil
namespace Graph

/-! ### Round a cycle -/

theorem IsCycle.round {R : String → String → Prop} {cycle : List String} (h : IsCycle R cycle) :
    Cycle.Chain R cycle := by
  obtain ⟨a, r, rfl⟩ := List.exists_cons_of_ne_nil h.ne_nil
  rw [Cycle.chain_coe_cons, ← List.cons_append]
  refine h.chain.append (List.isChain_singleton a) fun x hx y hy => ?_
  exact h.closes x hx y hy

/-- From each of its names a cycle leads round to the same name. -/
theorem IsCycle.around {R : String → String → Prop} {cycle : List String} (h : IsCycle R cycle)
    {n : String} (hn : n ∈ cycle) :
    ∃ rest, (n :: rest).IsRotated cycle ∧ (n :: (rest ++ [n])).IsChain R := by
  obtain ⟨upper, lower, rfl⟩ := List.append_of_mem hn
  have hr : (n :: (lower ++ upper)).IsRotated (upper ++ n :: lower) := by
    rw [← List.cons_append]
    exact List.isRotated_append
  refine ⟨lower ++ upper, hr, ?_⟩
  rw [← Cycle.chain_coe_cons, Cycle.coe_eq_coe.2 hr]
  exact h.round

/-- Names on a cycle reach themselves. -/
theorem IsCycle.transGen {R : String → String → Prop} {cycle : List String} (h : IsCycle R cycle)
    {n : String} (hn : n ∈ cycle) : Relation.TransGen R n n := by
  obtain ⟨rest, -, hc⟩ := h.around hn
  have hne : rest ++ [n] ≠ [] := by simp
  obtain ⟨b, l, hl⟩ := List.exists_cons_of_ne_nil hne
  rw [hl] at hc
  obtain ⟨hb, hc⟩ := List.isChain_cons_cons.1 hc
  refine .head' hb (List.relationReflTransGen_of_exists_isChain_cons l hc ?_)
  simp only [← hl, List.getLast_concat]

/-! ### Ways from the source -/

/-- A way from `source`, kept backwards. -/
structure Way (successors : String → List String) (source : String) (path : List String) :
    Prop where
  nodup : path.Nodup
  chain : path.IsChain fun upper lower => Follows successors lower upper
  starts : path.getLast? = some source

theorem Way.ne_nil {successors : String → List String} {source : String} {path : List String}
    (h : Way successors source path) : path ≠ [] := by
  rintro rfl
  exact absurd h.starts (by simp)

theorem Way.cons {successors : String → List String} {source c : String} {path : List String}
    (h : Way successors source path) (hc : c ∉ path)
    (hf : c ∈ successors (path.headD source)) : Way successors source (c :: path) := by
  obtain ⟨a, r, rfl⟩ := List.exists_cons_of_ne_nil h.ne_nil
  exact ⟨List.nodup_cons.2 ⟨hc, h.nodup⟩, h.chain.cons_cons hf, by
    rw [List.getLast?_cons_cons]; exact h.starts⟩

/-- A way back to its source is a cycle. -/
theorem Way.isCycle {successors : String → List String} {source : String} {path : List String}
    (h : Way successors source path) (hs : source ∈ successors (path.headD source)) :
    IsCycle (Follows successors) path.reverse := by
  obtain ⟨a, r, rfl⟩ := List.exists_cons_of_ne_nil h.ne_nil
  refine ⟨by simp, List.nodup_reverse.2 h.nodup, List.isChain_reverse.2 h.chain, ?_⟩
  intro x hx y hy
  rw [List.getLast?_reverse] at hx
  rw [List.head?_reverse, h.starts] at hy
  cases hx
  cases hy
  exact hs

theorem lengthen_error {source : String} {path children fresh cycle : List String}
    (h : lengthen source path children fresh = .error cycle) :
    source ∈ children ∧ cycle = path.reverse := by
  fun_induction lengthen source path children fresh with
  | case1 => cases h
  | case2 c cs fresh hc =>
    cases h
    exact ⟨by simp [beq_iff_eq.1 hc], rfl⟩
  | case3 c cs fresh _ _ _ hr ih =>
    cases h
    obtain ⟨h₁, h₂⟩ := ih hr
    exact ⟨List.mem_cons_of_mem _ h₁, h₂⟩
  | case4 => cases h
  | case5 c cs fresh _ _ ih =>
    obtain ⟨h₁, h₂⟩ := ih h
    exact ⟨List.mem_cons_of_mem _ h₁, h₂⟩

/-- What comes of a path that closes no cycle: its children are not fresh any more, and each one
that was has a path. -/
structure Lengthened (source : String) (path children fresh rest : List String)
    (paths : List (List String)) : Prop where
  sublist : rest.Sublist fresh
  done : ∀ c ∈ children, c ≠ source ∧ c ∉ rest
  made : ∀ p ∈ paths, ∃ c ∈ children, c ∈ fresh ∧ p = c :: path
  found : ∀ x ∈ fresh, x ∉ rest → x :: path ∈ paths

theorem lengthen_ok {source : String} {path children fresh rest : List String}
    {paths : List (List String)} (hn : fresh.Nodup)
    (h : lengthen source path children fresh = .ok (paths, rest)) :
    Lengthened source path children fresh rest paths := by
  fun_induction lengthen source path children fresh generalizing paths rest with
  | case1 fresh =>
    cases h
    exact ⟨List.Sublist.refl _, by simp, by simp, fun x hx hx' => absurd hx hx'⟩
  | case2 => cases h
  | case3 => cases h
  | case4 c cs fresh hcs hc paths' rest' hr ih =>
    cases h
    obtain ⟨h₁, h₂, h₃, h₄⟩ := ih (hn.erase c) hr
    have hm : c ∈ fresh := by simpa using hc
    refine ⟨h₁.trans List.erase_sublist, ?_, ?_, ?_⟩
    · intro x hx
      rcases List.mem_cons.1 hx with rfl | hx
      · exact ⟨by simpa using hcs, fun hr => (hn.mem_erase_iff.1 (h₁.subset hr)).1 rfl⟩
      · exact h₂ x hx
    · intro p hp
      rcases List.mem_cons.1 hp with rfl | hp
      · exact ⟨c, List.mem_cons_self, hm, rfl⟩
      · obtain ⟨x, hx, hxf, rfl⟩ := h₃ p hp
        exact ⟨x, List.mem_cons_of_mem _ hx, List.mem_of_mem_erase hxf, rfl⟩
    · intro x hx hx'
      by_cases hxc : x = c
      · subst hxc
        exact List.mem_cons_self
      · exact List.mem_cons_of_mem _ (h₄ x (hn.mem_erase_iff.2 ⟨hxc, hx⟩) hx')
  | case5 c cs fresh hcs hc ih =>
    obtain ⟨h₁, h₂, h₃, h₄⟩ := ih hn h
    have hm : c ∉ fresh := by simpa using hc
    refine ⟨h₁, ?_, ?_, h₄⟩
    · intro x hx
      rcases List.mem_cons.1 hx with rfl | hx
      · exact ⟨by simpa using hcs, fun hr => hm (h₁.subset hr)⟩
      · exact h₂ x hx
    · intro p hp
      obtain ⟨x, hx, hxf, rfl⟩ := h₃ p hp
      exact ⟨x, List.mem_cons_of_mem _ hx, hxf, rfl⟩

/-! ### The search -/

section Shortest

variable {successors : String → List String} {source : String}

/-- What the search finds is a cycle that starts with the source. -/
theorem firstCycle_isCycle {fresh : List String} {queue : List (List String)} (hn : fresh.Nodup)
    (hq : ∀ p ∈ queue, Way successors source p ∧ ∀ x ∈ p, x = source ∨ x ∉ fresh)
    (hne : firstCycle successors source fresh queue ≠ []) :
    IsCycle (Follows successors) (firstCycle successors source fresh queue) ∧
      (firstCycle successors source fresh queue).head? = some source := by
  fun_induction firstCycle successors source fresh queue with
  | case1 => exact absurd rfl hne
  | case2 fresh path q cycle h =>
    obtain ⟨hs, rfl⟩ := lengthen_error h
    obtain ⟨hw, -⟩ := hq path List.mem_cons_self
    exact ⟨hw.isCycle hs, List.head?_reverse.trans hw.starts⟩
  | case3 fresh path q paths rest h ih =>
    obtain ⟨hsub, hdone, hmade, -⟩ := lengthen_ok hn h
    obtain ⟨hw, hwf⟩ := hq path List.mem_cons_self
    refine ih (hn.sublist hsub) (fun p hp => ?_) hne
    rcases List.mem_append.1 hp with hp | hp
    · obtain ⟨h₁, h₂⟩ := hq p (List.mem_cons_of_mem _ hp)
      exact ⟨h₁, fun x hx => (h₂ x hx).imp_right fun hf hr => hf (hsub.subset hr)⟩
    · obtain ⟨c, hc, hcf, rfl⟩ := hmade p hp
      obtain ⟨hcs, hcr⟩ := hdone c hc
      have hcp : c ∉ path := fun hm => (hwf c hm).elim hcs fun hf => hf hcf
      refine ⟨hw.cons hcp hc, fun x hx => ?_⟩
      rcases List.mem_cons.1 hx with rfl | hx
      · exact .inr hcr
      · exact (hwf x hx).imp_right fun hf hr => hf (hsub.subset hr)

/-- The shortest cycle is a cycle that starts with its source. -/
theorem shortestCycle_starts {members : List String} (hn : members.Nodup)
    (hne : shortestCycle successors source members ≠ []) :
    IsCycle (Follows successors) (shortestCycle successors source members) ∧
      (shortestCycle successors source members).head? = some source := by
  refine firstCycle_isCycle hn (fun p hp => ?_) hne
  rw [List.mem_singleton.1 hp]
  exact ⟨⟨by simp, by simp, rfl⟩, fun x hx => .inl (List.mem_singleton.1 hx)⟩

/-- **The shortest cycle is a cycle through its source.** -/
theorem shortestCycle_isCycle {members : List String} (hn : members.Nodup)
    (hne : shortestCycle successors source members ≠ []) :
    IsCycle (Follows successors) (shortestCycle successors source members) ∧
      source ∈ shortestCycle successors source members :=
  (shortestCycle_starts hn hne).imp_right List.mem_of_head?

/-- All that `x` refers to among the members has been reached, and it is not the source. -/
def Searched (successors : String → List String) (source : String) (members fresh : List String)
    (x : String) : Prop :=
  ∀ c ∈ successors x, c ≠ source ∧ (c ∈ members → c ∉ fresh)

theorem Searched.mono {members fresh rest : List String} {x : String}
    (h : Searched successors source members fresh x) (hsub : rest ⊆ fresh) :
    Searched successors source members rest x :=
  fun c hc => ⟨(h c hc).1, fun hm hr => (h c hc).2 hm (hsub hr)⟩

/-- Each name that has been reached is the end of a path in the queue or has been searched. -/
def Tended (successors : String → List String) (source : String) (members fresh : List String)
    (queue : List (List String)) : Prop :=
  ∀ x, x = source ∨ x ∈ members ∧ x ∉ fresh →
    (∃ p ∈ queue, p.headD source = x) ∨ Searched successors source members fresh x

theorem tended_start (members : List String) :
    Tended successors source members members [[source]] := by
  rintro x (rfl | ⟨hm, hf⟩)
  · exact .inl ⟨[x], by simp⟩
  · exact absurd hm hf

theorem Tended.step {members fresh rest path : List String} {q paths : List (List String)}
    (h : Tended successors source members fresh (path :: q))
    (hl : Lengthened source path (successors (path.headD source)) fresh rest paths) :
    Tended successors source members rest (q ++ paths) := by
  intro x hx
  by_cases hxf : x ∈ fresh ∧ x ≠ source
  · -- reached just now, so it is the end of a new path
    have hxr : x ∉ rest := (hx.resolve_left hxf.2).2
    exact .inl ⟨_, List.mem_append_right _ (hl.found x hxf.1 hxr), rfl⟩
  have hx' : x = source ∨ x ∈ members ∧ x ∉ fresh := by
    rcases hx with hx | ⟨hm, -⟩
    · exact .inl hx
    · by_cases he : x = source
      · exact .inl he
      · exact .inr ⟨hm, fun hf => hxf ⟨hf, he⟩⟩
  rcases h x hx' with ⟨p, hp, rfl⟩ | hd
  · rcases List.mem_cons.1 hp with rfl | hp
    · -- the end of the path that leaves the queue has now been searched
      exact .inr fun c hc => ⟨(hl.done c hc).1, fun _ => (hl.done c hc).2⟩
    · exact .inl ⟨p, List.mem_append_left _ hp, rfl⟩
  · exact .inr (hd.mono hl.sublist.subset)

/-- If the search finds nothing, it has reached everything that it can. -/
theorem firstCycle_nil {members fresh : List String} {queue : List (List String)}
    (hn : fresh.Nodup) (hne : ∀ p ∈ queue, p ≠ [])
    (hs : Tended successors source members fresh queue)
    (hnil : firstCycle successors source fresh queue = []) :
    ∃ rest, ∀ x, x = source ∨ x ∈ members ∧ x ∉ rest →
      Searched successors source members rest x := by
  fun_induction firstCycle successors source fresh queue with
  | case1 fresh => exact ⟨fresh, fun x hx => (hs x hx).resolve_left (by simp)⟩
  | case2 fresh path q cycle h =>
    obtain ⟨-, rfl⟩ := lengthen_error h
    exact absurd (List.reverse_eq_nil_iff.1 hnil) (hne path List.mem_cons_self)
  | case3 fresh path q paths rest h ih =>
    have hl := lengthen_ok hn h
    refine ih (hn.sublist hl.sublist) (fun p hp => ?_) (hs.step hl) hnil
    rcases List.mem_append.1 hp with hp | hp
    · exact hne p (List.mem_cons_of_mem _ hp)
    · obtain ⟨c, -, -, rfl⟩ := hl.made p hp
      exact List.cons_ne_nil _ _

/-- **A cycle within the members is found.** -/
theorem shortestCycle_ne_nil {members : List String} (hn : members.Nodup)
    (h : Relation.TransGen (fun a b => Follows successors a b ∧ b ∈ members) source source) :
    shortestCycle successors source members ≠ [] := by
  intro hnil
  obtain ⟨rest, hr⟩ := firstCycle_nil hn (by simp) (tended_start members) hnil
  -- everything on the way is reached, so nothing on it leads back to the source
  have hall : ∀ y, Relation.TransGen (fun a b => Follows successors a b ∧ b ∈ members) source y →
      y ≠ source ∧ y ∉ rest := by
    intro y hy
    induction hy with
    | single hb =>
      obtain ⟨h₁, h₂⟩ := hr source (.inl rfl) _ hb.1
      exact ⟨h₁, h₂ hb.2⟩
    | @tail b c hab hbc ih =>
      have hb : b ∈ members := by
        cases hab with
        | single h => exact h.2
        | tail _ h => exact h.2
      obtain ⟨h₁, h₂⟩ := hr b (.inr ⟨hb, ih.2⟩) _ hbc.1
      exact ⟨h₁, h₂ hbc.2⟩
  exact (hall source h).1 rfl

end Shortest

end Graph
end Stencil
