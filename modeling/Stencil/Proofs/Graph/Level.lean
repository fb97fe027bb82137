/-
# A search for a cycle goes level by level

The paths that wait in the queue of a search, each a name with those over which
it was reached, are all of one length, or the later ones are longer by one
(`Level`). When those of one length are used up, every name to which so many
references lead has been searched (`Level.turn`). So the first path that closes
a cycle is as short as any way back to the source (`firstCycle_length_le`), and
what the search finds is a shortest cycle (`shortestCycle_isShortest`).

Key definitions: `Away`, `Level`, `IsShortest`.
Key theorems: `Level.turn`, `Level.step`, `firstCycle_length_le`,
`shortestCycle_length_le`, `shortestCycle_isShortest`.
-/
import Stencil.Proofs.Graph.Shortest

namespace Stencil
namespace Graph

/-! ### Ways of a length -/

/-- A way of `n` references leads from the source to a name, and from the first step on it keeps to
the members. -/
inductive Away (successors : String → List String) (source : String) (members : List String) :
    Nat → String → Prop where
  | start : Away successors source members 0 source
  | next {n : Nat} {x y : String} (h : Away successors source members n x)
    (hy : y ∈ successors x) (hm : y ∈ members) : Away successors source members (n + 1) y

section Level

variable {successors : String → List String} {source : String} {members : List String}

/-- A chain of members goes on a way. -/
theorem Away.along {n : Nat} {x y : String} {l : List String}
    (h : Away successors source members n x) (hc : (x :: (l ++ [y])).IsChain (Follows successors))
    (hm : ∀ z ∈ l, z ∈ members) :
    ∃ z, Away successors source members (n + l.length) z ∧ y ∈ successors z := by
  induction l generalizing n x with
  | nil => exact ⟨x, h, List.isChain_pair.1 hc⟩
  | cons b l ih =>
    obtain ⟨hb, hc⟩ := List.isChain_cons_cons.1 hc
    obtain ⟨z, hz, hy⟩ := ih (h.next hb (hm b List.mem_cons_self)) hc
      fun z hz => hm z (List.mem_cons_of_mem _ hz)
    refine ⟨z, ?_, hy⟩
    rwa [List.length_cons, ← Nat.add_assoc, Nat.add_right_comm]

/-- A cycle of members through the source is a way back to it. -/
theorem IsCycle.away {cycle : List String} (h : IsCycle (Follows successors) cycle)
    (hs : source ∈ cycle) (hm : ∀ x ∈ cycle, x ∈ members) :
    ∃ n x, n + 1 = cycle.length ∧ Away successors source members n x ∧
      source ∈ successors x := by
  obtain ⟨rest, hr, hc⟩ := h.around hs
  obtain ⟨x, hx, hsx⟩ := Away.start.along hc fun z hz =>
    hm z (hr.mem_iff.1 (List.mem_cons_of_mem _ hz))
  rw [Nat.zero_add] at hx
  exact ⟨rest.length, x, hr.perm.length_eq, hx, hsx⟩

/-! ### Levels -/

/-- How far a search has got: the ways of up to `n` references lead to names that have been
reached, and those of fewer to names that have been searched. The paths in `near` are of `n`
references and wait before those in `far`, which lead one reference further. -/
structure Level (successors : String → List String) (source : String) (members : List String)
    (n : Nat) (fresh : List String) (near far : List (List String)) : Prop where
  nodup : fresh.Nodup
  near_length : ∀ p ∈ near, p.length = n + 1
  far_length : ∀ p ∈ far, p.length = n + 2
  beyond : ∀ p ∈ far, ∀ k ≤ n, ¬ Away successors source members k (p.headD source)
  reached : ∀ k ≤ n, ∀ x, Away successors source members k x →
    x = source ∨ x ∈ members ∧ x ∉ fresh
  searched : ∀ k < n, ∀ x, Away successors source members k x →
    Searched successors source members fresh x
  tended : Tended successors source members fresh (near ++ far)

theorem level_start (hn : members.Nodup) :
    Level successors source members 0 members [[source]] [] where
  nodup := hn
  near_length := by simp
  far_length := by simp
  beyond := by simp
  reached := by
    intro k hk x hx
    obtain rfl := Nat.le_zero.1 hk
    cases hx
    exact .inl rfl
  searched := by simp
  tended := tended_start members

variable {n : Nat} {fresh path : List String} {near far q : List (List String)}

/-- A name within reach waits to be searched, or has been. -/
theorem Level.waits (h : Level successors source members n fresh near far) {k : Nat} (hk : k ≤ n)
    {x : String} (hx : Away successors source members k x) :
    (∃ p ∈ near, p.headD source = x) ∨ Searched successors source members fresh x := by
  rcases h.tended x (h.reached k hk x hx) with ⟨p, hp, rfl⟩ | hs
  · rcases List.mem_append.1 hp with hp | hp
    · exact .inl ⟨p, hp, rfl⟩
    · exact absurd hx (h.beyond p hp k hk)
  · exact .inr hs

/-- When no path of the level waits any more, the next level begins. -/
theorem Level.turn (h : Level successors source members n fresh [] far) :
    Level successors source members (n + 1) fresh far [] := by
  -- nothing within reach waits, so what it refers to has been reached in its turn
  have hs : ∀ k < n + 1, ∀ x, Away successors source members k x →
      Searched successors source members fresh x :=
    fun k hk x hx => (h.waits (Nat.le_of_lt_succ hk) hx).resolve_left (by simp)
  refine ⟨h.nodup, h.far_length, by simp, by simp, fun k hk x hx => ?_, hs, ?_⟩
  · cases hx with
    | start => exact .inl rfl
    | @next j y _ hy hxy hm => exact .inr ⟨hm, (hs j hk y hy x hxy).2 hm⟩
  · rw [List.append_nil]
    exact h.tended

/-- The path at the front of the queue is one of the level, or of the next one. -/
theorem Level.front (h : Level successors source members n fresh near far)
    (hq : near ++ far = path :: q) :
    ∃ m near' far', Level successors source members m fresh (path :: near') far' ∧
      q = near' ++ far' := by
  cases near with
  | nil =>
    obtain rfl : far = path :: q := hq
    exact ⟨n + 1, q, [], h.turn, (List.append_nil q).symm⟩
  | cons p near =>
    obtain ⟨rfl, rfl⟩ := List.cons.inj hq
    exact ⟨n, near, far, h, rfl⟩

/-- Lengthening a path that closes no cycle stays on the level. -/
theorem Level.step {rest : List String} {paths : List (List String)}
    (h : Level successors source members n fresh (path :: near) far)
    (hp : lengthen source path (successors (path.headD source)) fresh = .ok (paths, rest)) :
    Level successors source members n rest near (far ++ paths) := by
  have hl := lengthen_ok h.nodup hp
  have hsub := hl.sublist.subset
  refine ⟨h.nodup.sublist hl.sublist, fun p hp => h.near_length p (List.mem_cons_of_mem _ hp),
    fun p hp => ?_, fun p hp k hk hx => ?_, fun k hk x hx => ?_,
    fun k hk x hx => (h.searched k hk x hx).mono hsub, ?_⟩
  · rcases List.mem_append.1 hp with hp | hp
    · exact h.far_length p hp
    · obtain ⟨c, -, -, rfl⟩ := hl.made p hp
      rw [List.length_cons, h.near_length path List.mem_cons_self]
  · rcases List.mem_append.1 hp with hp | hp
    · exact h.beyond p hp k hk hx
    · -- the end of a new path was fresh, and no name within reach is
      obtain ⟨c, hc, hcf, rfl⟩ := hl.made p hp
      rcases h.reached k hk c hx with hcs | ⟨-, hnf⟩
      · exact (hl.done c hc).1 hcs
      · exact hnf hcf
  · exact (h.reached k hk x hx).imp_right fun hf => ⟨hf.1, fun hr => hf.2 (hsub hr)⟩
  · rw [← List.append_assoc]
    exact h.tended.step hl

/-- **What a search finds is no longer than any way back to the source.** -/
theorem firstCycle_length_le {m : Nat} {x : String}
    (h : Level successors source members n fresh near far) (hq : near ++ far = q)
    (hx : Away successors source members m x) (hs : source ∈ successors x) :
    (firstCycle successors source fresh q).length ≤ m + 1 := by
  fun_induction firstCycle successors source fresh q generalizing n near far with
  | case1 => simp
  | case2 fresh path q cycle hl =>
    obtain ⟨-, rfl⟩ := lengthen_error hl
    obtain ⟨k, near', far', hk, -⟩ := h.front hq
    -- a name nearer than the level has been searched, so it does not refer to the source
    have hkm : k ≤ m := by
      by_contra hlt
      exact (hk.searched m (Nat.lt_of_not_le hlt) x hx source hs).1 rfl
    rw [List.length_reverse, hk.near_length path List.mem_cons_self]
    exact Nat.succ_le_succ hkm
  | case3 fresh path q paths rest hl ih =>
    obtain ⟨k, near', far', hk, rfl⟩ := h.front hq
    exact ih (hk.step hl) (List.append_assoc near' far' paths).symm

/-- No cycle of members through the source is shorter than the one that is found. -/
theorem shortestCycle_length_le (hn : members.Nodup) {cycle : List String}
    (h : IsCycle (Follows successors) cycle) (hs : source ∈ cycle)
    (hm : ∀ x ∈ cycle, x ∈ members) :
    (shortestCycle successors source members).length ≤ cycle.length := by
  obtain ⟨m, x, hlen, hx, hsx⟩ := h.away hs hm
  rw [← hlen]
  exact firstCycle_length_le (level_start hn) rfl hx hsx

end Level

/-! ### Shortest cycles -/

/-- A cycle through a name such that none through it is shorter. -/
structure IsShortest (R : String → String → Prop) (source : String) (cycle : List String) :
    Prop where
  isCycle : IsCycle R cycle
  through : source ∈ cycle
  le : ∀ other, IsCycle R other → source ∈ other → cycle.length ≤ other.length

/-- Where there is a cycle through a name, there is a shortest one. -/
theorem IsCycle.exists_isShortest {R : String → String → Prop} {source : String}
    {cycle : List String} (h : IsCycle R cycle) (hs : source ∈ cycle) :
    ∃ shortest, IsShortest R source shortest := by
  obtain ⟨c, ⟨hc, hsc⟩, hmin⟩ := (measure List.length).wf.has_min
    {c | IsCycle R c ∧ source ∈ c} ⟨cycle, h, hs⟩
  exact ⟨c, hc, hsc, fun other ho hso => Nat.le_of_not_lt (hmin other ⟨ho, hso⟩)⟩

/-- The steps of a cycle of members lead to members. -/
theorem IsCycle.within {R : String → String → Prop} {cycle members : List String}
    (h : IsCycle R cycle) (hm : ∀ x ∈ cycle, x ∈ members) :
    IsCycle (fun a b => R a b ∧ b ∈ members) cycle :=
  ⟨h.ne_nil, h.nodup, h.chain.imp_of_mem_imp fun _ b _ hb hab => ⟨hab, hm b hb⟩,
    fun a ha b hb => ⟨h.closes a ha b hb, hm b (List.mem_of_mem_head? hb)⟩⟩

/-- **The search finds a shortest cycle.** Whatever the references are, let the members hold all
names on the shortest cycles through a name. The search, which always ends, finds nothing just when
no cycle through the name lies within the members. What it finds otherwise is a cycle that starts
with the name, and no cycle through the name is shorter. -/
theorem shortestCycle_isShortest {successors : String → List String} {source : String}
    {members : List String} (hn : members.Nodup)
    (hm : ∀ cycle, IsShortest (Follows successors) source cycle → ∀ x ∈ cycle, x ∈ members) :
    (shortestCycle successors source members = [] ↔
      ¬ ∃ cycle, IsCycle (Follows successors) cycle ∧ source ∈ cycle ∧ ∀ x ∈ cycle, x ∈ members) ∧
    (shortestCycle successors source members ≠ [] →
      IsShortest (Follows successors) source (shortestCycle successors source members) ∧
      (shortestCycle successors source members).head? = some source) := by
  refine ⟨⟨?_, fun hno => ?_⟩, fun hne => ?_⟩
  · rintro hnil ⟨cycle, hc, hs, hin⟩
    exact shortestCycle_ne_nil hn ((hc.within hin).transGen hs) hnil
  · by_contra hne
    obtain ⟨hc, hs⟩ := shortestCycle_isCycle hn hne
    obtain ⟨shortest, h⟩ := hc.exists_isShortest hs
    exact hno ⟨shortest, h.isCycle, h.through, hm shortest h⟩
  · obtain ⟨hc, hhead⟩ := shortestCycle_starts hn hne
    have hs := List.mem_of_head? hhead
    refine ⟨⟨hc, hs, fun other ho hso => ?_⟩, hhead⟩
    -- a shortest cycle lies within the members, where the search finds none that is shorter
    obtain ⟨shortest, h⟩ := hc.exists_isShortest hs
    calc (shortestCycle successors source members).length
        ≤ shortest.length := shortestCycle_length_le hn h.isCycle h.through (hm shortest h)
      _ ≤ other.length := h.le other ho hso

/-- The longer way round comes first among the references, and one of them leads out of the
members. -/
theorem shortestCycle_two_ways :
    let successors := lookIn [("a", ["b", "c"]), ("b", ["d"]), ("c", ["c", "e", "a"]), ("d", ["a"])]
    let members := ["a", "b", "c", "d"]
    members.Nodup ∧
    (∀ cycle, IsShortest (Follows successors) "a" cycle → ∀ x ∈ cycle, x ∈ members) ∧
    shortestCycle successors "a" members = ["a", "c"] ∧
    IsShortest (Follows successors) "a" ["a", "c"] := by
  intro successors members
  have hn : members.Nodup := by decide
  have hm : ∀ cycle, IsShortest (Follows successors) "a" cycle → ∀ x ∈ cycle, x ∈ members := by
    intro cycle h x hx
    obtain ⟨y, hy, -⟩ := Relation.TransGen.head'_iff.1 (h.isCycle.transGen hx)
    by_contra hxm
    simp only [members, List.mem_cons, List.not_mem_nil, not_or] at hxm
    obtain ⟨ha, hb, hc, hd, -⟩ := hxm
    have hnil : successors x = [] := by
      simp [successors, lookIn, Ne.symm ha, Ne.symm hb, Ne.symm hc, Ne.symm hd]
    rw [Follows, hnil] at hy
    exact List.not_mem_nil hy
  have hfound : shortestCycle successors "a" members = ["a", "c"] := by cbv
  have h := (shortestCycle_isShortest hn hm).2 (by rw [hfound]; simp)
  rw [hfound] at h
  exact ⟨hn, hm, hfound, h.1⟩

end Graph
end Stencil
