/-
# The moves of an expansion

Whatever a cache holds and whatever functions do, an expansion goes from one
ledger to the next in few ways, each of them for a name or a call that it has
come upon: in the template, or in the value of a name that it came upon before.
What every move keeps true for such names and calls holds at the end of every
expansion, also of one that is given up.

Key definitions: `IsClosed`, `Move`, `Moves`, `Moved`.
Key theorems: `Moves.keeps`, `expandVariable_moved`, `expandTemplate_moves`.
-/
import Stencil.Proofs.Expansion.Agreement
import Stencil.Proofs.Function

namespace Stencil

open Template Context

/-- A reference comes upon a call of `K`, or upon a variable of `N`. -/
def Reference.Meets (N : String → Prop) (K : Reference → Prop) (r : Reference) : Prop :=
  if r.isCall = true then K r else N r.name

/-- Segments come upon calls of `K` and variables of `N` only. -/
def Segment.Meet (N : String → Prop) (K : Reference → Prop) (segments : List Segment) : Prop :=
  ∀ r, .reference r ∈ segments → r.Meets N K

namespace Pass

/-- The values of the names `N` come upon calls of `K` and names of `N` only. -/
def IsClosed (p : Pass) (N : String → Prop) (K : Reference → Prop) : Prop :=
  ∀ n d segments, N n → p.context.define? n = .ok (some d) → d.parsed = .ok segments →
    Segment.Meet N K segments

/-- One way for an expansion to go from a ledger to the next, for one of the names `N` or one of the
calls `K`. -/
inductive Move (p : Pass) (N : String → Prop) (K : Reference → Prop) : Ledger → Ledger → Prop where
  | shift (l : Ledger) (c : Cache) (s : Sources) : Move p N K l { l with cache := c, sources := s }
  | list (l : Ledger) (c : String × List String) (hc : c ∈ p.circular) :
      Move p N K l (l.fail c.1 (.circular c.1 c.2))
  | circular (l : Ledger) (n : String) (cycle : List String) (depth : Int) (hn : N n)
      (hc : p.cycle? n = some cycle) : Move p N K l (l.note (circularEvent n cycle depth))
  | bound (l : Ledger) (n : String) (depth : Int) (hn : N n) :
      Move p N K l (l.note (p.boundEvent n depth))
  | miss (l : Ledger) (n : String) (depth : Int) (hn : N n) :
      Move p N K l (l.note (missEvent n depth))
  | hit (l : Ledger) (n : String) (e : Cache.Entry) (b : Bool) (depth : Int) (hn : N n) :
      Move p N K l (l.note (p.hitEvent n e b depth))
  | undefined (l : Ledger) (n : String) (depth : Int) (hn : N n)
      (hd : p.context.define? n = .ok none) :
      Move p N K l ((l.note (undefinedEvent n depth)).fail n (.undefined n))
  | malformed (l : Ledger) (n : String) (d : Definition) (f : Template.Fault) (depth : Int) (hn : N n)
      (hd : p.context.define? n = .ok (some d)) (hp : d.parsed = .error f) :
      Move p N K l ((l.note (p.malformedEvent n d (.ofFault f) depth)).fail n (.ofFault f))
  | lookup (l : Ledger) (n : String) (d : Definition) (segments : List Segment) (b : Bool)
      (depth : Int) (hn : N n) (hd : p.context.define? n = .ok (some d))
      (hp : d.parsed = .ok segments) : Move p N K l (l.note (p.lookupEvent n d b depth))
  | nested (l : Ledger) (n : String) (d : Definition) (segments : List Segment) (x : Expansion)
      (depth : Int) (hn : N n) (hd : p.context.define? n = .ok (some d))
      (hp : d.parsed = .ok segments) : Move p N K l (l.note (nestedEvent n d x depth))
  | resolve (l : Ledger) (n : String) (hn : N n) : Move p N K l (l.markResolved n)
  | spoil (l : Ledger) (n : String) (hn : N n) : Move p N K l (l.markFailed n)
  | tooDeep (l : Ledger) (n : String) (inner : List String) (hn : N n) (hi : ∀ m ∈ inner, N m) :
      Move p N K l (l.fail n (.tooDeep n inner p.maxDepth))
  | called (l : Ledger) (r : Reference) (text : String) (depth : Int) (hr : K r)
      (hc : r.isCall = true) (ho : ∃ s, p.library.outcome s r = .ok text) :
      Move p N K l ((l.note (callEvent r text none depth)).markResolved r.displayName)
  | broken (l : Ledger) (r : Reference) (f : Failure) (depth : Int) (hr : K r)
      (hc : r.isCall = true) (ho : ∃ s, p.library.outcome s r = .error (.failed f)) :
      Move p N K l ((l.note (callEvent r (Marker.marker r.displayName) (some f.message)
        depth)).list r.displayName f)

/-- Moves, one after another. -/
abbrev Moves (p : Pass) (N : String → Prop) (K : Reference → Prop) : Ledger → Ledger → Prop :=
  Relation.ReflTransGen (Move p N K)

/-- An expansion that began with the ledger `l` made moves only, and it ends with an answer or for a
reason of `E`. -/
structure Moved (p : Pass) (N : String → Prop) (K : Reference → Prop) {ε : Type} (E : ε → Prop)
    (l : Ledger) (a : Except ε Expansion × Ledger) : Prop where
  moves : p.Moves N K l a.2
  error : ∀ e, a.1 = .error e → E e

end Pass

/-- The names of a chain that is too deep are names of `N`. -/
def Stop.Within (N : String → Prop) : Stop → Prop
  | .tooDeep outermost inner => ∀ m ∈ outermost :: inner, N m
  | .refused _ => True

namespace Pass

variable {p : Pass} {N : String → Prop} {K : Reference → Prop} {n : String} {l l' : Ledger}
  {segments : List Segment}

/-- What each move keeps holds after any number of them. -/
theorem Moves.keeps {P : Ledger → Prop} (hP : ∀ {l l'}, p.Move N K l l' → P l → P l')
    (h : p.Moves N K l l') (hl : P l) : P l' := by
  induction h with
  | refl => exact hl
  | tail _ hs ih => exact hP hs ih

section

variable {ε : Type} {E : ε → Prop} {depth : Int} {stop : Refusal → ε}
  {expand : String → Ledger → Except ε Expansion × Ledger}

theorem Moved.ok {x : Expansion} (h : p.Moves N K l l') :
    Moved p N K E l ((.ok x, l') : Except ε Expansion × Ledger) :=
  ⟨h, fun e he => by cases he⟩

theorem Moved.ended {e : ε} (h : p.Moves N K l l') (he : E e) :
    Moved p N K E l ((.error e, l') : Except ε Expansion × Ledger) :=
  ⟨h, fun e' he' => by cases he'; exact he⟩

theorem Moved.after {a : Except ε Expansion × Ledger} (h : p.Moves N K l l')
    (ha : Moved p N K E l' a) : Moved p N K E l a := ⟨h.trans ha.moves, ha.error⟩

/-! ### Segments -/

theorem expandCall_moves (p : Pass) (N : String → Prop) {r : Reference} (depth : Int)
    (hc : r.isCall = true) (hr : K r) (l : Ledger) : p.Moves N K l (p.expandCall depth r l).2 := by
  have hshift : ∀ s, p.Moves N K l { l with sources := s } := fun s => .single (.shift l l.cache s)
  have hgoes := expandCall_goes p depth r l
  generalize p.expandCall depth r l = a at hgoes ⊢
  cases hgoes with
  | @called text s hi =>
    have hout : p.library.outcome l.sources r = .ok text := congrArg Prod.fst hi
    exact .tail (hshift s) (.called _ r text depth hr hc ⟨_, hout⟩)
  | @failed f s hi =>
    have hout : p.library.outcome l.sources r = .error (.failed f) := congrArg Prod.fst hi
    exact .tail (hshift s) (.broken _ r f depth hr hc ⟨_, hout⟩)
  | refused => exact hshift _

theorem expandSegment_moved {s : Segment} (hs : ∀ r, s = .reference r → r.Meets N K)
    (hstop : ∀ r, E (stop r)) (he : ∀ n l, N n → Moved p N K E l (expand n l)) (l : Ledger) :
    Moved p N K E l (p.expandSegment depth stop expand s l) := by
  cases s with
  | literal => exact .ok .refl
  | reference r =>
    have hr := hs r rfl
    unfold Reference.Meets at hr
    cases hc : r.isCall with
    | false =>
      rw [expandSegment_variable hc]
      rw [hc, if_neg Bool.false_ne_true] at hr
      exact he r.name l hr
    | true =>
      rw [hc, if_pos rfl] at hr
      have hm := expandCall_moves p N depth hc hr l
      simp only [expandSegment, hc, if_true]
      rcases hx : p.expandCall depth r l with ⟨e | x, l'⟩
      · rw [hx] at hm
        exact .ended hm (hstop e)
      · rw [hx] at hm
        exact .ok hm

theorem expandAll_moved (hs : Segment.Meet N K segments) (hstop : ∀ r, E (stop r))
    (he : ∀ n l, N n → Moved p N K E l (expand n l)) (l : Ledger) :
    Moved p N K E l (p.expandAll depth stop expand segments l) := by
  induction segments generalizing l with
  | nil => exact .ok .refl
  | cons s rest ih =>
    have hseg : Moved p N K E l (p.expandSegment depth stop expand s l) :=
      expandSegment_moved (fun r hr => hs r (hr ▸ List.mem_cons_self)) hstop he l
    rcases ha : p.expandSegment depth stop expand s l with ⟨e | a, l₁⟩
    · rw [expandAll_head ha]
      rw [ha] at hseg
      exact .ended hseg.moves (hseg.error e rfl)
    · rw [ha] at hseg
      have hrest := ih (fun r hr => hs r (List.mem_cons_of_mem _ hr)) l₁
      rcases hb : p.expandAll depth stop expand rest l₁ with ⟨e | b, l₂⟩
      · rw [expandAll_tail ha hb]
        rw [hb] at hrest
        exact .ended (hseg.moves.trans hrest.moves) (hrest.error e rfl)
      · rw [expandAll_ok ha hb]
        rw [hb] at hrest
        exact .ok (hseg.moves.trans hrest.moves)

end

/-! ### Variables -/

theorem settle_moved {d : Definition} {x : Expansion} (hn : N n) (l : Ledger) :
    Moved p N K (Stop.Within N) l (p.settle n d x l) := by
  have hm : p.Moves N K l (l.markResolved n) := .single (.resolve l n hn)
  have hgoes := settle_goes p n d x l
  generalize p.settle n d x l = a at hgoes ⊢
  cases hgoes with
  | failed => exact .ok (.single (.spoil l n hn))
  | impure => exact .ok hm
  | @kept s c => exact .ok (hm.tail (.shift _ c s))
  | @refused r c => exact .ended (hm.tail (.shift _ c l.sources)) trivial

section

variable {depth : Int} {expand : String → Ledger → Except Stop Expansion × Ledger} {d : Definition}

theorem expandValue_moved (hp : p.IsClosed N K) (hn : N n)
    (hd : p.context.define? n = .ok (some d)) (hs : d.parsed = .ok segments)
    (he : ∀ n l, N n → Moved p N K (Stop.Within N) l (expand n l)) (l : Ledger) :
    Moved p N K (Stop.Within N) l (p.expandValue depth expand n d segments l) := by
  have hlook : ∀ b, p.Moves N K l (l.note (p.lookupEvent n d b depth)) :=
    fun b => .single (.lookup l n d segments b depth hn hd hs)
  cases hr : segments.any Segment.isReference with
  | false =>
    rw [expandValue_literal hr]
    exact .after (hlook false) (settle_moved hn _)
  | true =>
    have hall : Moved p N K (Stop.Within N) (l.note (p.lookupEvent n d true depth))
        (p.expandAll (depth + 1) .refused expand segments
          (l.note (p.lookupEvent n d true depth))) :=
      expandAll_moved (hp n d segments hn hd hs) (fun _ => trivial) he _
    rcases hx : p.expandAll (depth + 1) .refused expand segments
      (l.note (p.lookupEvent n d true depth)) with ⟨(⟨m, inner⟩ | r) | x, l₁⟩
    · rw [hx] at hall
      rw [expandValue_tooDeep hr hx]
      exact .ended ((hlook true).trans hall.moves)
        (List.forall_mem_cons.2 ⟨hn, hall.error _ rfl⟩)
    · rw [hx] at hall
      rw [expandValue_refused hr hx]
      exact .ended ((hlook true).trans hall.moves) trivial
    · rw [hx] at hall
      rw [expandValue_ok hr hx]
      exact .after (((hlook true).trans hall.moves).tail
        (.nested l₁ n d segments x depth hn hd hs)) (settle_moved hn _)

theorem expandDefined_moved (hp : p.IsClosed N K) (hn : N n)
    (he : ∀ n l, N n → Moved p N K (Stop.Within N) l (expand n l)) (l : Ledger) :
    Moved p N K (Stop.Within N) l (p.expandDefined depth expand n l) := by
  have hgoes := expandDefined_goes p depth expand n l
  generalize p.expandDefined depth expand n l = a at hgoes ⊢
  cases hgoes with
  | refused => exact .ended .refl trivial
  | undefined hd => exact .ok (.single (.undefined l n depth hn hd))
  | malformed hd hs => exact .ok (.single (.malformed l n _ _ depth hn hd hs))
  | value hd hs => exact expandValue_moved hp hn hd hs he l

end

theorem Moved.below {a : Except Stop Expansion × Ledger} (h : Moved p N K (Stop.Within N) l a) :
    Moved p N K (Stop.Within N) l (below a) := by
  obtain ⟨e | x, l'⟩ := a
  · exact .ended h.moves (h.error e rfl)
  · exact .ok h.moves

/-- **Expanding a variable does nothing else.** -/
theorem expandVariable_moved (hp : p.IsClosed N K) (left : Nat) (hn : N n) (l : Ledger) :
    Moved p N K (Stop.Within N) l (p.expandVariable left n l) := by
  -- on the levels allowed; what stands in the value of `n` is of `N` and `K` again
  induction left, n, l using p.expandVariable_induct with
  | circular left n l cycle hc => exact .ok (.single (.circular l n cycle _ hn hc))
  | bound n l hc => exact .ended (.single (.bound l n _ hn)) fun m hm => List.mem_singleton.1 hm ▸ hn
  | refused left n l r hc hf => exact .ended .refl trivial
  | miss left n l c s hc hf ih =>
    exact .after (.tail (.single (.shift l c s)) (.miss _ n _ hn))
      (expandDefined_moved hp hn (fun m l hm => (ih m l hm).below) _)
  | tooDeep left n l e c s hc hf hh =>
    exact .ended (.tail (.single (.shift l c s)) (.hit _ n e true _ hn))
      fun m hm => List.mem_singleton.1 hm ▸ hn
  | hit left n l e c s hc hf hh =>
    have hhit : p.Moves N K l ({ l with cache := c, sources := s }.note
        (p.hitEvent n e false (p.depthAt (left + 1)))) :=
      .tail (.single (.shift l c s)) (.hit _ n e false _ hn)
    exact .ok (hhit.tail (.resolve _ n hn))

/-! ### Templates -/

theorem expandTop_moved (hp : p.IsClosed N K) (hn : N n) (l : Ledger) :
    Moved p N K (fun _ => True) l (p.expandTop n l) := by
  have hv := expandVariable_moved hp p.maxDepth hn l
  unfold expandTop
  rcases hx : p.expandVariable p.maxDepth n l with ⟨(⟨m, inner⟩ | r) | x, l'⟩
  · obtain rfl := expandVariable_outermost (congrArg Prod.fst hx)
    rw [hx] at hv
    have hnames := List.forall_mem_cons.1 (hv.error _ rfl)
    exact .ok (hv.moves.tail (.tooDeep l' m inner hnames.1 hnames.2))
  · rw [hx] at hv
    exact .ended hv.moves trivial
  · rw [hx] at hv
    exact .ok hv.moves

theorem failCircular_moves (p : Pass) (N : String → Prop) (K : Reference → Prop) (l : Ledger) :
    p.Moves N K l (p.failCircular l) := by
  have h : ∀ (cycles : List (String × List String)), (∀ c ∈ cycles, c ∈ p.circular) → ∀ l : Ledger,
      p.Moves N K l (cycles.foldl (fun l c => l.fail c.1 (.circular c.1 c.2)) l) := by
    intro cycles
    induction cycles with
    | nil => exact fun _ l => .refl
    | cons c cycles ih =>
      intro hc l
      exact .head (.list l c (hc c List.mem_cons_self))
        (ih (fun c' hc' => hc c' (List.mem_cons_of_mem _ hc')) _)
  exact h p.circular (fun _ hc => hc) l

/-- **Expanding a template does nothing else.** -/
theorem expandTemplate_moves (hp : p.IsClosed N K) (hs : Segment.Meet N K segments) (l : Ledger) :
    p.Moves N K l (p.expandTemplate segments l).2 :=
  (failCircular_moves p N K l).trans
    (expandAll_moved hs (fun _ => trivial) (fun _ l hn => expandTop_moved hp hn l) _).moves

end Pass
end Stencil
