/-
# References evaluated and events noted

Every reference to a variable that is evaluated makes exactly one event that
tells of a lookup or of a hit, at its depth, and the cache counts one hit or one
miss for each time that it is asked. The events of an expansion that is not
refused spell out in order what was evaluated (`expandVariable_notes`).

Key definitions: `visitsAll`, `visits`, `Notes`.
Key theorems: `expandAll_notes`, `expandVariable_notes`, `expandTemplate_notes`.
-/
import Stencil.Proofs.Expansion.Plain
import Stencil.Proofs.Trace.Nesting

namespace Stencil

open Template Context

/-- The variable that an event tells was evaluated, with its depth. -/
def Event.visit? (e : Event) : Option (String × Int) :=
  if e.kind = .lookup ∨ e.kind = .hit then some (e.name, e.depth) else none

namespace Pass

/-! ### What is evaluated -/

/-- The references that are evaluated for a segment; `visits` gives those for a variable. -/
def visitsSegment (visits : String → Ledger → List (String × Int)) :
    Segment → Ledger → List (String × Int)
  | .literal _ _, _ => []
  | .reference r, l => if r.isCall then [] else visits r.name l

/-- The references to variables that are evaluated for segments, with their depths, up to where the
expansion ends. -/
def visitsAll {ε : Type} (p : Pass) (depth : Int) (stop : Refusal → ε)
    (expand : String → Ledger → Except ε Expansion × Ledger)
    (visits : String → Ledger → List (String × Int)) :
    List Segment → Ledger → List (String × Int)
  | [], _ => []
  | s :: rest, l =>
    visitsSegment visits s l ++
    match p.expandSegment depth stop expand s l with
    | (.ok _, l) => p.visitsAll depth stop expand visits rest l
    | (.error _, _) => []

/-- The references that are evaluated for the value of a variable; `l` is the ledger with the
variable's miss. -/
def visitsValue (p : Pass) (depth : Int)
    (expand : String → Ledger → Except Stop Expansion × Ledger)
    (visits : String → Ledger → List (String × Int)) (name : String) (l : Ledger) :
    List (String × Int) :=
  match p.context.define? name with
  | .ok (some d) =>
    match d.parsed with
    | .ok segments =>
      p.visitsAll (depth + 1) .refused expand visits segments (l.note (p.lookupEvent name d true depth))
    | .error _ => []
  | _ => []

/-- The references that are evaluated for a variable where `left` levels are allowed: the variable
itself and, if it is not in the cache, those in its value. -/
def visits (p : Pass) : Nat → String → Ledger → List (String × Int)
  | 0, name, _ => [(name, p.depthAt 0)]
  | left + 1, name, l =>
    let depth := p.depthAt (left + 1)
    (name, depth) ::
      match p.cycle? name, l.cache.findNow (p.key name) l.sources with
      | none, .ok (none, cache, sources) =>
        p.visitsValue depth (fun n l => below (p.expandVariable left n l)) (p.visits left) name
          ({ l with cache, sources }.note (missEvent name depth))
      | _, _ => []

/-- The references that are evaluated for a template. -/
def visitsTemplate (p : Pass) (segments : List Segment) (l : Ledger) : List (String × Int) :=
  p.visitsAll 0 id p.expandTop (p.visits p.maxDepth) segments (p.failCircular l)

end Pass

/-- From `l` to `l'` the events `es` are noted. They are in order, tell of the variables `vs` that
were evaluated, and of as many hits and misses as the cache counts. -/
structure Notes (bound depth : Int) (vs : List (String × Int)) (es : List Event) (l l' : Ledger) :
    Prop where
  events : l'.events = l.events ++ es
  spells : Spells bound depth es
  visits : es.filterMap Event.visit? = vs
  hits : l'.cache.hits = l.cache.hits + es.countP fun e => e.kind = .hit
  misses : l'.cache.misses = l.cache.misses + es.countP fun e => e.kind = .miss

/-- Nothing is noted from `l` to `l'`, nor counted by the cache. -/
structure Ledger.Quiet (l l' : Ledger) : Prop where
  events : l'.events = l.events
  hits : l'.cache.hits = l.cache.hits
  misses : l'.cache.misses = l.cache.misses

namespace Ledger

theorem events_note (l : Ledger) (e : Event) : (l.note e).events = l.events ++ [e] :=
  List.reverse_cons

theorem Quiet.fail (l : Ledger) (n : String) (f : Failure) : l.Quiet (l.fail n f) := by
  unfold Ledger.fail
  split_ifs <;> exact ⟨rfl, rfl, rfl⟩

theorem Quiet.trans {l l' l'' : Ledger} (h : l.Quiet l') (h' : l'.Quiet l'') : l.Quiet l'' :=
  ⟨h'.events.trans h.events, h'.hits.trans h.hits, h'.misses.trans h.misses⟩

end Ledger

namespace Notes

variable {bound depth : Int} {vs ws : List (String × Int)} {es fs : List Event} {l l' l'' : Ledger}

theorem quiet (h : l.Quiet l') : Notes bound depth [] [] l l' :=
  ⟨by rw [h.events, List.append_nil], .nil, rfl, h.hits, h.misses⟩

theorem append (h : Notes bound depth vs es l l') (h' : Notes bound depth ws fs l' l'') :
    Notes bound depth (vs ++ ws) (es ++ fs) l l'' where
  events := by rw [h'.events, h.events, List.append_assoc]
  spells := h.spells.append h'.spells
  visits := by rw [List.filterMap_append, h.visits, h'.visits]
  hits := by rw [h'.hits, h.hits, List.countP_append, Nat.add_assoc]
  misses := by rw [h'.misses, h.misses, List.countP_append, Nat.add_assoc]

theorem then_quiet (h : Notes bound depth vs es l l') (h' : l'.Quiet l'') :
    Notes bound depth vs es l l'' where
  events := h'.events.trans h.events
  spells := h.spells
  visits := h.visits
  hits := h'.hits.trans h.hits
  misses := h'.misses.trans h.misses

/-- A call makes one event. -/
theorem call {e : Event} (he : e.kind = .call) (hat : e.At bound depth) (l : Ledger) :
    Notes bound depth [] [e] l (l.note e) where
  events := l.events_note e
  spells := .single (by rw [he]; decide) (by rw [he]; decide) hat
  visits := by simp [Event.visit?, he]
  hits := by simp [Ledger.note, he]
  misses := by simp [Ledger.note, he]

/-- A variable that the cache is not asked for makes one event. -/
theorem lookup {e : Event} (he : e.kind = .lookup) (hat : e.At bound depth) (l : Ledger) :
    Notes bound depth [(e.name, e.depth)] [e] l (l.note e) where
  events := l.events_note e
  spells := .single (by rw [he]; decide) (by rw [he]; decide) hat
  visits := by simp [Event.visit?, he]
  hits := by simp [Ledger.note, he]
  misses := by simp [Ledger.note, he]

/-- A variable that is in the cache makes one event. -/
theorem hit {e : Event} {c : Cache} {s : Sources} (he : e.kind = .hit) (hat : e.At bound depth)
    (hh : c.hits = l.cache.hits + 1) (hm : c.misses = l.cache.misses) :
    Notes bound depth [(e.name, e.depth)] [e] l
      ({ l with cache := c, sources := s }.note e) where
  events := Ledger.events_note _ e
  spells := .single (by rw [he]; decide) (by rw [he]; decide) hat
  visits := by simp [Event.visit?, he]
  hits := by simpa [Ledger.note, he] using hh
  misses := by simpa [Ledger.note, he] using hm

/-- A variable that is not in the cache makes a miss and a lookup, then come the events of its
value, and perhaps one for the value as a whole. -/
theorem opened (m e : Event) (n? : Option Event) {c : Cache} {s : Sources} {l₁ l₂ : Ledger}
    (hm : m.kind = .miss) (he : e.kind = .lookup) (hname : e.name = m.name)
    (hmd : m.At bound depth) (hed : e.At bound depth)
    (hc : c.hits = l.cache.hits ∧ c.misses = l.cache.misses + 1)
    (h : Notes bound (depth + 1) vs es
      (({ l with cache := c, sources := s }.note m).note e) l₁)
    (hn : ∀ n ∈ n?, n.kind = .nested ∧ n.name = e.name ∧ n.At bound depth ∧ e.IsRecursive)
    (hq : (n?.elim l₁ l₁.note).Quiet l₂) :
    Notes bound depth ((e.name, e.depth) :: vs) (m :: e :: (es ++ n?.toList)) l l₂ := by
  have hkind : ∀ n ∈ n?.toList, n.kind = .nested := fun n hx => (hn n (Option.mem_toList.1 hx)).1
  have hquiet : n?.toList.filterMap Event.visit? = [] :=
    List.filterMap_eq_nil_iff.2 fun n hx => by simp [Event.visit?, hkind n hx]
  have hcount : ∀ k : StepKind, k ≠ .nested → (n?.toList.countP fun e => e.kind = k) = 0 :=
    fun k hk => List.countP_eq_zero.2 fun n hx => by simp [hkind n hx, hk.symm]
  obtain ⟨hevents, hhits, hmisses⟩ : l₂.events = l₁.events ++ n?.toList ∧
      l₂.cache.hits = l₁.cache.hits ∧ l₂.cache.misses = l₁.cache.misses := by
    cases n? with
    | none => exact ⟨hq.events.trans (List.append_nil _).symm, hq.hits, hq.misses⟩
    | some n => exact ⟨hq.events.trans (l₁.events_note n), hq.hits, hq.misses⟩
  refine ⟨?_, .opened hm he hname hmd hed h.spells hn, ?_, ?_, ?_⟩
  · rw [hevents, h.events, Ledger.events_note, Ledger.events_note]
    simp [Ledger.events]
  · have hv : m.visit? = none := by simp [Event.visit?, hm]
    have hv' : e.visit? = some (e.name, e.depth) := by simp [Event.visit?, he]
    rw [List.filterMap_cons_none hv, List.filterMap_cons_some hv', List.filterMap_append, hquiet,
      h.visits, List.append_nil]
  · rw [hhits, h.hits, List.countP_cons, List.countP_cons, List.countP_append,
      hcount .hit (by decide)]
    simp [Ledger.note, hm, he, hc.1]
  · rw [hmisses, h.misses, List.countP_cons, List.countP_cons, List.countP_append,
      hcount .miss (by decide)]
    simp [Ledger.note, hm, he, hc.2]
    omega

end Notes

namespace Pass

open Ledger

variable {p : Pass} {n : String} {l l' : Ledger} {bound depth : Int} {segments : List Segment}

/-! ### The events -/

theorem definitionDetails_keys (p : Pass) (n : String) (d : Definition) :
    (p.definitionDetails n d).map Prod.fst ⊆ ["secret", "owner_id", "shadowed"] := by
  unfold definitionDetails
  intro k hk
  rw [List.map_append, List.map_append, List.mem_append, List.mem_append] at hk
  rcases hk with (hk | hk) | hk
  · simp at hk
    simp [hk]
  · split at hk
    · split_ifs at hk
      · cases hk
      · simp at hk
        simp [hk]
    · cases hk
  · split at hk
    · cases hk
    · simp at hk
      simp [hk]

theorem circularEvent_at (n : String) (cycle : List String) (h : depth ≤ bound) :
    (circularEvent n cycle depth).At bound depth := ⟨rfl, h, by simp [circularEvent]⟩

theorem boundEvent_at (p : Pass) (n : String) (h : depth ≤ bound) :
    (p.boundEvent n depth).At bound depth := ⟨rfl, h, by simp [boundEvent]⟩

theorem missEvent_at (n : String) (h : depth ≤ bound) : (missEvent n depth).At bound depth :=
  ⟨rfl, h, by simp [missEvent]⟩

theorem hitEvent_at (p : Pass) (n : String) (e : Cache.Entry) (b : Bool) (h : depth ≤ bound) :
    (p.hitEvent n e b depth).At bound depth := ⟨rfl, h, by simp [hitEvent]⟩

theorem undefinedEvent_at (n : String) (h : depth ≤ bound) :
    (undefinedEvent n depth).At bound depth := ⟨rfl, h, by simp [undefinedEvent]⟩

theorem nestedEvent_at (n : String) (d : Definition) (x : Expansion) (h : depth ≤ bound) :
    (nestedEvent n d x depth).At bound depth := ⟨rfl, h, by simp [nestedEvent]⟩

theorem callEvent_at (r : Reference) (out : String) (error : Option String) (h : depth ≤ bound) :
    (callEvent r out error depth).At bound depth := ⟨rfl, h, by simp [callEvent]⟩

theorem malformedEvent_at (p : Pass) (n : String) (d : Definition) (f : Failure)
    (h : depth ≤ bound) : (p.malformedEvent n d f depth).At bound depth := by
  refine ⟨rfl, h, fun hk => ?_⟩
  exact absurd (definitionDetails_keys p n d hk) (by decide)

theorem lookupEvent_at (p : Pass) (n : String) (d : Definition) (b : Bool) (h : depth ≤ bound) :
    (p.lookupEvent n d b depth).At bound depth := by
  refine ⟨rfl, h, fun hk => ?_⟩
  simp only [lookupEvent, List.map_append] at hk
  rcases List.mem_append.1 hk with hk | hk
  · exact absurd (definitionDetails_keys p n d hk) (by decide)
  · simp at hk

theorem lookupEvent_isRecursive (p : Pass) (n : String) (d : Definition) :
    (p.lookupEvent n d true depth).IsRecursive := by
  simp [Event.IsRecursive, lookupEvent]

/-! ### Segments -/

section Segments

variable {ε : Type} {stop : Refusal → ε} {expand : String → Ledger → Except ε Expansion × Ledger}
  {visits : String → Ledger → List (String × Int)} {isRefusal : ε → Prop}

/-- A call that is not refused notes one event. -/
theorem expandCall_notes {r : Reference} {x : Expansion} (hd : depth ≤ bound)
    (h : p.expandCall depth r l = (.ok x, l')) : ∃ es, Notes bound depth [] es l l' := by
  have hgoes := expandCall_goes p depth r l
  rw [h] at hgoes
  cases hgoes with
  | @called text s hi =>
    have hc := Notes.call (e := callEvent r text none depth) rfl (callEvent_at r _ _ hd)
      { l with sources := s }
    exact ⟨_, hc.events, hc.spells, hc.visits, hc.hits, hc.misses⟩
  | @failed f s hi =>
    have hc := Notes.call (e := callEvent r (Marker.marker r.displayName) (some f.message) depth) rfl
      (callEvent_at r _ _ hd) { l with sources := s }
    exact ⟨_, hc.events, hc.spells, hc.visits, hc.hits, hc.misses⟩

theorem expandSegment_notes (s : Segment) (hd : depth ≤ bound) (hstop : ∀ r, isRefusal (stop r))
    (he : ∀ n l, (∀ e, (expand n l).1 = .error e → ¬ isRefusal e) →
      ∃ es, Notes bound depth (visits n l) es l (expand n l).2)
    (ha : ∀ e, (p.expandSegment depth stop expand s l).1 = .error e → ¬ isRefusal e) :
    ∃ es, Notes bound depth (visitsSegment visits s l) es l
      (p.expandSegment depth stop expand s l).2 := by
  cases s with
  | literal text span => exact ⟨[], .quiet ⟨rfl, rfl, rfl⟩⟩
  | reference r =>
    cases hr : r.isCall with
    | false =>
      rw [expandSegment_variable hr] at ha ⊢
      rw [visitsSegment, hr]
      exact he r.name l ha
    | true =>
      rw [visitsSegment, hr]
      simp only [expandSegment, hr, if_true] at ha ⊢
      rcases hc : p.expandCall depth r l with ⟨e | x, l'⟩
      · rw [hc] at ha
        exact absurd (hstop e) (ha _ rfl)
      · exact expandCall_notes hd hc

/-- What one reference notes, if it is not refused, is what all of them do. -/
theorem expandAll_notes (segments : List Segment) (hd : depth ≤ bound)
    (hstop : ∀ r, isRefusal (stop r))
    (he : ∀ n l, (∀ e, (expand n l).1 = .error e → ¬ isRefusal e) →
      ∃ es, Notes bound depth (visits n l) es l (expand n l).2)
    (ha : ∀ e, (p.expandAll depth stop expand segments l).1 = .error e → ¬ isRefusal e) :
    ∃ es, Notes bound depth (p.visitsAll depth stop expand visits segments l) es l
      (p.expandAll depth stop expand segments l).2 := by
  induction segments generalizing l with
  | nil => exact ⟨[], .quiet ⟨rfl, rfl, rfl⟩⟩
  | cons s rest ih =>
    have hs := expandSegment_notes (p := p) (l := l) s hd hstop he
    rcases hx : p.expandSegment depth stop expand s l with ⟨e | x, l₁⟩
    · rw [expandAll_head hx] at ha ⊢
      rw [hx] at hs
      obtain ⟨es, hes⟩ := hs ha
      refine ⟨es, ?_⟩
      simp only [visitsAll, hx, List.append_nil]
      exact hes
    · rw [hx] at hs
      obtain ⟨es, hes⟩ := hs fun e he => by cases he
      have hsame : ∀ e, (p.expandAll depth stop expand rest l₁).1 = .error e → ¬ isRefusal e := by
        intro e hrest
        refine ha e ?_
        rw [expandAll_tail hx (Prod.ext hrest rfl)]
      obtain ⟨fs, hfs⟩ := ih hsame
      have hend : (p.expandAll depth stop expand (s :: rest) l).2 =
          (p.expandAll depth stop expand rest l₁).2 := by
        rcases hb : p.expandAll depth stop expand rest l₁ with ⟨e | y, l₂⟩
        · rw [expandAll_tail hx hb]
        · rw [expandAll_ok hx hb]
      refine ⟨es ++ fs, ?_⟩
      rw [hend]
      simp only [visitsAll, hx]
      exact hes.append hfs

end Segments

/-! ### Variables -/

theorem settle_quiet (p : Pass) (n : String) (d : Definition) (x : Expansion) (l : Ledger) :
    l.Quiet (p.settle n d x l).2 := by
  have hc := Cache.putNow_counts l.cache (p.entry n d x) l.sources
  have hgoes := settle_goes p n d x l
  generalize p.settle n d x l = a at hgoes ⊢
  cases hgoes with
  | failed => exact ⟨rfl, rfl, rfl⟩
  | impure => exact ⟨rfl, rfl, rfl⟩
  | kept _ _ hk =>
    rw [hk] at hc
    exact ⟨rfl, hc.1, hc.2⟩
  | refused _ _ hk =>
    rw [hk] at hc
    exact ⟨rfl, hc.1, hc.2⟩

/-- The stops that refuse a whole call. -/
def IsRefused : Stop → Prop
  | .tooDeep _ _ => False
  | .refused _ => True

theorem visitsAll_literal {ε : Type} {stop : Refusal → ε}
    {expand : String → Ledger → Except ε Expansion × Ledger}
    {visits : String → Ledger → List (String × Int)}
    (hr : segments.any Segment.isReference = false) :
    p.visitsAll depth stop expand visits segments l = [] := by
  induction segments generalizing l with
  | nil => rfl
  | cons s rest ih =>
    rw [List.any_cons, Bool.or_eq_false_iff] at hr
    cases s with
    | literal text span =>
      rw [visitsAll]
      exact ih hr.2
    | reference r => cases hr.1

section Value

variable {c : Cache} {s : Sources} {expand : String → Ledger → Except Stop Expansion × Ledger}
  {visits : String → Ledger → List (String × Int)}

theorem expandValue_notes {d : Definition} (hb : depth + 1 ≤ bound)
    (hvisits : ∀ n l, (∀ e, (expand n l).1 = .error e → ¬ IsRefused e) →
      ∃ es, Notes bound (depth + 1) (visits n l) es l (expand n l).2)
    (hc : c.hits = l.cache.hits ∧ c.misses = l.cache.misses + 1)
    (ha : ∀ e, (p.expandValue depth expand n d segments
      ({ l with cache := c, sources := s }.note (missEvent n depth))).1 = .error e →
        ¬ IsRefused e) :
    ∃ es, Notes bound depth
      ((n, depth) :: p.visitsAll (depth + 1) .refused expand visits segments
        (({ l with cache := c, sources := s }.note (missEvent n depth)).note
          (p.lookupEvent n d true depth))) es l
      (p.expandValue depth expand n d segments
        ({ l with cache := c, sources := s }.note (missEvent n depth))).2 := by
  have hd : depth ≤ bound := by omega
  have hmd := missEvent_at n hd
  cases hr : segments.any Segment.isReference with
  | false =>
    rw [expandValue_literal hr, visitsAll_literal hr]
    exact ⟨_, .opened (missEvent n depth) (p.lookupEvent n d false depth) none rfl rfl rfl hmd
      (lookupEvent_at p n d false hd) hc
      (.quiet (settle_quiet p n d _ _)) (fun x hx => by cases hx) ⟨rfl, rfl, rfl⟩⟩
  | true =>
    have hed := lookupEvent_at p n d true hd
    have hstop : ∀ r, IsRefused (Stop.refused r) := fun _ => trivial
    have hall := expandAll_notes (p := p) (l := ({ l with cache := c, sources := s }.note
      (missEvent n depth)).note (p.lookupEvent n d true depth)) segments hb
      hstop hvisits
    rcases hx : p.expandAll (depth + 1) .refused expand segments
      (({ l with cache := c, sources := s }.note (missEvent n depth)).note
        (p.lookupEvent n d true depth)) with ⟨(⟨m, inner⟩ | r) | x, l₁⟩
    · rw [hx] at hall
      obtain ⟨es, hes⟩ := hall fun e he => by cases he; exact id
      rw [expandValue_tooDeep hr hx]
      exact ⟨_, .opened (missEvent n depth) (p.lookupEvent n d true depth) none rfl rfl rfl hmd hed
        hc hes (fun x hx => by cases hx) ⟨rfl, rfl, rfl⟩⟩
    · rw [expandValue_refused hr hx] at ha
      exact absurd trivial (ha _ rfl)
    · rw [hx] at hall
      obtain ⟨es, hes⟩ := hall fun e he => by cases he
      rw [expandValue_ok hr hx]
      refine ⟨_, .opened (missEvent n depth) (p.lookupEvent n d true depth)
        (some (nestedEvent n d x depth)) rfl rfl rfl hmd hed hc hes (fun y hy => ?_) (settle_quiet p n d x _)⟩
      cases hy
      exact ⟨rfl, rfl, nestedEvent_at n d x hd, lookupEvent_isRecursive p n d⟩

/-- A variable that is not in the cache notes the miss, its lookup and what its value does. -/
theorem expandDefined_notes (hb : depth + 1 ≤ bound)
    (hvisits : ∀ n l, (∀ e, (expand n l).1 = .error e → ¬ IsRefused e) →
      ∃ es, Notes bound (depth + 1) (visits n l) es l (expand n l).2)
    (hc : c.hits = l.cache.hits ∧ c.misses = l.cache.misses + 1)
    (ha : ∀ e, (p.expandDefined depth expand n
      ({ l with cache := c, sources := s }.note (missEvent n depth))).1 = .error e →
        ¬ IsRefused e) :
    ∃ es, Notes bound depth
      ((n, depth) :: p.visitsValue depth expand visits n
        ({ l with cache := c, sources := s }.note (missEvent n depth))) es l
      (p.expandDefined depth expand n
        ({ l with cache := c, sources := s }.note (missEvent n depth))).2 := by
  have hd : depth ≤ bound := by omega
  have hmd := missEvent_at n hd
  have hgoes := expandDefined_goes p depth expand n
    ({ l with cache := c, sources := s }.note (missEvent n depth))
  generalize p.expandDefined depth expand n
    ({ l with cache := c, sources := s }.note (missEvent n depth)) = a at ha hgoes ⊢
  cases hgoes with
  | refused => exact absurd trivial (ha _ rfl)
  | undefined hdef =>
    simp only [visitsValue, hdef]
    exact ⟨_, .opened (missEvent n depth) (undefinedEvent n depth) none rfl rfl rfl hmd
      (undefinedEvent_at n hd) hc (.quiet (.fail _ n (.undefined n))) (fun x hx => by cases hx)
      ⟨rfl, rfl, rfl⟩⟩
  | @malformed d f hdef hp =>
    simp only [visitsValue, hdef, hp]
    exact ⟨_, .opened (missEvent n depth) (p.malformedEvent n d (.ofFault f) depth) none rfl rfl
      rfl hmd (malformedEvent_at p n d _ hd) hc (.quiet (.fail _ n (.ofFault f)))
      (fun x hx => by cases hx) ⟨rfl, rfl, rfl⟩⟩
  | value hdef hp =>
    simp only [visitsValue, hdef, hp]
    exact expandValue_notes hb hvisits hc ha

end Value

theorem depthAt_succ (p : Pass) (left : Nat) : p.depthAt (left + 1) + 1 = p.depthAt left := by
  unfold depthAt
  omega

theorem depthAt_le (p : Pass) (left : Nat) : p.depthAt left ≤ p.maxDepth := by
  unfold depthAt
  omega

theorem visits_circular {cycle : List String} (hc : p.cycle? n = some cycle) (left : Nat) :
    p.visits left n l = [(n, p.depthAt left)] := by
  cases left with
  | zero => rfl
  | succ left => simp only [visits, hc]

/-- **What a variable notes tells of each reference that is evaluated for it, once and in order.** -/
theorem expandVariable_notes (left : Nat) (n : String)
    (ha : ∀ e, (p.expandVariable left n l).1 = .error e → ¬ IsRefused e) :
    ∃ es, Notes p.maxDepth (p.depthAt left) (p.visits left n l) es l
      (p.expandVariable left n l).2 := by
  -- on the levels allowed, which is the recursion of both functions
  have hd := p.depthAt_le left
  induction left, n, l using p.expandVariable_induct with
  | circular left n l cycle hc =>
    rw [visits_circular hc]
    exact ⟨_, .lookup rfl (circularEvent_at n cycle hd) l⟩
  | bound n l hc => exact ⟨_, .lookup rfl (boundEvent_at p n hd) l⟩
  | refused left n l r hc hf => exact absurd trivial (ha _ rfl)
  | miss left n l c s hc hf ih =>
    have hb : p.depthAt (left + 1) + 1 ≤ p.maxDepth := by
      rw [depthAt_succ]
      exact p.depthAt_le left
    have hvisits : ∀ n l, (∀ e, (below (p.expandVariable left n l)).1 = .error e →
        ¬ IsRefused e) → ∃ es, Notes p.maxDepth (p.depthAt (left + 1) + 1) (p.visits left n l)
          es l (below (p.expandVariable left n l)).2 := by
      intro n l hbelow
      rw [depthAt_succ]
      refine ih n l (fun e he => hbelow e ?_) (p.depthAt_le left)
      show (p.expandVariable left n l).1.map Expansion.below = .error e
      rw [he]
      rfl
    simp only [visits, hc, hf]
    obtain ⟨hhits, hmisses⟩ := Cache.findNow_counts hf
    obtain ⟨es, hes⟩ := expandDefined_notes hb hvisits ⟨hhits, hmisses⟩ ha
    exact ⟨es, hes⟩
  | tooDeep left n l e c s hc hf hh =>
    obtain ⟨hhits, hmisses⟩ := Cache.findNow_counts hf
    simp only [visits, hc, hf]
    exact ⟨_, .hit rfl (hitEvent_at p n e true hd) hhits (Nat.succ.inj hmisses)⟩
  | hit left n l e c s hc hf hh =>
    obtain ⟨hhits, hmisses⟩ := Cache.findNow_counts hf
    have hhit : Notes p.maxDepth (p.depthAt (left + 1)) [(n, p.depthAt (left + 1))]
        [p.hitEvent n e false (p.depthAt (left + 1))] l
        ({ l with cache := c, sources := s }.note
          (p.hitEvent n e false (p.depthAt (left + 1)))) :=
      .hit rfl (hitEvent_at p n e false hd) hhits (Nat.succ.inj hmisses)
    simp only [visits, hc, hf]
    exact ⟨_, hhit.then_quiet ⟨rfl, rfl, rfl⟩⟩

/-! ### Templates -/

theorem depthAt_maxDepth (p : Pass) : p.depthAt p.maxDepth = 0 := Int.sub_self _

theorem expandTop_notes (n : String) {x : Expansion} (h : p.expandTop n l = (.ok x, l')) :
    ∃ es, Notes p.maxDepth 0 (p.visits p.maxDepth n l) es l l' := by
  have hv := expandVariable_notes (p := p) (l := l) p.maxDepth n
  rw [depthAt_maxDepth] at hv
  unfold expandTop at h
  rcases hx : p.expandVariable p.maxDepth n l with ⟨(⟨m, inner⟩ | r) | y, l₁⟩
  · rw [hx] at h hv
    cases h
    obtain ⟨es, hes⟩ := hv fun e he => by cases he; exact id
    exact ⟨es, hes.then_quiet (.fail l₁ n _)⟩
  · rw [hx] at h
    cases h
  · rw [hx] at h hv
    cases h
    exact hv fun e he => by cases he

theorem failCircular_quiet (p : Pass) (l : Ledger) : l.Quiet (p.failCircular l) := by
  unfold failCircular
  generalize p.circular = cs
  induction cs generalizing l with
  | nil => exact ⟨rfl, rfl, rfl⟩
  | cons c cs ih => exact (Quiet.fail l c.1 _).trans (ih _)

/-- **What a template notes tells of each reference that is evaluated for it, once and in order.** -/
theorem expandTemplate_notes {x : Expansion} (h : p.expandTemplate segments l = (.ok x, l')) :
    ∃ es, Notes p.maxDepth 0 (p.visitsTemplate segments l) es l l' := by
  unfold expandTemplate at h
  have hq := failCircular_quiet p l
  -- at the top every error refuses the call
  have htop : ∀ n l, (∀ e, (p.expandTop n l).1 = .error e → ¬ (fun _ => True) e) →
      ∃ es, Notes p.maxDepth 0 (p.visits p.maxDepth n l) es l (p.expandTop n l).2 := by
    intro n l hn
    rcases hx : p.expandTop n l with ⟨r | y, l₁⟩
    · rw [hx] at hn
      exact absurd trivial (hn _ rfl)
    · exact expandTop_notes n hx
  obtain ⟨es, hes⟩ := expandAll_notes (p := p) (l := p.failCircular l) segments
    (Int.natCast_nonneg _) (fun r => (trivial : (fun _ => True) (id r))) htop
    (fun e he => by rw [h] at he; cases he)
  rw [h] at hes
  exact ⟨es, by rw [hes.events, hq.events], hes.spells, hes.visits, by rw [hes.hits, hq.hits],
    by rw [hes.misses, hq.misses]⟩

end Pass
end Stencil
