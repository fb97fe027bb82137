/-
# The ways in which an expansion goes

What each function of an expansion comes to: a call has three ways to go
(`expandCall_goes`), the expansion of a value is settled in four
(`settle_goes`), and a name that is not in the cache has four
(`expandDefined_goes`); segments and values have an equation for each of their
outcomes. A variable goes by induction on the levels that are allowed
(`expandVariable_induct`). A property of expansions is proved way by way, from
these.

Key definitions: `CallGoes`, `SettleGoes`, `DefinedGoes`, `entry`.
Key theorems: `expandCall_goes`, `settle_goes`, `expandDefined_goes`,
`expandVariable_induct`.
-/
import Mathlib.Tactic.SplitIfs
import Stencil.Expansion

namespace Stencil
namespace Pass

variable {p : Pass} {n : String} {left : Nat} {l l' : Ledger} {segments rest : List Segment}

/-! ### Segments -/

section Segments

variable {ε : Type} {stop : Refusal → ε} {expand : String → Ledger → Except ε Expansion × Ledger}
  {depth : Int}

/-- The ways in which a call goes. -/
inductive CallGoes (p : Pass) (depth : Int) (r : Reference) (l : Ledger) :
    Except Refusal Expansion × Ledger → Prop where
  | called {text : String} {s : Sources}
      (hi : p.library.invoke r.name r.arguments l.sources = (.ok text, s)) :
      CallGoes p depth r l (.ok (.called text),
        ({ l with sources := s }.note (callEvent r text none depth)).markResolved r.displayName)
  | failed {f : Failure} {s : Sources}
      (hi : p.library.invoke r.name r.arguments l.sources = (.error (.failed f), s)) :
      CallGoes p depth r l (.ok (.failed r.displayName),
        ({ l with sources := s }.note
          (callEvent r (Marker.marker r.displayName) (some f.message) depth)).list
            r.displayName f)
  | refused {e : Refusal} {s : Sources}
      (hi : p.library.invoke r.name r.arguments l.sources = (.error (.refused e), s)) :
      CallGoes p depth r l (.error e, { l with sources := s })

theorem expandCall_called {r : Reference} {text : String} {s : Sources}
    (hi : p.library.invoke r.name r.arguments l.sources = (.ok text, s)) :
    p.expandCall depth r l = (.ok (.called text),
      ({ l with sources := s }.note (callEvent r text none depth)).markResolved
        r.displayName) := by
  unfold expandCall
  rw [hi]

theorem expandCall_failed {r : Reference} {f : Failure} {s : Sources}
    (hi : p.library.invoke r.name r.arguments l.sources = (.error (.failed f), s)) :
    p.expandCall depth r l = (.ok (.failed r.displayName),
      ({ l with sources := s }.note
        (callEvent r (Marker.marker r.displayName) (some f.message) depth)).list
          r.displayName f) := by
  unfold expandCall
  rw [hi]

theorem expandCall_refused {r : Reference} {e : Refusal} {s : Sources}
    (hi : p.library.invoke r.name r.arguments l.sources = (.error (.refused e), s)) :
    p.expandCall depth r l = (.error e, { l with sources := s }) := by
  unfold expandCall
  rw [hi]

theorem expandCall_goes (p : Pass) (depth : Int) (r : Reference) (l : Ledger) :
    CallGoes p depth r l (p.expandCall depth r l) := by
  rcases hi : p.library.invoke r.name r.arguments l.sources with ⟨(f | e) | text, s⟩
  · exact expandCall_failed hi ▸ .failed hi
  · exact expandCall_refused hi ▸ .refused hi
  · exact expandCall_called hi ▸ .called hi

theorem expandSegment_variable {r : Reference} (hr : r.isCall = false) :
    p.expandSegment depth stop expand (.reference r) l = expand r.name l := by
  rw [expandSegment, hr]
  rfl

theorem expandAll_ok {s : Segment} {a b : Expansion} {l'' : Ledger}
    (ha : p.expandSegment depth stop expand s l = (.ok a, l'))
    (hb : p.expandAll depth stop expand rest l' = (.ok b, l'')) :
    p.expandAll depth stop expand (s :: rest) l = (.ok (a.append b), l'') := by
  rw [expandAll, ha]
  dsimp only
  rw [hb]

theorem expandAll_head {s : Segment} {e : ε}
    (ha : p.expandSegment depth stop expand s l = (.error e, l')) :
    p.expandAll depth stop expand (s :: rest) l = (.error e, l') := by
  rw [expandAll, ha]

theorem expandAll_tail {s : Segment} {a : Expansion} {e : ε} {l'' : Ledger}
    (ha : p.expandSegment depth stop expand s l = (.ok a, l'))
    (hb : p.expandAll depth stop expand rest l' = (.error e, l'')) :
    p.expandAll depth stop expand (s :: rest) l = (.error e, l'') := by
  rw [expandAll, ha]
  dsimp only
  rw [hb]

end Segments

/-! ### Values -/

/-- What the cache keeps of the value of a name. -/
def entry (p : Pass) (n : String) (d : Definition) (e : Expansion) : Cache.Entry where
  name := n
  fingerprint := p.fingerprint
  value := e.text
  scope := some d.scope
  owner := d.winner.owner
  height := e.height

section Value

variable {depth : Int} {expand : String → Ledger → Except Stop Expansion × Ledger}
  {d : Definition} {e : Expansion}

/-- The ways in which the expansion of a value is settled. -/
inductive SettleGoes (p : Pass) (n : String) (d : Definition) (e : Expansion) (l : Ledger) :
    Except Stop Expansion × Ledger → Prop where
  | failed (ho : e.isOk = false) : SettleGoes p n d e l (.ok e, l.markFailed n)
  | impure (ho : e.isOk = true) (hp : e.isPure = false) :
      SettleGoes p n d e l (.ok e, l.markResolved n)
  | kept {s : Sources} {c : Cache} (ho : e.isOk = true) (hp : e.isPure = true)
      (hk : l.cache.putNow (p.entry n d e) l.sources = (.ok s, c)) :
      SettleGoes p n d e l (.ok e, { l.markResolved n with cache := c, sources := s })
  | refused {r : Refusal} {c : Cache} (ho : e.isOk = true) (hp : e.isPure = true)
      (hk : l.cache.putNow (p.entry n d e) l.sources = (.error r, c)) :
      SettleGoes p n d e l (.error (.refused r), { l.markResolved n with cache := c })

theorem settle_failed (ho : e.isOk = false) :
    p.settle n d e l = (.ok e, l.markFailed n) := by
  unfold settle
  rw [ho]
  rfl

theorem settle_impure (ho : e.isOk = true) (hp : e.isPure = false) :
    p.settle n d e l = (.ok e, l.markResolved n) := by
  unfold settle
  rw [ho, hp]
  rfl

theorem keep_eq (p : Pass) (n : String) (d : Definition) (e : Expansion) (l : Ledger) :
    p.keep n d e l =
      match l.cache.putNow (p.entry n d e) l.sources with
      | (.ok s, c) => (.ok (), { l with cache := c, sources := s })
      | (.error r, c) => (.error r, { l with cache := c }) := rfl

theorem settle_kept {s : Sources} {c : Cache} (ho : e.isOk = true) (hp : e.isPure = true)
    (hk : l.cache.putNow (p.entry n d e) l.sources = (.ok s, c)) :
    p.settle n d e l = (.ok e, { l.markResolved n with cache := c, sources := s }) := by
  unfold settle
  rw [if_pos ho]
  dsimp only [Ledger.markResolved]
  rw [if_pos hp, keep_eq, hk]

theorem settle_refused {r : Refusal} {c : Cache} (ho : e.isOk = true) (hp : e.isPure = true)
    (hk : l.cache.putNow (p.entry n d e) l.sources = (.error r, c)) :
    p.settle n d e l = (.error (.refused r), { l.markResolved n with cache := c }) := by
  unfold settle
  rw [if_pos ho]
  dsimp only [Ledger.markResolved]
  rw [if_pos hp, keep_eq, hk]

theorem settle_goes (p : Pass) (n : String) (d : Definition) (e : Expansion) (l : Ledger) :
    SettleGoes p n d e l (p.settle n d e l) := by
  cases ho : e.isOk with
  | false => exact settle_failed ho ▸ .failed ho
  | true =>
    cases hp : e.isPure with
    | false => exact settle_impure ho hp ▸ .impure ho hp
    | true =>
      rcases hk : l.cache.putNow (p.entry n d e) l.sources with ⟨r | s, c⟩
      · exact settle_refused ho hp hk ▸ .refused ho hp hk
      · exact settle_kept ho hp hk ▸ .kept ho hp hk

theorem settle_not_tooDeep {m : String} {inner : List String} :
    (p.settle n d e l).1 ≠ .error (.tooDeep m inner) := by
  intro h
  have hs := settle_goes p n d e l
  generalize p.settle n d e l = a at h hs
  cases hs <;> cases h

theorem expandValue_literal (hr : segments.any Segment.isReference = false) :
    p.expandValue depth expand n d segments l =
      p.settle n d { text := d.text } (l.note (p.lookupEvent n d false depth)) := by
  unfold expandValue
  rw [hr]
  rfl

theorem expandValue_ok (hr : segments.any Segment.isReference = true)
    (hx : p.expandAll (depth + 1) .refused expand segments
      (l.note (p.lookupEvent n d true depth)) = (.ok e, l')) :
    p.expandValue depth expand n d segments l =
      p.settle n d e (l'.note (nestedEvent n d e depth)) := by
  unfold expandValue
  rw [if_pos hr, hx]

theorem expandValue_tooDeep {m : String} {inner : List String}
    (hr : segments.any Segment.isReference = true)
    (hx : p.expandAll (depth + 1) .refused expand segments
      (l.note (p.lookupEvent n d true depth)) = (.error (.tooDeep m inner), l')) :
    p.expandValue depth expand n d segments l = (.error (.tooDeep n (m :: inner)), l') := by
  unfold expandValue
  rw [if_pos hr, hx]

theorem expandValue_refused {r : Refusal} (hr : segments.any Segment.isReference = true)
    (hx : p.expandAll (depth + 1) .refused expand segments
      (l.note (p.lookupEvent n d true depth)) = (.error (.refused r), l')) :
    p.expandValue depth expand n d segments l = (.error (.refused r), l') := by
  unfold expandValue
  rw [if_pos hr, hx]

/-- The ways in which a name that is not in the cache goes. -/
inductive DefinedGoes (p : Pass) (depth : Int)
    (expand : String → Ledger → Except Stop Expansion × Ledger) (n : String) (l : Ledger) :
    Except Stop Expansion × Ledger → Prop where
  | refused {r : Refusal} (hd : p.context.define? n = .error r) :
      DefinedGoes p depth expand n l (.error (.refused r), l)
  | undefined (hd : p.context.define? n = .ok none) :
      DefinedGoes p depth expand n l (.ok (.failed n),
        (l.note (undefinedEvent n depth)).fail n (.undefined n))
  | malformed {d : Definition} {f : Template.Fault} (hd : p.context.define? n = .ok (some d))
      (hp : d.parsed = .error f) :
      DefinedGoes p depth expand n l (.ok (.failed n),
        (l.note (p.malformedEvent n d (.ofFault f) depth)).fail n (.ofFault f))
  | value {d : Definition} {segments : List Segment}
      (hd : p.context.define? n = .ok (some d)) (hp : d.parsed = .ok segments) :
      DefinedGoes p depth expand n l (p.expandValue depth expand n d segments l)

theorem expandDefined_refused {r : Refusal} (hd : p.context.define? n = .error r) :
    p.expandDefined depth expand n l = (.error (.refused r), l) := by
  unfold expandDefined
  rw [hd]

theorem expandDefined_undefined (hd : p.context.define? n = .ok none) :
    p.expandDefined depth expand n l =
      (.ok (.failed n), (l.note (undefinedEvent n depth)).fail n (.undefined n)) := by
  unfold expandDefined
  rw [hd]

theorem expandDefined_malformed {f : Template.Fault} (hd : p.context.define? n = .ok (some d))
    (hp : d.parsed = .error f) :
    p.expandDefined depth expand n l = (.ok (.failed n),
      (l.note (p.malformedEvent n d (.ofFault f) depth)).fail n (.ofFault f)) := by
  unfold expandDefined
  rw [hd]
  dsimp only
  rw [hp]

theorem expandDefined_value (hd : p.context.define? n = .ok (some d))
    (hp : d.parsed = .ok segments) :
    p.expandDefined depth expand n l = p.expandValue depth expand n d segments l := by
  unfold expandDefined
  rw [hd]
  dsimp only
  rw [hp]

theorem expandDefined_goes (p : Pass) (depth : Int)
    (expand : String → Ledger → Except Stop Expansion × Ledger) (n : String) (l : Ledger) :
    DefinedGoes p depth expand n l (p.expandDefined depth expand n l) := by
  rcases hd : p.context.define? n with r | _ | d
  · exact expandDefined_refused hd ▸ .refused hd
  · exact expandDefined_undefined hd ▸ .undefined hd
  · cases hp : d.parsed with
    | error f => exact expandDefined_malformed hd hp ▸ .malformed hd hp
    | ok segments => exact expandDefined_value hd hp ▸ .value hd hp

end Value

/-! ### Variables -/

theorem expandVariable_circular {cycle : List String} (hc : p.cycle? n = some cycle) :
    p.expandVariable left n l =
      (.ok (.failed n), l.note (circularEvent n cycle (p.depthAt left))) := by
  rw [expandVariable.eq_def]
  simp only [hc]

theorem expandVariable_zero (hc : p.cycle? n = none) :
    p.expandVariable 0 n l = (.error (.tooDeep n []), l.note (p.boundEvent n (p.depthAt 0))) := by
  rw [expandVariable.eq_def]
  simp only [hc]

theorem expandVariable_miss {c : Cache} {s : Sources} (hc : p.cycle? n = none)
    (hf : l.cache.findNow (p.key n) l.sources = .ok (none, c, s)) :
    p.expandVariable (left + 1) n l =
      p.expandDefined (p.depthAt (left + 1)) (fun n l => below (p.expandVariable left n l)) n
        ({ l with cache := c, sources := s }.note (missEvent n (p.depthAt (left + 1)))) := by
  rw [expandVariable.eq_def]
  simp only [hc, hf]

theorem expandVariable_value {c : Cache} {s : Sources} {d : Definition} (hc : p.cycle? n = none)
    (hf : l.cache.findNow (p.key n) l.sources = .ok (none, c, s))
    (hd : p.context.define? n = .ok (some d)) (hp : d.parsed = .ok segments) :
    p.expandVariable (left + 1) n l =
      p.expandValue (p.depthAt (left + 1)) (fun n l => below (p.expandVariable left n l)) n d segments
        ({ l with cache := c, sources := s }.note (missEvent n (p.depthAt (left + 1)))) := by
  rw [expandVariable_miss hc hf, expandDefined_value hd hp]

theorem expandVariable_refused {r : Refusal} (hc : p.cycle? n = none)
    (hf : l.cache.findNow (p.key n) l.sources = .error r) :
    p.expandVariable (left + 1) n l = (.error (.refused r), l) := by
  rw [expandVariable.eq_def]
  simp only [hc, hf]

theorem expandVariable_hit {e : Cache.Entry} {c : Cache} {s : Sources} (hc : p.cycle? n = none)
    (hf : l.cache.findNow (p.key n) l.sources = .ok (some e, c, s)) :
    p.expandVariable (left + 1) n l =
      if (left : Int) + 1 ≤ e.height then
        (.error (.tooDeep n []), { l with cache := c, sources := s }.note
          (p.hitEvent n e true (p.depthAt (left + 1))))
      else (.ok { text := e.value, height := e.height },
        ({ l with cache := c, sources := s }.note
          (p.hitEvent n e false (p.depthAt (left + 1)))).markResolved n) := by
  rw [expandVariable.eq_def]
  simp only [hc, hf]
  by_cases h : (left : Int) + 1 ≤ e.height
  · simp only [h, decide_true, if_true]
  · simp only [h, decide_false, if_false, Bool.false_eq_true]

/-- A variable goes by the levels allowed: it is circular, at the bound or in the cache, or its
value is expanded with one level less. -/
@[elab_as_elim]
theorem expandVariable_induct (p : Pass)
    {motive : Nat → String → Ledger → Except Stop Expansion × Ledger → Prop}
    (circular : ∀ (left : Nat) n l cycle, p.cycle? n = some cycle →
      motive left n l (.ok (.failed n), l.note (circularEvent n cycle (p.depthAt left))))
    (bound : ∀ n l, p.cycle? n = none →
      motive 0 n l (.error (.tooDeep n []), l.note (p.boundEvent n (p.depthAt 0))))
    (refused : ∀ (left : Nat) n l r, p.cycle? n = none →
      l.cache.findNow (p.key n) l.sources = .error r →
        motive (left + 1) n l (.error (.refused r), l))
    (miss : ∀ (left : Nat) n l c s, p.cycle? n = none →
      l.cache.findNow (p.key n) l.sources = .ok (none, c, s) →
        (∀ m l, motive left m l (p.expandVariable left m l)) →
          motive (left + 1) n l (p.expandDefined (p.depthAt (left + 1))
            (fun m l => below (p.expandVariable left m l)) n
            ({ l with cache := c, sources := s }.note (missEvent n (p.depthAt (left + 1))))))
    (tooDeep : ∀ (left : Nat) n l e c s, p.cycle? n = none →
      l.cache.findNow (p.key n) l.sources = .ok (some e, c, s) → (left : Int) + 1 ≤ e.height →
        motive (left + 1) n l (.error (.tooDeep n []), { l with cache := c, sources := s }.note
          (p.hitEvent n e true (p.depthAt (left + 1)))))
    (hit : ∀ (left : Nat) n l e c s, p.cycle? n = none →
      l.cache.findNow (p.key n) l.sources = .ok (some e, c, s) → ¬ (left : Int) + 1 ≤ e.height →
        motive (left + 1) n l (.ok { text := e.value, height := e.height },
          ({ l with cache := c, sources := s }.note
            (p.hitEvent n e false (p.depthAt (left + 1)))).markResolved n))
    (left : Nat) (n : String) (l : Ledger) : motive left n l (p.expandVariable left n l) := by
  induction left generalizing n l with
  | zero =>
    cases hc : p.cycle? n with
    | some cycle => exact expandVariable_circular hc ▸ circular 0 n l cycle hc
    | none => exact expandVariable_zero hc ▸ bound n l hc
  | succ left ih =>
    cases hc : p.cycle? n with
    | some cycle => exact expandVariable_circular hc ▸ circular (left + 1) n l cycle hc
    | none =>
      rcases hf : l.cache.findNow (p.key n) l.sources with r | ⟨_ | e, c, s⟩
      · exact expandVariable_refused hc hf ▸ refused left n l r hc hf
      · exact expandVariable_miss hc hf ▸ miss left n l c s hc hf ih
      · rw [expandVariable_hit hc hf]
        split_ifs with h
        · exact tooDeep left n l e c s hc hf h
        · exact hit left n l e c s hc hf h

theorem expandValue_outermost {depth : Int} {d : Definition} {m : String} {inner : List String}
    {expand : String → Ledger → Except Stop Expansion × Ledger}
    (h : (p.expandValue depth expand n d segments l).1 = .error (.tooDeep m inner)) : m = n := by
  cases hr : segments.any Segment.isReference with
  | false =>
    rw [expandValue_literal hr] at h
    exact absurd h settle_not_tooDeep
  | true =>
    rcases hx : p.expandAll (depth + 1) .refused expand segments
      (l.note (p.lookupEvent n d true depth)) with ⟨(⟨k, names⟩ | r) | x, l'⟩
    · rw [expandValue_tooDeep hr hx] at h
      cases h
      rfl
    · rw [expandValue_refused hr hx] at h
      cases h
    · rw [expandValue_ok hr hx] at h
      exact absurd h settle_not_tooDeep

theorem expandDefined_outermost {depth : Int} {m : String} {inner : List String}
    {expand : String → Ledger → Except Stop Expansion × Ledger}
    (h : (p.expandDefined depth expand n l).1 = .error (.tooDeep m inner)) : m = n := by
  have ha := expandDefined_goes p depth expand n l
  generalize p.expandDefined depth expand n l = a at h ha
  cases ha with
  | refused => cases h
  | undefined => cases h
  | malformed => cases h
  | value hd hp => exact expandValue_outermost h

/-- A chain that is too deep begins with the name that is expanded. -/
theorem expandVariable_outermost {m : String} {inner : List String}
    (h : (p.expandVariable left n l).1 = .error (.tooDeep m inner)) : m = n := by
  induction left, n, l using p.expandVariable_induct with
  | circular => cases h
  | bound =>
    cases h
    rfl
  | refused => cases h
  | miss left n l c s hc hf ih => exact expandDefined_outermost h
  | tooDeep =>
    cases h
    rfl
  | hit => cases h

end Pass
end Stencil
