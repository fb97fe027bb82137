/-
# What an expansion depends on

With a cache that keeps nothing, and functions whose outputs depend on their
arguments only, what comes of a reference depends on the reference alone: not
on what was expanded before it, not on what is listed or marked so far, and not
on which other names of the template are circular. So the references of a
template do not influence each other, and templates that follow each other come
to what each of them comes to.

Key definitions: `Ledger.Fails`, `Comes`, `IsUniform`, `andThen`.
Key theorems: `expandAll_append`, `expandVariable_uniform`,
`expandSegments_uniform`.
-/
import Stencil.Proofs.Expansion.Meaning
import Stencil.Proofs.Expansion.Tally
import Stencil.Proofs.Template.Concat

namespace Stencil

open Template Context

namespace Expansion

theorem append_assoc (a b c : Expansion) : (a.append b).append c = a.append (b.append c) := by
  simp only [append, String.append_assoc, Bool.and_assoc, max_assoc]

theorem empty_append {a : Expansion} (h : 0 ≤ a.height) : empty.append a = a := by
  simp [empty, append, h]

end Expansion

/-! ### What becomes unresolved -/

namespace Ledger

/-- From `l` to `l'` the names of `F` became unresolved, and the cache keeps nothing. -/
structure Fails (F : String → Prop) (l l' : Ledger) : Prop where
  idle : l'.cache.IsIdle
  failed : ∀ m, (m, false) ∈ l'.status ↔ (m, false) ∈ l.status ∨ F m

namespace Fails

variable {F G : String → Prop} {l l' l'' : Ledger} {n : String}

theorem refl (h : l.cache.IsIdle) : Fails (fun _ => False) l l :=
  ⟨h, fun _ => (or_iff_left id).symm⟩

theorem trans (h : Fails F l l') (h' : Fails G l' l'') : Fails (fun m => F m ∨ G m) l l'' :=
  ⟨h'.idle, fun m => by rw [h'.failed, h.failed, or_assoc]⟩

theorem congr (h : Fails F l l') (hF : ∀ m, F m ↔ G m) : Fails G l l' :=
  ⟨h.idle, fun m => by rw [h.failed, hF]⟩

/-- Events and sources do not matter, nor does another cache that keeps nothing. -/
theorem of_status (hi : l'.cache.IsIdle) (hs : l'.status = l.status) :
    Fails (fun _ => False) l l' := ⟨hi, fun m => by rw [hs, or_false]⟩

theorem markResolved (h : l.cache.IsIdle) (n : String) :
    Fails (fun _ => False) l (l.markResolved n) := by
  refine ⟨h, fun m => ?_⟩
  rw [Ledger.markResolved, Pass.mem_setResolved]
  simp

theorem markFailed (h : l.cache.IsIdle) (n : String) : Fails (· = n) l (l.markFailed n) :=
  ⟨h, fun _ => mem_setFailed_iff⟩

theorem list (h : l.cache.IsIdle) (n : String) (f : Failure) : Fails (· = n) l (l.list n f) :=
  ⟨h, fun _ => mem_setFailed_iff⟩

theorem fail (h : l.cache.IsIdle) (n : String) (f : Failure) : Fails (· = n) l (l.fail n f) := by
  unfold Ledger.fail
  split_ifs
  · exact .markFailed h n
  · exact .list h n f

end Fails
end Ledger

namespace Pass

open Ledger

variable {p : Pass} {out : Reference → Except CallStop String} {n : String} {l l' : Ledger}

/-- The names on cycles are unresolved from the start. -/
theorem failCircular_fails (hl : l.cache.IsIdle) :
    l.Fails (fun m => (p.cycle? m).isSome) (p.failCircular l) := by
  have hall : ∀ (cycles : List (String × List String)) (l : Ledger), l.cache.IsIdle →
      l.Fails (· ∈ cycles.map Prod.fst) ((p.listing cycles).failCircular l) := by
    intro cycles
    induction cycles with
    | nil => exact fun l hl => (Fails.refl hl).congr fun m => by simp
    | cons c cycles ih =>
      intro l hl
      have hc := Fails.fail hl c.1 (.circular c.1 c.2)
      rw [failCircular_cons]
      exact (hc.trans (ih _ hc.idle)).congr fun m => by rw [List.map_cons, List.mem_cons]
  exact (hall p.circular l hl).congr fun m => cycle?_isSome.symm

/-! ### Steps -/

section

variable {ε : Type}

/-- What comes of a step that began with the ledger `l`: the answer `a`, and names of `F` that are
unresolved now. -/
structure Comes (a : Except ε Expansion) (F : String → Prop) (l : Ledger)
    (x : Except ε Expansion × Ledger) : Prop where
  answer : x.1 = a
  fails : l.Fails F x.2

/-- The same comes of a step whatever its ledger holds, and whichever of the names that `K` allows
lie on cycles. -/
def IsUniform (p : Pass) (K : Pass → Prop)
    (f : Pass → Ledger → Except ε Expansion × Ledger) : Prop :=
  ∃ a F, ∀ cycles l, K (p.listing cycles) → l.cache.IsIdle →
    Comes a F l (f (p.listing cycles) l)

/-- A step and, unless it ends the expansion, another one after it. -/
def andThen (a : Except ε Expansion × Ledger)
    (f : Ledger → Except ε Expansion × Ledger) : Except ε Expansion × Ledger :=
  match a with
  | (.error e, l) => (.error e, l)
  | (.ok x, l) => ((f l).1.map x.append, (f l).2)

variable {a b : Except ε Expansion} {F G : String → Prop} {K K' : Pass → Prop}
  {f g : Pass → Ledger → Except ε Expansion × Ledger}

theorem Comes.andThen {x : Except ε Expansion × Ledger}
    {f : Ledger → Except ε Expansion × Ledger} (h : Comes a F l x)
    (hf : ∀ l, l.cache.IsIdle → Comes b G l (f l)) :
    Comes (a.bind fun x => b.map x.append) (fun m => F m ∨ (∃ y, a = .ok y) ∧ G m) l
      (andThen x f) := by
  obtain ⟨e | y, l'⟩ := x
  · obtain ⟨rfl, hx⟩ := h
    refine ⟨rfl, hx.congr fun m => ?_⟩
    simp
  · obtain ⟨rfl, hx⟩ := h
    have hy := hf l' hx.idle
    refine ⟨congrArg (Except.map y.append) hy.answer, (hx.trans hy.fails).congr fun m => ?_⟩
    simp

/-- A step may be taken to begin earlier, where nothing was unresolved yet that is not. -/
theorem Comes.after {x : Except ε Expansion × Ledger} (h : Comes a F l' x)
    (hs : l.Fails (fun _ => False) l') : Comes a F l x :=
  ⟨h.answer, (hs.trans h.fails).congr fun m => by rw [false_or]⟩

theorem IsUniform.mono (h : p.IsUniform K f)
    (hK : ∀ cycles, K' (p.listing cycles) → K (p.listing cycles)) : p.IsUniform K' f := by
  obtain ⟨a, F, h⟩ := h
  exact ⟨a, F, fun cycles l hk hl => h cycles l (hK cycles hk) hl⟩

theorem IsUniform.congr (h : p.IsUniform K f)
    (hg : ∀ cycles l, g (p.listing cycles) l = f (p.listing cycles) l) : p.IsUniform K g := by
  obtain ⟨a, F, h⟩ := h
  exact ⟨a, F, fun cycles l hk hl => hg cycles l ▸ h cycles l hk hl⟩

theorem IsUniform.andThen (hf : p.IsUniform K f) (hg : p.IsUniform K g) :
    p.IsUniform K fun q l => Pass.andThen (f q l) (g q) := by
  obtain ⟨a, F, hf⟩ := hf
  obtain ⟨b, G, hg⟩ := hg
  exact ⟨_, _, fun cycles l hk hl => (hf cycles l hk hl).andThen fun l => hg cycles l hk⟩

end

/-! ### Segments -/

section

variable {ε : Type} {depth : Int} {stop : Refusal → ε}
  {expand : String → Ledger → Except ε Expansion × Ledger} {s : Segment}
  {segments ss ts : List Segment}

theorem expandAll_eq_andThen (s : Segment) (rest : List Segment) (l : Ledger) :
    p.expandAll depth stop expand (s :: rest) l =
      andThen (p.expandSegment depth stop expand s l) (p.expandAll depth stop expand rest) := by
  rw [expandAll]
  rcases p.expandSegment depth stop expand s l with ⟨_ | x, l'⟩
  · rfl
  · dsimp only [andThen]
    rcases p.expandAll depth stop expand rest l' with ⟨_ | y, l''⟩ <;> rfl

/-- A sequence of segments counts no negative number of levels. -/
theorem expandAll_height {x : Expansion}
    (h : p.expandAll depth stop expand segments l = (.ok x, l')) : 0 ≤ x.height := by
  induction segments generalizing l l' x with
  | nil =>
    cases h
    exact le_rfl
  | cons s rest ih =>
    rcases ha : p.expandSegment depth stop expand s l with ⟨_ | y, l₁⟩
    · rw [expandAll_head ha] at h
      cases h
    · rcases hb : p.expandAll depth stop expand rest l₁ with ⟨_ | z, l₂⟩
      · rw [expandAll_tail ha hb] at h
        cases h
      · have hz := ih hb
        rw [expandAll_ok ha hb] at h
        cases h
        exact hz.trans (le_max_right _ _)

theorem andThen_assoc (a : Except ε Expansion × Ledger)
    (f g : Ledger → Except ε Expansion × Ledger) :
    andThen (andThen a f) g = andThen a fun l => andThen (f l) g := by
  obtain ⟨_ | x, l⟩ := a
  · rfl
  · dsimp only [andThen]
    rcases f l with ⟨_ | y, l'⟩
    · rfl
    · dsimp only [Except.map]
      rcases g l' with ⟨_ | z, l''⟩
      · rfl
      · simp only [Expansion.append_assoc]

theorem andThen_empty (ts : List Segment) (l : Ledger) :
    andThen (.ok .empty, l) (p.expandAll depth stop expand ts) =
      p.expandAll depth stop expand ts l := by
  dsimp only [andThen]
  rcases hx : p.expandAll depth stop expand ts l with ⟨_ | x, l'⟩
  · rfl
  · simp only [Except.map, Expansion.empty_append (expandAll_height hx)]

/-- **Segments that follow each other are expanded one after the other.** -/
theorem expandAll_append (ss ts : List Segment) (l : Ledger) :
    p.expandAll depth stop expand (ss ++ ts) l =
      andThen (p.expandAll depth stop expand ss l) (p.expandAll depth stop expand ts) := by
  induction ss generalizing l with
  | nil => exact (andThen_empty ts l).symm
  | cons s rest ih =>
    rw [List.cons_append, expandAll_eq_andThen, expandAll_eq_andThen, andThen_assoc]
    exact congrArg _ (funext ih)

theorem expandAll_literalRun (pos : Nat) (run : List Char) (l : Ledger) :
    p.expandAll depth stop expand (literalRun pos run) l =
      (.ok { text := String.ofList run.reverse }, l) := by
  rw [expandAll_literals, sources_literalRun]
  unfold literalRun
  split_ifs <;> simp [Segment.isReference]

/-- Literal text that is cut in two expands to the same. -/
theorem andThen_literal (u v : List Char) (l : Ledger)
    (f : Ledger → Except ε Expansion × Ledger) :
    andThen (.ok { text := String.ofList (u ++ v) }, l) f =
      andThen (.ok { text := String.ofList u }, l) fun l =>
        andThen (.ok { text := String.ofList v }, l) f := by
  rw [← andThen_assoc, String.ofList_append]
  exact congrArg (fun x => andThen (.ok x, l) f) (append_literal _ _ 0).symm

/-- **The segments of a template expand to what its pieces do one by one.** -/
theorem expandAll_layOut (pos : Nat) (run : List Char) (ps : List Piece) (l : Ledger) :
    p.expandAll depth stop expand (layOut pos run ps).segments l =
      andThen (.ok { text := String.ofList run.reverse }, l)
        (p.expandAll depth stop expand (ps.map Piece.segment)) := by
  have hliteral : ∀ (text : List Char) (span : Span) (ps : List Piece),
      p.expandAll depth stop expand (.literal (String.ofList text) span :: ps.map Piece.segment) =
        fun l => andThen (.ok { text := String.ofList text }, l)
          (p.expandAll depth stop expand (ps.map Piece.segment)) :=
    fun text span ps => funext fun l => expandAll_eq_andThen _ _ l
  fun_induction layOut pos run ps generalizing l with
  | case1 pos run =>
    have hx := append_literal (String.ofList run.reverse) "" 0
    rw [String.append_empty] at hx
    rw [expandAll_literalRun]
    exact congrArg (fun x => (Except.ok x, l)) hx.symm
  | case2 pos run c ps ih =>
    rw [ih, List.reverse_cons, andThen_literal, List.map_cons, Piece.segment, hliteral]
  | case3 pos run text reason name ps stop rest ih =>
    rw [ih, List.reverse_append, List.reverse_reverse, andThen_literal, List.map_cons,
      Piece.segment, hliteral]
  | case4 pos run text name args ps stop rest ih =>
    rw [expandAll_append, expandAll_literalRun]
    refine congrArg _ (funext fun l => ?_)
    have hrest : p.expandAll depth _ expand rest.segments =
        p.expandAll depth _ expand (ps.map Piece.segment) :=
      funext fun l => (ih l).trans (andThen_empty _ l)
    rw [List.map_cons, expandAll_eq_andThen, expandAll_eq_andThen, hrest]
    rfl

/-- The segments of a template expand to the same as its pieces. -/
theorem expandAll_pieces (ps : List Piece) (l : Ledger) :
    p.expandAll depth stop expand (layOut 0 [] ps).segments l =
      p.expandAll depth stop expand (ps.map Piece.segment) l :=
  (expandAll_layOut 0 [] ps l).trans (andThen_empty _ l)

end

/-! ### Calls and segments -/

/-- A pass knows all that segments refer to. -/
def KnowsAll (p : Pass) (segments : List Segment) : Prop :=
  ∀ n ∈ variableNames segments, p.Knows n

theorem KnowsAll.subset {ss ts : List Segment} (h : p.KnowsAll ts) (hs : ss ⊆ ts) :
    p.KnowsAll ss := by
  intro n hn
  obtain ⟨r, hr, hc⟩ := mem_variableNames.1 hn
  exact h n (mem_variableNames.2 ⟨r, hs hr, hc⟩)

theorem knowsAll_pieces {ps : List Piece} :
    p.KnowsAll (layOut 0 [] ps).segments ↔ p.KnowsAll (ps.map Piece.segment) := by
  unfold KnowsAll
  rw [variableNames_layOut]

/-- What a call leaves, by what the function gives. -/
def callAnswer (r : Reference) : Except CallStop String → Except Refusal Expansion
  | .ok text => .ok (.called text)
  | .error (.failed _) => .ok (.failed r.displayName)
  | .error (.refused e) => .error e

theorem expandCall_comes (p : Pass) (depth : Int) (r : Reference) (hl : l.cache.IsIdle)
    {o : Except CallStop String} (ho : (p.library.invoke r.name r.arguments l.sources).1 = o) :
    Comes (callAnswer r o) (fun m => (∃ f, o = .error (.failed f)) ∧ m = r.displayName) l
      (p.expandCall depth r l) := by
  have hnote : ∀ (s : Sources) (e : Event),
      l.Fails (fun _ => False) ({ l with sources := s }.note e) := fun _ _ => .of_status hl rfl
  have hgoes := expandCall_goes p depth r l
  generalize p.expandCall depth r l = a at hgoes ⊢
  cases hgoes with
  | @called text s hi =>
    rw [hi] at ho
    cases ho
    have hs := hnote s (callEvent r text none depth)
    exact ⟨rfl, (hs.trans (.markResolved hs.idle r.displayName)).congr fun m => by simp⟩
  | @failed f s hi =>
    rw [hi] at ho
    cases ho
    have hs := hnote s (callEvent r (Marker.marker r.displayName) (some f.message) depth)
    exact ⟨rfl, (hs.trans (.list hs.idle r.displayName f)).congr fun m => by simp⟩
  | @refused e s hi =>
    rw [hi] at ho
    cases ho
    have hs : l.Fails (fun _ => False) { l with sources := s } := .of_status hl rfl
    exact ⟨rfl, hs.congr fun m => by simp⟩

section

variable {ε : Type} {depth : Int} {stop : Refusal → ε}
  {expand : Pass → String → Ledger → Except ε Expansion × Ledger} {segments : List Segment}

theorem expandSegment_uniform (hout : p.library.Gives out) (s : Segment)
    (he : ∀ r, s = .reference r → r.isCall = false →
      p.IsUniform (·.Knows r.name) fun q => expand q r.name) :
    p.IsUniform (·.KnowsAll [s]) fun q => q.expandSegment depth stop (expand q) s := by
  cases s with
  | literal text span => exact ⟨.ok { text }, _, fun cycles l _ hl => ⟨rfl, .refl hl⟩⟩
  | reference r =>
    cases hr : r.isCall with
    | false =>
      have hv : p.IsUniform (·.KnowsAll [.reference r]) fun q => expand q r.name :=
        (he r rfl hr).mono fun cycles hk =>
          hk r.name (mem_variableNames.2 ⟨r, List.mem_singleton.2 rfl, hr, rfl⟩)
      exact hv.congr fun q l => expandSegment_variable hr
    | true =>
      refine ⟨(callAnswer r (out r)).mapError stop,
        fun m => (∃ f, out r = .error (.failed f)) ∧ m = r.displayName, fun cycles l _ hl => ?_⟩
      have hc := expandCall_comes (p.listing cycles) depth r hl (hout r l.sources)
      simp only [expandSegment, hr, if_true]
      exact ⟨congrArg (Except.mapError stop) hc.answer, hc.fails⟩

theorem expandAll_uniform (hout : p.library.Gives out) (segments : List Segment)
    (he : ∀ r, .reference r ∈ segments → r.isCall = false →
      p.IsUniform (·.Knows r.name) fun q => expand q r.name) :
    p.IsUniform (·.KnowsAll segments) fun q => q.expandAll depth stop (expand q) segments := by
  induction segments with
  | nil => exact ⟨.ok .empty, _, fun cycles l _ hl => ⟨rfl, .refl hl⟩⟩
  | cons s rest ih =>
    have hs : p.IsUniform (·.KnowsAll (s :: rest))
        fun q => q.expandSegment depth stop (expand q) s :=
      (expandSegment_uniform hout s fun r hr => he r (hr ▸ List.mem_cons_self)).mono
        fun cycles hk => hk.subset (by simp)
    have hrest : p.IsUniform (·.KnowsAll (s :: rest))
        fun q => q.expandAll depth stop (expand q) rest :=
      (ih fun r hr => he r (List.mem_cons_of_mem _ hr)).mono
        fun cycles hk => hk.subset (List.subset_cons_self _ _)
    exact (hs.andThen hrest).congr fun q l => expandAll_eq_andThen s rest l

end

/-! ### Variables -/

theorem settle_status (p : Pass) (n : String) (d : Definition) (x : Expansion) (l : Ledger) :
    (p.settle n d x l).2.status =
      if x.isOk then setResolved n l.status else setFailed n l.status := by
  have hgoes := settle_goes p n d x l
  generalize p.settle n d x l = a at hgoes ⊢
  cases hgoes with
  | failed ho => rw [ho]; rfl
  | impure ho => rw [ho]; rfl
  | kept ho => rw [ho]; rfl
  | refused ho => rw [ho]; rfl

theorem settle_comes (p : Pass) (n : String) (d : Definition) (x : Expansion)
    (hl : l.cache.IsIdle) :
    Comes (.ok x) (fun m => x.isOk = false ∧ m = n) l (p.settle n d x l) := by
  obtain ⟨l', hx, hi⟩ := settle_idle p n d x hl
  have hs := settle_status p n d x l
  rw [hx] at hs ⊢
  refine ⟨rfl, hi, fun m => ?_⟩
  dsimp only at hs ⊢
  rw [hs]
  cases x.isOk with
  | true => simp [mem_setResolved]
  | false => simp [mem_setFailed_iff]

/-- What the value of a name comes to, by what its segments come to. -/
def valueAnswer (n : String) : Except Stop Expansion → Except Stop Expansion
  | .error (.tooDeep m inner) => .error (.tooDeep n (m :: inner))
  | a => a

theorem expandValue_comes {depth : Int} {d : Definition} {segments : List Segment}
    {expand : String → Ledger → Except Stop Expansion × Ledger} {a : Except Stop Expansion}
    {F : String → Prop} (hr : segments.any Segment.isReference = true) (hl : l.cache.IsIdle)
    (h : Comes a F (l.note (p.lookupEvent n d true depth))
      (p.expandAll (depth + 1) .refused expand segments
        (l.note (p.lookupEvent n d true depth)))) :
    Comes (valueAnswer n a) (fun m => F m ∨ ((∃ x, a = .ok x ∧ x.isOk = false) ∧ m = n)) l
      (p.expandValue depth expand n d segments l) := by
  have hnote : l.Fails (fun _ => False) (l.note (p.lookupEvent n d true depth)) :=
    .of_status hl rfl
  generalize hx : p.expandAll (depth + 1) .refused expand segments
    (l.note (p.lookupEvent n d true depth)) = b at h
  obtain ⟨(⟨m, inner⟩ | r) | x, l'⟩ := b
  · obtain ⟨rfl, hf⟩ := h
    rw [expandValue_tooDeep hr hx]
    exact ⟨rfl, (hnote.trans hf).congr fun m => by simp⟩
  · obtain ⟨rfl, hf⟩ := h
    rw [expandValue_refused hr hx]
    exact ⟨rfl, (hnote.trans hf).congr fun m => by simp⟩
  · obtain ⟨rfl, hf⟩ := h
    have hn : l'.Fails (fun _ => False) (l'.note (nestedEvent n d x depth)) :=
      .of_status hf.idle rfl
    obtain ⟨ha, hs⟩ := settle_comes p n d x hn.idle
    rw [expandValue_ok hr hx]
    exact ⟨ha, ((hnote.trans hf).trans (hn.trans hs)).congr fun m => by simp⟩

theorem expandValue_uniform {depth : Int}
    {expand : Pass → String → Ledger → Except Stop Expansion × Ledger} {d : Definition}
    {segments : List Segment}
    (h : p.IsUniform (·.KnowsAll segments)
      fun q => q.expandAll (depth + 1) .refused (expand q) segments) :
    p.IsUniform (·.KnowsAll segments)
      fun q => q.expandValue depth (expand q) n d segments := by
  cases hr : segments.any Segment.isReference with
  | false =>
    refine ⟨.ok { text := d.text }, fun _ => False, fun cycles l hk hl => ?_⟩
    have hnote : l.Fails (fun _ => False)
        (l.note ((p.listing cycles).lookupEvent n d false depth)) := .of_status hl rfl
    have hs := settle_comes (p.listing cycles) n d { text := d.text } hnote.idle
    dsimp only
    rw [expandValue_literal hr]
    exact ⟨hs.answer, (hs.after hnote).fails.congr fun m => by simp⟩
  | true =>
    obtain ⟨a, F, h⟩ := h
    exact ⟨_, _, fun cycles l hk hl => expandValue_comes hr hl (h cycles _ hk hl)⟩

theorem expandDefined_uniform {depth : Int}
    {expand : Pass → String → Ledger → Except Stop Expansion × Ledger}
    (hout : p.library.Gives out)
    (he : ∀ m, p.IsUniform (·.Knows m) fun q => expand q m) (hn : ¬ p.context.OnCycle n) :
    p.IsUniform (·.Knows n) fun q => q.expandDefined depth (expand q) n := by
  rcases hd : p.context.define? n with r | _ | d
  · -- no pass knows a name that cannot be looked up
    refine ⟨.error (.refused r), fun _ => False, fun cycles l hk hl => ?_⟩
    obtain ⟨d?, hd'⟩ := (hk n .refl).2
    exact absurd (hd.symm.trans hd') (by simp)
  · refine ⟨.ok (.failed n), (· = n), fun cycles l hk hl => ?_⟩
    have hnote : l.Fails (fun _ => False) (l.note (undefinedEvent n depth)) := .of_status hl rfl
    dsimp only
    rw [expandDefined_undefined (p := p.listing cycles) hd]
    exact .after ⟨rfl, .fail hnote.idle n (.undefined n)⟩ hnote
  · cases hp : d.parsed with
    | error f =>
      refine ⟨.ok (.failed n), (· = n), fun cycles l hk hl => ?_⟩
      have hnote : l.Fails (fun _ => False)
          (l.note ((p.listing cycles).malformedEvent n d (.ofFault f) depth)) := .of_status hl rfl
      dsimp only
      rw [expandDefined_malformed (p := p.listing cycles) hd hp]
      exact .after ⟨rfl, .fail hnote.idle n (.ofFault f)⟩ hnote
    | ok segments =>
      have ho : p.context.Opens n segments := ⟨hn, d, hd, hp⟩
      have hall : p.IsUniform (·.KnowsAll segments)
          fun q => q.expandAll (depth + 1) .refused (expand q) segments :=
        expandAll_uniform hout segments fun r _ _ => he r.name
      have hvalue : p.IsUniform (·.Knows n) fun q => q.expandValue depth (expand q) n d segments :=
        (expandValue_uniform hall).mono fun cycles hk m hm =>
          hk.refers (ho.refers.2 (mem_variableNames.1 hm))
      exact hvalue.congr fun cycles l => expandDefined_value hd hp

theorem IsUniform.below {K : Pass → Prop} {f : Pass → Ledger → Except Stop Expansion × Ledger}
    (h : p.IsUniform K f) : p.IsUniform K fun q l => Pass.below (f q l) := by
  obtain ⟨a, F, h⟩ := h
  refine ⟨a.map Expansion.below, F, fun cycles l hk hl => ?_⟩
  obtain ⟨rfl, hf⟩ := h cycles l hk hl
  exact ⟨rfl, hf⟩

theorem circular_uniform (left : Nat) (hn : p.context.OnCycle n) :
    p.IsUniform (·.Knows n) fun q => q.expandVariable left n := by
  refine ⟨.ok (.failed n), fun _ => False, fun cycles l hk hl => ?_⟩
  obtain ⟨cycle, hc⟩ := Option.isSome_iff_exists.1 ((hk n .refl).1.2 hn)
  dsimp only
  rw [expandVariable_circular hc]
  exact ⟨rfl, .of_status hl rfl⟩

/-- **What comes of a variable depends on its name and on the levels that are left.** -/
theorem expandVariable_uniform (hout : p.library.Gives out) (left : Nat) (n : String) :
    p.IsUniform (·.Knows n) fun q => q.expandVariable left n := by
  induction left generalizing n with
  | zero =>
    by_cases hn : p.context.OnCycle n
    · exact circular_uniform 0 hn
    · refine ⟨.error (.tooDeep n []), fun _ => False, fun cycles l hk hl => ?_⟩
      dsimp only
      rw [expandVariable_zero (hk.cycle?_eq_none.2 hn)]
      exact ⟨rfl, .of_status hl rfl⟩
  | succ left ih =>
    by_cases hn : p.context.OnCycle n
    · exact circular_uniform (left + 1) hn
    · have hdefined : p.IsUniform (·.Knows n) fun q => q.expandDefined (p.depthAt (left + 1))
          (fun m l => Pass.below (q.expandVariable left m l)) n :=
        expandDefined_uniform hout (fun m => (ih m).below) hn
      obtain ⟨a, F, h⟩ := hdefined
      refine ⟨a, F, fun cycles l hk hl => ?_⟩
      obtain ⟨c, hi, hx⟩ := expandVariable_idle left (hk.cycle?_eq_none.2 hn) hl
      dsimp only
      rw [hx]
      exact (h cycles _ hk hi).after (.of_status hi rfl)

/-! ### Templates -/

/-- What a reference of the template comes to, by what its variable comes to. -/
def topAnswer (n : String) : Except Stop Expansion → Except Refusal Expansion
  | .ok x => .ok x
  | .error (.tooDeep _ _) => .ok (.failed n)
  | .error (.refused r) => .error r

theorem expandTop_comes {a : Except Stop Expansion} {F : String → Prop}
    (h : Comes a F l (p.expandVariable p.maxDepth n l)) :
    Comes (topAnswer n a) (fun m => F m ∨ ((∃ k inner, a = .error (.tooDeep k inner)) ∧ m = n)) l
      (p.expandTop n l) := by
  unfold expandTop
  rcases hx : p.expandVariable p.maxDepth n l with ⟨(⟨k, inner⟩ | r) | x, l'⟩
  · rw [hx] at h
    obtain ⟨rfl, hf⟩ := h
    exact ⟨rfl, (hf.trans (.fail hf.idle n (.tooDeep k inner p.maxDepth))).congr fun m => by simp⟩
  · rw [hx] at h
    obtain ⟨rfl, hf⟩ := h
    exact ⟨rfl, hf.congr fun m => by simp⟩
  · rw [hx] at h
    obtain ⟨rfl, hf⟩ := h
    exact ⟨rfl, hf.congr fun m => by simp⟩

/-- **What comes of the segments of a template depends on them alone.** -/
theorem expandSegments_uniform (hout : p.library.Gives out) (segments : List Segment) :
    p.IsUniform (·.KnowsAll segments) fun q => q.expandAll 0 id q.expandTop segments := by
  refine expandAll_uniform hout segments fun r _ _ => ?_
  obtain ⟨a, F, h⟩ := expandVariable_uniform hout p.maxDepth r.name
  exact ⟨_, _, fun cycles l hk hl => expandTop_comes (h cycles l hk hl)⟩

theorem Comes.template {a : Except Refusal Expansion} {F : String → Prop} {segments : List Segment}
    (hl : l.cache.IsIdle)
    (h : ∀ l, l.cache.IsIdle → Comes a F l (p.expandAll 0 id p.expandTop segments l)) :
    Comes a (fun m => (p.cycle? m).isSome ∨ F m) l (p.expandTemplate segments l) := by
  have hc := failCircular_fails (p := p) hl
  obtain ⟨ha, hf⟩ := h _ hc.idle
  exact ⟨ha, hc.trans hf⟩

end Pass
end Stencil
