/-
# Reading on behind a malformed expression

Reading goes on where a malformed expression ends. Where an expression can
start there, one is read, and it is the reference that is written. Every start
of an expression stands in a reference or in a fault, with one exception: where
a closing brace, a comma or a closing parenthesis is missing, the character in
its place belongs to the fault, and if that is the first of the two that start
an expression, the expression is not seen (`starts_recovered`).

Key definitions: `StartsAt`, `Reading.Covers`, `Fault.Splits`,
`Reading.Recovers`.
Key theorems: `readReference_stops`, `starts_recovered`.
-/
import Stencil.Proofs.Context.Plain
import Stencil.Proofs.Template.Layout
import Stencil.Proofs.Template.Overlong

namespace Stencil
namespace Template

open Text Context Grammar

/-- At the place `p` of a text stands the start of an expression. -/
def StartsAt (cs : List Char) (p : Nat) : Prop := ['$', '{'] <+: cs.drop p

/-- The two characters from the place `p` on stand in a reference or in a fault. -/
def Reading.Covers (r : Reading) (p : Nat) : Prop :=
  ∃ sp ∈ r.marks, sp.start ≤ p ∧ p + 2 ≤ sp.stop

/-- A fault that ends with the character at the place `p`, which stands where a delimiter is
missing. -/
def Fault.Splits (f : Fault) (p : Nat) : Prop :=
  (f.reason = .unclosedCall ∨ f.reason = .unseparated) ∧ f.span.stop = p + 1

/-- A reading has a reference among its segments, and lists it. -/
structure Reading.Finds (r : Reading) (x : Reference) : Prop where
  mem_segments : .reference x ∈ r.segments
  listed : if x.isCall then x ∈ calls r.segments else x.name ∈ variableNames r.segments

/-- What a reading does about the starts of expressions in the text. -/
structure Reading.Recovers (r : Reading) (cs : List Char) : Prop where
  /-- They are seen, unless a fault ends between the two characters. -/
  covers_iff : ∀ p, StartsAt cs p → (r.Covers p ↔ ¬ ∃ f ∈ r.faults, f.Splits p)
  /-- One right behind a fault begins a reference or another fault. -/
  resumes : ∀ f ∈ r.faults, StartsAt cs f.span.stop → ∃ sp ∈ r.marks, sp.start = f.span.stop
  /-- A well-formed expression right behind a fault is read. -/
  reads : ∀ f ∈ r.faults, ∀ e : Expression, e.IsShort → e.text <+: cs.drop f.span.stop →
    r.Finds (e.reference f.span.stop)

variable {cs ds rest : List Char} {q : Piece} {ps : List Piece} {p pos : Nat}

/-! ### Where a malformed expression ends -/

/-- A reading of `cs` that leaves `rest` does not end between the two characters of a start. -/
def StopsClean (cs rest : List Char) : Prop :=
  rest.head? = some '{' → ∃ pre d, cs = pre ++ d :: rest ∧ d ≠ '$'

theorem stopsClean_nil (cs : List Char) : StopsClean cs [] := fun h => by cases h

theorem stopsClean_dollar (cs r : List Char) : StopsClean cs ('$' :: r) := fun h => by cases h

theorem stopsClean_append {pre : List Char} {d : Char} (h : d ≠ '$') :
    StopsClean (pre ++ d :: rest) rest := fun _ => ⟨pre, d, rfl, h⟩

/-- A reader of `cs` that finds an expression malformed ends between the two characters of a start
only where a delimiter is missing. -/
def Stops {α : Type} (cs : List Char) : Except Halt (α × List Char) → Prop
  | .error (.malformed reason _ rest) =>
    reason = .unclosedCall ∨ reason = .unseparated ∨ StopsClean cs rest
  | _ => True

theorem Stops.mono {α : Type} {x : Except Halt (α × List Char)} (h : Stops cs x)
    (hs : cs <:+ ds) : Stops ds x := by
  match x with
  | .ok _ | .error (.refused _) => trivial
  | .error (.malformed reason name rest) =>
    refine h.imp_right fun h => h.imp_right fun h hrest => ?_
    obtain ⟨pre, d, rfl, hd⟩ := h hrest
    obtain ⟨before, rfl⟩ := hs
    exact ⟨before ++ pre, d, (List.append_assoc _ _ _).symm, hd⟩

theorem Stops.error {α β : Type} {e : Halt}
    (h : Stops cs (.error e : Except Halt (α × List Char))) :
    Stops cs (.error e : Except Halt (β × List Char)) := by
  cases e <;> exact h

theorem readArgument_stops (name : String) (cs : List Char) : Stops cs (readArgument name cs) := by
  have hd := dropBlanks_suffix cs
  unfold readArgument
  split
  · exact .inr (.inr (stopsClean_nil _))
  · rename_i c r hc
    rw [hc] at hd
    split
    · split
      · exact .inr (.inr (stopsClean_nil _))
      · trivial
    · split
      · exact .inr (.inr (stopsClean_nil _))
      · rename_i word d after hread
        obtain ⟨hcs, -, -, hend⟩ := readWord_split hread
        rw [hcs] at hd
        have hbehind : ∀ reason, d ≠ '$' → Stops cs
            (.error (.malformed reason (some name) after) : Except Halt (Value × List Char)) :=
          fun reason h => Stops.mono (.inr (.inr (stopsClean_append h))) hd
        split
        · rename_i h
          exact hbehind _ (by rw [eq_of_beq h]; decide)
        split
        · rename_i h
          exact hbehind _ (by rw [eq_of_beq h]; decide)
        split
        · rename_i h
          rw [eq_of_beq h]
          exact .inr (.inr (stopsClean_dollar _ _))
        rename_i hdollar
        split
        · exact hbehind _ (by simpa using hdollar)
        split
        · trivial
        · trivial

theorem readItems_stops (name : String) (cs : List Char) : Stops cs (readItems name cs) := by
  have h₁ := readArgument_stops name cs
  have h₂ := readArgument_reads name cs
  fun_induction readItems name cs with
  | case1 cs e h =>
    rw [h] at h₁
    exact h₁.error
  | case2 => exact .inr (.inl rfl)
  | case3 => trivial
  | case4 cs v rest h c r hd hc e hr ih =>
    rw [h] at h₂
    have hs : r <:+ cs := (List.suffix_cons c r).trans ((hd ▸ dropBlanks_suffix rest).trans h₂)
    have h₃ := (ih (readArgument_stops name r) (readArgument_reads name r)).mono hs
    rw [hr] at h₃
    exact h₃
  | case5 => trivial
  | case6 => exact .inr (.inl rfl)

theorem readArguments_stops (name : String) (cs : List Char) :
    Stops cs (readArguments name cs) := by
  unfold readArguments
  split
  · trivial
  · exact (readItems_stops name (dropBlanks cs)).mono (dropBlanks_suffix cs)

/-- **A malformed expression ends between the two characters of a start only where a delimiter is
missing.** -/
theorem readReference_stops (cs : List Char) : Stops cs (readReference cs) := by
  unfold readReference
  split
  · exact .inr (.inr (stopsClean_nil _))
  · rename_i text d after hread
    obtain ⟨rfl, -⟩ := readName_split hread
    have hargs := (readArguments_stops (String.ofList (trim text)) after).mono
      ((List.suffix_cons d after).trans (List.suffix_append text (d :: after)))
    dsimp only
    split
    · rename_i h
      rw [eq_of_beq h]
      exact .inr (.inr (stopsClean_dollar _ _))
    rename_i hdollar
    have hd : d ≠ '$' := by simpa using hdollar
    split
    · exact .inr (.inr (stopsClean_append hd))
    split
    · exact .inr (.inr (stopsClean_append hd))
    split
    · trivial
    split
    · rename_i hr
      rw [hr] at hargs
      exact hargs.error
    · split
      · exact .inl rfl
      · split
        · trivial
        · exact .inl rfl

/-- Behind the last character of a piece stands what is left of the text. -/
theorem Cut.drop_last (h : Cut cs q rest) :
    ∃ d, q.text.getLast? = some d ∧ cs.drop (q.text.length - 1) = d :: rest := by
  have hne : q.text ≠ [] := List.ne_nil_of_length_pos h.text_pos
  refine ⟨q.text.getLast hne, List.getLast?_eq_some_getLast hne, ?_⟩
  calc cs.drop (q.text.length - 1)
      = (q.text.dropLast ++ q.text.getLast hne :: rest).drop (q.text.length - 1) := by
        rw [List.append_cons, List.dropLast_concat_getLast, h.text_append]
    _ = _ := by rw [← List.length_dropLast, List.drop_left]

/-- A piece that ends between the two characters of a start is malformed for want of a
delimiter. -/
theorem Cut.splits (h : Cut cs q rest) (hrest : rest.head? = some '{')
    (hlast : q.text.getLast? = some '$') :
    ∃ text reason name, q = .malformed text reason name ∧
      (reason = .unclosedCall ∨ reason = .unseparated) := by
  cases h with
  | char h => exact absurd ⟨Option.some.inj hlast, hrest⟩ h
  | malformed h =>
    rename_i r reason name
    refine ⟨_, reason, name, rfl, ?_⟩
    have hstops := readReference_stops r
    rw [h] at hstops
    rcases hstops with h | h | hclean
    · exact .inl h
    · exact .inr h
    · obtain ⟨pre, d, hr, hd⟩ := hclean hrest
      have htaken : taken r rest = pre ++ [d] := by
        rw [hr, taken, List.append_cons, List.length_append, Nat.add_sub_cancel, List.take_left]
      rw [Piece.text, htaken, ← List.cons_append, ← List.cons_append, List.getLast?_concat] at hlast
      exact absurd (Option.some.inj hlast) hd
  | reference h =>
    obtain ⟨e, -, -, -, rfl⟩ := written_of_readReference h
    rw [Piece.text, taken_expression, Expression.text, ← List.cons_append, ← List.cons_append,
      List.getLast?_concat] at hlast
    exact absurd (Option.some.inj hlast) (by decide)

/-! ### What is read behind it -/

/-- Behind a piece stands the next one, unless the text ends there. -/
theorem next_placed (hq : (p, q) ∈ placed pos ps) :
    p + q.text.length = pos + (ps.flatMap Piece.text).length ∨
      ∃ q', (p + q.text.length, q') ∈ placed pos ps := by
  induction ps generalizing pos with
  | nil => cases hq
  | cons x ps ih =>
    rcases List.mem_cons.1 hq with hq | hq
    · cases hq
      cases ps with
      | nil => exact .inl (by simp)
      | cons y ps => exact .inr ⟨y, List.mem_cons_of_mem _ List.mem_cons_self⟩
    · rcases ih hq with hend | ⟨q', hq'⟩
      · refine .inl ?_
        rw [hend, List.flatMap_cons, List.length_append, Nat.add_assoc]
      · exact .inr ⟨q', List.mem_cons_of_mem _ hq'⟩

/-- Where an expression is written, the text is cut at it. -/
theorem Cut.expression {e : Expression} (he : e.IsShort) {r : List Char}
    (h : Cut (e.text ++ r) q rest) :
    q = .reference e.text (String.ofList e.name.text) e.arguments? := by
  have hread := readReference_written e he r
  rw [Expression.text_append] at h
  cases h with
  | char h => exact absurd ⟨rfl, rfl⟩ h
  | malformed h =>
    rw [hread] at h
    cases h
  | reference h =>
    rw [hread] at h
    cases h
    rw [taken_expression]

/-- A text that begins with the start of an expression is not cut after its first character. -/
theorem Cut.ne_char (h : Cut cs q rest) (hcs : ['$', '{'] <+: cs) (c : Char) : q ≠ .char c := by
  rintro rfl
  cases h with
  | char h =>
    rw [List.cons_prefix_cons, List.singleton_prefix_iff_head?_eq_some] at hcs
    exact h ⟨hcs.1.symm, hcs.2⟩

/-- A piece that is more than a character is a reference or a fault. -/
theorem mem_marks_of_placed (hq : (p, q) ∈ placed 0 ps) (hlong : ∀ c, q ≠ .char c) :
    ⟨p, p + q.text.length⟩ ∈ (layOut 0 [] ps).marks := by
  rw [Reading.marks, List.mem_append]
  cases q with
  | char c => exact absurd rfl (hlong c)
  | malformed text reason name =>
    exact .inl (List.mem_map.2 ⟨_, mem_faults_layOut.2 ⟨_, _, hq, rfl⟩, rfl⟩)
  | reference text name args =>
    exact .inr (List.mem_map.2 ⟨_, mem_references_layOut.2 ⟨_, _, hq, rfl⟩, rfl⟩)

/-- The start of an expression stands in a reference or a fault, or a fault ends between its
characters. -/
theorem covers_or_splits (h : pieces cs = .ok ps) (hp : StartsAt cs p) :
    (layOut 0 [] ps).Covers p ∨ ∃ f ∈ (layOut 0 [] ps).faults, f.Splits p := by
  have hlt : p < cs.length := by
    have hle := hp.length_le
    rw [List.length_drop] at hle
    exact Nat.lt_of_sub_pos (Nat.lt_of_lt_of_le Nat.zero_lt_two hle)
  obtain ⟨start, q, hq, hstart, hstop⟩ :=
    exists_placed h (Nat.zero_le p) (by rwa [Nat.zero_add])
  obtain ⟨rest, hcut⟩ := cut_of_placed h hq
  by_cases hin : p + 2 ≤ start + q.text.length
  · have hlong : ∀ c, q ≠ .char c := by
      rintro c rfl
      rw [Piece.text, List.length_singleton] at hin
      omega
    exact .inl ⟨_, mem_marks_of_placed hq hlong, hstart, hin⟩
  · -- the piece ends with the first of the two characters
    obtain ⟨d, hlast, hdrop⟩ := hcut.drop_last
    rw [List.drop_drop, show start + (q.text.length - 1) = p by omega] at hdrop
    rw [StartsAt, hdrop, List.cons_prefix_cons, List.singleton_prefix_iff_head?_eq_some] at hp
    obtain ⟨text, reason, name, rfl, hreason⟩ := hcut.splits hp.2 (hp.1 ▸ hlast)
    refine .inr ⟨_, mem_faults_layOut.2 ⟨_, _, hq, rfl⟩, hreason, ?_⟩
    show start + (Piece.malformed text reason name).text.length = p + 1
    omega

/-- A fault that ends between two characters leaves no room for a reference or a fault around
them. -/
theorem not_covers_of_splits {f : Fault} (hf : f ∈ (layOut 0 [] ps).faults) (hs : f.Splits p) :
    ¬ (layOut 0 [] ps).Covers p := by
  rintro ⟨sp, hsp, hstart, hstop⟩
  obtain ⟨start, q, -, hq⟩ := mem_faults_layOut.1 hf
  have hspan := Piece.span_of_fault? hq
  have hend := hs.2
  rw [hspan] at hend
  have hmark : f.span ∈ (layOut 0 [] ps).marks :=
    List.mem_append_left _ (List.mem_map_of_mem hf)
  have hne : f.span ≠ sp := by
    rintro rfl
    rw [hs.2] at hstop
    omega
  have hsymm : Std.Symm Span.Apart := ⟨fun _ _ => Or.symm⟩
  have hapart := (apart_layOut 0 [] ps).forall hmark hsp hne
  rw [hspan] at hapart
  rcases hapart with h | h
  · dsimp only at h hend
    omega
  · dsimp only at h hend
    omega

theorem finds_layOut {e : Expression} (hq : (p, q) ∈ placed 0 ps)
    (hr : q.reference? p = some (e.reference p)) : (layOut 0 [] ps).Finds (e.reference p) := by
  have hmem : .reference (e.reference p) ∈ (layOut 0 [] ps).segments :=
    Reading.mem_references.1 (mem_references_layOut.2 ⟨p, q, hq, hr⟩)
  refine ⟨hmem, ?_⟩
  split
  · rename_i hcall
    exact List.mem_filterMap.2 ⟨_, hmem, if_pos hcall⟩
  · rename_i hcall
    exact mem_variableNames.2 ⟨_, hmem, by simpa using hcall, rfl⟩

/-- **A template is read on behind every malformed expression in it, and the start of another is
hidden only by one that lacks a delimiter right before it.** A template is refused only for an
integer that is too long. -/
theorem starts_recovered (t : String) :
    (∃ reading, read t = .ok reading ∧ reading.Recovers t.toList) ∨
      ∃ n, read t = .error (.literalTooLong n) ∧ HoldsOverlong t.toList n := by
  cases hr : read t with
  | error e =>
    obtain ⟨n, rfl, hn⟩ := read_overlong hr
    exact .inr ⟨n, rfl, hn⟩
  | ok reading =>
    obtain ⟨ps, hps, rfl⟩ := pieces_of_read hr
    -- behind a fault stands a piece, if an expression starts there
    have hnext : ∀ f ∈ (layOut 0 [] ps).faults, StartsAt t.toList f.span.stop →
        ∃ q rest, (f.span.stop, q) ∈ placed 0 ps ∧ Cut (t.toList.drop f.span.stop) q rest := by
      intro f hf hstart
      obtain ⟨p, q, hq, hfault⟩ := mem_faults_layOut.1 hf
      rw [Piece.span_of_fault? hfault] at hstart ⊢
      rcases next_placed hq with hend | ⟨q', hq'⟩
      · rw [pieces_text hps, Nat.zero_add] at hend
        rw [StartsAt, hend, List.drop_length] at hstart
        exact absurd hstart.length_le (by decide)
      · obtain ⟨rest, hcut⟩ := cut_of_placed hps hq'
        exact ⟨q', rest, hq', hcut⟩
    refine .inl ⟨_, rfl, ⟨?_, ?_, ?_⟩⟩
    · intro p hp
      constructor
      · rintro hcovers ⟨f, hf, hs⟩
        exact not_covers_of_splits hf hs hcovers
      · exact (covers_or_splits hps hp).resolve_right
    · intro f hf hstart
      obtain ⟨q, rest, hq, hcut⟩ := hnext f hf hstart
      exact ⟨_, mem_marks_of_placed hq (hcut.ne_char hstart), rfl⟩
    · intro f hf e he hprefix
      have hstart : StartsAt t.toList f.span.stop :=
        List.IsPrefix.trans (List.prefix_append ['$', '{'] (e.inner ++ ['}'])) hprefix
      obtain ⟨q, rest, hq, hcut⟩ := hnext f hf hstart
      obtain ⟨r, hr⟩ := hprefix
      rw [← hr] at hcut
      rw [hcut.expression he] at hq
      exact finds_layOut hq rfl

/-- A call that lacks its closing brace hides the variable right behind it. -/
theorem call_hides_variable :
    let t := "$\x7bf()$\x7bx\x7d"
    ∃ reading, read t = .ok reading ∧ reading.Recovers t.toList ∧
      (∃ f ∈ reading.faults, f.Splits 5) ∧ StartsAt t.toList 5 ∧ ¬ reading.Covers 5 ∧
      variableNames reading.segments = [] := by
  intro t
  have hread : read "$\x7bf()$\x7bx\x7d" = .ok ⟨[.literal t ⟨0, 9⟩],
      [⟨.unclosedCall, some "f", "$\x7bf()$", ⟨0, 6⟩⟩]⟩ := by cbv
  have hstart : StartsAt t.toList 5 := ⟨['x', '\x7d'], by simp [t]⟩
  have hsplits : ∃ f ∈ [(⟨.unclosedCall, some "f", "$\x7bf()$", ⟨0, 6⟩⟩ : Fault)], f.Splits 5 :=
    ⟨_, List.mem_singleton_self _, .inl rfl, rfl⟩
  obtain ⟨reading, hr, hrec⟩ | ⟨n, hn, -⟩ := starts_recovered t
  · rw [hread] at hr
    cases hr
    refine ⟨_, hread, hrec, hsplits, hstart, ?_, rfl⟩
    exact fun hcovers => (hrec.covers_iff 5 hstart).1 hcovers hsplits
  · rw [hread] at hn
    cases hn

end Template
end Stencil
