/-
# Reading accepts what is written

Each reader gives back what is written, and whatever a reader accepts is
written so; hence a template is well-formed just where it has an outline whose
integers are short enough, and its segments are those of the outline
(`parse_iff_outline`).

Key definitions: `Outline.pieces`.
Key theorems: `readReference_written`, `written_of_readReference`,
`pieces_outline`, `outline_of_pieces`, `parse_iff_outline`.
-/
import Stencil.Proofs.Template.Grammar
import Stencil.Proofs.Template.Read

namespace Stencil
namespace Template

open Text Grammar

/-! ### Words -/

namespace Grammar

theorem ofWord_isShort {w : List Char} {v : Value} (h : Literal.ofWord w = .ok v) :
    Literal.isNumeral (Numeral.splitSign w).2 = true →
      (Numeral.splitSign w).2.length ≤ Numeral.digitLimit := by
  intro hn
  by_contra hlong
  unfold Literal.ofWord at h
  dsimp only at h
  rw [if_pos hn, if_pos (Nat.lt_of_not_le hlong)] at h
  cases h

theorem Word.ofWord_value {w : Word} (h : w.IsShort) : Literal.ofWord w.text = .ok w.value := by
  have hok : ∃ v, Literal.ofWord w.text = .ok v := by
    unfold Literal.ofWord
    dsimp only
    split
    · rename_i hn
      rw [if_neg (Nat.not_lt_of_le (h hn))]
      exact ⟨_, rfl⟩
    · split
      · exact ⟨_, rfl⟩
      · exact ⟨_, rfl⟩
  obtain ⟨v, hv⟩ := hok
  rw [Word.value, hv]
  rfl

end Grammar

/-! ### What is written is read -/

/-- What neither stops a reading nor starts an expression is read up to what stops it. -/
theorem readUntil_append {stops : Char → Bool} {a r : List Char} {d : Char} (hd : stops d = true)
    (hbrace : d ≠ '{') (ha : ∀ c ∈ a, stops c = false) (hf : IsFlat a) :
    readUntil stops (a ++ d :: r) = (a, d :: r) := by
  induction a with
  | nil => rw [List.nil_append, readUntil, hd, Bool.true_or, if_pos rfl]
  | cons c a ih =>
    obtain ⟨hstart, hrest⟩ := isFlat_cons.1 hf
    have hs : ¬ (c = '$' ∧ (a ++ d :: r).head? = some '{') := by
      rintro ⟨hc, hh⟩
      cases a with
      | nil => exact hbrace (Option.some.inj hh)
      | cons b a => exact hstart ⟨hc, hh⟩
    rw [List.cons_append, readUntil, ha c List.mem_cons_self, Bool.false_or,
      if_neg (by simpa using hs), ih (fun c hc => ha c (List.mem_cons_of_mem _ hc)) hrest]

theorem endsName_iff {c : Char} : endsName c = true ↔ c = '(' ∨ c = '}' := by
  simp [endsName]

theorem endsWord_eq_false_iff {c : Char} :
    endsWord c = false ↔ c ≠ ',' ∧ c ≠ '(' ∧ c ≠ ')' ∧ c ≠ '}' := by
  simp only [endsWord, Bool.or_eq_false_iff, beq_eq_false_iff_ne]
  tauto

theorem readName_append {a r : List Char} {d : Char} (hd : d = '(' ∨ d = '}')
    (ha : ∀ c ∈ a, c ≠ '(' ∧ c ≠ '}' ∧ c ≠ '$') : readName (a ++ d :: r) = (a, d :: r) := by
  refine readUntil_append (endsName_iff.2 hd) ?_ (fun c hc => ?_) fun hi => ?_
  · rcases hd with rfl | rfl <;> decide
  · obtain ⟨h₁, h₂, -⟩ := ha c hc
    rw [← Bool.not_eq_true, endsName_iff, not_or]
    exact ⟨h₁, h₂⟩
  · exact (ha '$' (hi.subset List.mem_cons_self)).2.2 rfl

theorem readQuoted_items {q : Char} (hq : q ≠ '\\') {is : List Item} (hi : ∀ i ∈ is, i.Fits q)
    (r : List Char) :
    readQuoted q (is.flatMap Item.text ++ q :: r) = some (is.map Item.value, r) := by
  induction is with
  | nil =>
    rw [List.flatMap_nil, List.nil_append, readQuoted, if_pos (beq_self_eq_true q)]
    · rfl
    · rintro c r rfl
      exact fun _ => hq rfl
  | cons i is ih =>
    have hrec := ih fun i hm => hi i (List.mem_cons_of_mem _ hm)
    cases i with
    | plain c =>
      have hc := hi _ List.mem_cons_self
      rw [List.flatMap_cons, Item.text, List.append_assoc, List.singleton_append, readQuoted,
        if_neg (by simpa using hc.1), hrec]
      · rfl
      · rintro d r rfl
        exact fun _ => hc.2 rfl
    | escaped c =>
      rw [List.flatMap_cons, Item.text, List.append_assoc, List.cons_append, List.singleton_append,
        readQuoted, hrec]
      rfl

theorem readWord_append {a r : List Char} {d : Char} (hd : EndsArgument d)
    (ha : ∀ c ∈ a, c ≠ ',' ∧ c ≠ '(' ∧ c ≠ ')' ∧ c ≠ '}') (hf : IsFlat a) :
    readWord (a ++ d :: r) = (a, d :: r) := by
  refine readUntil_append ?_ ?_ (fun c hc => endsWord_eq_false_iff.2 (ha c hc)) hf
  · rcases hd with rfl | rfl <;> rfl
  · rcases hd with rfl | rfl <;> decide

theorem readWord_word (w : Word) (g : Gap) (r : List Char) {d : Char} (hd : EndsArgument d) :
    readWord (w.text ++ (g.text ++ d :: r)) = (w.text ++ g.text, d :: r) := by
  rw [← List.append_assoc]
  exact readWord_append hd (isOpen_word w g) (w.isFlat.append_gap g)

/-- An argument is read up to its end, or up to the blanks before it. -/
theorem readArgument_slot (name : String) (s : Slot) (hs : s.argument.IsShort) {r : List Char}
    (hr : AtEnd r) :
    ∃ rest, readArgument name (s.text ++ r) = .ok (s.argument.value, rest) ∧
      dropBlanks rest = r := by
  obtain ⟨g, a, g'⟩ := s
  have hd : dropBlanks (Slot.text ⟨g, a, g'⟩ ++ r) = a.text ++ (g'.text ++ r) := by
    rw [Slot.text, List.append_assoc, List.append_assoc, dropBlanks_gap g (a.stopsBlanks _)]
  unfold readArgument
  rw [hd]
  cases a with
  | quoted q =>
    have hq : (q.quote == '\'' || q.quote == '"') = true := by
      rcases q.isQuote with h | h <;> (rw [h]; rfl)
    have hread := readQuoted_items q.quote_ne q.fits (g'.text ++ r)
    simp only [Argument.text, Quoted.text, List.cons_append, List.append_assoc, List.nil_append,
      hq, if_true, hread]
    exact ⟨_, rfl, dropBlanks_gap g' hr.stopsBlanks⟩
  | bare w =>
    obtain ⟨d, t, rfl, hend⟩ := hr
    obtain ⟨c, u, hw⟩ := List.exists_cons_of_ne_nil w.ne_nil
    obtain ⟨h₁, h₂⟩ := w.unquoted c (by rw [hw]; rfl)
    have hread := readWord_word w g' t hend
    have htrim : trim (w.text ++ g'.text) = w.text :=
      trim_gaps .empty g' w.isTrimmed w.ne_nil
    have hstop : d ≠ '}' ∧ d ≠ '(' ∧ d ≠ '$' := by
      rcases hend with rfl | rfl <;> decide
    obtain ⟨h₃, h₄, h₅⟩ := hstop
    have hv := w.ofWord_value hs
    have hcons : w.text ++ (g'.text ++ d :: t) = c :: (u ++ (g'.text ++ d :: t)) := by
      rw [hw, List.cons_append]
    rw [Argument.text, hcons]
    rw [hcons] at hread
    simp only [hread, htrim, hv, h₁, h₂, h₃, h₄, h₅, w.ne_nil, beq_iff_eq, Bool.or_eq_true,
      List.isEmpty_iff, or_self, if_false]
    exact ⟨_, rfl, dropBlanks_gap .empty (AtEnd.stopsBlanks ⟨d, t, rfl, hend⟩)⟩

theorem readItems_last {name : String} {cs rest r : List Char} {v : Value}
    (h : readArgument name cs = .ok (v, rest)) (hd : dropBlanks rest = ')' :: r) :
    readItems name cs = .ok ([v], r) := by
  rw [readItems.eq_def]
  split
  · rename_i he
    rw [h] at he
    cases he
  · rename_i he
    rw [h] at he
    cases he
    split
    · rename_i hn
      rw [hd] at hn
      cases hn
    · rename_i hc
      rw [hd] at hc
      cases hc
      rfl

theorem readItems_more {name : String} {cs rest r r' : List Char} {v : Value} {vs : List Value}
    (h : readArgument name cs = .ok (v, rest)) (hd : dropBlanks rest = ',' :: r)
    (hr : readItems name r = .ok (vs, r')) : readItems name cs = .ok (v :: vs, r') := by
  rw [readItems.eq_def]
  split
  · rename_i he
    rw [h] at he
    cases he
  · rename_i he
    rw [h] at he
    cases he
    split
    · rename_i hn
      rw [hd] at hn
      cases hn
    · rename_i hc
      rw [hd] at hc
      cases hc
      rw [if_pos (beq_self_eq_true _), hr]

/-- Arguments are read up to the closing parenthesis. -/
theorem readItems_slots (name : String) (s : Slot) (ss : List Slot)
    (hs : ∀ x ∈ s :: ss, x.argument.IsShort) (r : List Char) :
    readItems name (s.text ++ further ss r) =
      .ok ((s :: ss).map fun x => x.argument.value, r) := by
  induction ss generalizing s with
  | nil =>
    obtain ⟨rest, hread, hd⟩ :=
      readArgument_slot name s (hs s List.mem_cons_self) (further_atEnd [] r)
    exact readItems_last hread hd
  | cons s' ss ih =>
    obtain ⟨rest, hread, hd⟩ :=
      readArgument_slot name s (hs s List.mem_cons_self) (further_atEnd (s' :: ss) r)
    rw [further_cons] at hd
    exact readItems_more hread hd (ih s' fun x hx => hs x (List.mem_cons_of_mem _ hx))

theorem readArguments_written (name : String) (a : ArgumentList) (ha : a.IsShort) (r : List Char) :
    readArguments name (a.text ++ ')' :: r) = .ok (a.values, r) := by
  cases a with
  | none g =>
    have hd : dropBlanks (g.text ++ ')' :: r) = ')' :: r :=
      dropBlanks_gap g (AtEnd.stopsBlanks ⟨')', r, rfl, .inr rfl⟩)
    unfold readArguments
    rw [ArgumentList.text, hd]
    rfl
  | some s ss =>
    obtain ⟨c, t, hc, -, hend⟩ := s.argument.head
    have hd : dropBlanks ((ArgumentList.some s ss).text ++ ')' :: r) =
        Slot.text { s with before := .empty } ++ further ss r := by
      rw [ArgumentList.text, List.append_assoc, Slot.text, List.append_assoc, List.append_assoc,
        dropBlanks_gap s.before (s.argument.stopsBlanks _)]
      simp [Slot.text, Gap.empty, further]
    have hshort : ∀ x ∈ { s with before := .empty } :: ss, x.argument.IsShort := by
      intro x hx
      rcases List.mem_cons.1 hx with rfl | hx
      · exact ha s List.mem_cons_self
      · exact ha x (List.mem_cons_of_mem _ hx)
    unfold readArguments
    rw [hd]
    split
    · rename_i r' hp
      rw [Slot.text, Gap.empty, List.nil_append, hc] at hp
      exact absurd (.inr (List.cons.inj hp).1) hend
    · exact readItems_slots name _ ss hshort r

/-- **An expression is read as the reference that it is.** -/
theorem readReference_written (e : Expression) (he : e.IsShort) (r : List Char) :
    readReference (e.inner ++ '}' :: r) =
      .ok ((String.ofList e.name.text, e.arguments?), r) := by
  obtain ⟨g, n, g', call?⟩ := e
  have htrim : trim (g.text ++ (n.text ++ g'.text)) = n.text :=
    trim_gaps g g' n.isTrimmed n.ne_nil
  have hne : n.text.isEmpty = false := by simpa using n.ne_nil
  cases call? with
  | none =>
    have hread := readName_append (r := r) (.inr rfl) (isOpen_name g n g')
    unfold readReference
    simp only [Expression.inner, Expression.callText, List.append_nil, hread, htrim, hne,
      n.isIdentifier]
    rfl
  | some c =>
    have hread := readName_append (r := c.arguments.text ++ ')' :: c.after.text ++ '}' :: r)
      (.inl rfl) (isOpen_name g n g')
    have hargs := readArguments_written (String.ofList n.text) c.arguments (he c rfl)
      (c.after.text ++ '}' :: r)
    have hbrace : StopsBlanks ('}' :: r) := by
      rintro c ⟨⟩
      decide
    have hd := dropBlanks_gap c.after hbrace
    simp only [List.append_assoc, List.cons_append] at hread
    unfold readReference
    simp only [Expression.inner, Expression.callText, Call.text, List.append_assoc,
      List.cons_append, hread, htrim, hne, n.isIdentifier, hargs, hd]
    rfl

/-! ### What is read is written so -/

/-- What is read neither stops the reading nor starts an expression, and the reading ends at what
stops it or where an expression starts. -/
theorem readUntil_split {stops : Char → Bool} {cs a r : List Char} {d : Char}
    (h : readUntil stops cs = (a, d :: r)) :
    cs = a ++ d :: r ∧ (∀ c ∈ a, stops c = false) ∧ IsFlat a ∧ (stops d = true ∨ d = '$') := by
  induction cs generalizing a with
  | nil => cases h
  | cons c cs ih =>
    rw [readUntil] at h
    split at h
    · rename_i hstop
      cases h
      rw [Bool.or_eq_true, Bool.and_eq_true, beq_iff_eq] at hstop
      exact ⟨rfl, fun c hc => absurd hc List.not_mem_nil, isFlat_nil, hstop.imp_right And.left⟩
    · rename_i hgo
      obtain ⟨rfl, hr⟩ := Prod.mk.inj h
      obtain ⟨hcs, hopen, hflat, hd⟩ := ih (Prod.ext rfl hr)
      rw [Bool.or_eq_true, not_or, Bool.not_eq_true, Bool.and_eq_true, beq_iff_eq,
        beq_iff_eq] at hgo
      refine ⟨by rw [List.cons_append, ← hcs], List.forall_mem_cons.2 ⟨hgo.1, hopen⟩,
        isFlat_cons.2 ⟨?_, hflat⟩, hd⟩
      rintro ⟨hc, hh⟩
      refine hgo.2 ⟨hc, ?_⟩
      rw [hcs]
      exact List.mem_head?_append_of_mem_head? hh

theorem readName_split {cs a r : List Char} {d : Char} (h : readName cs = (a, d :: r)) :
    cs = a ++ d :: r ∧ (d = '(' ∨ d = '}' ∨ d = '$') := by
  obtain ⟨hcs, -, -, hd⟩ := readUntil_split h
  rw [endsName_iff, or_assoc] at hd
  exact ⟨hcs, hd⟩

theorem readQuoted_split {q : Char} {cs s rest : List Char}
    (h : readQuoted q cs = some (s, rest)) :
    ∃ is : List Item, (∀ i ∈ is, i.Fits q) ∧ is.map Item.value = s ∧
      cs = is.flatMap Item.text ++ q :: rest := by
  fun_induction readQuoted q cs generalizing s rest with
  | case1 => cases h
  | case2 c r ih =>
    obtain ⟨⟨s', r'⟩, hr, he⟩ := Option.map_eq_some_iff.1 h
    cases he
    obtain ⟨is, hfits, rfl, rfl⟩ := ih hr
    exact ⟨.escaped c :: is, by simpa [Item.Fits] using hfits, rfl, rfl⟩
  | case3 c r _ hq =>
    cases h
    exact ⟨[], by simp, rfl, by rw [eq_of_beq hq]; rfl⟩
  | case4 c r hesc hq ih =>
    obtain ⟨⟨s', r'⟩, hr, he⟩ := Option.map_eq_some_iff.1 h
    cases he
    obtain ⟨is, hfits, rfl, rfl⟩ := ih hr
    have hc : c ≠ '\\' := by
      rintro rfl
      -- a backslash at the very end leaves no closing quote to find
      cases hcs : is.flatMap Item.text ++ q :: rest with
      | nil => exact absurd hcs (by simp)
      | cons d r => exact hesc d r rfl hcs
    refine ⟨.plain c :: is, ?_, rfl, rfl⟩
    intro i hi
    rcases List.mem_cons.1 hi with rfl | hi
    · exact ⟨by simpa using hq, hc⟩
    · exact hfits i hi

theorem readWord_split {cs a r : List Char} {d : Char} (h : readWord cs = (a, d :: r)) :
    cs = a ++ d :: r ∧ (∀ c ∈ a, c ≠ ',' ∧ c ≠ '(' ∧ c ≠ ')' ∧ c ≠ '}') ∧ IsFlat a ∧
      (EndsArgument d ∨ d = '}' ∨ d = '(' ∨ d = '$') := by
  obtain ⟨hcs, hopen, hflat, hd⟩ := readUntil_split h
  refine ⟨hcs, fun c hc => endsWord_eq_false_iff.1 (hopen c hc), hflat, ?_⟩
  simp only [endsWord, Bool.or_eq_true, beq_iff_eq] at hd
  unfold EndsArgument
  tauto

/-- What is read as a bare word is one, with the blanks after it. -/
theorem word_of_readWord {c d : Char} {cs a r : List Char} (h : readWord (c :: cs) = (a, d :: r))
    (hblank : isBlank c = false) (hquote : c ≠ '\'' ∧ c ≠ '"') (hne : trim a ≠ []) :
    ∃ (w : Word) (g : Gap), w.text = trim a ∧ a = w.text ++ g.text := by
  obtain ⟨hcs, hopen, hflat, -⟩ := readWord_split h
  have hstart : ∀ x ∈ a.head?, x = c := by
    intro x hx
    have hxc : (c :: cs).head? = some x := by
      rw [hcs]
      exact List.mem_head?_append_of_mem_head? hx
    exact (Option.some.inj hxc).symm
  obtain ⟨g, hg⟩ := dropBlanks_eq_trim a
  have hstops : StopsBlanks a := by
    intro x hx
    rw [hstart x hx]
    exact hblank
  rw [show dropBlanks a = a from dropBlanks_gap .empty hstops] at hg
  have hin : trim a <:+: a := ⟨[], g.text, hg.symm⟩
  have hunquoted : ∀ x ∈ (trim a).head?, x ≠ '\'' ∧ x ≠ '"' := by
    intro x hx
    have hxa : x ∈ a.head? := by
      rw [hg]
      exact List.mem_head?_append_of_mem_head? hx
    rw [hstart x hxa]
    exact hquote
  exact ⟨⟨trim a, hne, isTrimmed_trim a, hunquoted, fun x hx => hopen x (hin.subset hx),
    fun hi => hflat (hi.trans hin)⟩, g, rfl, hg⟩

/-- What is read as a quoted text is one, with the blanks on both sides. -/
theorem slot_of_readQuoted {q d : Char} {cs u s rest r : List Char} (hq : q = '\'' ∨ q = '"')
    (h : readQuoted q u = some (s, rest)) (hcs : (leadingGap cs).text ++ q :: u = cs)
    (hd : dropBlanks rest = d :: r) :
    ∃ t : Slot, t.argument.IsShort ∧ t.argument.value = .text (String.ofList s) ∧
      cs = t.text ++ d :: r := by
  obtain ⟨is, hfits, rfl, rfl⟩ := readQuoted_split h
  refine ⟨⟨leadingGap cs, .quoted ⟨q, hq, is, hfits⟩, leadingGap rest⟩, trivial, rfl, ?_⟩
  rw [Slot.text, List.append_assoc, List.append_assoc, ← hd, leadingGap_append]
  simpa [Argument.text, Quoted.text] using hcs.symm

/-- What is read as a bare word is one, with the blanks on both sides, up to its end. -/
theorem slot_of_bareWord {c d : Char} {cs u word r : List Char}
    (h : readWord (c :: u) = (word, d :: r)) (hblank : isBlank c = false)
    (hquote : c ≠ '\'' ∧ c ≠ '"') (hne : trim word ≠ [])
    (hcs : (leadingGap cs).text ++ c :: u = cs) :
    ∃ (w : Word) (g : Gap), w.text = trim word ∧
      cs = Slot.text ⟨leadingGap cs, .bare w, g⟩ ++ d :: r := by
  obtain ⟨hword, -, -, -⟩ := readWord_split h
  obtain ⟨w, g, hw, hg⟩ := word_of_readWord h hblank hquote hne
  refine ⟨w, g, hw, ?_⟩
  rw [Slot.text, Argument.text, List.append_assoc, ← hg, ← hword, hcs]

/-- What is read as a bare value is one, with the blanks on both sides, up to its end. -/
theorem slot_of_readWord {c d : Char} {cs u word r : List Char} {v : Value}
    (h : readWord (c :: u) = (word, d :: r)) (hblank : isBlank c = false)
    (hquote : c ≠ '\'' ∧ c ≠ '"') (hne : trim word ≠ [])
    (hv : Literal.ofWord (trim word) = .ok v) (hcs : (leadingGap cs).text ++ c :: u = cs) :
    ∃ t : Slot, t.argument.IsShort ∧ t.argument.value = v ∧ cs = t.text ++ d :: r := by
  obtain ⟨w, g, hw, htext⟩ := slot_of_bareWord h hblank hquote hne hcs
  rw [← hw] at hv
  refine ⟨⟨leadingGap cs, .bare w, g⟩, ofWord_isShort hv, ?_, htext⟩
  rw [Argument.value, Word.value, hv]
  rfl

theorem slot_of_readArgument {name : String} {cs rest r : List Char} {d : Char} {v : Value}
    (h : readArgument name cs = .ok (v, rest)) (hd : dropBlanks rest = d :: r) :
    ∃ s : Slot, s.argument.IsShort ∧ s.argument.value = v ∧ cs = s.text ++ d :: r := by
  have hcs := leadingGap_append cs
  have hstops := stopsBlanks_dropBlanks cs
  unfold readArgument at h
  split at h
  · cases h
  · rename_i c u hu
    rw [hu] at hcs hstops
    split at h
    · rename_i hq
      split at h
      · cases h
      · rename_i hread
        cases h
        exact slot_of_readQuoted (by simpa using hq) hread hcs hd
    · rename_i hq
      split at h
      · cases h
      · rename_i word e after hread
        split at h
        · cases h
        rename_i hbrace
        split at h
        · cases h
        rename_i hparen
        split at h
        · cases h
        rename_i hdollar
        split at h
        · cases h
        rename_i hne
        split at h
        · rename_i hv
          cases h
          -- of what a bare value ends at, a comma and a closing parenthesis are left
          have he : EndsArgument e := by
            simp only [beq_iff_eq] at hbrace hparen hdollar
            exact (readWord_split hread).2.2.2.resolve_right (by simp [hbrace, hparen, hdollar])
          obtain ⟨rfl, rfl⟩ : e = d ∧ after = r := by
            rw [show dropBlanks (e :: after) = e :: after from
              dropBlanks_gap .empty (AtEnd.stopsBlanks ⟨e, after, rfl, he⟩)] at hd
            exact List.cons.inj hd
          exact slot_of_readWord hread (hstops c rfl) (by simpa using hq) (by simpa using hne) hv hcs
        · cases h

theorem slots_of_readItems {name : String} {cs rest : List Char} {vs : List Value}
    (h : readItems name cs = .ok (vs, rest)) :
    ∃ (s : Slot) (ss : List Slot), (∀ x ∈ s :: ss, x.argument.IsShort) ∧
      (s :: ss).map (fun x => x.argument.value) = vs ∧ cs = s.text ++ further ss rest := by
  fun_induction readItems name cs generalizing vs rest with
  | case1 => cases h
  | case2 => cases h
  | case3 cs v rest' hread c r hd hc vs' rest'' hr ih =>
    cases h
    obtain ⟨s', ss, hshort, rfl, rfl⟩ := ih hr
    rw [eq_of_beq hc] at hd
    obtain ⟨s, hs, rfl, rfl⟩ := slot_of_readArgument hread hd
    refine ⟨s, s' :: ss, ?_, rfl, by rw [further_cons]⟩
    intro x hx
    rcases List.mem_cons.1 hx with rfl | hx
    · exact hs
    · exact hshort x hx
  | case4 => cases h
  | case5 cs v rest' hread c r hd hc hclose =>
    cases h
    rw [eq_of_beq hclose] at hd
    obtain ⟨s, hs, rfl, rfl⟩ := slot_of_readArgument hread hd
    exact ⟨s, [], by simpa using hs, rfl, rfl⟩
  | case6 => cases h

theorem arguments_of_readArguments {name : String} {cs rest : List Char} {vs : List Value}
    (h : readArguments name cs = .ok (vs, rest)) :
    ∃ a : ArgumentList, a.IsShort ∧ a.values = vs ∧ cs = a.text ++ ')' :: rest := by
  have hcs := leadingGap_append cs
  unfold readArguments at h
  split at h
  · rename_i r hr
    cases h
    rw [hr] at hcs
    exact ⟨.none (leadingGap cs), by simp [ArgumentList.IsShort, ArgumentList.slots], rfl, hcs.symm⟩
  · obtain ⟨s, ss, hshort, rfl, htext⟩ := slots_of_readItems h
    refine ⟨.some { s with before := (leadingGap cs).append s.before } ss, ?_, rfl, ?_⟩
    · intro x hx
      rcases List.mem_cons.1 hx with rfl | hx
      · exact hshort s List.mem_cons_self
      · exact hshort x (List.mem_cons_of_mem _ hx)
    · calc cs
          = (leadingGap cs).text ++ (s.text ++ further ss rest) := by rw [← htext, hcs]
        _ = _ := by simp [ArgumentList.text, Slot.text, Gap.append, further]

/-- **What is read as a reference is written as an expression.** -/
theorem written_of_readReference {cs rest : List Char} {name : String}
    {args : Option (List Value)} (h : readReference cs = .ok ((name, args), rest)) :
    ∃ e : Expression, e.IsShort ∧ String.ofList e.name.text = name ∧ e.arguments? = args ∧
      cs = e.inner ++ '}' :: rest := by
  unfold readReference at h
  split at h
  · cases h
  · rename_i text d after hread
    obtain ⟨hcs, hstop⟩ := readName_split hread
    obtain ⟨g, g', htext⟩ := exists_trim text
    dsimp only at h
    split at h
    · cases h
    rename_i hdollar
    split at h
    · cases h
    split at h
    · cases h
    rename_i hid
    have hid' : isIdentifier (trim text) = true := by simpa using hid
    split at h
    · rename_i hd
      cases h
      refine ⟨⟨g, ⟨trim text, hid'⟩, g', none⟩, by simp [Expression.IsShort], rfl, rfl, ?_⟩
      rw [Expression.inner, Expression.callText, List.append_nil, ← htext, hcs, eq_of_beq hd]
    · rename_i hclose
      have hparen : d = '(' := by
        simp only [beq_iff_eq] at hdollar hclose
        exact hstop.resolve_right (by simp [hclose, hdollar])
      split at h
      · cases h
      · rename_i vs rest' hargs
        have hgap := leadingGap_append rest'
        split at h
        · cases h
        · rename_i c r hc
          split at h
          · rename_i hbrace
            cases h
            obtain ⟨a, ha, rfl, hat⟩ := arguments_of_readArguments hargs
            rw [hc, eq_of_beq hbrace] at hgap
            refine ⟨⟨g, ⟨trim text, hid'⟩, g', some ⟨a, leadingGap rest'⟩⟩, ?_, rfl, rfl, ?_⟩
            · rintro c ⟨⟩
              exact ha
            · calc cs
                  = (g.text ++ (trim text ++ g'.text)) ++ '(' :: (a.text ++ ')' ::
                      ((leadingGap rest').text ++ '}' :: rest)) := by
                    rw [hcs, ← htext, hparen, hat, hgap]
                _ = _ := by simp [Expression.inner, Expression.callText, Call.text]
          · cases h

/-! ### Templates -/

namespace Grammar

/-- A template cut at its expressions. -/
def Outline.pieces : Outline → List Piece
  | last run => run.text.map .char
  | next run e rest =>
    run.text.map .char ++
      .reference e.text (String.ofList e.name.text) e.arguments? :: rest.pieces

end Grammar

theorem pieces_char {c : Char} {r : List Char} (h : ¬ (c = '$' ∧ r.head? = some '{')) :
    pieces (c :: r) = (pieces r).map (.char c :: ·) := by
  rw [pieces.eq_3]
  · cases pieces r <;> rfl
  · rintro r' rfl rfl
    exact h ⟨rfl, rfl⟩

/-- Where no expression can start there is nothing to refuse. -/
theorem pieces_of_not_mem {cs : List Char} (h : '$' ∉ cs) : ∃ ps, pieces cs = .ok ps := by
  induction cs with
  | nil => exact ⟨[], by rw [pieces]⟩
  | cons c cs ih =>
    rw [List.mem_cons, not_or] at h
    obtain ⟨ps, hps⟩ := ih h.2
    refine ⟨.char c :: ps, ?_⟩
    rw [pieces_char fun hc => h.1 hc.1.symm, hps]
    rfl

theorem taken_expression (e : Expression) (r : List Char) :
    '$' :: '{' :: taken (e.inner ++ '}' :: r) r = e.text := by
  have ht : taken ((e.inner ++ ['}']) ++ r) r = e.inner ++ ['}'] := by
    rw [taken, List.length_append, Nat.add_sub_cancel, List.take_left]
  rw [List.append_assoc, List.singleton_append] at ht
  rw [ht, Expression.text]

theorem pieces_expression (e : Expression) (he : e.IsShort) (r : List Char) :
    pieces (e.text ++ r) =
      (pieces r).map (.reference e.text (String.ofList e.name.text) e.arguments? :: ·) := by
  have hread := readReference_written e he r
  rw [Expression.text_append, pieces.eq_2]
  split
  · rename_i hx
    rw [hread] at hx
    cases hx
  · rename_i hx
    rw [hread] at hx
    cases hx
  · rename_i hx
    rw [hread] at hx
    cases hx
    rw [taken_expression]
    cases pieces r <;> rfl

/-- A run of literal text is read character by character, up to where an expression starts. -/
theorem pieces_run {a r : List Char} (ha : IsFlat a)
    (hr : ¬ (a.getLast? = some '$' ∧ r.head? = some '{')) :
    pieces (a ++ r) = (pieces r).map (a.map .char ++ ·) := by
  induction a with
  | nil => cases h : pieces r <;> simp [h, Except.map]
  | cons c a ih =>
    obtain ⟨hstart, hrest⟩ := isFlat_cons.1 ha
    have hc : ¬ (c = '$' ∧ (a ++ r).head? = some '{') := by
      rintro ⟨rfl, hh⟩
      cases a with
      | nil => exact hr ⟨rfl, hh⟩
      | cons d a => exact hstart ⟨rfl, hh⟩
    have hr' : ¬ (a.getLast? = some '$' ∧ r.head? = some '{') := by
      rintro ⟨hl, hh⟩
      refine hr ⟨?_, hh⟩
      rw [List.getLast?_cons, hl]
      rfl
    rw [List.cons_append, pieces_char hc, ih hrest hr']
    cases pieces r <;> rfl

/-- **What is written is cut as it is written**, and so is what follows it, unless the two
together start an expression. -/
theorem pieces_outline (o : Outline) (ho : o.IsShort) {r : List Char}
    (hr : ¬ (o.text.getLast? = some '$' ∧ r.head? = some '{')) :
    pieces (o.text ++ r) = (pieces r).map (o.pieces ++ ·) := by
  induction o with
  | last run => exact pieces_run run.isFlat hr
  | next run e rest ih =>
    have hstart : ¬ (run.text.getLast? = some '$' ∧
        (e.text ++ (rest.text ++ r)).head? = some '{') := by
      rintro ⟨-, hh⟩
      cases hh
    have hrest : ¬ (rest.text.getLast? = some '$' ∧ r.head? = some '{') := by
      rintro ⟨hl, hh⟩
      refine hr ⟨?_, hh⟩
      rw [Outline.text, List.getLast?_append, List.getLast?_append, hl]
      rfl
    rw [Outline.text, List.append_assoc, List.append_assoc, pieces_run run.isFlat hstart,
      pieces_expression e ho.1, ih ho.2 hrest]
    cases pieces r with
    | error => rfl
    | ok ps => simp [Except.map, Outline.pieces]

/-- A piece that is well-formed. -/
def Piece.IsSound : Piece → Prop
  | .malformed .. => False
  | _ => True

/-- **What is cut into well-formed pieces is written.** -/
theorem outline_of_pieces {cs : List Char} {ps : List Piece} (h : pieces cs = .ok ps)
    (hs : ∀ p ∈ ps, p.IsSound) : ∃ o : Outline, o.IsShort ∧ o.text = cs ∧ o.pieces = ps := by
  fun_induction pieces cs generalizing ps with
  | case1 =>
    cases h
    exact ⟨.last ⟨[], isFlat_nil⟩, trivial, rfl, rfl⟩
  | case2 => cases h
  | case3 => cases h
  | case4 r reason name rest hr ps' hp ih =>
    cases h
    exact absurd (hs _ List.mem_cons_self) id
  | case5 => cases h
  | case6 r name args rest hr ps' hp ih =>
    cases h
    obtain ⟨o, ho, rfl, rfl⟩ := ih hp fun p hm => hs p (List.mem_cons_of_mem _ hm)
    obtain ⟨e, he, rfl, rfl, rfl⟩ := written_of_readReference hr
    refine ⟨.next ⟨[], isFlat_nil⟩ e o, ⟨he, ho⟩, ?_, ?_⟩
    · exact Expression.text_append e o.text
    · rw [taken_expression]
      rfl
  | case7 => cases h
  | case8 c r hstart ps' hp ih =>
    cases h
    obtain ⟨o, ho, rfl, rfl⟩ := ih hp fun p hm => hs p (List.mem_cons_of_mem _ hm)
    have hflat : ∀ {run : Run} {rest : List Char}, o.text = run.text ++ rest →
        IsFlat (c :: run.text) := by
      intro run rest ht
      refine isFlat_cons.2 ⟨?_, run.isFlat⟩
      rintro ⟨rfl, hh⟩
      obtain ⟨u, hu⟩ : ∃ u, o.text = '{' :: u := by
        obtain ⟨x, u, hxu⟩ : ∃ x u, run.text = x :: u := by
          cases hrun : run.text with
          | nil => rw [hrun] at hh; cases hh
          | cons x u => exact ⟨x, u, rfl⟩
        rw [hxu] at hh
        cases hh
        exact ⟨u ++ rest, by rw [ht, hxu]; rfl⟩
      exact hstart u rfl hu
    cases o with
    | last run =>
      exact ⟨.last ⟨c :: run.text, hflat (List.append_nil _).symm⟩, trivial, rfl, rfl⟩
    | next run e rest =>
      exact ⟨.next ⟨c :: run.text, hflat rfl⟩ e rest, ho, rfl, rfl⟩

/-! ### Segments -/

theorem layOut_run (pos : Nat) (acc a : List Char) (ps : List Piece) :
    layOut pos acc (a.map .char ++ ps) = layOut (pos + a.length) (a.reverse ++ acc) ps := by
  induction a generalizing pos acc with
  | nil => rfl
  | cons c a ih =>
    rw [List.map_cons, List.cons_append, layOut, ih, List.reverse_cons, List.append_assoc,
      List.length_cons, Nat.add_right_comm, Nat.add_assoc]
    rfl

theorem literalRun_run (pos : Nat) (run : Run) :
    literalRun (pos + run.text.length) run.text.reverse = run.segments pos := by
  simp [literalRun, Run.segments]

theorem layOut_outline (pos : Nat) (o : Outline) :
    layOut pos [] o.pieces = ⟨o.segments pos, []⟩ := by
  induction o generalizing pos with
  | last run =>
    have hl := layOut_run pos [] run.text []
    rw [List.append_nil, List.append_nil] at hl
    rw [Outline.pieces, hl, layOut, literalRun_run]
    rfl
  | next run e rest ih =>
    rw [Outline.pieces, layOut_run, layOut, ih, List.append_nil, literalRun_run]
    rfl

theorem isSound_of_layOut {pos : Nat} {run : List Char} {ps : List Piece}
    (h : (layOut pos run ps).faults = []) : ∀ p ∈ ps, p.IsSound := by
  fun_induction layOut pos run ps with
  | case1 => simp
  | case2 pos run c ps ih => simpa [Piece.IsSound] using ih h
  | case3 => cases h
  | case4 pos run text name args ps stop rest ih => simpa [Piece.IsSound] using ih h

theorem pieces_of_parse {t : String} {segments : List Segment}
    (h : parse t = .ok (.ok segments)) :
    ∃ ps, pieces t.toList = .ok ps ∧ (layOut 0 [] ps).faults = [] ∧
      (layOut 0 [] ps).segments = segments := by
  unfold parse read at h
  cases hp : pieces t.toList with
  | error e =>
    rw [hp] at h
    cases h
  | ok ps =>
    rw [hp] at h
    refine ⟨ps, rfl, ?_⟩
    unfold Reading.parsed at h
    dsimp only at h
    split at h
    · rename_i hf
      cases h
      exact ⟨hf, rfl⟩
    · cases h

/-- What is read as well-formed is written. -/
theorem outline_of_parse {t : String} {segments : List Segment}
    (h : parse t = .ok (.ok segments)) :
    ∃ o : Outline, o.text = t.toList ∧ o.IsShort ∧ o.segments 0 = segments := by
  obtain ⟨ps, hp, hfaults, rfl⟩ := pieces_of_parse h
  obtain ⟨o, ho, htext, rfl⟩ := outline_of_pieces hp (isSound_of_layOut hfaults)
  exact ⟨o, htext, ho, by rw [layOut_outline]⟩

/-- What is written is read as well-formed. -/
theorem parse_of_outline {t : String} {o : Outline} (ht : o.text = t.toList) (ho : o.IsShort) :
    parse t = .ok (.ok (o.segments 0)) := by
  have hp := pieces_outline o ho (r := []) (by simp)
  rw [List.append_nil, ht] at hp
  unfold parse read
  rw [hp]
  simp [pieces, Except.map, layOut_outline, Reading.parsed]

/-- **A template is well-formed just where it can be written with short integers, and its
segments are those that are written; a template can be written in one way at most.** -/
theorem parse_iff_outline (t : String) :
    (∀ segments, parse t = .ok (.ok segments) ↔
      ∃ o : Outline, o.text = t.toList ∧ o.IsShort ∧ o.segments 0 = segments) ∧
    Function.Injective Outline.text := by
  refine ⟨fun segments => ⟨outline_of_parse, ?_⟩, Outline.text_injective⟩
  rintro ⟨o, ht, ho, rfl⟩
  exact parse_of_outline ht ho

end Template
end Stencil
