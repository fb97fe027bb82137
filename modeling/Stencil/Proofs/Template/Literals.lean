/-
# Literals that are written are read back

Integers, truth values and texts can be arguments of a call: an integer in
decimal digits, a truth value as a word, a text between quotes of one kind with
a backslash before each such quote and each backslash. Reading the call gives
the same arguments, each of the same kind (`parse_literals`). A text may hold
anything, also the start of an expression.

Key definitions: `Constant`, `Quote`, `Constant.written`, `writtenCall`.
Key theorems: `ofWord_intChars`, `parse_literals`.
-/
import Mathlib.Data.List.Basic
import Stencil.Number
import Stencil.Proofs.Template.Accepts

namespace Stencil

namespace Text

theorem digitValue?_of_isDigit {c : Char} (h : c.isDigit = true) :
    digitValue? c = some (c.toNat - '0'.toNat) := by
  have hn : 48 ≤ c.toNat ∧ c.toNat ≤ 57 := by
    simpa [Char.isDigit, UInt32.le_iff_toNat_le] using h
  unfold digitValue?
  rw [if_pos (show c.toNat < 0x80 by omega), if_pos]
  · rfl
  · simpa using hn

/-- A run of decimal digits denotes what it is the decimal of. -/
theorem digitsToNat_toDigits (n : Nat) : digitsToNat (Nat.toDigits 10 n) = n := by
  calc digitsToNat (Nat.toDigits 10 n)
      = Nat.ofDigitChars 10 (Nat.toDigits 10 n) 0 := by
        rw [Nat.ofDigitChars_eq_foldl]
        refine List.foldl_ext _ _ _ fun a c hc => ?_
        rw [digitValue?_of_isDigit (Nat.isDigit_of_mem_toDigits (by decide) (by decide) hc)]
        rfl
    _ = n := Nat.ofDigitChars_toDigits (by decide) (by decide)

/-- No letter from `a` to `z` is in upper case. -/
theorem lowerRuns_apart : ∀ r ∈ lowerRuns, r.last < 'a'.toNat ∨ 'z'.toNat < r.first := by
  decide +kernel

theorem lowerChar_of_small {c : Char} (h : 'a'.toNat ≤ c.toNat ∧ c.toNat ≤ 'z'.toNat)
    (before after : List Char) : lowerChar before c after = [c] := by
  have ha : 'a'.toNat = 97 := rfl
  have hz : 'z'.toNat = 122 := rfl
  have hrun : CaseRun.find? lowerRuns c.toNat = none := by
    rw [CaseRun.find?, Option.map_eq_none_iff, Array.find?_eq_none]
    intro r hr
    have hapart := lowerRuns_apart r hr
    simp only [Bool.and_eq_true, decide_eq_true_eq]
    omega
  unfold lowerChar
  rw [hrun, if_neg (by rw [beq_iff_eq]; omega), if_neg (by rw [beq_iff_eq]; omega)]
  rfl

/-- A text of letters from `a` to `z` is its own lower case. -/
theorem lower_of_small {w : List Char} (h : ∀ c ∈ w, 'a'.toNat ≤ c.toNat ∧ c.toNat ≤ 'z'.toNat) :
    lower (String.ofList w) = String.ofList w := by
  have hfrom : ∀ before, lowerFrom before w = w := by
    induction w with
    | nil => exact fun _ => rfl
    | cons c w ih =>
      intro before
      rw [lowerFrom, lowerChar_of_small (h c List.mem_cons_self),
        ih fun c hc => h c (List.mem_cons_of_mem _ hc)]
      rfl
  rw [lower, String.toList_ofList, hfrom]

end Text

namespace Template

open Text Grammar

/-- A value that can be written as an argument. -/
inductive Constant where
  | int (i : Int) (isShort : (Nat.toDigits 10 i.natAbs).length ≤ Numeral.digitLimit)
  | bool (b : Bool)
  | text (s : String)

/-- The quotes that a text may stand between. -/
inductive Quote where
  | single
  | double

def Quote.char : Quote → Char
  | single => '\''
  | double => '"'

/-- A character of a text between quotes. -/
def Quote.escaped (q : Quote) (c : Char) : List Char :=
  if c = q.char ∨ c = '\\' then ['\\', c] else [c]

namespace Constant

def value : Constant → Value
  | int i _ => .int i
  | bool b => .bool b
  | text s => .text s

/-- How a value is written, with these quotes around a text. -/
def written (q : Quote) : Constant → List Char
  | int i _ => intChars i
  | bool b => if b then ['t', 'r', 'u', 'e'] else ['f', 'a', 'l', 's', 'e']
  | text s => q.char :: (s.toList.flatMap q.escaped ++ [q.char])

theorem value_injective : Function.Injective value := by
  rintro (⟨i, _⟩ | b | s) (⟨j, _⟩ | c | t) h <;> cases h <;> rfl

end Constant

/-- A call with arguments that are separated by a comma and a space. -/
def writtenCall (q : Quote) (f : Name) (args : List Constant) : String :=
  String.ofList ('$' :: '{' :: (f.text ++ '(' ::
    ([',', ' '].intercalate (args.map (Constant.written q)) ++ [')', '}'])))

/-! ### Words -/

theorem ofWord_bool (q : Quote) (b : Bool) :
    Literal.ofWord ((Constant.bool b).written q) = .ok (.bool b) := by
  cases b with
  | false =>
    have hn : Literal.isNumeral ['f', 'a', 'l', 's', 'e'] = false := by decide
    have hd : Literal.decimal? ['f', 'a', 'l', 's', 'e'] = none := by rfl
    have hl : lower "false" = "false" := lower_of_small (w := ['f', 'a', 'l', 's', 'e']) (by simp)
    simp [Constant.written, Literal.ofWord, Numeral.splitSign, hn, hd, hl]
  | true =>
    have hn : Literal.isNumeral ['t', 'r', 'u', 'e'] = false := by decide
    have hd : Literal.decimal? ['t', 'r', 'u', 'e'] = none := by rfl
    have hl : lower "true" = "true" := lower_of_small (w := ['t', 'r', 'u', 'e']) (by simp)
    simp [Constant.written, Literal.ofWord, Numeral.splitSign, hn, hd, hl]

theorem isNumeral_toDigits (n : Nat) : Literal.isNumeral (Nat.toDigits 10 n) = true := by
  rw [Literal.isNumeral, Bool.and_eq_true]
  refine ⟨by simp [Nat.toDigits_ne_nil], List.all_eq_true.2 fun c hc => ?_⟩
  rw [isDigit, digitValue?_of_isDigit (Nat.isDigit_of_mem_toDigits (by decide) (by decide) hc)]
  rfl

theorem splitSign_toDigits (n : Nat) :
    Numeral.splitSign (Nat.toDigits 10 n) = (false, Nat.toDigits 10 n) := by
  have hdigit : ∀ c ∈ Nat.toDigits 10 n, c.isDigit = true := fun c hc =>
    Nat.isDigit_of_mem_toDigits (by decide) (by decide) hc
  unfold Numeral.splitSign
  split
  · rename_i r h
    rw [h] at hdigit
    exact absurd (hdigit '-' List.mem_cons_self) (by decide)
  · rename_i r h
    rw [h] at hdigit
    exact absurd (hdigit '+' List.mem_cons_self) (by decide)
  · rfl

/-- **An integer is read from its decimal digits.** -/
theorem ofWord_intChars {i : Int} (h : (Nat.toDigits 10 i.natAbs).length ≤ Numeral.digitLimit) :
    Literal.ofWord (intChars i) = .ok (.int i) := by
  have hsplit : Numeral.splitSign (intChars i) = (decide (i < 0), Nat.toDigits 10 i.natAbs) := by
    unfold intChars
    rw [Nat.toList_repr]
    split
    · rename_i hneg
      rw [decide_eq_true hneg]
      rfl
    · rename_i hneg
      rw [decide_eq_false hneg, splitSign_toDigits]
  unfold Literal.ofWord
  rw [hsplit]
  dsimp only
  rw [if_pos (isNumeral_toDigits _), if_neg (Nat.not_lt_of_le h), digitsToNat_toDigits]
  congr 2
  simp only [decide_eq_true_eq]
  split <;> omega

/-- Letters, digits and hyphens. -/
def IsPlain (w : List Char) : Prop := ∀ c ∈ w, (c.isAlphanum || c == '-') = true

instance (w : List Char) : Decidable (IsPlain w) := List.decidableBAll _ w

theorem IsPlain.not_mem {w : List Char} (h : IsPlain w) {c : Char}
    (hc : (c.isAlphanum || c == '-') = false) : c ∉ w := by
  intro hm
  rw [h c hm] at hc
  cases hc

theorem IsPlain.isBlank {w : List Char} (h : IsPlain w) : ∀ c ∈ w, isBlank c = false := by
  intro c hc
  rcases Bool.or_eq_true_iff.1 (h c hc) with ha | hm
  · exact isBlank_of_identifier (by rw [ha]; rfl)
  · rw [eq_of_beq hm]
    decide

/-- A text of letters, digits and hyphens is a word. -/
def plainWord (w : List Char) (hne : w ≠ []) (h : IsPlain w) : Word where
  text := w
  ne_nil := hne
  isTrimmed := ⟨fun c hc => h.isBlank c (List.mem_of_mem_head? hc),
    fun c hc => h.isBlank c (List.mem_of_mem_getLast? hc)⟩
  unquoted := fun c hc => by
    have hm := List.mem_of_mem_head? hc
    refine ⟨?_, ?_⟩ <;> (rintro rfl; exact h.not_mem (by decide) hm)
  isOpen := fun c hc => by
    refine ⟨?_, ?_, ?_, ?_⟩ <;> (rintro rfl; exact h.not_mem (by decide) hc)
  isFlat := fun hi => h.not_mem (by decide) (hi.subset List.mem_cons_self)

theorem intChars_ne_nil (i : Int) : intChars i ≠ [] := by
  unfold intChars
  rw [Nat.toList_repr]
  split
  · exact List.cons_ne_nil _ _
  · exact Nat.toDigits_ne_nil

theorem isPlain_intChars (i : Int) : IsPlain (intChars i) := by
  have hdigits : IsPlain (Nat.toDigits 10 i.natAbs) := fun c hc => by
    have hd := Nat.isDigit_of_mem_toDigits (b := 10) (by decide) (by decide) hc
    simp [Char.isAlphanum, hd]
  unfold intChars
  rw [Nat.toList_repr]
  split
  · exact List.forall_mem_cons.2 ⟨by decide, hdigits⟩
  · exact hdigits

/-! ### Arguments -/

namespace Grammar

theorem Word.value_of_ofWord {w : Word} {v : Value} (h : Literal.ofWord w.text = .ok v) :
    w.value = v := by
  rw [Word.value, h]
  rfl

end Grammar

theorem Quote.isQuote (q : Quote) : q.char = '\'' ∨ q.char = '"' := by
  cases q with
  | single => exact .inl rfl
  | double => exact .inr rfl

/-- A character of a text as it is written between quotes. -/
def Quote.item (q : Quote) (c : Char) : Item :=
  if c = q.char ∨ c = '\\' then .escaped c else .plain c

theorem Quote.item_text (q : Quote) (c : Char) : (q.item c).text = q.escaped c := by
  unfold Quote.item Quote.escaped
  split <;> rfl

theorem Quote.item_value (q : Quote) (c : Char) : (q.item c).value = c := by
  unfold Quote.item
  split <;> rfl

theorem Quote.item_fits (q : Quote) (c : Char) : (q.item c).Fits q.char := by
  unfold Quote.item
  split
  · trivial
  · rename_i h
    exact not_or.1 h

namespace Constant

/-- The argument that a value is written as. -/
def argument (q : Quote) : Constant → Argument
  | int i _ => .bare (plainWord (intChars i) (intChars_ne_nil i) (isPlain_intChars i))
  | bool true => .bare (plainWord ['t', 'r', 'u', 'e'] (by decide) (by decide))
  | bool false => .bare (plainWord ['f', 'a', 'l', 's', 'e'] (by decide) (by decide))
  | text s => .quoted {
      quote := q.char
      isQuote := q.isQuote
      items := s.toList.map q.item
      fits := List.forall_mem_map.2 fun c _ => q.item_fits c }

theorem argument_text (q : Quote) (c : Constant) : (c.argument q).text = c.written q := by
  cases c with
  | int i h => rfl
  | bool b => cases b <;> rfl
  | text s =>
    simp only [argument, Argument.text, Quoted.text, written, List.flatMap_map, Quote.item_text]

/-- What a value is written as is read as the value. -/
theorem argument_read (q : Quote) (c : Constant) :
    (c.argument q).IsShort ∧ (c.argument q).value = c.value := by
  have hbare : ∀ {w : Word} {v : Value}, Literal.ofWord w.text = .ok v →
      (Argument.bare w).IsShort ∧ (Argument.bare w).value = v :=
    fun h => ⟨ofWord_isShort h, Word.value_of_ofWord h⟩
  cases c with
  | int i h => exact hbare (ofWord_intChars h)
  | bool b =>
    cases b with
    | false => exact hbare (ofWord_bool q false)
    | true => exact hbare (ofWord_bool q true)
  | text s =>
    refine ⟨trivial, ?_⟩
    have hitems : (s.toList.map q.item).map Item.value = s.toList := by
      rw [List.map_map]
      exact (List.map_congr_left fun c _ => q.item_value c).trans (List.map_id _)
    rw [argument, Argument.value, hitems, String.ofList_toList]
    rfl

end Constant

/-! ### Calls -/

/-- One space. -/
def Grammar.Gap.space : Gap := ⟨[' '], List.forall_mem_singleton.2 (by decide)⟩

/-- The arguments of a call with these values, a space before each but the first. -/
def argumentList (q : Quote) : List Constant → ArgumentList
  | [] => .none .empty
  | c :: args =>
    .some ⟨.empty, c.argument q, .empty⟩ (args.map fun c => ⟨.space, c.argument q, .empty⟩)

theorem argumentList_text (q : Quote) (args : List Constant) :
    (argumentList q args).text = [',', ' '].intercalate (args.map (Constant.written q)) := by
  cases args with
  | nil => rfl
  | cons c args =>
    have hjoin : ∀ (w : List Char) (ws : List (List Char)),
        [',', ' '].intercalate (w :: ws) = w ++ ws.flatMap fun w => ',' :: ' ' :: w := by
      intro w ws
      induction ws generalizing w with
      | nil => simp [List.intercalate]
      | cons x ws ih => rw [List.intercalate_cons_cons, ih, List.flatMap_cons]; simp
    rw [List.map_cons, hjoin, List.flatMap_map]
    simp [argumentList, ArgumentList.text, Slot.text, Gap.empty, Gap.space, Constant.argument_text,
      List.flatMap_map]

theorem argumentList_read (q : Quote) (args : List Constant) :
    (argumentList q args).IsShort ∧ (argumentList q args).values = args.map Constant.value := by
  cases args with
  | nil => exact ⟨fun s hs => absurd hs List.not_mem_nil, rfl⟩
  | cons c args =>
    constructor
    · intro s hs
      rcases List.mem_cons.1 hs with rfl | hs
      · exact (c.argument_read q).1
      · obtain ⟨d, -, rfl⟩ := List.mem_map.1 hs
        exact (d.argument_read q).1
    · simp [argumentList, ArgumentList.values, ArgumentList.slots, Constant.argument_read]

/-- The expression that a call is. -/
def callExpression (q : Quote) (f : Name) (args : List Constant) : Expression :=
  ⟨.empty, f, .empty, some ⟨argumentList q args, .empty⟩⟩

theorem callExpression_text (q : Quote) (f : Name) (args : List Constant) :
    (callExpression q f args).text = (writtenCall q f args).toList := by
  simp [callExpression, Expression.text, Expression.inner, Expression.callText, Call.text,
    Gap.empty, argumentList_text, writtenCall]

/-- **A call is read with the arguments that are written in it**, each of its kind, whichever
quotes are used. -/
theorem parse_literals (q : Quote) (f : Name) :
    (∀ args, parse (writtenCall q f args) = .ok (.ok [.reference {
      name := String.ofList f.text
      arguments? := some (args.map Constant.value)
      raw := writtenCall q f args
      span := ⟨0, (writtenCall q f args).length⟩ }])) ∧
    Function.Injective (List.map Constant.value) := by
  refine ⟨fun args => ?_, Constant.value_injective.list_map⟩
  have htext := callExpression_text q f args
  obtain ⟨hshort, hvalues⟩ := argumentList_read q args
  have he : (callExpression q f args).IsShort := by
    rintro c ⟨⟩
    exact hshort
  have hparse := parse_of_outline (t := writtenCall q f args)
    (o := .next ⟨[], isFlat_nil⟩ (callExpression q f args) (.last ⟨[], isFlat_nil⟩))
    (by simpa [Outline.text] using htext) ⟨he, trivial⟩
  have href : (callExpression q f args).reference 0 = {
      name := String.ofList f.text
      arguments? := some (args.map Constant.value)
      raw := writtenCall q f args
      span := ⟨0, (writtenCall q f args).length⟩ } := by
    rw [Expression.reference, htext, String.ofList_toList, String.length_toList, Nat.zero_add,
      ← hvalues]
    rfl
  rw [hparse, ← href]
  simp [Outline.segments, Run.segments]

/-- A number, a text that looks like it, and a text that looks like more. -/
example : writtenCall .double ⟨['f'], by decide⟩ [.int (-7) (by decide), .bool true, .text "-7",
    .text "a\"$\x7b\\"] = "$\x7bf(-7, true, \"-7\", \"a\\\"$\x7b\\\\\")\x7d" := by rfl

end Template
end Stencil
