/-
# How templates are written

A template is literal text with expressions in it. An expression is a name
between braces, with blanks around it, or a call: the name and a list of
arguments in parentheses. An argument is a quoted text, where a backslash
stands before any character, or a bare word. Literal text and bare words hold
no start of an expression.

The types carry these rules, so that everything built from them is a well-formed
template, with a text, with segments on their places, and with at most one way
of writing each text (`Outline.text_injective`).

Key definitions: `Gap`, `Name`, `Quoted`, `Word`, `Argument`, `ArgumentList`,
`Expression`, `Run`, `Outline`, `Outline.text`, `Outline.segments`,
`Outline.IsShort`.
Key theorem: `Outline.text_injective`.
-/
import Mathlib.Data.List.Infix
import Mathlib.Data.List.TakeWhile
import Stencil.Template.Scan

namespace Stencil
namespace Template
namespace Grammar

open Text

/-! ### The parts of an expression -/

/-- Blanks, or nothing. -/
@[ext] structure Gap where
  text : List Char
  isBlank : ∀ c ∈ text, isBlank c = true

/-- No blanks. -/
def Gap.empty : Gap := ⟨[], by simp⟩

def Gap.append (g g' : Gap) : Gap :=
  ⟨g.text ++ g'.text, fun c hc => (List.mem_append.1 hc).elim (g.isBlank c) (g'.isBlank c)⟩

/-- A letter or an underscore, and letters, digits and underscores after it. -/
@[ext] structure Name where
  text : List Char
  isIdentifier : isIdentifier text = true

/-- A character of a quoted text, which stands for itself or comes after a backslash. -/
inductive Item where
  | plain (c : Char)
  | escaped (c : Char)

def Item.text : Item → List Char
  | plain c => [c]
  | escaped c => ['\\', c]

/-- The character that an item stands for. -/
def Item.value : Item → Char
  | plain c => c
  | escaped c => c

/-- An item that may stand between two quotes `q`. -/
def Item.Fits (q : Char) : Item → Prop
  | plain c => c ≠ q ∧ c ≠ '\\'
  | escaped _ => True

/-- A text in quotes. -/
@[ext] structure Quoted where
  quote : Char
  isQuote : quote = '\'' ∨ quote = '"'
  items : List Item
  fits : ∀ i ∈ items, i.Fits quote

def Quoted.text (q : Quoted) : List Char := q.quote :: (q.items.flatMap Item.text ++ [q.quote])

/-- A text that neither begins nor ends with a blank. -/
def IsTrimmed (w : List Char) : Prop :=
  (∀ c ∈ w.head?, isBlank c = false) ∧ ∀ c ∈ w.getLast?, isBlank c = false

/-- A text without the start of an expression. -/
def IsFlat (w : List Char) : Prop := ¬ ['$', '{'] <:+: w

/-- A bare word. -/
@[ext] structure Word where
  text : List Char
  ne_nil : text ≠ []
  isTrimmed : IsTrimmed text
  unquoted : ∀ c ∈ text.head?, c ≠ '\'' ∧ c ≠ '"'
  isOpen : ∀ c ∈ text, c ≠ ',' ∧ c ≠ '(' ∧ c ≠ ')' ∧ c ≠ '}'
  isFlat : IsFlat text

/-- A word that is an integer has few enough digits to be read. -/
def Word.IsShort (w : Word) : Prop :=
  Literal.isNumeral (Numeral.splitSign w.text).2 = true →
    (Numeral.splitSign w.text).2.length ≤ Numeral.digitLimit

/-- What a word denotes; nothing, if it is an integer that is too long. -/
def Word.value (w : Word) : Value := (Literal.ofWord w.text).toOption.getD .null

inductive Argument where
  | quoted (q : Quoted)
  | bare (w : Word)

namespace Argument

def text : Argument → List Char
  | quoted q => q.text
  | bare w => w.text

def value : Argument → Value
  | quoted q => .text (String.ofList (q.items.map Item.value))
  | bare w => w.value

def IsShort : Argument → Prop
  | quoted _ => True
  | bare w => w.IsShort

end Argument

/-- An argument with the blanks around it. -/
@[ext] structure Slot where
  before : Gap
  argument : Argument
  after : Gap

def Slot.text (s : Slot) : List Char := s.before.text ++ (s.argument.text ++ s.after.text)

/-- What stands between the parentheses of a call: blanks, or arguments separated by commas. -/
inductive ArgumentList where
  | none (gap : Gap)
  | some (first : Slot) (rest : List Slot)

namespace ArgumentList

def slots : ArgumentList → List Slot
  | none _ => []
  | some first rest => first :: rest

def text : ArgumentList → List Char
  | none gap => gap.text
  | some first rest => first.text ++ rest.flatMap fun s => ',' :: s.text

def values (a : ArgumentList) : List Value := a.slots.map fun s => s.argument.value

def IsShort (a : ArgumentList) : Prop := ∀ s ∈ a.slots, s.argument.IsShort

end ArgumentList

/-- The parentheses of a call, with the blanks after them. -/
@[ext] structure Call where
  arguments : ArgumentList
  after : Gap

def Call.text (c : Call) : List Char := '(' :: (c.arguments.text ++ ')' :: c.after.text)

/-- A name with the blanks around it, and parentheses if it is a call. -/
@[ext] structure Expression where
  before : Gap
  name : Name
  after : Gap
  call? : Option Call

namespace Expression

def callText (e : Expression) : List Char :=
  match e.call? with
  | none => []
  | some c => c.text

/-- What stands between the braces. -/
def inner (e : Expression) : List Char :=
  e.before.text ++ (e.name.text ++ (e.after.text ++ e.callText))

def text (e : Expression) : List Char := '$' :: '{' :: (e.inner ++ ['}'])

/-- The literal arguments of a call; `none` for a variable. -/
def arguments? (e : Expression) : Option (List Value) := e.call?.map fun c => c.arguments.values

def IsShort (e : Expression) : Prop := ∀ c ∈ e.call?, c.arguments.IsShort

/-- The reference that an expression is at the place `pos`. -/
def reference (pos : Nat) (e : Expression) : Reference where
  name := String.ofList e.name.text
  arguments? := e.arguments?
  raw := String.ofList e.text
  span := ⟨pos, pos + e.text.length⟩

end Expression

/-! ### Templates -/

/-- A run of literal text, which may be empty. -/
@[ext] structure Run where
  text : List Char
  isFlat : IsFlat text

/-- The segment of a run at the place `pos`; an empty run is none. -/
def Run.segments (pos : Nat) (run : Run) : List Segment :=
  if run.text = [] then []
  else [.literal (String.ofList run.text) ⟨pos, pos + run.text.length⟩]

/-- Runs of literal text with expressions between them. -/
inductive Outline where
  | last (run : Run)
  | next (run : Run) (e : Expression) (rest : Outline)

namespace Outline

def text : Outline → List Char
  | last run => run.text
  | next run e rest => run.text ++ (e.text ++ rest.text)

/-- The segments of a template that begins at the place `pos`. -/
def segments (pos : Nat) : Outline → List Segment
  | last run => run.segments pos
  | next run e rest =>
    run.segments pos ++
      .reference (e.reference (pos + run.text.length)) ::
        rest.segments (pos + run.text.length + e.text.length)

/-- No integer among the arguments is too long. -/
def IsShort : Outline → Prop
  | last _ => True
  | next _ e rest => e.IsShort ∧ rest.IsShort

end Outline

/-! ### Blanks -/

/-- A text that is empty or begins with another character than a blank. -/
def StopsBlanks (r : List Char) : Prop := ∀ c ∈ r.head?, isBlank c = false

theorem dropBlanks_gap (g : Gap) {r : List Char} (h : StopsBlanks r) :
    dropBlanks (g.text ++ r) = r := by
  obtain ⟨w, hw⟩ := g
  show (w ++ r).dropWhile _ = r
  rw [List.dropWhile_append_of_pos hw]
  cases r with
  | nil => rfl
  | cons c r => exact List.dropWhile_cons_of_neg (by simp [h c rfl])

theorem stopsBlanks_dropBlanks (cs : List Char) : StopsBlanks (dropBlanks cs) := by
  intro c hc
  have hd := List.head?_dropWhile_not isBlank cs
  rw [show cs.dropWhile isBlank = dropBlanks cs from rfl, Option.mem_def.1 hc] at hd
  simpa using hd

/-- The blanks at the start of a text. -/
def leadingGap (cs : List Char) : Gap :=
  ⟨cs.takeWhile isBlank, fun _ hc => List.mem_takeWhile_imp hc⟩

theorem leadingGap_append (cs : List Char) : (leadingGap cs).text ++ dropBlanks cs = cs :=
  List.takeWhile_append_dropWhile

/-- The blanks before a text that does not begin with one are known from both together. -/
theorem gap_append_inj {g g' : Gap} {r r' : List Char} (h : g.text ++ r = g'.text ++ r')
    (hr : StopsBlanks r) (hr' : StopsBlanks r') : g = g' ∧ r = r' := by
  have hd : r = r' := by
    rw [← dropBlanks_gap g hr, h, dropBlanks_gap g' hr']
  subst hd
  exact ⟨Gap.ext (List.append_cancel_right h), rfl⟩

/-! ### Trimmed texts -/

theorem IsTrimmed.stopsBlanks {w : List Char} (h : IsTrimmed w) (hw : w ≠ []) (r : List Char) :
    StopsBlanks (w ++ r) := by
  intro c hc
  rw [List.head?_append_of_ne_nil _ hw] at hc
  exact h.1 c hc

theorem trim_gaps (g g' : Gap) {w : List Char} (h : IsTrimmed w) (hw : w ≠ []) :
    trim (g.text ++ (w ++ g'.text)) = w := by
  have hb : ∀ c ∈ g'.text.reverse, isBlank c = true := fun c hc =>
    g'.isBlank c (List.mem_reverse.1 hc)
  have he : dropBlanks (g'.text.reverse ++ w.reverse) = w.reverse := by
    refine dropBlanks_gap ⟨_, hb⟩ fun c hc => h.2 c ?_
    rwa [List.head?_reverse] at hc
  unfold trim
  rw [dropBlanks_gap g (h.stopsBlanks hw _), List.reverse_append, he, List.reverse_reverse]

theorem dropBlanks_eq_trim (cs : List Char) : ∃ g : Gap, dropBlanks cs = trim cs ++ g.text := by
  have hd := leadingGap_append (dropBlanks cs).reverse
  have hb : ∀ c ∈ (leadingGap (dropBlanks cs).reverse).text.reverse, isBlank c = true :=
    fun c hc => (leadingGap _).isBlank c (List.mem_reverse.1 hc)
  refine ⟨⟨_, hb⟩, ?_⟩
  calc dropBlanks cs
      = (dropBlanks cs).reverse.reverse := (List.reverse_reverse _).symm
    _ = ((leadingGap (dropBlanks cs).reverse).text ++
          dropBlanks (dropBlanks cs).reverse).reverse := by rw [hd]
    _ = trim cs ++ (leadingGap (dropBlanks cs).reverse).text.reverse := List.reverse_append

/-- A text is its trimmed middle with the blanks around it. -/
theorem exists_trim (cs : List Char) : ∃ g g' : Gap, cs = g.text ++ (trim cs ++ g'.text) := by
  obtain ⟨g', hg⟩ := dropBlanks_eq_trim cs
  exact ⟨leadingGap cs, g', by rw [← hg, leadingGap_append]⟩

theorem isTrimmed_trim (cs : List Char) : IsTrimmed (trim cs) := by
  constructor
  · intro c hc
    obtain ⟨g, hg⟩ := dropBlanks_eq_trim cs
    refine stopsBlanks_dropBlanks cs c ?_
    rw [hg]
    exact List.mem_head?_append_of_mem_head? hc
  · intro c hc
    refine stopsBlanks_dropBlanks (dropBlanks cs).reverse c ?_
    rwa [trim, List.getLast?_reverse] at hc

/-- A trimmed text is known from itself with blanks around it. -/
theorem trimmed_append_inj {g g' h h' : Gap} {w w' : List Char} (hw : IsTrimmed w)
    (hw' : IsTrimmed w') (hn : w ≠ []) (hn' : w' ≠ [])
    (he : g.text ++ (w ++ h.text) = g'.text ++ (w' ++ h'.text)) : g = g' ∧ w = w' ∧ h = h' := by
  obtain ⟨rfl, hr⟩ := gap_append_inj he (hw.stopsBlanks hn _) (hw'.stopsBlanks hn' _)
  have ht : w = w' := by
    rw [← trim_gaps g h hw hn, he, trim_gaps g h' hw' hn']
  subst ht
  exact ⟨rfl, rfl, Gap.ext (List.append_cancel_left hr)⟩

/-! ### Characters -/

theorem isBlank_of_identifier {c : Char} (h : (c.isAlphanum || c == '_') = true) :
    isBlank c = false := by
  have hn : (48 ≤ c.toNat ∧ c.toNat ≤ 57) ∨ (65 ≤ c.toNat ∧ c.toNat ≤ 122) := by
    rcases Bool.or_eq_true_iff.1 h with ha | hu
    · have hv : c.toNat = c.val.toNat := rfl
      have hcases : (decide (c.val ≥ 'A'.val ∧ c.val ≤ 'Z'.val) ||
          decide (c.val ≥ 'a'.val) && decide (c.val ≤ 'z'.val) ||
          decide (c.val ≥ '0'.val) && decide (c.val ≤ '9'.val)) = true := ha
      simp [UInt32.le_iff_toNat_le] at hcases
      omega
    · rw [eq_of_beq hu]
      decide
  unfold isBlank
  simp only [Bool.or_eq_false_iff, Bool.and_eq_false_iff, decide_eq_false_iff_not,
    beq_eq_false_iff_ne]
  omega

theorem Name.chars (n : Name) : ∀ c ∈ n.text, (c.isAlphanum || c == '_') = true := by
  obtain ⟨t, ht⟩ := n
  cases t with
  | nil => cases ht
  | cons d t =>
    rw [Template.isIdentifier, Bool.and_eq_true] at ht
    intro c hc
    rcases List.mem_cons.1 hc with rfl | hc
    · rcases Bool.or_eq_true_iff.1 ht.1 with ha | hu
      · simp [Char.isAlphanum, ha]
      · simp [hu]
    · exact List.all_eq_true.1 ht.2 c hc

theorem Name.ne_nil (n : Name) : n.text ≠ [] := by
  intro h
  have hi := n.isIdentifier
  rw [h] at hi
  cases hi

theorem Name.isTrimmed (n : Name) : IsTrimmed n.text :=
  ⟨fun c hc => isBlank_of_identifier (n.chars c (List.mem_of_mem_head? hc)),
    fun c hc => isBlank_of_identifier (n.chars c (List.mem_of_mem_getLast? hc))⟩

/-- A name with the blanks around it ends before a parenthesis or a closing brace. -/
theorem isOpen_name (g : Gap) (n : Name) (g' : Gap) :
    ∀ c ∈ g.text ++ (n.text ++ g'.text), c ≠ '(' ∧ c ≠ '}' ∧ c ≠ '$' := by
  intro c hc
  have hb : ∀ c, isBlank c = true → c ≠ '(' ∧ c ≠ '}' ∧ c ≠ '$' := by
    rintro c hc
    refine ⟨?_, ?_, ?_⟩ <;> (rintro rfl; revert hc; decide)
  rcases List.mem_append.1 hc with hc | hc
  · exact hb c (g.isBlank c hc)
  rcases List.mem_append.1 hc with hc | hc
  · have hn := n.chars c hc
    refine ⟨?_, ?_, ?_⟩ <;> (rintro rfl; revert hn; decide)
  · exact hb c (g'.isBlank c hc)

/-- A word with the blanks after it ends before a comma or a parenthesis. -/
theorem isOpen_word (w : Word) (g : Gap) :
    ∀ c ∈ w.text ++ g.text, c ≠ ',' ∧ c ≠ '(' ∧ c ≠ ')' ∧ c ≠ '}' := by
  intro c hc
  rcases List.mem_append.1 hc with hc | hc
  · exact w.isOpen c hc
  · have hb := g.isBlank c hc
    refine ⟨?_, ?_, ?_, ?_⟩ <;> (rintro rfl; revert hb; decide)

theorem isFlat_nil : IsFlat [] := by
  intro h
  cases List.infix_nil.1 h

theorem isFlat_cons {c : Char} {r : List Char} :
    IsFlat (c :: r) ↔ ¬ (c = '$' ∧ r.head? = some '{') ∧ IsFlat r := by
  unfold IsFlat
  rw [List.infix_cons_iff, not_or, List.cons_prefix_cons, List.singleton_prefix_iff_head?_eq_some,
    eq_comm]

theorem IsFlat.append_gap {w : List Char} (h : IsFlat w) (g : Gap) : IsFlat (w ++ g.text) := by
  have hg : ∀ c ∈ g.text, c ≠ '$' ∧ c ≠ '{' := by
    intro c hc
    have hb := g.isBlank c hc
    refine ⟨?_, ?_⟩ <;> (rintro rfl; revert hb; decide)
  induction w with
  | nil =>
    rintro ⟨a, b, hab⟩
    have hm : '$' ∈ a ++ ['$', '{'] ++ b := by simp
    rw [hab, List.nil_append] at hm
    exact (hg '$' hm).1 rfl
  | cons c w ih =>
    obtain ⟨hstart, hrest⟩ := isFlat_cons.1 h
    refine isFlat_cons.2 ⟨?_, ih hrest⟩
    rintro ⟨hc, hh⟩
    cases w with
    | nil => exact (hg '{' (List.mem_of_mem_head? hh)).2 rfl
    | cons d w => exact hstart ⟨hc, hh⟩

/-- Up to the first character without a property a text is known from what it is part of. -/
theorem append_cons_inj {P : Char → Prop} {a a' r r' : List Char} {d d' : Char}
    (ha : ∀ c ∈ a, P c) (ha' : ∀ c ∈ a', P c) (hd : ¬ P d) (hd' : ¬ P d')
    (h : a ++ d :: r = a' ++ d' :: r') : a = a' ∧ d = d' ∧ r = r' := by
  induction a generalizing a' with
  | nil =>
    cases a' with
    | nil =>
      injection h with h₁ h₂
      exact ⟨rfl, h₁, h₂⟩
    | cons c a' =>
      injection h with h₁ h₂
      exact absurd (h₁ ▸ ha' c List.mem_cons_self) hd
  | cons c a ih =>
    cases a' with
    | nil =>
      injection h with h₁ h₂
      exact absurd (h₁ ▸ ha c List.mem_cons_self) hd'
    | cons c' a' =>
      injection h with h₁ h₂
      obtain ⟨rfl, hds⟩ := ih (fun c hc => ha c (List.mem_cons_of_mem _ hc))
        (fun c hc => ha' c (List.mem_cons_of_mem _ hc)) h₂
      exact ⟨by rw [h₁], hds⟩

/-- An expression does not start inside a flat text, nor right behind its first character. -/
theorem flat_append_ne {c : Char} {a r r' : List Char} (ha : IsFlat (c :: a)) :
    '$' :: '{' :: r ≠ c :: a ++ '$' :: '{' :: r' := by
  intro h
  injection h with h₁ h₂
  cases a with
  | nil => cases h₂
  | cons d a =>
    injection h₂ with h₂
    exact (isFlat_cons.1 ha).1 ⟨h₁.symm, by rw [← h₂]; rfl⟩

/-- A flat text ends where the first expression after it starts. -/
theorem flat_append_inj {a a' r r' : List Char} (ha : IsFlat a) (ha' : IsFlat a')
    (h : a ++ '$' :: '{' :: r = a' ++ '$' :: '{' :: r') : a = a' ∧ r = r' := by
  induction a generalizing a' with
  | nil =>
    cases a' with
    | nil =>
      injection h with _ h
      injection h with _ h
      exact ⟨rfl, h⟩
    | cons c a' => exact absurd h (flat_append_ne ha')
  | cons c a ih =>
    cases a' with
    | nil => exact absurd h.symm (flat_append_ne ha)
    | cons c' a' =>
      injection h with h₁ h₂
      obtain ⟨rfl, hr⟩ := ih (isFlat_cons.1 ha).2 (isFlat_cons.1 ha').2 h₂
      exact ⟨by rw [h₁], hr⟩

/-! ### One way of writing -/

theorem Quoted.quote_ne (q : Quoted) : q.quote ≠ '\\' := by
  rcases q.isQuote with h | h <;> (rw [h]; decide)

theorem items_append_inj {q : Char} (hq : q ≠ '\\') {is js : List Item}
    (hi : ∀ i ∈ is, i.Fits q) (hj : ∀ j ∈ js, j.Fits q) {r r' : List Char}
    (h : is.flatMap Item.text ++ q :: r = js.flatMap Item.text ++ q :: r') :
    is = js ∧ r = r' := by
  induction is generalizing js with
  | nil =>
    cases js with
    | nil => exact ⟨rfl, (List.cons.inj h).2⟩
    | cons j js =>
      exfalso
      cases j with
      | plain c => exact (hj _ List.mem_cons_self).1 (List.cons.inj h).1.symm
      | escaped c => exact hq (List.cons.inj h).1
  | cons i is ih =>
    cases js with
    | nil =>
      exfalso
      cases i with
      | plain c => exact (hi _ List.mem_cons_self).1 (List.cons.inj h).1
      | escaped c => exact hq (List.cons.inj h).1.symm
    | cons j js =>
      have hjs : ∀ j ∈ js, j.Fits q := fun j hm => hj j (List.mem_cons_of_mem _ hm)
      have hrec := ih (fun i hm => hi i (List.mem_cons_of_mem _ hm)) hjs
      cases i with
      | plain c =>
        cases j with
        | plain d =>
          obtain ⟨hc, ht⟩ := List.cons.inj h
          obtain ⟨rfl, hr⟩ := hrec ht
          exact ⟨by rw [hc], hr⟩
        | escaped d => exact absurd (List.cons.inj h).1 (hi _ List.mem_cons_self).2
      | escaped c =>
        cases j with
        | plain d => exact absurd (List.cons.inj h).1.symm (hj _ List.mem_cons_self).2
        | escaped d =>
          obtain ⟨hc, ht⟩ := List.cons.inj (List.cons.inj h).2
          obtain ⟨rfl, hr⟩ := hrec ht
          exact ⟨by rw [hc], hr⟩

/-- The characters that end an argument. -/
def EndsArgument (d : Char) : Prop := d = ',' ∨ d = ')'

/-- A text that begins with the end of an argument. -/
def AtEnd (r : List Char) : Prop := ∃ d t, r = d :: t ∧ EndsArgument d

theorem AtEnd.stopsBlanks {r : List Char} (h : AtEnd r) : StopsBlanks r := by
  obtain ⟨d, t, rfl, hd⟩ := h
  rintro c ⟨⟩
  rcases hd with rfl | rfl <;> decide

/-- An argument begins neither with a blank nor with what ends it. -/
theorem Argument.head (a : Argument) :
    ∃ c t, a.text = c :: t ∧ isBlank c = false ∧ ¬ EndsArgument c := by
  cases a with
  | quoted q =>
    refine ⟨q.quote, _, rfl, ?_⟩
    rcases q.isQuote with h | h <;> (rw [h]; unfold EndsArgument; decide)
  | bare w =>
    obtain ⟨c, t, hw⟩ := List.exists_cons_of_ne_nil w.ne_nil
    have hc := w.isOpen c (by rw [hw]; exact List.mem_cons_self)
    refine ⟨c, t, hw, w.isTrimmed.1 c (by rw [hw]; rfl), ?_⟩
    rintro (h | h)
    · exact hc.1 h
    · exact hc.2.2.1 h

theorem Argument.stopsBlanks (a : Argument) (r : List Char) : StopsBlanks (a.text ++ r) := by
  obtain ⟨c, t, ha, hb, -⟩ := a.head
  rw [ha]
  rintro d ⟨⟩
  exact hb

/-- A bare word never begins with a quote. -/
theorem quoted_append_ne (q : Quoted) (w : Word) (r r' : List Char) :
    q.text ++ r ≠ w.text ++ r' := by
  intro he
  obtain ⟨c, t, hw⟩ := List.exists_cons_of_ne_nil w.ne_nil
  rw [hw] at he
  have hc : q.quote = c := (List.cons.inj he).1
  have hu := w.unquoted c (by rw [hw]; rfl)
  rcases q.isQuote with hq | hq
  · exact hu.1 (hc.symm.trans hq)
  · exact hu.2 (hc.symm.trans hq)

theorem Slot.append_inj {s s' : Slot} {r r' : List Char} (hr : AtEnd r) (hr' : AtEnd r')
    (h : s.text ++ r = s'.text ++ r') : s = s' ∧ r = r' := by
  obtain ⟨g, a, g₂⟩ := s
  obtain ⟨g', a', g₂'⟩ := s'
  simp only [Slot.text, List.append_assoc] at h
  obtain ⟨rfl, ht⟩ := gap_append_inj h (a.stopsBlanks _) (a'.stopsBlanks _)
  cases a with
  | quoted q =>
    cases a' with
    | bare w => exact absurd ht (quoted_append_ne q w _ _)
    | quoted q' =>
      simp only [Argument.text, Quoted.text, List.cons_append, List.append_assoc,
        List.nil_append] at ht
      obtain ⟨hq, hi⟩ := List.cons.inj ht
      rw [← hq] at hi
      have hf : ∀ i ∈ q'.items, i.Fits q.quote := by
        rw [hq]
        exact q'.fits
      obtain ⟨hitems, hg⟩ := items_append_inj q.quote_ne q.fits hf hi
      obtain ⟨rfl, hr⟩ := gap_append_inj hg hr.stopsBlanks hr'.stopsBlanks
      exact ⟨by rw [Quoted.ext hq hitems], hr⟩
  | bare w =>
    cases a' with
    | quoted q => exact absurd ht.symm (quoted_append_ne q w _ _)
    | bare w' =>
      obtain ⟨d, t, rfl, hd⟩ := hr
      obtain ⟨d', t', rfl, hd'⟩ := hr'
      have hstop : ∀ {x}, EndsArgument x → ¬ (x ≠ ',' ∧ x ≠ '(' ∧ x ≠ ')' ∧ x ≠ '}') := by
        rintro x (rfl | rfl) ⟨h₁, -, h₂, -⟩
        · exact h₁ rfl
        · exact h₂ rfl
      simp only [Argument.text, ← List.append_assoc] at ht
      obtain ⟨hw, rfl, rfl⟩ :=
      append_cons_inj (isOpen_word _ _) (isOpen_word _ _) (hstop hd) (hstop hd') ht
      have hnone : Gap.empty.text ++ (w.text ++ g₂.text) =
          Gap.empty.text ++ (w'.text ++ g₂'.text) := hw
      obtain ⟨-, hword, rfl⟩ :=
        trimmed_append_inj w.isTrimmed w'.isTrimmed w.ne_nil w'.ne_nil hnone
      exact ⟨by rw [Word.ext hword], rfl⟩

/-- What follows the first of some arguments: the others, and the closing parenthesis. -/
def further (slots : List Slot) (r : List Char) : List Char :=
  (slots.flatMap fun s => ',' :: s.text) ++ ')' :: r

theorem further_cons (s : Slot) (slots : List Slot) (r : List Char) :
    further (s :: slots) r = ',' :: (s.text ++ further slots r) := by
  simp [further]

theorem further_atEnd (slots : List Slot) (r : List Char) : AtEnd (further slots r) := by
  cases slots with
  | nil => exact ⟨')', r, rfl, .inr rfl⟩
  | cons s slots => exact ⟨',', _, further_cons s slots r, .inl rfl⟩

theorem further_inj {ss ts : List Slot} {r r' : List Char} (h : further ss r = further ts r') :
    ss = ts ∧ r = r' := by
  induction ss generalizing ts with
  | nil =>
    cases ts with
    | nil => exact ⟨rfl, (List.cons.inj h).2⟩
    | cons t ts =>
      rw [further_cons] at h
      exact absurd (List.cons.inj h).1 (by decide)
  | cons s ss ih =>
    cases ts with
    | nil =>
      rw [further_cons] at h
      exact absurd (List.cons.inj h).1 (by decide)
    | cons t ts =>
      rw [further_cons, further_cons] at h
      obtain ⟨rfl, hf⟩ :=
        Slot.append_inj (further_atEnd ss r) (further_atEnd ts r') (List.cons.inj h).2
      obtain ⟨rfl, hr⟩ := ih hf
      exact ⟨rfl, hr⟩

theorem ArgumentList.append_inj {a a' : ArgumentList} {r r' : List Char}
    (h : a.text ++ ')' :: r = a'.text ++ ')' :: r') : a = a' ∧ r = r' := by
  have hclose : ∀ r, StopsBlanks (')' :: r) := fun r => AtEnd.stopsBlanks ⟨')', r, rfl, .inr rfl⟩
  -- blanks alone end with a parenthesis, arguments do not begin with one
  have hne : ∀ (g : Gap) (s : Slot) (r r' : List Char), g.text ++ ')' :: r ≠ s.text ++ r' := by
    intro g s r r' he
    obtain ⟨c, t, ha, -, hc⟩ := s.argument.head
    rw [Slot.text, List.append_assoc, List.append_assoc] at he
    have ht := (gap_append_inj he (hclose r) (s.argument.stopsBlanks _)).2
    rw [ha] at ht
    exact hc (.inr (List.cons.inj ht).1.symm)
  cases a with
  | none g =>
    cases a' with
    | none g' =>
      obtain ⟨rfl, hr⟩ := gap_append_inj h (hclose r) (hclose r')
      exact ⟨rfl, (List.cons.inj hr).2⟩
    | some t ts =>
      rw [ArgumentList.text, ArgumentList.text, List.append_assoc] at h
      exact absurd h (hne g t _ _)
  | some s ss =>
    cases a' with
    | none g' =>
      rw [ArgumentList.text, ArgumentList.text, List.append_assoc] at h
      exact absurd h.symm (hne g' s _ _)
    | some t ts =>
      rw [ArgumentList.text, ArgumentList.text, List.append_assoc, List.append_assoc] at h
      obtain ⟨rfl, hf⟩ := Slot.append_inj (further_atEnd ss r) (further_atEnd ts r') h
      obtain ⟨rfl, hr⟩ := further_inj hf
      exact ⟨rfl, hr⟩

theorem Expression.inner_append_inj {e e' : Expression} {r r' : List Char}
    (h : e.inner ++ '}' :: r = e'.inner ++ '}' :: r') : e = e' ∧ r = r' := by
  obtain ⟨g, n, g₂, c?⟩ := e
  obtain ⟨g', n', g₂', c?'⟩ := e'
  have hstop : ∀ c, c = '(' ∨ c = '}' → ¬ (c ≠ '(' ∧ c ≠ '}' ∧ c ≠ '$') := by
    rintro c (rfl | rfl) ⟨h₁, h₂, -⟩
    · exact h₁ rfl
    · exact h₂ rfl
  -- the name with its blanks ends at the first parenthesis or brace
  have hsplit : ∀ {d d' : Char} {x x' : List Char}, d = '(' ∨ d = '}' → d' = '(' ∨ d' = '}' →
      g.text ++ (n.text ++ g₂.text) ++ d :: x = g'.text ++ (n'.text ++ g₂'.text) ++ d' :: x' →
        (g = g' ∧ n = n' ∧ g₂ = g₂') ∧ d = d' ∧ x = x' := by
    intro d d' x x' hd hd' he
    obtain ⟨hn, hdx⟩ :=
    append_cons_inj (isOpen_name _ _ _) (isOpen_name _ _ _) (hstop d hd) (hstop d' hd') he
    obtain ⟨hg, hname, hg₂⟩ :=
      trimmed_append_inj n.isTrimmed n'.isTrimmed n.ne_nil n'.ne_nil hn
    exact ⟨⟨hg, Name.ext hname, hg₂⟩, hdx⟩
  simp only [Expression.inner, ← List.append_assoc] at h
  simp only [List.append_assoc] at h hsplit
  cases c? with
  | none =>
    cases c?' with
    | none =>
      obtain ⟨⟨rfl, rfl, rfl⟩, -, hr⟩ := hsplit (.inr rfl) (.inr rfl) h
      exact ⟨rfl, hr⟩
    | some c' => exact absurd (hsplit (.inr rfl) (.inl rfl) h).2.1 (by decide)
  | some c =>
    cases c?' with
    | none => exact absurd (hsplit (.inl rfl) (.inr rfl) h).2.1 (by decide)
    | some c' =>
      obtain ⟨a, w⟩ := c
      obtain ⟨a', w'⟩ := c'
      simp only [Expression.callText, Call.text, List.cons_append, List.append_assoc] at h
      obtain ⟨⟨rfl, rfl, rfl⟩, -, ha⟩ := hsplit (.inl rfl) (.inl rfl) h
      obtain ⟨rfl, hw⟩ := ArgumentList.append_inj ha
      have hbrace : ∀ r, StopsBlanks ('}' :: r) := by
        rintro r c ⟨⟩
        decide
      obtain ⟨rfl, hr⟩ := gap_append_inj hw (hbrace r) (hbrace r')
      exact ⟨rfl, (List.cons.inj hr).2⟩

theorem Expression.text_append (e : Expression) (r : List Char) :
    e.text ++ r = '$' :: '{' :: (e.inner ++ '}' :: r) := by
  simp [Expression.text]

theorem not_isFlat_expression (a : List Char) (e : Expression) (r : List Char) :
    ¬ IsFlat (a ++ (e.text ++ r)) := by
  intro h
  exact h ⟨a, e.inner ++ '}' :: r, by simp [Expression.text]⟩

/-- **A text is written in one way at most.** -/
theorem Outline.text_injective : Function.Injective Outline.text := by
  intro o
  induction o with
  | last run =>
    intro o' h
    cases o' with
    | last run' => rw [Run.ext h]
    | next run' e' rest' =>
      have hf := run.isFlat
      rw [show run.text = _ from h] at hf
      exact absurd hf (not_isFlat_expression _ _ _)
  | next run e rest ih =>
    intro o' h
    cases o' with
    | last run' =>
      have hf := run'.isFlat
      rw [← show _ = run'.text from h] at hf
      exact absurd hf (not_isFlat_expression _ _ _)
    | next run' e' rest' =>
      rw [Outline.text, Outline.text, Expression.text_append, Expression.text_append] at h
      obtain ⟨hrun, hin⟩ := flat_append_inj run.isFlat run'.isFlat h
      obtain ⟨rfl, hrest⟩ := Expression.inner_append_inj hin
      rw [Run.ext hrun, ih hrest]

end Grammar
end Template
end Stencil
