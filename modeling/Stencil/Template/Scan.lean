/-
# Reading a template

The scanner walks over the text once. Where `$` and an opening brace stand it
reads an expression; if that is malformed, the part read so far is a fault and
stays literal text, and the walk goes on right after it. Every reader takes
the characters ahead and returns those left, so that places follow from
lengths: an end of the text it was given, by which the walk comes to its end
(`readReference_reads`). Reading is refused only for an integer literal with too
many digits.

Key definitions: `readReference`, `TooLong`, `Reads`, `Piece`, `pieces`,
`layOut`, `Reading`, `read`, `parse`.
-/
import Stencil.Template
import Stencil.Template.Literal

namespace Stencil
namespace Template

open Text

/-- Why an expression cannot be read: it is malformed up to the characters `rest`, or one of its
literals is refused. -/
inductive Halt where
  | malformed (reason : Reason) (name : Option String) (rest : List Char)
  | refused (r : Refusal)

/-- The refusal of an integer literal that has too many digits. -/
def TooLong (r : Refusal) : Prop := ∃ n, Numeral.digitLimit < n ∧ r = .literalTooLong n

theorem ofWord_refused {word : List Char} {r : Refusal} (h : Literal.ofWord word = .error r) :
    TooLong r := by
  unfold Literal.ofWord at h
  dsimp only at h
  split at h
  · split at h
    · rename_i hn
      cases h
      exact ⟨_, hn, rfl⟩
    · cases h
  · split at h <;> cases h

/-- Names are letters, digits and underscores, no digit first. -/
def isIdentifier : List Char → Bool
  | [] => false
  | c :: r => (c.isAlpha || c == '_') && r.all fun d => d.isAlphanum || d == '_'

/-- The characters up to one that stops the reading or up to the start of another expression, and the
rest from there. -/
def readUntil (stops : Char → Bool) : List Char → List Char × List Char
  | [] => ([], [])
  | c :: r =>
    if stops c || (c == '$' && r.head? == some '{') then ([], c :: r)
    else (c :: (readUntil stops r).1, (readUntil stops r).2)

/-- A name goes on up to a parenthesis or a closing brace. -/
def endsName (c : Char) : Bool := c == '(' || c == '}'

/-- The characters of a name, and the rest. -/
def readName : List Char → List Char × List Char := readUntil endsName

/-- A quoted text after its opening quote `q`, and the rest after its closing quote. A backslash
stands for the character after it. -/
def readQuoted (q : Char) : List Char → Option (List Char × List Char)
  | [] => none
  | '\\' :: c :: r => (readQuoted q r).map fun (s, rest) => (c :: s, rest)
  | c :: r =>
    if c == q then some ([], r)
    else (readQuoted q r).map fun (s, rest) => (c :: s, rest)

/-- A bare word goes on up to a comma, a parenthesis or a closing brace. -/
def endsWord (c : Char) : Bool := c == ',' || c == ')' || c == '}' || c == '('

/-- The characters of a bare word, and the rest. -/
def readWord : List Char → List Char × List Char := readUntil endsWord

theorem readQuoted_suffix {q : Char} {cs s rest : List Char}
    (h : readQuoted q cs = some (s, rest)) : rest <:+ cs := by
  fun_induction readQuoted q cs generalizing s rest with
  | case1 => simp at h
  | case2 c r ih =>
    obtain ⟨⟨s', r'⟩, hr, he⟩ := Option.map_eq_some_iff.1 h
    cases he
    exact (ih hr).trans ((List.suffix_cons c r).trans (List.suffix_cons _ _))
  | case3 c r =>
    cases h
    exact List.suffix_cons _ _
  | case4 c r _ _ ih =>
    obtain ⟨⟨s', r'⟩, hr, he⟩ := Option.map_eq_some_iff.1 h
    cases he
    exact (ih hr).trans (List.suffix_cons _ _)

theorem readUntil_suffix (stops : Char → Bool) (cs : List Char) :
    (readUntil stops cs).2 <:+ cs := by
  induction cs with
  | nil => exact List.suffix_refl _
  | cons c r ih =>
    rw [readUntil]
    split
    · exact List.suffix_refl _
    · exact ih.trans (List.suffix_cons _ _)

/-- One argument, from where a blank or its first character stands; the rest starts at the
delimiter after it or, after a quoted text, right behind the closing quote. -/
def readArgument (name : String) (cs : List Char) : Except Halt (Value × List Char) :=
  match dropBlanks cs with
  | [] => .error (.malformed .openArguments (some name) [])
  | c :: r =>
    if c == '\'' || c == '"' then
      match readQuoted c r with
      | none => .error (.malformed .openText (some name) [])
      | some (s, rest) => .ok (.text (String.ofList s), rest)
    else
      match readWord (c :: r) with
      | (_, []) => .error (.malformed .bracedArguments (some name) [])
      | (word, d :: after) =>
        if d == '}' then .error (.malformed .bracedArguments (some name) after)
        else if d == '(' then .error (.malformed .nestedArgument (some name) after)
        else if d == '$' then .error (.malformed .nestedArgument (some name) (d :: after))
        else if (trim word).isEmpty then .error (.malformed .emptyArgument (some name) after)
        else
          match Literal.ofWord (trim word) with
          | .ok v => .ok (v, d :: after)
          | .error e => .error (.refused e)

/-- A reading leaves an end of the text `cs`, whether it succeeds or finds a malformed expression,
and is refused only for a literal that is too long. -/
def Reads {α : Type} (cs : List Char) : Except Halt (α × List Char) → Prop
  | .ok (_, rest) => rest <:+ cs
  | .error (.malformed _ _ rest) => rest <:+ cs
  | .error (.refused r) => TooLong r

theorem Reads.mono {α : Type} {cs ds : List Char} {x : Except Halt (α × List Char)}
    (h : Reads cs x) (hs : cs <:+ ds) : Reads ds x := by
  match x with
  | .ok (_, _) | .error (.malformed _ _ _) => exact List.IsSuffix.trans h hs
  | .error (.refused _) => exact h

theorem Reads.error {α β : Type} {cs : List Char} {e : Halt}
    (h : Reads cs (.error e : Except Halt (α × List Char))) :
    Reads cs (.error e : Except Halt (β × List Char)) := by
  cases e <;> exact h

theorem readArgument_reads (name : String) (cs : List Char) : Reads cs (readArgument name cs) := by
  have hd := dropBlanks_suffix cs
  unfold readArgument
  split
  · exact List.nil_suffix
  · rename_i c r hc
    rw [hc] at hd
    split
    · split
      · exact List.nil_suffix
      · rename_i hq
        exact (readQuoted_suffix hq).trans ((List.suffix_cons c r).trans hd)
    · have hw : (readWord (c :: r)).2 <:+ cs := (readUntil_suffix endsWord (c :: r)).trans hd
      split
      · exact List.nil_suffix
      · rename_i word d after hw'
        rw [hw'] at hw
        have ha : after <:+ cs := (List.suffix_cons d after).trans hw
        split
        · exact ha
        split
        · exact ha
        split
        · exact hw
        split
        · exact ha
        split
        · exact hw
        · rename_i e he
          exact ofWord_refused he

/-- Arguments separated by commas, and the rest after the closing parenthesis. -/
def readItems (name : String) (cs : List Char) : Except Halt (List Value × List Char) :=
  match _h : readArgument name cs with
  | .error e => .error e
  | .ok (v, rest) =>
    match _hd : dropBlanks rest with
    | [] => .error (.malformed .unseparated (some name) [])
    | c :: r =>
      if c == ',' then
        match readItems name r with
        | .ok (vs, rest) => .ok (v :: vs, rest)
        | .error e => .error e
      else if c == ')' then .ok ([v], r)
      else .error (.malformed .unseparated (some name) r)
termination_by cs.length
decreasing_by
  have hr := readArgument_reads name cs
  rw [_h] at hr
  exact ((_hd ▸ dropBlanks_suffix rest).trans hr).length_le

theorem readItems_reads (name : String) (cs : List Char) : Reads cs (readItems name cs) := by
  have h₁ := readArgument_reads name cs
  fun_induction readItems name cs with
  | case1 cs e h =>
    rw [h] at h₁
    exact h₁.error
  | case2 => exact List.nil_suffix
  | case3 cs v rest h c r hd hc vs rest' hr ih =>
    rw [h] at h₁
    have h₂ : r <:+ cs := (List.suffix_cons c r).trans ((hd ▸ dropBlanks_suffix rest).trans h₁)
    have h₃ := (ih (readArgument_reads name r)).mono h₂
    rw [hr] at h₃
    exact h₃
  | case4 cs v rest h c r hd hc e hr ih =>
    rw [h] at h₁
    have h₂ : r <:+ cs := (List.suffix_cons c r).trans ((hd ▸ dropBlanks_suffix rest).trans h₁)
    have h₃ := (ih (readArgument_reads name r)).mono h₂
    rw [hr] at h₃
    exact h₃
  | case5 cs v rest h c r hd =>
    rw [h] at h₁
    exact (List.suffix_cons c r).trans ((hd ▸ dropBlanks_suffix rest).trans h₁)
  | case6 cs v rest h c r hd =>
    rw [h] at h₁
    exact (List.suffix_cons c r).trans ((hd ▸ dropBlanks_suffix rest).trans h₁)

/-- The arguments of a call after its opening parenthesis, and the rest after the closing one. -/
def readArguments (name : String) (cs : List Char) : Except Halt (List Value × List Char) :=
  match dropBlanks cs with
  | ')' :: r => .ok ([], r)
  | r => readItems name r

theorem readArguments_reads (name : String) (cs : List Char) :
    Reads cs (readArguments name cs) := by
  have hd := dropBlanks_suffix cs
  unfold readArguments
  split
  · rename_i r h
    rw [h] at hd
    exact (List.suffix_cons _ r).trans hd
  · exact (readItems_reads name (dropBlanks cs)).mono hd

/-- An expression after its opening brace: the name, the arguments of a call, and the rest after
the closing brace. -/
def readReference (cs : List Char) :
    Except Halt ((String × Option (List Value)) × List Char) :=
  match readName cs with
  | (_, []) => .error (.malformed .unterminated none [])
  | (text, d :: after) =>
    let word := trim text
    let name := String.ofList word
    if d == '$' then .error (.malformed .nested none (d :: after))
    else if word.isEmpty then .error (.malformed .emptyName none after)
    else if !isIdentifier word then .error (.malformed (.invalidName name) (some name) after)
    else if d == '}' then .ok ((name, none), after)
    else
      match readArguments name after with
      | .error e => .error e
      | .ok (vs, rest) =>
        match dropBlanks rest with
        | [] => .error (.malformed .unclosedCall (some name) [])
        | c :: r =>
          if c == '}' then .ok ((name, some vs), r)
          else .error (.malformed .unclosedCall (some name) r)

theorem readReference_reads (cs : List Char) : Reads cs (readReference cs) := by
  have hn : (readName cs).2 <:+ cs := readUntil_suffix endsName cs
  unfold readReference
  split
  · exact List.nil_suffix
  · rename_i text d after h
    rw [h] at hn
    have ha : after <:+ cs := (List.suffix_cons d after).trans hn
    have hargs := (readArguments_reads (String.ofList (trim text)) after).mono ha
    dsimp only
    split
    · exact hn
    split
    · exact ha
    split
    · exact ha
    split
    · exact ha
    split
    · rename_i hr
      rw [hr] at hargs
      exact hargs.error
    · rename_i vs rest hr
      rw [hr] at hargs
      split
      · exact List.nil_suffix
      · rename_i c r hc
        have h₂ : r <:+ cs :=
          (List.suffix_cons c r).trans ((hc ▸ dropBlanks_suffix rest).trans hargs)
        split
        · exact h₂
        · exact h₂

/-- A template cut at its expressions. -/
inductive Piece where
  | char (c : Char)
  | reference (text : List Char) (name : String) (arguments? : Option (List Value))
  | malformed (text : List Char) (reason : Reason) (name : Option String)

/-- The characters that a reading took: those of `cs` before `rest`. -/
def taken (cs rest : List Char) : List Char := cs.take (cs.length - rest.length)

/-- Cuts a text at its expressions. The walk goes on where the reading of an expression stopped. -/
def pieces : List Char → Except Refusal (List Piece)
  | [] => .ok []
  | '$' :: '{' :: r =>
    match _h : readReference r with
    | .error (.refused e) => .error e
    | .error (.malformed reason name rest) =>
      match pieces rest with
      | .error e => .error e
      | .ok ps => .ok (.malformed ('$' :: '{' :: taken r rest) reason name :: ps)
    | .ok ((name, args), rest) =>
      match pieces rest with
      | .error e => .error e
      | .ok ps => .ok (.reference ('$' :: '{' :: taken r rest) name args :: ps)
  | c :: r =>
    match pieces r with
    | .error e => .error e
    | .ok ps => .ok (.char c :: ps)
termination_by cs => cs.length
decreasing_by
  all_goals have hl := readReference_reads r
  all_goals try rw [_h] at hl
  all_goals simp only [Reads, List.length_cons] at hl ⊢
  all_goals try have hl := hl.length_le
  all_goals omega

/-- The literal run, read backwards, that ends before the place `stop`. -/
def literalRun (stop : Nat) (run : List Char) : List Segment :=
  if run.isEmpty then []
  else [.literal (String.ofList run.reverse) ⟨stop - run.length, stop⟩]

/-- What a template holds: its segments, and the faults among its literal text. -/
structure Reading where
  segments : List Segment
  faults : List Fault

/-- Gives the pieces from the place `pos` on their places. Characters and malformed expressions
gather in the literal run `run`, which is read backwards. -/
def layOut (pos : Nat) (run : List Char) : List Piece → Reading
  | [] => ⟨literalRun pos run, []⟩
  | .char c :: ps => layOut (pos + 1) (c :: run) ps
  | .malformed text reason name :: ps =>
    let stop := pos + text.length
    let rest := layOut stop (text.reverse ++ run) ps
    ⟨rest.segments, ⟨reason, name, String.ofList text, ⟨pos, stop⟩⟩ :: rest.faults⟩
  | .reference text name args :: ps =>
    let stop := pos + text.length
    let rest := layOut stop [] ps
    ⟨literalRun pos run ++ .reference ⟨name, args, String.ofList text, ⟨pos, stop⟩⟩ :: rest.segments,
      rest.faults⟩

/-- Reads a template. -/
def read (s : String) : Except Refusal Reading :=
  match pieces s.toList with
  | .ok ps => .ok (layOut 0 [] ps)
  | .error e => .error e

/-- The segments of a well-formed template, or its first fault. -/
def Reading.parsed (r : Reading) : Except Fault (List Segment) :=
  match r.faults with
  | [] => .ok r.segments
  | f :: _ => .error f

/-- Reads a template in which no expression may be malformed. -/
def parse (s : String) : Except Refusal (Except Fault (List Segment)) :=
  match read s with
  | .ok r => .ok r.parsed
  | .error e => .error e

end Template
end Stencil
