/-
# Integers that are too long to be read

A template cannot be read only if a call is begun in it whose arguments are
well-formed up to one that is an integer with too many digits
(`read_overlong`). What stands before the call and after that argument does
not matter.

Key definitions: `OpenCall`, `HoldsOverlong`.
Key theorem: `read_overlong`.
-/
import Stencil.Proofs.Template.Cut

namespace Stencil
namespace Template

open Text Grammar

namespace Grammar

/-- A call up to the end of one of its arguments. -/
structure OpenCall where
  before : Gap
  name : Name
  after : Gap
  /-- The arguments that are followed by a comma. -/
  done : List Slot
  last : Slot

def OpenCall.text (o : OpenCall) : List Char :=
  '$' :: '{' :: (o.before.text ++ (o.name.text ++ (o.after.text ++
    '(' :: ((o.done.flatMap fun s => s.text ++ [',']) ++ o.last.text))))

/-- A word that is an integer of this many digits. -/
def Word.HasDigits (w : Word) (n : Nat) : Prop :=
  Literal.isNumeral (Numeral.splitSign w.text).2 = true ∧
    (Numeral.splitSign w.text).2.length = n

end Grammar

/-- Somewhere in a text stands a call with an argument that is an integer of `n` digits, more than
can be read. -/
def HoldsOverlong (cs : List Char) (n : Nat) : Prop :=
  ∃ (before : List Char) (o : OpenCall) (w : Word) (d : Char) (rest : List Char),
    cs = before ++ (o.text ++ d :: rest) ∧ EndsArgument d ∧ o.last.argument = .bare w ∧
      w.HasDigits n ∧ Numeral.digitLimit < n

variable {name : String} {cs : List Char} {e : Refusal}

theorem Word.hasDigits_of_refused {w : Word} (h : Literal.ofWord w.text = .error e) :
    ∃ n, e = .literalTooLong n ∧ w.HasDigits n ∧ Numeral.digitLimit < n := by
  unfold Literal.ofWord at h
  dsimp only at h
  split at h
  · rename_i hn
    split at h
    · rename_i hlong
      cases h
      exact ⟨_, rfl, ⟨hn, rfl⟩, hlong⟩
    · cases h
  · split at h <;> cases h

theorem slot_of_refused (h : readArgument name cs = .error (.refused e)) :
    ∃ (s : Slot) (w : Word) (d : Char) (r : List Char), s.argument = .bare w ∧
      Literal.ofWord w.text = .error e ∧ EndsArgument d ∧ cs = s.text ++ d :: r := by
  have hcs := leadingGap_append cs
  have hstops := stopsBlanks_dropBlanks cs
  unfold readArgument at h
  split at h
  · cases h
  · rename_i c u hu
    rw [hu] at hcs hstops
    split at h
    · split at h <;> cases h
    · rename_i hq
      split at h
      · cases h
      · rename_i word d after hread
        split at h
        · cases h
        rename_i hbrace
        split at h
        · cases h
        rename_i hparen
        split at h
        · cases h
        rename_i hdollar
        split at h
        · cases h
        rename_i hne
        split at h
        · cases h
        · rename_i hv
          cases h
          have hd : EndsArgument d := by
            simp only [beq_iff_eq] at hbrace hparen hdollar
            exact (readWord_split hread).2.2.2.resolve_right (by simp [hbrace, hparen, hdollar])
          obtain ⟨w, g, hw, htext⟩ :=
            slot_of_bareWord hread (hstops c rfl) (by simpa using hq) (by simpa using hne) hcs
          rw [← hw] at hv
          exact ⟨_, w, d, after, rfl, hv, hd, htext⟩

theorem slots_of_refused (h : readItems name cs = .error (.refused e)) :
    ∃ (done : List Slot) (s : Slot) (w : Word) (d : Char) (r : List Char),
      s.argument = .bare w ∧ Literal.ofWord w.text = .error e ∧ EndsArgument d ∧
        cs = (done.flatMap fun s => s.text ++ [',']) ++ (s.text ++ d :: r) := by
  fun_induction readItems name cs with
  | case1 cs e' hread =>
    cases h
    obtain ⟨s, w, d, r, hs, hw, hd, rfl⟩ := slot_of_refused hread
    exact ⟨[], s, w, d, r, hs, hw, hd, rfl⟩
  | case2 => cases h
  | case3 => cases h
  | case4 cs v rest hread c r hdrop hc e' hr ih =>
    cases h
    obtain ⟨done, s', w, d, r', hs, hw, hd, rfl⟩ := ih hr
    rw [eq_of_beq hc] at hdrop
    obtain ⟨s, -, -, rfl⟩ := slot_of_readArgument hread hdrop
    exact ⟨s :: done, s', w, d, r', hs, hw, hd, by simp⟩
  | case5 => cases h
  | case6 => cases h

theorem arguments_of_refused (h : readArguments name cs = .error (.refused e)) :
    ∃ (done : List Slot) (s : Slot) (w : Word) (d : Char) (r : List Char),
      s.argument = .bare w ∧ Literal.ofWord w.text = .error e ∧ EndsArgument d ∧
        cs = (done.flatMap fun s => s.text ++ [',']) ++ (s.text ++ d :: r) := by
  have hcs := leadingGap_append cs
  unfold readArguments at h
  split at h
  · cases h
  · obtain ⟨done, s, w, d, r, hs, hw, hd, htext⟩ := slots_of_refused h
    rw [htext] at hcs
    -- the blanks behind the parenthesis belong to the first argument
    cases done with
    | nil =>
      refine ⟨[], { s with before := (leadingGap cs).append s.before }, w, d, r, hs, hw, hd, ?_⟩
      simpa [Slot.text, Gap.append] using hcs.symm
    | cons t done =>
      refine ⟨{ t with before := (leadingGap cs).append t.before } :: done, s, w, d, r, hs, hw, hd,
        ?_⟩
      simpa [Slot.text, Gap.append] using hcs.symm

/-- **The reading of an expression is refused only for an integer that is too long.** -/
theorem readReference_overlong (h : readReference cs = .error (.refused e)) :
    ∃ n, e = .literalTooLong n ∧ HoldsOverlong ('$' :: '{' :: cs) n := by
  unfold readReference at h
  split at h
  · cases h
  · rename_i text d after hread
    obtain ⟨hcs, hstop⟩ := readName_split hread
    obtain ⟨g, g', htext⟩ := exists_trim text
    dsimp only at h
    split at h
    · cases h
    rename_i hdollar
    split at h
    · cases h
    split at h
    · cases h
    rename_i hid
    have hid' : isIdentifier (trim text) = true := by simpa using hid
    split at h
    · cases h
    rename_i hclose
    have hparen : d = '(' := by
      simp only [beq_iff_eq] at hdollar hclose
      exact hstop.resolve_right (by simp [hclose, hdollar])
    split at h
    · rename_i hargs
      cases h
      obtain ⟨done, s, w, x, r, hs, hw, hx, rfl⟩ := arguments_of_refused hargs
      obtain ⟨n, rfl, hn, hlong⟩ := Word.hasDigits_of_refused hw
      refine ⟨n, rfl, [], ⟨g, ⟨trim text, hid'⟩, g', done, s⟩, w, x, r, ?_, hx, hs, hn, hlong⟩
      calc '$' :: '{' :: cs
          = '$' :: '{' :: ((g.text ++ (trim text ++ g'.text)) ++ '(' ::
              ((done.flatMap fun s => s.text ++ [',']) ++ (s.text ++ x :: r))) := by
            rw [← htext, ← hparen, ← hcs]
        _ = _ := by simp [OpenCall.text]
    · split at h
      · cases h
      · split at h <;> cases h

/-- **A template is refused only if it holds an integer that is too long.** -/
theorem read_overlong {t : String} (h : read t = .error e) :
    ∃ n, e = .literalTooLong n ∧ HoldsOverlong t.toList n := by
  unfold read at h
  split at h
  · cases h
  · rename_i hp
    cases h
    obtain ⟨before, r, hcs, hr⟩ := refused_at hp
    obtain ⟨n, rfl, before', o, w, d, rest, htext, hmore⟩ := readReference_overlong hr
    refine ⟨n, rfl, before ++ before', o, w, d, rest, ?_, hmore⟩
    rw [hcs, htext, List.append_assoc]

end Template
end Stencil
