/-
# What a reading takes from its text

References and faults are made of characters of the template that they stand
in: expressions, names and fragments are parts of it, and so is the name that
the reason of a fault quotes.

Key definition: `Fault.IsTakenFrom`.
Key theorems: `reference_of_parse`, `fault_of_parse`.
-/
import Stencil.Proofs.Template.Tiling

namespace Stencil
namespace Template

open Text Grammar

variable {cs rest : List Char} {name : String}

/-! ### References -/

/-- A reference of an outline is one of its expressions. -/
theorem Grammar.Outline.mem_segments {o : Outline} {pos : Nat} {r : Reference}
    (h : .reference r ∈ o.segments pos) :
    ∃ (e : Expression) (p : Nat), r = e.reference p ∧ e.text <:+: o.text := by
  have hrun : ∀ (run : Run) (pos : Nat), .reference r ∉ run.segments pos := by
    intro run pos hr
    unfold Run.segments at hr
    split_ifs at hr
    · exact List.not_mem_nil hr
    · cases List.mem_singleton.1 hr
  induction o generalizing pos with
  | last run => exact absurd h (hrun run pos)
  | next run e o ih =>
    have htext : e.text <:+: run.text ++ (e.text ++ o.text) := ⟨run.text, o.text, by simp⟩
    rcases List.mem_append.1 h with h | h
    · exact absurd h (hrun run pos)
    rcases List.mem_cons.1 h with h | h
    · cases h
      exact ⟨e, _, rfl, htext⟩
    · obtain ⟨e', p, rfl, he⟩ := ih h
      refine ⟨e', p, rfl, he.trans ?_⟩
      exact ⟨run.text ++ e.text, [], by simp [Outline.text]⟩

/-- The text of a reference is a part of the template, and its name is a part of that. -/
theorem reference_of_parse {t : String} {segments : List Segment} {r : Reference}
    (h : parse t = .ok (.ok segments)) (hr : .reference r ∈ segments) :
    r.raw.toList <:+: t.toList ∧ r.name.toList <:+: r.raw.toList := by
  obtain ⟨o, htext, -, rfl⟩ := outline_of_parse h
  obtain ⟨e, p, rfl, he⟩ := Outline.mem_segments hr
  rw [htext] at he
  refine ⟨by simpa [Expression.reference] using he, ?_⟩
  simp only [Expression.reference, String.toList_ofList, Expression.text, Expression.inner]
  exact ⟨'$' :: '\x7b' :: e.before.text, e.after.text ++ (e.callText ++ ['\x7d']), by simp⟩

/-! ### Faults -/

/-- A fault shows only characters of the text. -/
structure Fault.IsTakenFrom (f : Fault) (cs : List Char) : Prop where
  fragment : f.fragment.toList ⊆ cs
  name : ∀ m, f.name = some m → m.toList ⊆ cs
  reason : ∀ m, f.reason = .invalidName m → m.toList ⊆ cs

/-- A reading within the expression of `name`: what is malformed in it is told with that name, which
is not itself what is wrong. -/
def Halts {α : Type} (name : String) : Except Halt α → Prop
  | .error (.malformed reason m _) => m = some name ∧ ∀ x, reason ≠ .invalidName x
  | _ => True

theorem readArgument_halts (name : String) (cs : List Char) : Halts name (readArgument name cs) := by
  have h : ∀ {reason : Reason} {rest : List Char}, (∀ x, reason ≠ .invalidName x) →
      Halts (α := Value × List Char) name (.error (.malformed reason (some name) rest)) :=
    fun hr => ⟨rfl, hr⟩
  unfold readArgument
  repeat' split
  all_goals first | trivial | exact h fun _ hm => by cases hm

theorem readItems_halts (name : String) (cs : List Char) : Halts name (readItems name cs) := by
  have h := readArgument_halts name cs
  fun_induction readItems name cs with
  | case1 cs e he =>
    rw [he] at h
    cases e <;> exact h
  | case2 => exact ⟨rfl, fun _ hm => by cases hm⟩
  | case3 => trivial
  | case4 cs v rest hv c r hd hc e hr ih =>
    have hi := ih (readArgument_halts name r)
    rw [hr] at hi
    cases e <;> exact hi
  | case5 => trivial
  | case6 => exact ⟨rfl, fun _ hm => by cases hm⟩

theorem readArguments_halts (name : String) (cs : List Char) :
    Halts name (readArguments name cs) := by
  unfold readArguments
  split
  · trivial
  · exact readItems_halts name _

/-- What stands in the place of a name is a part of the expression. -/
theorem trim_subset {a : List Char} {d : Char} {r : List Char} (h : readName cs = (a, d :: r)) :
    (String.ofList (trim a)).toList ⊆ cs := by
  obtain ⟨rfl, -⟩ := readName_split h
  obtain ⟨g, g', ha⟩ := exists_trim a
  intro c hc
  rw [String.toList_ofList] at hc
  rw [ha]
  simp [hc]

/-- The names that a malformed expression is told with are parts of it. -/
theorem names_of_readReference {reason : Reason} {m? : Option String}
    (h : readReference cs = .error (.malformed reason m? rest)) :
    (∀ m, m? = some m → m.toList ⊆ cs) ∧ ∀ m, reason = .invalidName m → m.toList ⊆ cs := by
  unfold readReference at h
  split at h
  · cases h
    exact ⟨fun _ hm => (by cases hm), fun _ hm => by cases hm⟩
  · rename_i a d r hread
    have hsub := trim_subset hread
    have hsome : ∀ m, some (String.ofList (trim a)) = some m → m.toList ⊆ cs := by
      rintro m ⟨⟩
      exact hsub
    dsimp only at h
    split_ifs at h
    · cases h
      exact ⟨fun _ hm => (by cases hm), fun _ hm => by cases hm⟩
    · cases h
      exact ⟨fun _ hm => (by cases hm), fun _ hm => by cases hm⟩
    · cases h
      refine ⟨hsome, ?_⟩
      rintro m ⟨⟩
      exact hsub
    · have harg := readArguments_halts (String.ofList (trim a)) r
      split at h
      · rename_i e he
        cases h
        rw [he] at harg
        exact ⟨harg.1 ▸ hsome, fun m hm => absurd hm (harg.2 m)⟩
      · split at h
        · cases h
          exact ⟨hsome, fun _ hm => by cases hm⟩
        · split at h
          · cases h
          · cases h
            exact ⟨hsome, fun _ hm => by cases hm⟩

/-- **The fault of a malformed template shows only characters of it.** -/
theorem fault_of_parse {t : String} {f : Fault} (h : parse t = .ok (.error f)) :
    f.IsTakenFrom t.toList := by
  obtain ⟨reading, hread, hparsed⟩ := read_of_parse h
  have hf : f ∈ reading.faults := by
    unfold Reading.parsed at hparsed
    split at hparsed
    · cases hparsed
    · rename_i f' fs hfs
      cases hparsed
      rw [hfs]
      exact List.mem_cons_self
  obtain ⟨ps, hps, rfl⟩ := pieces_of_read hread
  have hstand := standsIn_layOut hps f hf
  obtain ⟨p, q, hq, hfault⟩ := mem_faults_layOut.1 hf
  obtain ⟨rest, hcut⟩ := cut_of_placed hps hq
  have hdrop : ∀ {c r}, t.toList.drop p = '$' :: '\x7b' :: r → c ∈ r → c ∈ t.toList := by
    intro c r hr hc
    have hmem : c ∈ t.toList.drop p := by
      rw [hr]
      simp [hc]
    exact List.mem_of_mem_drop hmem
  generalize hcs : t.toList.drop p = ds at hcut
  cases hcut with
  | char => cases hfault
  | reference => cases hfault
  | malformed hr =>
    cases hfault
    obtain ⟨hname, hreason⟩ := names_of_readReference hr
    refine ⟨?_, fun m hm c hc => hdrop hcs (hname m hm hc), fun m hm c hc =>
      hdrop hcs (hreason m hm hc)⟩
    rw [hstand.fragment]
    exact fun c hc => List.mem_of_mem_drop (List.mem_of_mem_take hc)

end Template
end Stencil
