/-
# Calls of functions

The functions of a pure library give values that depend on their arguments
only, so each call of a template comes to one text or one failure, whenever it
is made (`IsPure.gives`). A call is refused only where a number has too many
digits to be written (`outcome_refused`).

Key definitions: `Library.IsPure`, `Library.outcome`, `Library.Gives`,
`Failure.isCall`.
Key theorems: `IsPure.gives`, `outcome_refused`, `outcome_failed`.
-/
import Mathlib.Tactic.SplitIfs
import Stencil.Function.Library
import Stencil.Template

namespace Stencil

/-- What the functions give depends on their arguments only. -/
def Library.IsPure (l : Library) : Prop :=
  ∀ f ∈ l.functions, ∀ arguments s s', (f.run arguments s).1 = (f.run arguments s').1

/-- What a call comes to. -/
def Library.outcome (l : Library) (s : Sources) (r : Reference) : Except CallStop String :=
  (l.invoke r.name r.arguments s).1

/-- Each call comes to what `out` says, whatever the sources are. -/
def Library.Gives (l : Library) (out : Reference → Except CallStop String) : Prop :=
  ∀ r s, l.outcome s r = out r

/-- Whether a failure is that of a call. -/
def Failure.isCall : Failure → Bool
  | .call .. => true
  | _ => false

namespace Function

/-- What a call comes to once the function has run. -/
def ended (f : Function) : Except Breakdown Value → Except CallStop String
  | .ok v => resultText v
  | .error (.declined function reason) => .error (.failed (.call function reason))
  | .error (.fault type message) => .error (.failed (.call f.name s!"{type}: {message}"))

theorem invoke_ok {f : Function} {arguments values : List Value} (s : Sources)
    (hb : f.bind arguments = .ok values) :
    (f.invoke arguments s).1 = f.ended (f.run values s).1 := by
  unfold invoke ended
  rw [hb]
  dsimp only
  rcases f.run values s with ⟨(⟨_, _⟩ | ⟨_, _⟩) | v, s'⟩ <;> rfl

theorem invoke_error {f : Function} {arguments : List Value} {e : CallStop} (s : Sources)
    (hb : f.bind arguments = .error e) : (f.invoke arguments s).1 = .error e := by
  unfold invoke
  rw [hb]

/-! ### What binding depends on -/

theorem bindAll_congr {f f' : Function} (h : f.name = f'.name) (ps : List Parameter)
    (vs : List Value) : f.bindAll ps vs = f'.bindAll ps vs := by
  have hone : f.bindOne = f'.bindOne := by
    unfold bindOne
    rw [h]
  induction ps generalizing vs with
  | nil => rfl
  | cons p ps ih =>
    cases vs with
    | nil => rw [bindAll, bindAll, ih]
    | cons v vs => rw [bindAll, bindAll, hone, ih]

/-- Binding depends on the name and the parameters only. -/
theorem bind_congr {f f' : Function} (hn : f.name = f'.name) (hp : f.parameters = f'.parameters)
    (arguments : List Value) : f.bind arguments = f'.bind arguments := by
  unfold bind arityText minArity maxArity
  rw [hp, hn, bindAll_congr hn]

/-! ### Refused calls -/

theorem bindOne_refused {f : Function} {p : Parameter} {v : Value} {e : Refusal}
    (h : f.bindOne p v = .error (.refused e)) : e = .unwritable := by
  unfold bindOne at h
  split at h
  · split_ifs at h
    cases h
    rfl
  · cases h
  · split_ifs at h
    · cases h
    · cases h
      rfl

/-- Arguments cannot be bound because one of them cannot. -/
theorem bindAll_error {f : Function} {ps : List Parameter} {vs : List Value} {e : CallStop}
    (h : f.bindAll ps vs = .error e) : ∃ p, ∃ v ∈ vs, f.bindOne p v = .error e := by
  induction ps generalizing vs with
  | nil => cases h
  | cons p ps ih =>
    cases vs with
    | nil =>
      rw [bindAll] at h
      cases hx : f.bindAll ps [] with
      | ok ws => rw [hx] at h; cases h
      | error e' => rw [hx] at h; cases h; exact ih hx
    | cons v vs =>
      rw [bindAll] at h
      cases hv : f.bindOne p v with
      | error e' => rw [hv] at h; cases h; exact ⟨p, v, List.mem_cons_self, hv⟩
      | ok w =>
        rw [hv] at h
        cases hx : f.bindAll ps vs with
        | ok ws => rw [hx] at h; cases h
        | error e' =>
          rw [hx] at h
          cases h
          obtain ⟨q, u, hu, he⟩ := ih hx
          exact ⟨q, u, List.mem_cons_of_mem _ hu, he⟩

theorem bind_refused {f : Function} {vs : List Value} {e : Refusal}
    (h : f.bind vs = .error (.refused e)) : ∃ p, ∃ v ∈ vs, f.bindOne p v = .error (.refused e) := by
  unfold bind at h
  split_ifs at h
  · exact bindAll_error h
  · cases h

/-- What a function gives is refused just if it cannot be written. -/
theorem ended_refused {f : Function} {x : Except Breakdown Value} {e : Refusal}
    (h : f.ended x = .error (.refused e)) :
    e = .unwritable ∧ ∃ v, x = .ok v ∧ v.isWritable = false := by
  rcases x with (⟨_, _⟩ | ⟨_, _⟩) | v
  · cases h
  · cases h
  · rw [ended] at h
    unfold resultText at h
    split at h
    · cases h
    · split_ifs at h with hw
      cases h
      exact ⟨rfl, _, rfl, eq_false_of_ne_true hw⟩

theorem invoke_refused {f : Function} {arguments : List Value} {s : Sources} {e : Refusal}
    (h : (f.invoke arguments s).1 = .error (.refused e)) : e = .unwritable := by
  cases hb : f.bind arguments with
  | ok values =>
    rw [invoke_ok s hb] at h
    exact (ended_refused h).1
  | error e' =>
    rw [invoke_error s hb] at h
    cases h
    obtain ⟨p, v, -, hv⟩ := bind_refused hb
    exact bindOne_refused hv

/-! ### Failed calls -/

theorem bindOne_failed {f : Function} {p : Parameter} {v : Value} {e : Failure}
    (h : f.bindOne p v = .error (.failed e)) : e.isCall = true := by
  unfold bindOne at h
  split at h
  · split_ifs at h
    cases h
  · cases h
  · split_ifs at h
    · cases h
      rfl
    · cases h

theorem bind_failed {f : Function} {vs : List Value} {e : Failure}
    (h : f.bind vs = .error (.failed e)) : e.isCall = true := by
  unfold bind at h
  split_ifs at h
  · obtain ⟨p, v, -, hv⟩ := bindAll_error h
    exact bindOne_failed hv
  · cases h
    rfl

theorem ended_failed {f : Function} {x : Except Breakdown Value} {e : Failure}
    (h : f.ended x = .error (.failed e)) : e.isCall = true := by
  rcases x with (⟨_, _⟩ | ⟨_, _⟩) | v
  · cases h
    rfl
  · cases h
    rfl
  · rw [ended] at h
    unfold resultText at h
    split at h
    · cases h
    · split_ifs at h
      cases h

theorem invoke_failed {f : Function} {arguments : List Value} {s : Sources} {e : Failure}
    (h : (f.invoke arguments s).1 = .error (.failed e)) : e.isCall = true := by
  cases hb : f.bind arguments with
  | ok values =>
    rw [invoke_ok s hb] at h
    exact ended_failed h
  | error e' =>
    rw [invoke_error s hb] at h
    cases h
    exact bind_failed hb

/-! ### Arguments that can be written -/

theorem bindOne_writable {f : Function} {p : Parameter} {v : Value} (hv : v.isWritable = true)
    {e : Refusal} : f.bindOne p v ≠ .error (.refused e) := by
  intro h
  unfold bindOne at h
  split at h
  · rw [if_pos hv] at h
    cases h
  · cases h
  · rw [if_pos hv] at h
    cases h

/-- Binding arguments that can be written is never refused. -/
theorem bind_writable {f : Function} {vs : List Value} (hv : ∀ v ∈ vs, v.isWritable = true)
    {e : Refusal} : f.bind vs ≠ .error (.refused e) := by
  intro h
  obtain ⟨p, v, hm, he⟩ := bind_refused h
  exact bindOne_writable (hv v hm) he

end Function

namespace Library

/-- The function that a call invokes may give a value that cannot be written. -/
def Unwritable (l : Library) (r : Reference) : Prop :=
  ∃ f values s v, l.get? r.name = some f ∧ f.bind r.arguments = .ok values ∧
    (f.run values s).1 = .ok v ∧ v.isWritable = false

/-- A call whose arguments can be written is refused only for its result. -/
theorem outcome_unwritable {l : Library} {s : Sources} {r : Reference} {e : Refusal}
    (hv : ∀ v ∈ r.arguments, v.isWritable = true)
    (h : l.outcome s r = .error (.refused e)) : l.Unwritable r := by
  unfold outcome invoke at h
  cases hf : l.get? r.name with
  | none =>
    rw [hf] at h
    cases h
  | some f =>
    rw [hf] at h
    dsimp only at h
    cases hb : f.bind r.arguments with
    | error e' =>
      rw [f.invoke_error s hb] at h
      cases h
      exact absurd hb (Function.bind_writable hv)
    | ok values =>
      rw [f.invoke_ok s hb] at h
      obtain ⟨v, hx, hw⟩ := (Function.ended_refused h).2
      exact ⟨f, values, s, v, hf, hb, hx, hw⟩

theorem IsPure.gives {l : Library} (h : l.IsPure) (s : Sources) : l.Gives (l.outcome s) := by
  intro r s'
  unfold outcome invoke
  cases hf : l.get? r.name with
  | none => rfl
  | some f =>
    have hm := List.mem_of_find?_eq_some hf
    dsimp only
    cases hb : f.bind r.arguments with
    | ok values => rw [f.invoke_ok s hb, f.invoke_ok s' hb, h f hm values s s']
    | error e => rw [f.invoke_error s hb, f.invoke_error s' hb]

/-- A call is refused only where a number has too many digits to be written. -/
theorem outcome_refused {l : Library} {s : Sources} {r : Reference} {e : Refusal}
    (h : l.outcome s r = .error (.refused e)) : e = .unwritable := by
  unfold outcome invoke at h
  cases hf : l.get? r.name with
  | none =>
    rw [hf] at h
    cases h
  | some f =>
    rw [hf] at h
    exact Function.invoke_refused h

/-- A call fails as a call, whatever the function met. -/
theorem outcome_failed {l : Library} {s : Sources} {r : Reference} {e : Failure}
    (h : l.outcome s r = .error (.failed e)) : e.isCall = true := by
  unfold outcome invoke at h
  cases hf : l.get? r.name with
  | none =>
    rw [hf] at h
    cases h
    rfl
  | some f =>
    rw [hf] at h
    exact Function.invoke_failed h

end Library
end Stencil
