/-
# How arguments are bound

A call either runs the implementation of its function once, on one value for
each parameter, or ends before that, whatever the implementation does. The
arguments keep their order and are converted to the kinds of their parameters;
the parameters that are left over take their defaults.

Arguments are counted against the number of required parameters, but bound by
their places. So a required parameter may be left over as well, unless the
required parameters come first.

Key definitions: `Parameter.Takes`, `Function.Accepts`, `Function.Binds`,
`Library.Hands`, `Library.Stops`, `Function.RequiresFirst`.
Key theorems: `bindOne_ok_iff`, `bindAll_ok`, `bindAll_binds`, `hands_iff`,
`invoke_binds`.
-/
import Mathlib.Data.List.Forall2
import Stencil.Proofs.Function.Library

namespace Stencil

/-- A parameter makes a value of its kind of an argument. Texts are made of all that can be
written. -/
inductive Parameter.Takes (p : Parameter) : Value → Value → Prop where
  | int (hp : p.kind = .number) (i : Int) : Takes p (.int i) (.int i)
  | float (hp : p.kind = .number) (x : Float) : Takes p (.float x) (.float x)
  | truth (hp : p.kind = .truth) (b : Bool) : Takes p (.bool b) (.bool b)
  | word (hp : p.kind = .text) (b : Bool) :
      Takes p (.bool b) (.text (if b then "true" else "false"))
  | text (hp : p.kind = .text) (v : Value) (hv : ∀ b, v ≠ .bool b) (hw : v.isWritable = true) :
      Takes p v (.text v.plain)

namespace Function

/-- The arguments are of the right number, and each one of a kind that its parameter takes. -/
structure Accepts (f : Function) (arguments : List Value) : Prop where
  arity : f.minArity ≤ arguments.length ∧ arguments.length ≤ f.maxArity
  taken : ∀ x ∈ f.parameters.zip arguments, ∃ w, x.1.Takes x.2 w

/-- The values of the parameters: the arguments in their order, as what their parameters make of
them, and then defaults. -/
structure Binds (f : Function) (arguments values : List Value) : Prop where
  length : values.length = f.maxArity
  supplied : List.Forall₂ (fun x w => x.1.Takes x.2 w) (f.parameters.zip arguments)
    (values.take arguments.length)
  leftOver : values.drop arguments.length =
    (f.parameters.drop arguments.length).map Parameter.fallback

/-- No required parameter comes after an optional one. -/
def RequiresFirst (f : Function) : Prop :=
  f.parameters.Pairwise fun p q => q.isRequired = true → p.isRequired = true

end Function

namespace Library

/-- Whatever the implementation of the function is, the call runs it once, on `values`. -/
def Hands (l : Library) (f : Function) (arguments values : List Value) : Prop :=
  ∀ run s, (l.replace { f with run }).invoke f.name arguments s =
    (f.ended (run values s).1, (run values s).2)

/-- Whatever the implementation of the function is, the call ends before it. -/
def Stops (l : Library) (f : Function) (arguments : List Value) (e : CallStop) : Prop :=
  ∀ run s, (l.replace { f with run }).invoke f.name arguments s = (.error e, s)

end Library

variable {f : Function} {p : Parameter} {ps : List Parameter} {v w : Value}
  {arguments values vs ws : List Value} {l : Library} {e : CallStop}

namespace Function

/-! ### One argument -/

theorem bindOne_ok_iff : f.bindOne p v = .ok w ↔ p.Takes v w := by
  constructor
  · intro h
    unfold bindOne Parameter.convert at h
    cases hk : p.kind with
    | text =>
      cases v with
      | bool b =>
        simp only [hk, Value.isWritable, if_true] at h
        cases h
        exact .word hk b
      | _ =>
        simp only [hk] at h
        split_ifs at h with hw
        cases h
        exact .text hk _ (by simp) hw
    | number =>
      cases v <;> simp only [hk] at h
      case int i =>
        cases h
        exact .int hk i
      case float x =>
        cases h
        exact .float hk x
      all_goals split_ifs at h
    | truth =>
      cases v <;> simp only [hk] at h
      case bool b =>
        cases h
        exact .truth hk b
      all_goals split_ifs at h
  · intro h
    unfold bindOne Parameter.convert
    cases h with
    | int hp i => simp [hp]
    | float hp x => simp [hp]
    | truth hp b => simp [hp]
    | word hp b => simp [hp, Value.isWritable]
    | text hp v hv hw => cases v <;> simp_all

/-- An argument that a parameter does not take fails under the name of the function, or cannot be
written. -/
theorem bindOne_error (h : f.bindOne p v = .error e) :
    (∃ reason, e = .failed (.call f.name reason)) ∨
      (v.isWritable = false ∧ e = .refused .unwritable) := by
  unfold bindOne at h
  split at h
  · split_ifs at h with hw
    cases h
    exact .inr ⟨by simpa using hw, rfl⟩
  · cases h
  · split_ifs at h with hw
    · cases h
      exact .inl ⟨_, rfl⟩
    · cases h
      exact .inr ⟨by simpa using hw, rfl⟩

/-! ### All arguments -/

/-- Arguments that their parameters take are bound. -/
theorem bindAll_ok (h : ∀ x ∈ ps.zip vs, ∃ w, x.1.Takes x.2 w) :
    ∃ ws, f.bindAll ps vs = .ok ws := by
  induction ps generalizing vs with
  | nil => exact ⟨[], rfl⟩
  | cons p ps ih =>
    cases vs with
    | nil =>
      obtain ⟨ws, hws⟩ : ∃ ws, f.bindAll ps [] = .ok ws := ih (by simp)
      exact ⟨p.fallback :: ws, by rw [bindAll, hws]; rfl⟩
    | cons v vs =>
      rw [List.zip_cons_cons, List.forall_mem_cons] at h
      obtain ⟨⟨w, hw⟩, hrest⟩ := h
      obtain ⟨ws, hws⟩ := ih hrest
      exact ⟨w :: ws, by rw [bindAll, bindOne_ok_iff.2 hw, hws]; rfl⟩

/-- What arguments are bound to, by the recursion over the parameters. -/
theorem bindAll_binds (h : f.bindAll ps vs = .ok ws) :
    ws.length = ps.length ∧
      List.Forall₂ (fun x w => x.1.Takes x.2 w) (ps.zip vs) (ws.take vs.length) ∧
      ws.drop vs.length = (ps.drop vs.length).map Parameter.fallback := by
  induction ps generalizing vs ws with
  | nil =>
    cases h
    simp
  | cons p ps ih =>
    cases vs with
    | nil =>
      rw [bindAll] at h
      cases hrest : f.bindAll ps [] with
      | error e =>
        rw [hrest] at h
        cases h
      | ok ws' =>
        rw [hrest] at h
        cases h
        obtain ⟨hlength, -, hdrop⟩ := ih hrest
        refine ⟨congrArg (· + 1) hlength, .nil, ?_⟩
        exact congrArg (p.fallback :: ·) hdrop
    | cons v vs =>
      rw [bindAll] at h
      cases hv : f.bindOne p v with
      | error e =>
        rw [hv] at h
        cases h
      | ok w =>
        rw [hv] at h
        cases hrest : f.bindAll ps vs with
        | error e =>
          rw [hrest] at h
          cases h
        | ok ws' =>
          rw [hrest] at h
          cases h
          obtain ⟨hlength, htaken, hdrop⟩ := ih hrest
          exact ⟨congrArg (· + 1) hlength, .cons (bindOne_ok_iff.1 hv) htaken, hdrop⟩

theorem taken_of_forall₂ {xs : List (Parameter × Value)} {x : Parameter × Value}
    (h : List.Forall₂ (fun x w => x.1.Takes x.2 w) xs ws) (hx : x ∈ xs) : ∃ w, x.1.Takes x.2 w := by
  induction h with
  | nil => cases hx
  | cons hw _ ih =>
    rcases List.mem_cons.1 hx with rfl | hx
    · exact ⟨_, hw⟩
    · exact ih hx

/-- Arguments are bound just if they are accepted. -/
theorem bind_ok_iff : (∃ values, f.bind arguments = .ok values) ↔ f.Accepts arguments := by
  constructor
  · rintro ⟨values, h⟩
    unfold bind at h
    split_ifs at h with ha
    obtain ⟨-, htaken, -⟩ := bindAll_binds h
    exact ⟨ha, fun x hx => taken_of_forall₂ htaken hx⟩
  · intro h
    unfold bind
    rw [if_pos h.arity]
    exact bindAll_ok h.taken

theorem bind_binds (h : f.bind arguments = .ok values) : f.Binds arguments values := by
  unfold bind at h
  split_ifs at h
  obtain ⟨hlength, htaken, hdrop⟩ := bindAll_binds h
  exact ⟨hlength, htaken, hdrop⟩

theorem bind_error (h : f.bind arguments = .error e) :
    (∃ reason, e = .failed (.call f.name reason)) ∨
      ((∃ v ∈ arguments, v.isWritable = false) ∧ e = .refused .unwritable) := by
  unfold bind at h
  split_ifs at h
  · obtain ⟨p, v, hv, he⟩ := bindAll_error h
    exact (bindOne_error he).imp_right fun hw => ⟨⟨v, hv, hw.1⟩, hw.2⟩
  · cases h
    exact .inl ⟨_, rfl⟩

/-- Binding does not depend on the implementation. -/
theorem bind_run (f : Function) (run : List Value → Sources → Except Breakdown Value × Sources) :
    { f with run }.bind arguments = f.bind arguments :=
  @bind_congr { f with run } f rfl rfl arguments

/-! ### Parameters that are left over -/

/-- Where the required parameters come first, none is left over by as many arguments. -/
theorem optional_of_pairwise (n : Nat)
    (h : ps.Pairwise fun p q => q.isRequired = true → p.isRequired = true)
    (hn : (ps.filter Parameter.isRequired).length ≤ n) : ∀ q ∈ ps.drop n, q.isRequired = false := by
  induction ps generalizing n with
  | nil => simp
  | cons p ps ih =>
    obtain ⟨hp, hps⟩ := List.pairwise_cons.1 h
    cases hr : p.isRequired with
    | false =>
      intro q hq
      rcases List.mem_cons.1 (List.mem_of_mem_drop hq) with rfl | hq
      · exact hr
      · by_contra hq'
        rw [hp q hq (by simpa using hq')] at hr
        cases hr
    | true =>
      rw [List.filter_cons_of_pos hr, List.length_cons] at hn
      obtain ⟨m, rfl⟩ := Nat.exists_eq_add_one_of_ne_zero (by omega : n ≠ 0)
      exact ih m hps (by omega)

/-- If as many arguments as there are required parameters leave none of them over, these come
first. -/
theorem pairwise_of_optional
    (h : ∀ q ∈ ps.drop (ps.filter Parameter.isRequired).length, q.isRequired = false) :
    ps.Pairwise fun p q => q.isRequired = true → p.isRequired = true := by
  induction ps with
  | nil => exact .nil
  | cons p ps ih =>
    cases hr : p.isRequired with
    | true =>
      rw [List.filter_cons_of_pos hr, List.length_cons, List.drop_succ_cons] at h
      exact .cons (fun _ _ _ => hr) (ih h)
    | false =>
      rw [List.filter_cons_of_neg (by simp [hr])] at h
      -- an optional parameter has taken one of the places, so all others are optional as well
      have hall : ps.filter Parameter.isRequired = [] := by
        cases hk : (ps.filter Parameter.isRequired).length with
        | zero => exact List.length_eq_zero_iff.1 hk
        | succ k =>
          rw [hk, List.drop_succ_cons] at h
          have hsplit := congrArg (fun qs => (qs.filter Parameter.isRequired).length)
            (List.take_append_drop k ps)
          have hdrop : (ps.drop k).filter Parameter.isRequired = [] :=
            List.filter_eq_nil_iff.2 fun q hq => by simp [h q hq]
          have htake : ((ps.take k).filter Parameter.isRequired).length ≤ k :=
            Nat.le_trans (List.length_filter_le _ _) (List.length_take_le _ _)
          rw [List.filter_append, hdrop, List.append_nil] at hsplit
          omega
      have hnone : ∀ q ∈ ps, q.isRequired = false := fun q hq => by
        simpa using List.filter_eq_nil_iff.1 hall q hq
      exact .cons (fun q hq hq' => by rw [hnone q hq] at hq'; cases hq')
        (List.pairwise_of_forall_mem_list fun _ _ q hq hq' => by rw [hnone q hq] at hq'; cases hq')

/-- An argument that a parameter takes. -/
def sample (p : Parameter) : Value :=
  match p.kind with
  | .text => .text ""
  | .number => .int 0
  | .truth => .bool true

theorem takes_sample (p : Parameter) : ∃ w, p.Takes (sample p) w := by
  unfold sample
  cases hk : p.kind with
  | text => exact ⟨_, .text hk _ (by simp) rfl⟩
  | number => exact ⟨_, .int hk 0⟩
  | truth => exact ⟨_, .truth hk true⟩

theorem zip_sample {n : Nat} {x : Parameter × Value} (h : x ∈ ps.zip ((ps.take n).map sample)) :
    x.2 = sample x.1 := by
  induction ps generalizing n with
  | nil => cases h
  | cons p ps ih =>
    cases n with
    | zero => cases h
    | succ n =>
      rw [List.take_succ_cons, List.map_cons, List.zip_cons_cons] at h
      rcases List.mem_cons.1 h with rfl | h
      · rfl
      · exact ih h

/-- As many arguments are accepted as there are required parameters. -/
theorem accepts_sample (f : Function) :
    f.Accepts ((f.parameters.take f.minArity).map sample) := by
  have hle : f.minArity ≤ f.parameters.length := List.length_filter_le _ _
  have hlength : ((f.parameters.take f.minArity).map sample).length = f.minArity := by
    rw [List.length_map, List.length_take, Nat.min_eq_left hle]
  refine ⟨⟨Nat.le_of_eq hlength.symm, Nat.le_trans (Nat.le_of_eq hlength) hle⟩, fun x hx => ?_⟩
  rw [zip_sample hx]
  exact takes_sample x.1

end Function

namespace Library

theorem invoke_replace (l : Library) (f : Function) (arguments : List Value)
    (run : List Value → Sources → Except Breakdown Value × Sources) (s : Sources) :
    (l.replace { f with run }).invoke f.name arguments s =
      { f with run }.invoke arguments s := by
  unfold invoke
  rw [get?_replace, if_pos rfl]

theorem hands_of_bind (hb : f.bind arguments = .ok values) : l.Hands f arguments values := by
  intro run s
  rw [invoke_replace]
  unfold Function.invoke
  rw [Function.bind_run, hb]
  dsimp only
  rcases run values s with ⟨(⟨_, _⟩ | ⟨_, _⟩) | v, s'⟩ <;> rfl

theorem stops_of_bind (hb : f.bind arguments = .error e) : l.Stops f arguments e := by
  intro run s
  rw [invoke_replace]
  unfold Function.invoke
  rw [Function.bind_run, hb]

/-- No call runs an implementation and ends before it. -/
theorem Hands.not_stops (h : l.Hands f arguments values) : ¬ l.Stops f arguments e := by
  intro hs
  let sources : Sources := ⟨.int 0, fun _ => "", fun _ => 0, 0, 0⟩
  have hruns := h (fun _ s => (.ok .null, s)) sources
  cases hruns.symm.trans (hs _ _)

/-- Accepted arguments are handed to the implementation, others never reach it. -/
theorem hands_iff : (∃ values, l.Hands f arguments values) ↔ f.Accepts arguments := by
  rw [← Function.bind_ok_iff]
  constructor
  · rintro ⟨values, h⟩
    cases hb : f.bind arguments with
    | ok values => exact ⟨values, rfl⟩
    | error e => exact absurd (stops_of_bind hb) h.not_stops
  · rintro ⟨values, hb⟩
    exact ⟨values, hands_of_bind hb⟩

/-- **Implementations see only well-bound arguments.** What a library does with a call of a
registered function: arguments that are accepted are handed to the implementation, once, as one
value for each parameter; with others the call fails under the name of the function, or is refused
for an integer that cannot be written. **Only optional parameters take their defaults in all calls
just if the required ones come first.** -/
theorem invoke_binds (l : Library) (f : Function) :
    (∀ arguments,
      (f.Accepts arguments ∧ ∃ values, l.Hands f arguments values ∧ f.Binds arguments values) ∨
      (¬ f.Accepts arguments ∧
        ((∃ reason, l.Stops f arguments (.failed (.call f.name reason))) ∨
          ((∃ v ∈ arguments, v.isWritable = false) ∧
            l.Stops f arguments (.refused .unwritable))))) ∧
    ((∀ arguments values, l.Hands f arguments values →
      ∀ q ∈ f.parameters.drop arguments.length, q.isRequired = false) ↔ f.RequiresFirst) := by
  refine ⟨fun arguments => ?_, fun h => ?_, fun h arguments values hv => ?_⟩
  · cases hb : f.bind arguments with
    | ok values =>
      exact .inl ⟨Function.bind_ok_iff.1 ⟨values, hb⟩, values, hands_of_bind hb,
        Function.bind_binds hb⟩
    | error e =>
      have hnot : ¬ f.Accepts arguments := fun ha => by
        obtain ⟨values, hv⟩ := Function.bind_ok_iff.2 ha
        cases hb.symm.trans hv
      refine .inr ⟨hnot, ?_⟩
      rcases Function.bind_error hb with ⟨reason, rfl⟩ | ⟨hw, rfl⟩
      · exact .inl ⟨reason, stops_of_bind hb⟩
      · exact .inr ⟨hw, stops_of_bind hb⟩
  · have ha := f.accepts_sample
    obtain ⟨values, hv⟩ := (hands_iff (l := l)).2 ha
    have hle : f.minArity ≤ f.parameters.length := List.length_filter_le _ _
    have hopt := h _ values hv
    rw [List.length_map, List.length_take, Nat.min_eq_left hle] at hopt
    exact Function.pairwise_of_optional hopt
  · exact Function.optional_of_pairwise _ h (hands_iff.1 ⟨values, hv⟩).arity.1

/-- A required parameter after an optional one: the only argument goes to the optional one, and the
required one has its default. -/
theorem default_for_required :
    let f : Function := {
      name := "f"
      parameters := [
        { name := "a", isRequired := false, fallback := .text "d" }, { name := "b" }]
      run := fun values s => (.ok (.list values), s) }
    Library.Hands ⟨[]⟩ f [.text "x"] [.text "x", .null] ∧ f.minArity = 1 ∧ ¬ f.RequiresFirst := by
  intro f
  have hands : Library.Hands ⟨[]⟩ f [.text "x"] [.text "x", .null] := hands_of_bind rfl
  refine ⟨hands, rfl, fun hfirst => ?_⟩
  have hopt := (invoke_binds ⟨[]⟩ f).2.2 hfirst _ _ hands
  exact Bool.noConfusion (hopt _ List.mem_cons_self)

end Library
end Stencil
