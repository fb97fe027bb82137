/-
# Remembering parsed templates

A template always parses the same way, so its segments may be remembered. Only
well-formed templates are; when the memo is full it is emptied before the next
one goes in. Whatever else is asked about a template is read off its text again.

Key definitions: `Memo`, `Memo.parse`, `Memo.Call`, `Memo.answer`, `Memo.run`.
-/
import Stencil.Template.Scan

namespace Stencil
namespace Template

/-- Templates parsed before. -/
structure Memo where
  capacity : Int
  entries : List (String × List Segment)

namespace Memo

def empty (capacity : Int) : Memo := ⟨capacity, []⟩

def size (m : Memo) : Nat := m.entries.length

def find? (m : Memo) (template : String) : Option (List Segment) :=
  (m.entries.find? fun e => e.1 == template).map Prod.snd

def clear (m : Memo) : Memo := ⟨m.capacity, []⟩

/-- Remembers a template, emptying a full memo first. -/
def insert (m : Memo) (template : String) (segments : List Segment) : Memo :=
  let kept := if m.capacity ≤ m.size then [] else m.entries
  ⟨m.capacity, kept ++ [(template, segments)]⟩

/-- Parses a template that may have been parsed before. -/
def parse (m : Memo) (template : String) :
    Except Refusal (Except Fault (List Segment)) × Memo :=
  match m.find? template with
  | some segments => (.ok (.ok segments), m)
  | none =>
    match Template.parse template with
    | .ok (.ok segments) => (.ok (.ok segments), m.insert template segments)
    | r => (r, m)

/-! ### Calls -/

/-- What can be asked. A template may be any value, but only texts are read. -/
inductive Call where
  | parse (template : Value)
  | validate (template : Value)
  | variableNames (template : Value)
  | calls (template : Value)
  /-- To forget every template. -/
  | clear

inductive Answer where
  | segments (segments : List Segment)
  | malformed (f : Fault)
  /-- Whether a template is well-formed, and what is wrong with it. -/
  | verdict (isValid : Bool) (messages : List String)
  | names (names : List String)
  | calls (calls : List Reference)
  | refused (r : Refusal)
  | cleared

/-- The answer that a parsed template is. -/
def Answer.ofParsed : Except Refusal (Except Fault (List Segment)) → Answer
  | .ok (.ok ss) => .segments ss
  | .ok (.error f) => .malformed f
  | .error r => .refused r

/-- The answer that is read off a template. -/
def Answer.ofReading (answer : Reading → Answer) (template : Value) : Answer :=
  match template.template? with
  | .error r => .refused r
  | .ok t =>
    match Template.read t with
    | .error r => .refused r
    | .ok reading => answer reading

def answer (m : Memo) : Call → Answer × Memo
  | .parse template =>
    match template.template? with
    | .error r => (.refused r, m)
    | .ok t => (.ofParsed (m.parse t).1, (m.parse t).2)
  | .validate template =>
    (.ofReading (fun r => .verdict r.faults.isEmpty (r.faults.map Fault.message)) template, m)
  | .variableNames template =>
    (.ofReading (fun r => .names (Template.variableNames r.segments)) template, m)
  | .calls template => (.ofReading (fun r => .calls (Template.calls r.segments)) template, m)
  | .clear => (.cleared, m.clear)

/-- The answers to calls one after another, and the memo that they leave. -/
def run (m : Memo) : List Call → List Answer × Memo
  | [] => ([], m)
  | c :: rest =>
    let (a, m) := m.answer c
    let (answers, m) := m.run rest
    (a :: answers, m)

end Memo
end Template
end Stencil
