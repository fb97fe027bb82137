/-
# Failures

What can go wrong with a single reference. A failure becomes part of the
result: the reference is marked in the text, and the failure is listed in the
trace.

Key definitions: `Failure`, `Failure.message`, `Failure.kind`,
`Failure.name?`.
-/
import Stencil.Template
import Stencil.Text.Basic

namespace Stencil

inductive Failure where
  /-- A failure of no particular kind; the message is followed by the entries of `context`. -/
  | general (message : String) (name : Option String) (context : List (Value × Value))
  /-- A malformed expression. -/
  | malformed (reason fragment : String) (start stop : Int) (name : Option String)
  /-- A name that no scope defines. -/
  | undefined (name : String)
  /-- A variable on a reference cycle. -/
  | circular (name : String) (cycle : List String)
  /-- A call of a function that failed. -/
  | call (function reason : String)
  /-- A chain of references, from the outermost name on, that is longer than allowed. -/
  | tooDeep (outermost : String) (inner : List String) (maxDepth : Int)
  /-- A fault of no reference, known by its type. -/
  | other (type message : String)

namespace Failure

/-- The failure of a malformed expression in a template. -/
def ofFault (f : Template.Fault) : Failure :=
  .malformed f.reason.text f.fragment f.span.start f.span.stop f.name

def typeName : Failure → String
  | general .. => "VariableResolutionError"
  | malformed .. => "TemplateSyntaxError"
  | undefined .. => "UndefinedVariableError"
  | circular .. => "CircularDependencyError"
  | call .. => "FunctionInvocationError"
  | tooDeep .. => "DepthExceededError"
  | other type _ => type

/-- The kind under which a failure is listed. -/
def kind? : Failure → Option String
  | general .. => some "resolution_error"
  | malformed .. => some "syntax"
  | undefined .. => some "undefined"
  | circular .. => some "circular"
  | call .. => some "function"
  | tooDeep .. => some "depth"
  | other .. => none

/-- The name that a failure is about. -/
def name? : Failure → Option String
  | general _ name _ => name
  | malformed _ _ _ _ name => name
  | undefined name => some name
  | circular name _ => some name
  | call function _ => some function
  | tooDeep outermost _ _ => some outermost
  | other .. => none

/-- The entries of a failure's context that say something. -/
def contextParts (context : List (Value × Value)) : List String :=
  context.filterMap fun (k, v) =>
    match v with
    | .list (x :: r) => some (k.plain ++ ": " ++ Text.joined ", " ((x :: r).map Value.plain))
    | v => if v.isTrue then some (k.plain ++ ": " ++ v.plain) else none

/-- A message followed by its context in parentheses. -/
def withContext (message : String) (context : List (Value × Value)) : String :=
  match contextParts context with
  | [] => message
  | parts => message ++ " (" ++ Text.joined "; " parts ++ ")"

/-- Names joined by arrows. -/
def path (names : List String) : String := Text.joined " -> " names

def message : Failure → String
  | general message _ context => withContext message context
  | malformed reason fragment start stop _ => Template.placedMessage reason start stop fragment
  | undefined name => s!"Variable '{name}' is not defined in any scope"
  | circular name cycle =>
    s!"Variable '{name}' is part of a circular reference: " ++ path (cycle ++ cycle.take 1)
  | call function reason => s!"Function '{function}' failed: {reason}"
  | tooDeep outermost inner maxDepth =>
    withContext s!"Variable '{outermost}' exceeds the maximum nesting depth of {intText maxDepth}"
      [(.text "chain", .text (path (outermost :: inner)))]
  | other _ message => message

/-- The failure of an expression that stands at the characters `start` to `stop` of a template;
negative places count from its end. -/
def malformedAt (reason template : String) (start stop : Int) (name : Option String) : Failure :=
  let cs := template.toList
  let place (i : Int) : Nat :=
    if i < 0 then (i + cs.length).toNat else i.toNat
  .malformed reason (String.ofList ((cs.take (place stop)).drop (place start))) start stop name

end Failure
end Stencil
