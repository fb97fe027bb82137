/-
# Templates

A template is text with references in it: a name between `$`, an opening and a
closing brace, alone or followed by a list of literal arguments in
parentheses. Reading one gives literal runs and references with their places;
a malformed expression stays part of the literal text around it and is a
fault. Places count characters from 0, the end excluded.

Key definitions: `Span`, `Reference`, `Segment`, `Reason`, `Fault`.
-/
import Stencil.Refusal

namespace Stencil

/-- The characters from `start` up to, not including, `stop`. -/
structure Span where
  start : Nat
  stop : Nat
deriving DecidableEq, Repr

/-- A reference of a template: to a variable, or a call of a function. -/
structure Reference where
  name : String
  /-- The literal arguments of a call; `none` for a variable. -/
  arguments? : Option (List Value)
  /-- The text of the whole expression. -/
  raw : String
  span : Span

namespace Reference

def isCall (r : Reference) : Bool := r.arguments?.isSome

def arguments (r : Reference) : List Value := r.arguments?.getD []

/-- The name under which a call of `name` is listed. -/
def callName (name : String) : String := name ++ "()"

/-- The name under which a reference is listed. -/
def displayName (r : Reference) : String := if r.isCall then callName r.name else r.name

end Reference

/-- A part of a template. -/
inductive Segment where
  | literal (text : String) (span : Span)
  | reference (r : Reference)

namespace Segment

def span : Segment → Span
  | literal _ s => s
  | reference r => r.span

/-- The text that a segment covers. -/
def source : Segment → String
  | literal t _ => t
  | reference r => r.raw

def isReference : Segment → Bool
  | literal .. => false
  | reference _ => true

/-- The variable that a segment refers to. -/
def variableName? : Segment → Option String
  | literal .. => none
  | reference r => if r.isCall then none else some r.name

/-- The call that a segment is. -/
def call? : Segment → Option Reference
  | literal .. => none
  | reference r => if r.isCall then some r else none

end Segment

namespace Template

/-- The names of the variables referred to, in order of first appearance. -/
def variableNames (segments : List Segment) : List String :=
  (segments.filterMap Segment.variableName?).eraseDups

/-- The calls, in order. -/
def calls (segments : List Segment) : List Reference := segments.filterMap Segment.call?

/-- What is wrong with an expression. -/
inductive Reason where
  | nested
  | unterminated
  | emptyName
  | invalidName (name : String)
  | unclosedCall
  | openArguments
  | bracedArguments
  | nestedArgument
  | emptyArgument
  | unseparated
  | openText
deriving DecidableEq, Repr

def Reason.text : Reason → String
  | nested => "Nested reference inside an expression"
  | unterminated => "Unterminated reference, missing '\x7d'"
  | emptyName => "Empty identifier"
  | invalidName name => "Invalid identifier " ++ Text.quoted name
  | unclosedCall => "Expected '\x7d' after argument list"
  | openArguments => "Unterminated argument list"
  | bracedArguments => "Unterminated argument list, missing ')'"
  | nestedArgument => "Nested calls and references are not allowed in arguments"
  | emptyArgument => "Empty argument"
  | unseparated => "Expected ',' or ')' in argument list"
  | openText => "Unterminated string argument"

/-- A malformed expression. -/
structure Fault where
  reason : Reason
  /-- The name, where the expression has a readable one or a text in its place. -/
  name : Option String
  fragment : String
  span : Span
deriving DecidableEq, Repr

/-- A fault as text, with its place. -/
def placedMessage (reason : String) (start stop : Int) (fragment : String) : String :=
  reason ++ " at " ++ intText start ++ "-" ++ intText stop ++ ": " ++ Text.quoted fragment

def Fault.message (f : Fault) : String :=
  placedMessage f.reason.text f.span.start f.span.stop f.fragment

end Template
end Stencil
