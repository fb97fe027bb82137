/-
# Masking secrets

Before a text is shown, the values that secret variables had are replaced by a
mask. The values are taken from the steps of a trace; longer ones are replaced
first, so that a whole value goes before its parts.

Key definitions: `Secret.mask`, `Secret.replace`, `Secret.hide`,
`Secret.values`, `Trace.hideSecrets`.
-/
import Stencil.Marker
import Stencil.Trace

namespace Stencil
namespace Secret

/-- What stands in the place of a secret value. -/
def mask : List Char := "********".toList

/-- Replaces every occurrence of a value, from the left on; an occurrence does not overlap the one
before. The value is not empty: `values` leaves out what is shown as an empty text, and so the branch
for the empty value is there for the recursion only. -/
def replace (value cs : List Char) : List Char :=
  match cs with
  | [] => []
  | c :: r =>
    match _h : Marker.dropStart? value (c :: r) with
    | some rest => if _hv : value = [] then c :: replace value r else mask ++ replace value rest
    | none => c :: replace value r
termination_by cs.length
decreasing_by
  · exact Nat.lt_succ_self _
  · have := Marker.dropStart?_length _h
    have := List.length_pos_iff.2 _hv
    omega
  · exact Nat.lt_succ_self _

/-- Replaces every value, one after the other. -/
def hide (values : List String) (text : String) : String :=
  String.ofList (values.foldl (fun cs v => replace v.toList cs) text.toList)

/-- The value that a step shows of one of the names. -/
def valueOf? (names : List String) (s : Step) : Option String :=
  if names.contains s.event.name && !s.event.output.isEmpty && (s.event.error.getD "").isEmpty then
    some s.event.output
  else none

/-- Whether `a` is replaced before `b`: longer values go first, equally long ones in order. -/
def goesFirst (a b : String) : Bool :=
  decide (b.length < a.length) || (a.length == b.length && !decide (b < a))

/-- The values that the names had in a trace, in the order of their replacement. -/
def values (t : Trace) (names : List String) : List String :=
  (t.steps.filterMap (valueOf? names)).eraseDups.mergeSort goesFirst

/-- A step without secret values in what it shows. -/
def hideStep (names values : List String) (s : Step) : Step :=
  let input :=
    if s.event.kind = .nested && names.contains s.event.name then hide values s.event.input
    else s.event.input
  { s with event := { s.event with input, output := hide values s.event.output } }

end Secret

/-- A trace without secret values in what it shows. -/
def Trace.hideSecrets (t : Trace) (names values : List String) : Trace :=
  { t with
    value := Secret.hide values t.value
    steps := t.steps.map (Secret.hideStep names values) }

end Stencil
