/-
# Reports

Failures and traces as values, to be written out for other programs.

Key definitions: `Failure.report`, `Step.report`, `Trace.report`.
-/
import Stencil.Trace

namespace Stencil
namespace Report

/-- A mapping with text keys. -/
def record (fields : List (String × Value)) : Value :=
  .map (fields.map fun (k, v) => (.text k, v))

def texts (names : List String) : Value := .list (names.map .text)

def textOrNull (s : Option String) : Value :=
  match s with
  | some s => .text s
  | none => .null

def natural (n : Nat) : Value := .int n

end Report

open Report

/-- The fields that failures of only some kinds have. -/
def Failure.ownFields : Failure → List (String × Value)
  | .malformed _ _ start stop _ => [("span", .list [.int start, .int stop])]
  | .circular _ cycle => [("cycle", texts cycle)]
  | .tooDeep outermost inner maxDepth =>
    [("chain", texts (outermost :: inner)), ("max_depth", .int maxDepth)]
  | _ => []

def Failure.report (f : Failure) : Value :=
  match f.kind? with
  | some kind => record ([("type", .text f.typeName), ("kind", .text kind),
      ("name", textOrNull f.name?), ("message", .text f.message)] ++ f.ownFields)
  | none => record [("type", .text f.typeName), ("message", .text f.message)]

def Step.report (s : Step) : Value := record [
  ("step_number", natural s.number),
  ("type", .text s.event.kind.name),
  ("name", .text s.event.name),
  ("input", .text s.event.input),
  ("output", .text s.event.output),
  ("scope", textOrNull s.event.scope),
  ("execution_time_ms", .float s.event.duration),
  ("cache_hit", match s.event.isHit with | some b => .bool b | none => .null),
  ("error", textOrNull s.event.error),
  ("metadata", record s.event.details),
  ("timestamp", .float s.time)]

def Metrics.report (m : Metrics) : Value := record [
  ("variable_count", natural m.lookups),
  ("function_count", natural m.calls),
  ("max_depth", .int m.maxDepth),
  ("cache_hits", natural m.hits),
  ("cache_misses", natural m.misses)]

def Summary.report (s : Summary) : Value := record [
  ("profile_id", textOrNull s.profileId),
  ("rule_id", textOrNull s.ruleId),
  ("request_url", textOrNull s.url),
  ("request_method", textOrNull s.method),
  ("fingerprint", .text s.fingerprint)]

def Trace.report (t : Trace) : Value := record [
  ("id", .text t.id),
  ("original_template", .text t.template),
  ("final_value", .text t.value),
  ("success", .bool t.isSuccess),
  ("steps", .list (t.steps.map Step.report)),
  ("resolved_variables", texts t.resolved),
  ("unresolved_variables", texts t.unresolved),
  ("errors", .list (t.failures.map Failure.report)),
  ("metrics", t.metrics.report),
  ("start_time", .float t.started),
  ("end_time", .float t.ended),
  ("total_time_ms", .float t.duration),
  ("context", match t.context with | some s => s.report | none => record []),
  ("dependencies", record (t.dependencies.map fun (n, ms) => (n, texts ms))),
  ("cycles", .list (t.cycles.map texts)),
  ("truncated", .bool t.isTruncated)]

end Stencil
