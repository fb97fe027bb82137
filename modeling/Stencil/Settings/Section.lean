/-
# Reading settings from a section

Settings stand in a section of a file; what the section leaves out has its
default value.

Key definitions: `Settings.ofSection`, `Settings.ofFile`.
-/
import Stencil.Settings

namespace Stencil
namespace Settings

/-! ### The section as entries -/

/-- The items of a value that can stand for a pair. -/
def pairItems? : Value → Option (List Value)
  | .list items => some items
  | .text s => some (s.toList.map fun c => .text (String.singleton c))
  | .map entries => some (entries.map Prod.fst)
  | _ => none

/-- Collections are no keys. -/
def isKey : Value → Bool
  | .list _ => false
  | .map _ => false
  | _ => true

/-- The mapping that pairs make up; `place` counts them. -/
def ofPairs (place : Nat) : List Value → Except Misfit (List (Value × Value))
  | [] => .ok []
  | item :: r =>
    match pairItems? item with
    | none => .error (.notPair place)
    | some [k, v] =>
      if isKey k then (ofPairs (place + 1) r).map ((k, v) :: ·) else .error (.noKey k.kindName)
    | some items => .error (.wrongLength place items.length)

/-- The entries that a value stands for; an empty value has none. -/
def sectionEntries (v : Value) : Except Misfit (List (Value × Value)) :=
  if !v.isTrue then .ok []
  else
    match v with
    | .map entries => .ok entries
    | .list items => (ofPairs 0 items).map Value.mapOf
    | .text s => (ofPairs 0 (s.toList.map fun c => .text (String.singleton c))).map Value.mapOf
    | v => .error (.noItems v.fullKindName)

/-- Nothing, if all keys are allowed. -/
def checkKeys (place : String) : List String → List (Value × Value) → Except Fault Unit :=
  Value.allowOnly (fun i => .misfit (.incomparable i)) fun keys =>
    if keys.all Value.isWritable then .unknownKeys keys place else .misfit .unwritable

/-- The entries of a part of the section; an empty value has none. -/
def part (entries : List (Value × Value)) (name : String) : Except Fault (List (Value × Value)) :=
  match Value.lookup? entries name with
  | none => .ok []
  | some v =>
    if !v.isTrue then .ok []
    else
      match v with
      | .map es => .ok es
      | _ => .error (.notMapping name)

/-! ### The settings -/

/-- The integer that a value stands for. -/
def integerOf (v : Value) : Except Fault Int :=
  match v.number? with
  | some n =>
    match n.truncate with
    | .ok i => .ok i
    | .error .notANumber => .error (.unfit .notANumber)
    | .error .infinite => .error (.misfit .infinite)
  | none =>
    match v with
    | .text s =>
      match Numeral.readInteger s with
      | .ok i => .ok i
      | .error .malformed => .error (.unfit (.notInteger s))
      | .error (.tooLong digits) => .error (.unfit (.tooLong digits))
    | v => .error (.unfit (.notNumeric v.fullKindName))

/-- The value of a key, or a default. -/
def valueOr (entries : List (Value × Value)) (key : String) (v : Value) : Value :=
  (Value.lookup? entries key).getD v

def cacheKeys : List String := ["enabled", "max_size", "ttl_seconds"]

def trackingKeys : List String :=
  ["enabled", "max_steps", "track_cache", "track_timing", "include_metadata"]

def CacheSettings.ofEntries (es : List (Value × Value)) : CacheSettings :=
  let d : CacheSettings := {}
  { isEnabled := valueOr es "enabled" d.isEnabled
    capacity := valueOr es "max_size" d.capacity
    lifetime := valueOr es "ttl_seconds" d.lifetime }

def TrackingSettings.ofEntries (es : List (Value × Value)) : TrackingSettings :=
  let d : TrackingSettings := {}
  { isEnabled := valueOr es "enabled" d.isEnabled
    maxSteps := valueOr es "max_steps" d.maxSteps
    keepsCache := valueOr es "track_cache" d.keepsCache
    keepsTiming := valueOr es "track_timing" d.keepsTiming
    keepsDetails := valueOr es "include_metadata" d.keepsDetails }

/-- The settings of a section. All keys are checked before any value. -/
def ofSection (v : Value) : Except Fault Settings := do
  let entries ← (sectionEntries v).mapError Fault.misfit
  checkKeys "engine" ["max_depth", "cache", "tracking"] entries
  let cache ← part entries "cache"
  checkKeys "engine.cache" cacheKeys cache
  let tracking ← part entries "tracking"
  checkKeys "engine.tracking" trackingKeys tracking
  let depth ← integerOf (valueOr entries "max_depth" (.int ({} : Settings).maxDepth))
  let maxDepth ← checkDepth depth
  let cache ← (CacheSettings.ofEntries cache).check
  let tracking ← (TrackingSettings.ofEntries tracking).check
  return { maxDepth, cache, tracking }

/-- The settings in what is found at a path. -/
def ofFile (found : Document.Found) : Except Fault Settings := do
  let v ← (Document.read found).mapError Fault.document
  let entries ← (Document.entriesOf v).mapError Fault.document
  ofSection (valueOr entries "engine" .null)

end Settings
end Stencil
