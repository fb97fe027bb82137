/-
# Settings

How an engine is set up: the bound on the depth, the cache, and what a trace
keeps. A setting is kept as the value that was given for it; a truth value
counts as the number 0 or 1 where a number is asked for, and any value counts
as true or false where that is asked for.

Key definitions: `Settings`, `Settings.Fault`, `Settings.checkDepth`,
`Settings.CacheSettings.check`, `Settings.engine`.
-/
import Stencil.Document
import Stencil.Engine
import Stencil.Trace.Report
import Stencil.Value.Keys

namespace Stencil

namespace Settings

/-- How expansions are kept. -/
structure CacheSettings where
  isEnabled : Value := .bool true
  /-- The greatest number of expansions. -/
  capacity : Value := .int 1000
  /-- How long an expansion may be used; nothing stands for ever. -/
  lifetime : Value := .null

/-- What traces keep. -/
structure TrackingSettings where
  isEnabled : Value := .bool true
  maxSteps : Value := .int 1000
  keepsCache : Value := .bool true
  keepsTiming : Value := .bool true
  keepsDetails : Value := .bool true

end Settings

structure Settings where
  maxDepth : Int := 10
  cache : Settings.CacheSettings := {}
  tracking : Settings.TrackingSettings := {}

namespace Settings

/-- Why a value does not fit a setting. -/
inductive Unfit where
  /-- A text is no integer. -/
  | notInteger (text : String)
  /-- A text is an integer of too many digits. -/
  | tooLong (digits : Nat)
  /-- A value of this kind is no number. -/
  | notNumeric (kind : String)
  | notANumber
  | incomparable (i : Incomparable)
  | negativeSteps (maxSteps : Value)
  /-- The number cannot be written. -/
  | unwritable

def Unfit.message : Unfit → String
  | notInteger text =>
    "invalid literal for int() with base 10: " ++ String.ofList ((Text.quoted text).toList.take 200)
  | tooLong digits => Numeral.tooLongMessage digits
  | notNumeric kind =>
    s!"int() argument must be a string, a bytes-like object or a real number, not '{kind}'"
  | notANumber => Number.NotFinite.notANumber.message
  | incomparable i => i.message
  | negativeSteps maxSteps => Tracking.negativeMessage maxSteps
  | unwritable => Refusal.unwritable.message

/-- Why a value is no section of settings at all. -/
inductive Misfit where
  /-- A value of this kind has no items. -/
  | noItems (kind : String)
  /-- The item at a place is no pair but a value of this kind. -/
  | notPair (place : Nat)
  /-- The item at a place has this many items. -/
  | wrongLength (place length : Nat)
  /-- A value of this kind is no key. -/
  | noKey (kind : String)
  | incomparable (i : Incomparable)
  | infinite
  /-- A key is an integer that cannot be written. -/
  | unwritable

def Misfit.message : Misfit → String
  | noItems kind => s!"'{kind}' object is not iterable"
  | notPair place => s!"cannot convert dictionary update sequence element #{place} to a sequence"
  | wrongLength place length =>
    s!"dictionary update sequence element #{place} has length {length}; 2 is required"
  | noKey kind => s!"unhashable type: '{kind}'"
  | incomparable i => i.message
  | infinite => Number.NotFinite.infinite.message
  | unwritable => Refusal.unwritable.message

/-- Why settings cannot be used. -/
inductive Fault where
  | document (f : Document.Fault)
  | unknownKeys (keys : List Value) (place : String)
  /-- A part of the section is no mapping. -/
  | notMapping (part : String)
  | shallow (maxDepth : Int)
  | noCapacity (capacity : Value)
  | noLifetime (lifetime : Value)
  | unfit (u : Unfit)
  /-- A variable of the environment is no integer. -/
  | notInteger (name text : String)
  | notNumber (name text : String)
  | notTruth (name text : String)
  | misfit (m : Misfit)

def Fault.message : Fault → String
  | document f => f.message "Configuration"
  | unknownKeys keys place =>
    s!"Unknown key(s) in {place}: " ++ Text.joined ", " (keys.map Value.plain)
  | notMapping part => s!"engine.{part} must be a mapping"
  | shallow maxDepth => Engine.shallowMessage maxDepth
  | noCapacity capacity => "cache max_size must be at least 1, got " ++ capacity.plain
  | noLifetime lifetime => "cache ttl_seconds must be positive, got " ++ lifetime.plain
  | unfit u => "Invalid engine settings: " ++ u.message
  | notInteger name text => s!"{name} must be an integer, got " ++ Text.quoted text
  | notNumber name text => s!"{name} must be a number, got " ++ Text.quoted text
  | notTruth name text => s!"{name} must be true or false, got " ++ Text.quoted text
  | misfit m => m.message

/-! ### Checks -/

/-- A fault that names a value; a value that cannot be written is a fault of its own. -/
def naming (v : Value) (f : Fault) : Fault := if v.isWritable then f else .unfit .unwritable

def checkDepth (maxDepth : Int) : Except Fault Int :=
  if maxDepth < 1 then .error (naming (.int maxDepth) (.shallow maxDepth)) else .ok maxDepth

/-- The number that a setting is compared as. -/
def comparable (comparison : String) (v : Value) : Except Fault Number :=
  match v.number? with
  | some n => .ok n
  | none => .error (.unfit (.incomparable ⟨comparison, v.fullKindName, "int"⟩))

/-- The settings, if the bounds allow a cache. -/
def CacheSettings.check (s : CacheSettings) : Except Fault CacheSettings := do
  let capacity ← comparable "<" s.capacity
  if capacity.lt (.int 1) then throw (naming s.capacity (.noCapacity s.capacity))
  match s.lifetime with
  | .null => return s
  | lifetime =>
    let t ← comparable "<=" lifetime
    if t.le (.int 0) then throw (naming lifetime (.noLifetime lifetime))
    return s

/-- The settings, if the bound is not negative. -/
def TrackingSettings.check (s : TrackingSettings) : Except Fault TrackingSettings := do
  let maxSteps ← comparable "<" s.maxSteps
  if maxSteps.lt (.int 0) then throw (naming s.maxSteps (.unfit (.negativeSteps s.maxSteps)))
  return s

/-! ### Use -/

/-- The number that a setting stands for. -/
def numberOf (v : Value) : Number := v.number?.getD (.int 0)

/-- The cache that settings describe, if they enable one. -/
def CacheSettings.cache? (s : CacheSettings) : Except String (Option Cache) :=
  if s.isEnabled.isTrue then
    (Cache.create (numberOf s.capacity) s.lifetime.number?).map some
  else .ok none

/-- What traces keep. -/
def TrackingSettings.tracking (s : TrackingSettings) : Tracking where
  isEnabled := s.isEnabled.isTrue
  maxSteps := numberOf s.maxSteps
  keepsCache := s.keepsCache.isTrue
  keepsTiming := s.keepsTiming.isTrue
  keepsDetails := s.keepsDetails.isTrue

/-- The engine that settings describe. -/
def engine (s : Settings) (library : Library) (sources : Sources) : Except String Engine :=
  match s.cache.cache? with
  | .error m => .error m
  | .ok cache => Engine.create cache library sources s.maxDepth s.tracking.tracking

/-! ### As a value -/

open Report

def CacheSettings.report (s : CacheSettings) : Value := record [
  ("enabled", s.isEnabled), ("max_size", s.capacity), ("ttl_seconds", s.lifetime)]

def TrackingSettings.report (s : TrackingSettings) : Value := record [
  ("enabled", s.isEnabled), ("max_steps", s.maxSteps), ("track_cache", s.keepsCache),
  ("track_timing", s.keepsTiming), ("include_metadata", s.keepsDetails)]

def report (s : Settings) : Value := record [
  ("max_depth", .int s.maxDepth), ("cache", s.cache.report), ("tracking", s.tracking.report)]

end Settings
end Stencil
