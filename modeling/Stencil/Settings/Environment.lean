/-
# Settings from the environment

Four variables of the environment override settings, and what they give is
checked like any other settings.

Key definitions: `Environment`, `Settings.withEnvironment`, `Settings.load`.
-/
import Stencil.Settings.Section
import Stencil.Text.LetterCase

namespace Stencil

/-- The texts of the variables that are set. -/
abbrev Environment := String → Option String

namespace Settings

def depthName : String := "REQUESTKIT_MAX_DEPTH"

def enabledName : String := "REQUESTKIT_CACHE_ENABLED"

def capacityName : String := "REQUESTKIT_CACHE_MAX_SIZE"

def lifetimeName : String := "REQUESTKIT_CACHE_TTL_SECONDS"

/-- The variables that override settings. -/
def variableNames : List String := [depthName, enabledName, capacityName, lifetimeName]

/-- Whether the environment leaves all settings as they are. -/
def isSilent (env : Environment) : Bool := variableNames.all fun n => (env n).isNone

/-- The integer that a text denotes. -/
def readInteger (name text : String) : Except Fault Int :=
  match Numeral.readInteger (Text.strip text) with
  | .ok i => .ok i
  | .error _ => .error (.notInteger name text)

/-- The number that a text without blanks around it denotes. -/
def readReal (name text : String) : Except Fault Float :=
  match Numeral.readReal? text with
  | some x => .ok x
  | none => .error (.notNumber name text)

/-- The truth value that a text denotes. -/
def readTruth (name text : String) : Except Fault Bool :=
  let word := Text.lower (Text.strip text)
  if ["1", "true", "yes", "on"].contains word then .ok true
  else if ["0", "false", "no", "off"].contains word then .ok false
  else .error (.notTruth name text)

/-- The time to live that a text denotes; an empty one stands for ever. -/
def readLifetime (text : String) : Except Fault Value :=
  let text := Text.strip text
  if text.isEmpty then .ok .null else (readReal lifetimeName text).map .float

/-- What a variable gives, or what there is already. -/
def override {α : Type} (env : Environment) (name : String) (read : String → Except Fault α)
    (value : α) : Except Fault α :=
  match env name with
  | none => .ok value
  | some text => read text

/-- The cache settings with those of the environment; they are checked if any of them is given. -/
def CacheSettings.withEnvironment (s : CacheSettings) (env : Environment) :
    Except Fault CacheSettings := do
  let isEnabled ← override env enabledName (fun t => (readTruth enabledName t).map .bool) s.isEnabled
  let capacity ← override env capacityName (fun t => (readInteger capacityName t).map .int) s.capacity
  let lifetime ← override env lifetimeName readLifetime s.lifetime
  if [enabledName, capacityName, lifetimeName].all fun n => (env n).isNone then return s
  CacheSettings.check { isEnabled, capacity, lifetime }

/-- The settings with those of the environment. -/
def withEnvironment (s : Settings) (env : Environment) : Except Fault Settings := do
  let maxDepth ← override env depthName (fun t => do checkDepth (← readInteger depthName t)) s.maxDepth
  let cache ← s.cache.withEnvironment env
  return { s with maxDepth, cache }

/-- A fault with the source where it lies, if that is a file. -/
structure Located where
  source : Option String
  fault : Fault

/-- Whether a fault is one of the settings; a value that is no section at all is not, nor is a
well-formed text without a value. -/
def Fault.isReported : Fault → Bool
  | misfit _ => false
  | document f => f.isReported
  | _ => true

def Located.message (l : Located) : String :=
  if l.fault.isReported then Document.placed l.source l.fault.message else l.fault.message

/-- The settings of a file, if one is named, with those of the environment. -/
def load (path? : Option String) (files : String → Document.Found) (env : Environment) :
    Except Located Settings := do
  let s ← match path? with
    | none => pure {}
    | some path =>
      if path.isEmpty then pure {} else (ofFile (files path)).mapError (⟨some path, ·⟩)
  (s.withEnvironment env).mapError (⟨none, ·⟩)

end Settings
end Stencil
