/-
# Built-in functions

The functions that every library starts with: the time in several forms, a
fresh identifier, a random number and base 64.

Key definitions: `builtIn`, `Library.standard`, `Sources.preview`.
-/
import Stencil.Calendar
import Stencil.Function.Library
import Stencil.Text.Bytes
import Stencil.Text.LetterCase

namespace Stencil
namespace Function

/-- The breakdown of a moment that does not exist. -/
def ofCalendarFault (f : Calendar.Fault) : Breakdown :=
  let type := match f with
    | .notANumber | .year _ => "ValueError"
    | .outOfRange => "OverflowError"
    | .tooLarge => "OSError"
  .fault type f.message

/-- The breakdown of a number without an integer part. -/
def ofNotFinite (f : Number.NotFinite) : Breakdown :=
  match f with
  | .infinite => .fault "OverflowError" f.message
  | .notANumber => .fault "ValueError" f.message

/-- The text of an integer, unless it has too many digits. -/
def integerText (i : Int) : Except Breakdown String :=
  if (Value.int i).isWritable then .ok (intText i)
  else .error (.fault "ValueError" Numeral.unwritableMessage)

/-- The whole seconds of a time. -/
def secondsText (t : Number) : Except Breakdown String :=
  match t.truncate with
  | .ok i => integerText i
  | .error f => .error (ofNotFinite f)

def moment (t : Number) : Except Breakdown Calendar.Moment :=
  (Calendar.Moment.ofEpoch t).mapError ofCalendarFault

/-- A time in a format that goes by a name; an unknown name stands for date and time. -/
def dateText (t : Number) (format : String) : Except Breakdown String :=
  match moment t with
  | .error e => .error e
  | .ok m =>
    let name := Text.lower format
    if name == "locale" then .ok m.long
    else if name == "timestamp" then secondsText t
    else if name == "yyyy-mm-dd" then .ok m.yearFirst
    else if name == "mm-dd-yy" then .ok m.monthFirst
    else .ok m.iso

/-- A bound of a random number. -/
def wholeBound (b : Number) : Except Breakdown Int :=
  match b.truncate with
  | .error f => .error (ofNotFinite f)
  | .ok i =>
    if b.isWhole then .ok i else .error (.declined "random" "bounds must be whole numbers")

/-- A random number between two bounds. -/
def randomText (low high : Number) (s : Sources) : Except Breakdown String × Sources :=
  match wholeBound low, wholeBound high with
  | .error e, _ => (.error e, s)
  | .ok _, .error e => (.error e, s)
  | .ok low, .ok high =>
    if high < low then
      match integerText low, integerText high with
      | .ok l, .ok h => (.error (.declined "random" s!"min {l} is greater than max {h}"), s)
      | _, _ => (.error (.fault "ValueError" Numeral.unwritableMessage), s)
    else
      let (n, s) := s.between low high
      (integerText n, s)

/-- What a text of the time gives now. -/
def withTime (text : Number → Except Breakdown String) (s : Sources) :
    Except Breakdown Value × Sources :=
  match s.readTime with
  | .ok (t, s) => ((text t).map .text, s)
  | .error r => (.error (.fault "OverflowError" r.message), s)

/-- A function without parameters that reads the clock. -/
def ofClock (name description : String) (text : Number → Except Breakdown String) : Function where
  name
  description
  isBuiltIn := true
  run := fun _ s => withTime text s

def numberAt (vs : List Value) (i : Nat) : Number := ((vs.getD i .null).number?).getD (.int 0)

def textAt (vs : List Value) (i : Nat) : String := (vs.getD i .null).plain

def uuid : Function where
  name := "uuid"
  description := "Random UUID v4"
  isBuiltIn := true
  run := fun _ s => let (id, s) := s.takeIdentifier; (.ok (.text id), s)

def random : Function where
  name := "random"
  description := "Random whole number between min and max, inclusive"
  parameters := [{ name := "min", kind := .number }, { name := "max", kind := .number }]
  isBuiltIn := true
  run := fun vs s =>
    let (r, s) := randomText (numberAt vs 0) (numberAt vs 1) s
    (r.map .text, s)

def base64 : Function where
  name := "base64"
  description := "Base64 encode a value"
  parameters := [{ name := "value" }]
  isBuiltIn := true
  run := fun vs s =>
    (.ok (.text (String.ofList (Text.base64 (Text.utf8 (textAt vs 0))))), s)

def date : Function where
  name := "date"
  description := "Current date (formats: iso, locale, timestamp, yyyy-mm-dd, mm-dd-yy)"
  parameters := [{ name := "format", isRequired := false, fallback := .text "iso" }]
  isBuiltIn := true
  run := fun vs s => withTime (dateText · (textAt vs 0)) s

/-- The functions that every library starts with. -/
def builtIn : List Function := [
  ofClock "timestamp" "Current Unix timestamp in seconds" secondsText,
  ofClock "iso_date" "Current date and time as an ISO 8601 string (UTC)"
    fun t => (moment t).map Calendar.Moment.iso,
  uuid, random, base64, date]

end Function

/-- The library with the built-in functions only. -/
def Library.standard : Library := ⟨Function.builtIn⟩

/-- A fixed moment, a fixed identifier and fixed draws, for trying a template out. -/
def Sources.preview (draw : Nat → Int := fun _ => 0) : Sources where
  now := .float 1704067200
  identifier := fun _ => "550e8400-e29b-41d4-a716-446655440000"
  draw

end Stencil
