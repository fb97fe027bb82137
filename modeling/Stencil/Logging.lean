/-
# Logging

Messages are logged on channels with dotted names; a channel lies below those
whose names its own continues, and a place is held for each of these until it
is asked for. Messages below a channel's level are dropped. A channel in use
has a handler of its own and does not pass its messages on.

A program says how much it logs for all channels of a package at once. Some of
them are noisy: they log warnings only, unless everything is asked for.

Key definitions: `Level`, `Verbosity.level`, `Logging.touch`, `Logging.use`,
`Logging.configure`, `Logging.status`.
-/
import Stencil.Text.Basic
import Stencil.Text.LetterCase

namespace Stencil

inductive Level where
  /-- The channel has no level of its own. -/
  | unset
  | debug
  | info
  | warning
  | error
  | critical
deriving DecidableEq, Repr

namespace Level

def number : Level → Nat
  | unset => 0
  | debug => 10
  | info => 20
  | warning => 30
  | error => 40
  | critical => 50

def name : Level → String
  | unset => "NOTSET"
  | debug => "DEBUG"
  | info => "INFO"
  | warning => "WARNING"
  | error => "ERROR"
  | critical => "CRITICAL"

/-- The levels that can be asked for. -/
def named : List Level := [debug, info, warning, error, critical]

/-- The level of a name, in any letter case. -/
def ofName? (name : String) : Option Level :=
  named.find? fun l => Text.lower l.name == Text.lower name

/-- The higher of two levels. -/
def atLeast (bound l : Level) : Level := if l.number < bound.number then bound else l

end Level

/-- How much a program is asked to log. -/
structure Verbosity where
  isVerbose : Bool := false
  isQuiet : Bool := false
  /-- The name of a level, which overrides the others. -/
  named : Option String := none

namespace Verbosity

/-- The level asked for; an unknown name stands for the usual one. -/
def level (v : Verbosity) : Level :=
  match v.named with
  | some name => (Level.ofName? name).getD .info
  | none => if v.isQuiet then .warning else if v.isVerbose then .debug else .info

/-- The level of noisy channels. -/
def noisyLevel (v : Verbosity) : Level := if v.isVerbose then .debug else v.level.atLeast .warning

end Verbosity

structure Channel where
  level : Level := .unset
  /-- Whether messages are passed on to the channel above. -/
  passesOn : Bool := true
  hasHandler : Bool := false
deriving DecidableEq, Repr

/-- The channel with a handler; one that has none gets one, and keeps its messages then. -/
def Channel.handled (c : Channel) : Channel :=
  if c.hasHandler then c else { c with hasHandler := true, passesOn := false }

/-- All channels; the root lies above them. -/
structure Logging where
  root : Channel := { level := .warning }
  /-- The channels, with the places held for channels. -/
  channels : List (String × Option Channel) := []

namespace Logging

/-- The package whose channels a program sets, and the noisy ones among them. -/
structure Package where
  name : String
  noisy : List String := []

/-- Whether a channel is one of a package. -/
def Package.has (p : Package) (channel : String) : Bool :=
  channel == p.name || channel.startsWith (p.name ++ ".")

/-- The name of the root. -/
def rootName : String := "root"

def isRoot (name : String) : Bool := name.isEmpty || name == rootName

/-- The channel of a name, or the place held for it. -/
def find? (l : Logging) (name : String) : Option (Option Channel) := l.channels.lookup name

/-- The names that a name continues, the longest first: what stands before each of its dots, the
name given from its end. The dot right before such a dot is passed over. -/
def lineage : (reversed : List Char) → List String
  | '.' :: c :: r => String.ofList (c :: r).reverse :: lineage r
  | _ :: r => lineage r
  | [] => []

/-- Holds places for channels up to the first that is there. -/
def hold (l : Logging) : List String → Logging
  | [] => l
  | name :: r =>
    match l.find? name with
    | some (some _) => l
    | some none => hold l r
    | none => hold { l with channels := l.channels ++ [(name, none)] } r

/-- Puts a channel under a name, in the place held for it if there is one. -/
def put (name : String) (c : Channel) :
    List (String × Option Channel) → List (String × Option Channel)
  | [] => [(name, some c)]
  | (n, c?) :: r => if n == name then (n, some c) :: r else (n, c?) :: put name c r

/-- The channels with one of the given name, and places held for those it lies below. -/
def touch (l : Logging) (name : String) : Logging :=
  match l.find? name with
  | some (some _) => l
  | _ => { l with channels := put name {} l.channels }.hold (lineage name.toList.reverse)

/-- Changes the channels whose names satisfy a condition. -/
def change (l : Logging) (holds : String → Bool) (f : Channel → Channel) : Logging :=
  { l with channels := l.channels.map fun (n, c?) => (n, if holds n then c?.map f else c?) }

/-- The channel of a name, with a handler, and the channels then. -/
def use (l : Logging) (name : String) : Channel × Logging :=
  if isRoot name then
    let root := l.root.handled
    (root, { l with root })
  else
    let l := (l.touch name).change (· == name) Channel.handled
    (((l.find? name).join).getD {}, l)

/-- The names of a package that are known. -/
def names (l : Logging) (p : Package) : List String := (l.channels.map Prod.fst).filter p.has

/-- The channels as a program sets them. Names for which places get held meanwhile are left. -/
def configure (l : Logging) (p : Package) (v : Verbosity) : Logging :=
  let names := l.names p
  let l := { l with root := { l.root with level := v.level, hasHandler := true } }
  let l := (names.foldl touch l).change names.contains fun c => { c with level := v.level }
  (p.noisy.foldl touch l).change p.noisy.contains fun c => { c with level := v.noisyLevel }

/-- The channels of a package, in the order of their names, and all channels then: the places held
for those of the package are taken. -/
def status (l : Logging) (p : Package) : List (String × Channel) × Logging :=
  let names := l.names p
  let l := names.foldl touch l
  ((Text.sorted names).filterMap fun n => (l.find? n).join.map fun c => (n, c), l)

/-- The channels in use under the given names. -/
def ofNames (names : List String) : Logging := names.foldl (fun l n => (l.use n).2) {}

end Logging
end Stencil
