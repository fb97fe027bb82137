/-
# Arguments

The words of a command line. A word that starts with a dash holds switches:
after two dashes one by its long name, after one dash those of its letters. A
switch that takes a value finds it after an equals sign, after its letter, or
in the next word. No word after a bare pair of dashes holds switches.

Key definitions: `Switch`, `Arguments`, `Arguments.Fault`, `Arguments.read`.
-/

namespace Stencil

/-- Something that a command may be told besides its arguments. -/
structure Switch where
  /-- The long name, with its dashes. -/
  name : String
  letter : Option Char := none
  takesValue : Bool := false

structure Arguments where
  /-- The switches given, with their values, in order. -/
  switches : List (String × Option String) := []
  /-- The other words. -/
  words : List String := []

namespace Arguments

/-- Why a command line cannot be read. -/
inductive Fault where
  | unknownSwitch (name : String)
  | missingValue (name : String)
  | unexpectedValue (name : String)
  | unknownCommand (name : String)
  | missingArgument (name : String)
  | extraArguments (words : List String)
deriving DecidableEq, Repr

def Fault.message : Fault → String
  | unknownSwitch name => s!"No such option: {name}"
  | missingValue name => s!"Option '{name}' requires an argument."
  | unexpectedValue name => s!"Option '{name}' does not take a value."
  | unknownCommand name => s!"No such command '{name}'."
  | missingArgument name => s!"Missing argument '{name}'."
  | extraArguments words => "Got unexpected extra argument(s) (" ++ " ".intercalate words ++ ")"

/-- Whether a switch is given. -/
def has (a : Arguments) (name : String) : Bool := a.switches.any fun s => s.1 == name

/-- The values given for a switch, in order. -/
def values (a : Arguments) (name : String) : List String :=
  a.switches.filterMap fun (n, value) => if n == name then value else none

/-- The last value given for a switch. -/
def value? (a : Arguments) (name : String) : Option String := (a.values name).getLast?

/-- The switches in one word. The last one may be waiting for its value. -/
structure Cluster where
  given : List (String × Option String)
  waiting : Option String := none

/-- The switches of letters. What follows the letter of a switch that takes a value is its value. -/
def readLetters (known : List Switch) : List Char → Except Fault Cluster
  | [] => .ok { given := [] }
  | c :: r =>
    match known.find? fun s => s.letter == some c with
    | none => .error (.unknownSwitch (String.ofList ['-', c]))
    | some s =>
      if s.takesValue then
        if r.isEmpty then .ok { given := [], waiting := some s.name }
        else .ok { given := [(s.name, some (String.ofList r))] }
      else (readLetters known r).map fun cluster =>
        { cluster with given := (s.name, none) :: cluster.given }

/-- The switch of a long name, with the value after the equals sign. -/
def readLong (s : Switch) (value? : Option String) : Except Fault Cluster :=
  match s.takesValue, value? with
  | true, some value => .ok { given := [(s.name, some value)] }
  | true, none => .ok { given := [], waiting := some s.name }
  | false, some _ => .error (.unexpectedValue s.name)
  | false, none => .ok { given := [(s.name, none)] }

/-- The switches in a word that starts with a dash. -/
def readSwitches (known : List Switch) (word : String) : Except Fault Cluster :=
  let cs := word.toList
  let name := String.ofList (cs.takeWhile (· != '='))
  let value? := match cs.dropWhile (· != '=') with
    | [] => none
    | _ :: value => some (String.ofList value)
  match known.find? fun s => s.name == name with
  | some s => readLong s value?
  | none =>
    if cs.take 2 == ['-', '-'] then .error (.unknownSwitch name) else readLetters known (cs.drop 1)

/-- Whether a word holds switches. -/
def holdsSwitches (word : String) : Bool :=
  match word.toList with
  | '-' :: _ :: _ => true
  | _ => false

/-- The arguments in words. Unless switches may stand between the other words, the first of these
ends the switches. -/
def read (known : List Switch) (isMixed : Bool) : List String → Except Fault Arguments
  | [] => .ok {}
  | word :: rest =>
    if word == "--" then .ok { words := rest }
    else if holdsSwitches word then
      match readSwitches known word with
      | .error f => .error f
      | .ok { given, waiting := none } =>
        (read known isMixed rest).map fun a => { a with switches := given ++ a.switches }
      | .ok { given, waiting := some name } =>
        match rest with
        | [] => .error (.missingValue name)
        | value :: rest =>
          (read known isMixed rest).map fun a =>
            { a with switches := given ++ (name, some value) :: a.switches }
    else if isMixed then
      (read known isMixed rest).map fun a => { a with words := word :: a.words }
    else .ok { words := word :: rest }

end Arguments
end Stencil
