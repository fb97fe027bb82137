/-
# Documents

Settings and declarations stand in files of YAML text.

Key definitions: `Document.Found`, `Document.among`, `Document.Fault`,
`Document.read`, `Document.placed`.
-/
import Stencil.Yaml

namespace Stencil
namespace Document

/-! ### Paths -/

/-- What stands at a path. -/
inductive Found where
  | nothing
  | folder (path : String)
  | file (text : String)

/-- The names that a path goes along. -/
def steps (path : String) : List String :=
  (path.splitOn "/").filter fun s => !s.isEmpty && s != "."

/-- Whether a path can only be that of a folder. -/
def endsInFolder (path : String) : Bool :=
  ["", ".", ".."].contains ((path.splitOn "/").getLast?.getD "")

/-- What stands at a path in a folder that holds files with the given texts; of two files of one
name the last counts. -/
def among (files : List (String × String)) (path : String) : Found :=
  let way := steps path
  if path.isEmpty then .nothing
  else if way.all (· == "..") then .folder path
  else if path.startsWith "/" then .nothing
  else
    match files.reverse.find? fun f => steps f.1 == way with
    | some f => if endsInFolder path then .nothing else .file f.2
    | none => if files.any fun f => way.isPrefixOf (steps f.1) then .folder path else .nothing

/-! ### Faults -/

/-- Why a file holds no entries. -/
inductive Fault where
  | missing
  /-- There is a folder in place of the file. -/
  | folder (path : String)
  /-- Its text has no value. -/
  | text (f : Yaml.Fault)
  /-- It holds something else than entries. -/
  | notMapping

/-- Whether a fault is one of the file: a text may be well-formed and yet have no value. -/
def Fault.isReported : Fault → Bool
  | text .malformed => true
  | text _ => false
  | folder _ => false
  | _ => true

/-- What is said of a missing file depends on what it should hold. -/
def Fault.message (content : String) : Fault → String
  | missing => content ++ " file not found"
  | folder path => "[Errno 21] Is a directory: " ++ Text.quoted path
  | text f => f.message
  | notMapping => "Expected a mapping at the top level"

/-- A message about a source, if that has a name. -/
def placed (source : Option String) (message : String) : String :=
  match source with
  | none => message
  | some s => if s.isEmpty then message else s ++ ": " ++ message

/-! ### Reading -/

/-- A text with one kind of line break. -/
def unifyBreaks : List Char → List Char
  | '\r' :: '\n' :: r => '\n' :: unifyBreaks r
  | '\r' :: r => '\n' :: unifyBreaks r
  | c :: r => c :: unifyBreaks r
  | [] => []

/-- The value of a file. An empty value counts as no entries. -/
def read (found : Found) : Except Fault Value :=
  match found with
  | .nothing => .error .missing
  | .folder path => .error (.folder path)
  | .file text =>
    match Yaml.read (String.ofList (unifyBreaks text.toList)) with
    | .error f => .error (.text f)
    | .ok v => .ok (if v.isTrue then v else .map [])

/-- The entries of a value. -/
def entriesOf : Value → Except Fault (List (Value × Value))
  | .map entries => .ok entries
  | _ => .error .notMapping

end Document
end Stencil
