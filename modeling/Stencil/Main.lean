/-
# The program

Hands the command line, the files that it names, the environment, the time and
a random seed to the command, and writes what the command shows.
-/
import Std.Time.DateTime.Timestamp
import Stencil.Command.Run
import Stencil.Console.Layout
import Stencil.Sources

namespace Stencil
namespace Program

/-- What stands at a path. -/
def look (path : String) : IO Document.Found := do
  try
    return .file (← IO.FS.readFile path)
  catch
    | .inappropriateType .. => return .folder path
    | _ => return .nothing

/-- The present moment, in seconds. -/
def presentMoment : IO Float := do
  let t ← Std.Time.Timestamp.now
  return Float.ofInt t.toNanosecondsSinceUnixEpoch.val / 1000000000

/-- What there is around a command. -/
def lookAround (paths : List String) : IO Surroundings := do
  let found ← paths.mapM fun p => return (p, ← look p)
  let settings ← Settings.variableNames.mapM fun n => return (n, ← IO.getEnv n)
  let now ← presentMoment
  let seed ← IO.getRandomBytes 32
  return {
    files := fun p => (found.lookup p).getD .nothing
    environment := fun n => (settings.lookup n).join
    sources := .ofSeed (.float now) seed.toList
    stamp := { clock := { now } } }

/-- Writes what a command shows, and those of its messages that are asked for. -/
def report (v : Verbosity) (o : Command.Outcome) : IO Unit := do
  for block in o.blocks do
    for line in block.lines do
      IO.println line
  for (level, message) in o.log do
    if v.level.number ≤ level.number then
      IO.eprintln s!"{level.name} - {message}"

/-- Runs the command in the words. The status that the program ends with. -/
def run (words : List String) : IO UInt32 := do
  match Command.read words with
  | .error fault =>
    IO.eprintln s!"Error: {fault.message}"
    return 2
  | .ok i =>
    let outcome := i.command.run (← lookAround i.command.paths)
    report i.verbosity outcome
    return (exitStatus (.ok outcome)).toUInt32

end Program
end Stencil

def main (words : List String) : IO UInt32 := Stencil.Program.run words
