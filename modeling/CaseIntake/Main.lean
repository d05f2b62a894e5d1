import CaseIntake.CommandLine
import CaseIntake.Spec.Identifier

/-!
# The program

Gathers the files that the command line names, runs it on them, and writes out what it left behind.
-/

namespace CaseIntake

/-- The content of a file, if it can be read. -/
def readContent (path : String) : IO (Option String) := do
  try
    return some (← IO.FS.readFile path)
  catch _ =>
    return none

def isThere (directory : String) : IO Bool := do
  try
    discard (IO.FS.Handle.mk (directory ++ "/.") .read)
    return true
  catch _ =>
    return false

/-- What is found on the way to a path. -/
def explore (files : Files) (path : String) : IO Files := do
  let mut files := files
  for place in Files.places path do
    if ← isThere place then
      files := { files with directories := place :: files.directories }
    else if let some text ← readContent place then
      files := { files with contents := files.contents.insert place text }
  return files

/-- What is found on the ways to the files that a command reads and writes. -/
def gather (command : Command) : IO Files :=
  (command.sources ++ command.destination?.toList).foldlM explore ⟨Dict.empty, []⟩

def writeOut (command : Command) (outcome : CommandOutcome) : IO Unit := do
  if outcome.error.isNone then
    for path in command.destination?.toList do
      if let some text := outcome.files.contents.find? (Files.plainPath path) then
        IO.FS.writeFile path text

end CaseIntake

open CaseIntake in
def main (args : List String) : IO UInt32 := do
  match CommandLine.read? args with
  | none =>
    IO.eprintln "usage: validate INPUT | convert INPUT --function NAME"
    return 2
  | some command =>
    let bytes ← IO.getRandomBytes 16
    let start := bytes.foldl (fun n b => 256 * n + b.toNat) 0
    let outcome := CommandLine.run (Identifier.consecutive start) (← gather command) args
    writeOut command outcome
    IO.print outcome.stdout
    if let some text := outcome.errorText? then
      IO.eprint text
    return outcome.exitCode.toUInt32
