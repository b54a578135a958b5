import ClientGen.CommandLine.Session

/-!
# The command line program

Runs a script on the files of the system.
-/

namespace ClientGen.CommandLine

/-- The text of a file, if it can be read. -/
def readFile (path : String) : IO (Option String) := do
  try
    return some (← IO.FS.readFile path)
  catch _ => return none

/-- Writes a file with the directories on the way to it, and tells whether that could be done. -/
def writeFile (path text : String) : IO Bool := do
  try
    IO.FS.createDirAll (FileTree.parent path)
    IO.FS.writeFile path text
    return true
  catch _ => return false

/-- Runs a script. -/
def Script.perform {α : Type} : Script α → IO α
  | done result => return result
  | read path next => do (next (← readFile path)).perform
  | write path text next => do (next (← writeFile path text)).perform

end ClientGen.CommandLine

/-- Runs the program. -/
def main (args : List String) : IO UInt32 := do
  let outcome ← (ClientGen.CommandLine.session args).perform
  IO.print outcome.output
  return UInt32.ofNat outcome.exitCode
