/-
  KnowledgeSearch/Main.lean
  =========================
  **The command line program.**

  Reads the files that its arguments name, runs the command, prints what it reports.
  Everything else is `CommandLine.run`.
-/
import KnowledgeSearch.CommandLine.Run

namespace KnowledgeSearch.CommandLine

def readFiles (paths : List String) : IO (List (String × String)) :=
  paths.filterMapM fun (path : String) => do
    match ← (IO.FS.readFile path).toBaseIO with
    | .ok text => pure (some (path, text))
    | .error _ => pure none

end KnowledgeSearch.CommandLine

open KnowledgeSearch.CommandLine in
/-- Runs the program. -/
def main (arguments : List String) : IO UInt32 := do
  let files ← match readArguments arguments with
    | .ok invocation => readFiles invocation.files
    | .error _ => pure []
  let r := run (World.ofFiles files) arguments
  (← IO.getStdout).putStr r.output
  (← IO.getStderr).putStr r.message
  pure r.status
