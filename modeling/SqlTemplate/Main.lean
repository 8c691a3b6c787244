import SqlTemplate.Report.Invocation

/-!
# The command line program

Reads the files that a command names, runs the command and prints what it leaves behind.
-/

namespace SqlTemplate.Report

/-- The file with the given name, as it is now. -/
def readFile (name : String) : IO File := do
  try
    return ⟨name, some (← IO.FS.readFile name)⟩
  catch _ =>
    return ⟨name, none⟩

def Invocation.run : Invocation → IO Result
  | .render template arguments config format display => do
    return Report.render (← readFile template) (← arguments.mapM readFile)
      (← config.mapM readFile) format display
  | .check template => do
    return Report.check (← readFile template)

/-- Runs a command line and prints its result. -/
def run (line : List String) : IO UInt32 := do
  let result ←
    match Invocation.ofWords? line with
    | some invocation => invocation.run
    | none => pure ⟨2, "", usage⟩
  IO.print result.stdout
  IO.eprint result.stderr
  return result.exitCode

end SqlTemplate.Report

def main (line : List String) : IO UInt32 :=
  SqlTemplate.Report.run line
