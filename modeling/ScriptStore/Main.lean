import ScriptStore.Cli.Program

/-!
# The command line

Runs the program that the arguments ask for on the files and the output of the system.
-/

namespace ScriptStore

namespace Cli

/-! ## The system -/

/-- The text of a file, or why it cannot be read. -/
def readText (path : String) : IO (Except String String) := do
  try
    let text ← IO.FS.readFile path
    return .ok text
  catch error => return .error (toString error)

/-- Writes a file, or gives the reason why it cannot be written. -/
def writeText (path text : String) : IO (Except String Unit) := do
  try
    IO.FS.writeFile path text
    return .ok ()
  catch error => return .error (toString error)

instance : Host IO where
  readFile := readText
  writeFile := writeText
  print text := IO.print text
  eprint text := IO.eprint text
  log line := IO.eprintln line

/-! ## Arguments -/

/-- What is written when the arguments ask for nothing that there is. -/
def usage : String :=
  "Usage: scriptstore [--output text|json] [--quiet] [--verbose] COMMAND\n" ++
    "  diff STORE BODY --entity NAME\n" ++
    "  sync STORE BODY --entity NAME [--out PATH] [--no-verify]\n" ++
    "  clear STORE --entity NAME [--out PATH]\n" ++
    "  check STORE\n" ++
    "  validate STORE\n"

end Cli

end ScriptStore

open ScriptStore Cli in
/-- Runs the command that the arguments ask for. -/
def main (arguments : List String) : IO UInt32 := do
  match parse? arguments with
  | none =>
    IO.eprint usage
    return 2
  | some (settings, command) => return UInt32.ofNat (← command.exitCode settings)
