import ScriptStore.Cli.Run

/-!
# The system around a command

A command reads and writes files, prints, complains and keeps a log. What carries this out is left
open, so that the same program runs on the system itself and on a machine that is plain data.
-/

namespace ScriptStore

namespace Cli

/-- What a command asks of the system around it. -/
class Host (m : Type → Type) where
  /-- The text of a file, or why it cannot be read. -/
  readFile (path : String) : m (Except String String)
  /-- Replaces the text of a file, or gives the reason why it cannot be written. -/
  writeFile (path text : String) : m (Except String Unit)
  /-- Writes to the standard output. -/
  print (text : String) : m Unit
  /-- Writes to the standard error. -/
  eprint (text : String) : m Unit
  /-- Adds a line to the log. -/
  log (line : String) : m Unit

/-! ## Machines -/

/-- A system as data: its disk, what has been written so far, and the lines of the log. -/
structure Machine where
  disk : Disk
  stdout : String
  stderr : String
  log : List String

namespace Machine

/-- The machine on which nothing has been written yet. -/
def start (disk : Disk) : Machine := ⟨disk, "", "", []⟩

/-- Writes a file of a machine; one that cannot be written stays as it is. -/
def writeFile (machine : Machine) (path text : String) : Except String Unit × Machine :=
  match machine.disk.refusal? path with
  | some detail => (.error detail, machine)
  | none => (.ok (), { machine with disk := machine.disk.write path text })

/-- Adds to the standard output of a machine. -/
def print (machine : Machine) (text : String) : Machine :=
  { machine with stdout := machine.stdout ++ text }

/-- Adds to the standard error of a machine. -/
def eprint (machine : Machine) (text : String) : Machine :=
  { machine with stderr := machine.stderr ++ text }

/-- Adds a line to the log of a machine. -/
def note (machine : Machine) (line : String) : Machine :=
  { machine with log := machine.log ++ [line] }

instance : Host (StateM Machine) where
  readFile path := do return (← get).disk.files path
  writeFile path text := modifyGet fun machine => machine.writeFile path text
  print text := modify fun machine => machine.print text
  eprint text := modify fun machine => machine.eprint text
  log line := modify fun machine => machine.note line

end Machine

end Cli

end ScriptStore
