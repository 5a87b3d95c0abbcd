import ScriptStore.Cli.Finding

/-!
# Running a command

A command, told as a whole, reads its files, may save one, and ends with an exit code, a text and
perhaps a complaint. A file that cannot be written stays as it is.
-/

namespace ScriptStore

namespace Cli

/-! ## Files -/

/-- The files that a command sees: the text of each, or why it cannot be read, and why a path
cannot be written, if it cannot. -/
structure Disk where
  files : Files
  refusal? : String → Option String

namespace Disk

/-- The disk with a file replaced. -/
def write (disk : Disk) (path text : String) : Disk :=
  { disk with files := fun other => if other = path then .ok text else disk.files other }

/-- The text of a file that can be read. -/
def text? (disk : Disk) (path : String) : Option String := (disk.files path).toOption

/-- Writing changes the written file only. -/
theorem files_write (disk : Disk) (path text other : String) :
    (disk.write path text).files other = if other = path then .ok text else disk.files other := rfl

end Disk

/-! ## Outcomes -/

/-- How a command ends. -/
structure Outcome where
  exitCode : Nat
  shown : String
  complaint : Option Complaint
  deriving DecidableEq

namespace Outcome

/-- The outcome of a finding after its file, if there is one, has been saved. -/
def ofFinding (settings : Settings) (finding : Finding) : Outcome :=
  ⟨if finding.succeeds then 0 else 1, finding.shown settings, finding.complaint?⟩

/-- What is written about the complaint of an outcome. -/
def complaintText (settings : Settings) (outcome : Outcome) : String :=
  match outcome.complaint with
  | some complaint => complaint.render settings
  | none => ""

end Outcome

/-! ## Runs -/

/-- The finding that stays when a file has been saved, or has been refused with a detail. -/
def Finding.afterSaving (finding : Finding) (path : String) : Option String → Finding
  | some detail => .failed (.unwritable path detail)
  | none => finding

/-- Runs a command on a disk. -/
def Command.run (settings : Settings) (command : Command) (disk : Disk) : Outcome × Disk :=
  let finding := command.find disk.files
  match finding.saved? with
  | none => (Outcome.ofFinding settings finding, disk)
  | some (path, text) =>
    let refusal := disk.refusal? path
    (Outcome.ofFinding settings (finding.afterSaving path refusal),
      if refusal.isSome then disk else disk.write path text)

end Cli

end ScriptStore
