import ScriptStore.Cli.Host
import ScriptStore.Store.Session

/-!
# Commands as programs

The commands as they are carried out: each step reads, prints, complains or writes when its turn
comes, and an error is reported where it arises and ends the program there. The settings go with
every step that writes something.
-/

namespace ScriptStore

namespace Cli

/-- A program on a system, which may exit early with a code. -/
abbrev Program (m : Type → Type) (α : Type) := ExceptT Nat m α

namespace Program

variable {m : Type → Type} [Monad m] [Host m] {α : Type}

instance : Host (Program m) where
  readFile path := ExceptT.lift (Host.readFile path)
  writeFile path text := ExceptT.lift (Host.writeFile path text)
  print text := ExceptT.lift (Host.print text)
  eprint text := ExceptT.lift (Host.eprint text)
  log line := ExceptT.lift (Host.log line)

/-! ## Messages -/

/-- Prints a line. -/
def println (line : String) : Program m Unit := Host.print (line ++ "\n")

/-- Writes a line to the standard error. -/
def eprintln (line : String) : Program m Unit := Host.eprint (line ++ "\n")

/-- Notes a line in the log if that has been asked for. -/
def debug (settings : Settings) (line : String) : Program m Unit :=
  if settings.verbose then Host.log line else pure ()

/-- Reports an error, unless the command is to be quiet. -/
def reportError (settings : Settings) (message : String) : Program m Unit :=
  if settings.quiet then pure ()
  else
    match settings.format with
    | .text => eprintln message
    | .json => eprintln (Json.obj [("error", .str message)]).compact

/-- Exits with a code. -/
def exit (code : Nat) : Program m α := throw code

/-- Reports a complaint and exits. -/
def fail (settings : Settings) (complaint : Complaint) : Program m α := do
  reportError settings complaint.message
  exit 1

/-! ## Documents -/

/-- Reads a JSON document. -/
def readJson (settings : Settings) (path : String) : Program m Json := do
  match ← Host.readFile path with
  | .error detail => fail settings (.unreadable path detail)
  | .ok text =>
    match Json.ofString? text with
    | some value => return value
    | none => fail settings (.malformed path "not a JSON text")

/-- Loads a store, without verification. -/
def loadStore (settings : Settings) (path : String) : Program m Store := do
  let document ← readJson settings path
  match Store.ofJson? false document with
  | some store =>
    debug settings ("loaded store " ++ path ++ ": " ++ Nat.repr store.configs.size ++ " entities")
    return store
  | none => fail settings (.notStore path "not a store")

/-- Loads a body. -/
def loadBody (settings : Settings) (path : String) : Program m Body := do
  let document ← readJson settings path
  match Body.ofJson document with
  | .ok body => return body
  | .error error => fail settings (.badBody path error)

/-- Writes the document of a store to a file. -/
def writeStore (store : Store) (path : String) : Program m (Except Complaint Unit) := do
  match ← Host.writeFile path (store.toJson.pretty ++ "\n") with
  | .ok () => return .ok ()
  | .error detail => return .error (.unwritable path detail)

/-! ## Answers -/

/-- Prints a difference, unless the command is to be quiet. -/
def printDiff (settings : Settings) (diff : EntityDiff) : Program m Unit :=
  if settings.quiet then pure ()
  else
    match settings.format with
    | .text => println diff.summary
    | .json => println diff.toJson.pretty

/-- Writes a store to a file and prints the difference, or prints the store. -/
def emitStore (settings : Settings) (store : Store) (diff : EntityDiff) (out : Option String) :
    Program m Unit := do
  match out with
  | some path =>
    match ← writeStore store path with
    | .ok () => printDiff settings diff
    | .error complaint => fail settings complaint
  | none => println store.toJson.pretty

/-- Prints the report of an entity line by line. -/
def printReport (report : Report) : Program m Unit := do
  if report.isConsistent then println (report.entity ++ ": consistent")
  else
    println (report.entity ++ ": " ++ Nat.repr report.violations.length ++ " violation(s)")
    report.violations.forM fun violation => println ("  - " ++ violation.message)
  report.staleDependencies.forM fun name => println ("  ! stale dependency '" ++ name ++ "'")

/-- Prints all reports, unless the command is to be quiet. -/
def printReports (settings : Settings) (reports : List Report) : Program m Unit :=
  if settings.quiet then pure ()
  else
    match settings.format with
    | .text => reports.forM printReport
    | .json =>
      println (Json.obj [("consistent", .bool (reports.all (·.isConsistent))),
        ("entities", .arr (reports.map Report.toJson))]).pretty

/-- Prints that a document is valid, unless the command is to be quiet. -/
def printValid (settings : Settings) : Program m Unit :=
  if settings.quiet then pure ()
  else
    match settings.format with
    | .text => println "valid"
    | .json => println "\x7b\"valid\": true\x7d"

/-- Reports the faults of a document. Their document is written even if the command is to be
quiet. -/
def reportFaults (settings : Settings) (faults : List SchemaFault) : Program m Unit :=
  match settings.format with
  | .text =>
    if settings.quiet then pure ()
    else do
      eprintln "invalid store"
      faults.forM fun fault => eprintln ("  - " ++ fault.message)
  | .json =>
    eprintln (Json.obj [("valid", .bool false),
      ("errors", .arr (faults.map fun fault => .str fault.message))]).pretty

/-! ## Commands -/

/-- Shows the difference between a body and an entity. -/
def diff (settings : Settings) (store body entity : String) : Program m Unit := do
  let kept ← loadStore settings store
  let parsed ← loadBody settings body
  let record := (kept.record? entity).getD (Record.new entity)
  let members := (kept.tree? entity).getD ∅
  match EntityState.diff ⟨record, members⟩ parsed with
  | .ok diff => printDiff settings diff
  | .error error => fail settings (.refused .diff error)

/-- Brings an entity in line with a body. -/
def sync (settings : Settings) (store body entity : String) (out : Option String)
    (verify : Bool) : Program m Unit := do
  let loaded ← loadStore settings store
  let kept := { loaded with verify := verify }
  let parsed ← loadBody settings body
  match (Session.reconcile entity parsed).on kept with
  | (.ok diff, next) =>
    debug settings ("reconciled entity " ++ diff.headline)
    emitStore settings next diff out
  | (.error error, _) => fail settings (.refused .sync error)

/-- Removes all members of an entity. -/
def clear (settings : Settings) (store entity : String) (out : Option String) :
    Program m Unit := do
  let loaded ← loadStore settings store
  let kept := { loaded with verify := true }
  match (Session.clear entity).on kept with
  | (.ok (some diff), next) =>
    debug settings ("reconciled entity " ++ diff.headline)
    emitStore settings next diff out
  | (.ok none, _) => fail settings (.untracked entity store)
  | (.error error, _) => fail settings (.refused .clear error)

/-- Shows whether the entities are consistent, and exits with a code if they are not. -/
def check (settings : Settings) (store : String) : Program m Unit := do
  let kept ← loadStore settings store
  let reports := kept.inspectAll
  printReports settings reports
  if reports.all (·.isConsistent) then pure () else exit 1

/-- Shows whether a document has the form of a store, and exits with a code if it has not. -/
def validate (settings : Settings) (store : String) : Program m Unit := do
  let document ← readJson settings store
  let faults := Schema.storeDocument.faults [] document
  if faults.isEmpty then printValid settings
  else
    reportFaults settings faults
    exit 1

end Program

/-- The program of a command. -/
def Command.program {m : Type → Type} [Monad m] [Host m] (settings : Settings) :
    Command → Program m Unit
  | .diff store body entity => Program.diff settings store body entity
  | .sync store body entity out verify => Program.sync settings store body entity out verify
  | .clear store entity out => Program.clear settings store entity out
  | .check store => Program.check settings store
  | .validate store => Program.validate settings store

/-- Runs the program of a command and gives the exit code, which is zero if the program comes to its
end. -/
def Command.exitCode {m : Type → Type} [Monad m] [Host m] (settings : Settings)
    (command : Command) : m Nat := do
  match ← (command.program settings).run with
  | .ok () => return 0
  | .error code => return code

/-- The exit code of a command on a disk, and the machine that it leaves. -/
def Command.execute (settings : Settings) (command : Command) (disk : Disk) : Nat × Machine :=
  (command.exitCode settings : StateM Machine Nat).run (.start disk)

end Cli

end ScriptStore
