import ScriptStore.Body.Reader
import ScriptStore.Cli.Complaint
import ScriptStore.Document.Decode
import ScriptStore.Document.Encode
import ScriptStore.Json.Reader
import ScriptStore.Schema.StoreDocument

/-!
# Findings of commands

What a command finds depends on the texts of its files only. How a finding is shown depends on
the settings; whether it is a success, and what is saved, does not.
-/

namespace ScriptStore

namespace Cli

/-! ## Findings -/

/-- What a command finds. -/
inductive Finding where
  /-- The difference between a body and an entity. -/
  | compared (diff : EntityDiff)
  /-- A store after a pass, to be shown or to be saved at a path. -/
  | updated (store : Store) (diff : EntityDiff) (out : Option String)
  /-- The reports of a store. -/
  | inspected (reports : List Report)
  /-- A document has the form of a store. -/
  | valid
  | failed (complaint : Complaint)
  deriving DecidableEq

/-- The text of each file, or why it cannot be read. -/
abbrev Files := String → Except String String

/-! ## Documents -/

/-- The JSON value in a file. -/
def readJson (files : Files) (path : String) : Except Complaint Json :=
  match files path with
  | .error detail => .error (.unreadable path detail)
  | .ok text =>
    match Json.ofString? text with
    | some value => .ok value
    | none => .error (.malformed path "not a JSON text")

/-- The store in a file. -/
def readStore (files : Files) (verify : Bool) (path : String) : Except Complaint Store := do
  let document ← readJson files path
  match Store.ofJson? verify document with
  | some store => return store
  | none => throw (.notStore path "not a store")

/-- The body in a file. -/
def readBody (files : Files) (path : String) : Except Complaint Body := do
  let document ← readJson files path
  match Body.ofJson document with
  | .ok body => return body
  | .error error => throw (.badBody path error)

/-- The result of a pass, or the complaint that it was refused. -/
def orRefused {α : Type} (purpose : Purpose) : Except SyncError α → Except Complaint α
  | .ok value => .ok value
  | .error error => .error (.refused purpose error)

/-! ## Commands -/

/-- The state that a difference is taken from: the record kept under the name of the entity or
an empty one, with the members that are there. -/
def comparedState (store : Store) (entity : String) : EntityState :=
  ⟨(store.record? entity).getD (Record.new entity), store.members entity⟩

/-- Compares a body with an entity. -/
def findDiff (files : Files) (store body entity : String) : Except Complaint Finding := do
  let kept ← readStore files false store
  let parsed ← readBody files body
  let diff ← orRefused .diff ((comparedState kept entity).diff parsed)
  return .compared diff

/-- Brings an entity in line with a body. -/
def findSync (files : Files) (store body entity : String) (out : Option String)
    (verify : Bool) : Except Complaint Finding := do
  let kept ← readStore files verify store
  let parsed ← readBody files body
  let (diff, next) ← orRefused .sync (kept.reconcile entity parsed)
  return .updated next diff out

/-- Clears an entity; the outcome is always verified. -/
def findClear (files : Files) (store entity : String) (out : Option String) :
    Except Complaint Finding := do
  let kept ← readStore files true store
  match ← orRefused .clear (kept.clear entity) with
  | (some diff, next) => return .updated next diff out
  | (none, _) => throw (.untracked entity store)

/-- Inspects all entities. -/
def findCheck (files : Files) (store : String) : Except Complaint Finding := do
  let kept ← readStore files false store
  return .inspected kept.inspectAll

/-- Checks a document against the schema of stores. -/
def findValidate (files : Files) (store : String) : Except Complaint Finding := do
  let document ← readJson files store
  match Schema.storeDocument.faults [] document with
  | [] => return .valid
  | faults => throw (.invalid faults)

/-- What a command finds, or its complaint. -/
def Command.find? (files : Files) : Command → Except Complaint Finding
  | .diff store body entity => findDiff files store body entity
  | .sync store body entity out verify => findSync files store body entity out verify
  | .clear store entity out => findClear files store entity out
  | .check store => findCheck files store
  | .validate store => findValidate files store

/-- What a command finds, a complaint included. -/
def Command.find (command : Command) (files : Files) : Finding :=
  match command.find? files with
  | .ok finding => finding
  | .error complaint => .failed complaint

namespace Finding

/-! ## Consequences -/

/-- The complaint of a failure. -/
def complaint? : Finding → Option Complaint
  | .failed complaint => some complaint
  | _ => none

/-- Whether the command succeeds. Inspection succeeds when all entities are consistent. -/
def succeeds : Finding → Bool
  | .inspected reports => reports.all (·.isConsistent)
  | .failed _ => false
  | _ => true

/-- The text of a store as it is shown and saved. -/
def storeText (store : Store) : String := store.toJson.pretty ++ "\n"

/-- The path and the text that are saved. -/
def saved? : Finding → Option (String × String)
  | .updated store _ (some path) => some (path, storeText store)
  | _ => none

/-! ## Showing -/

/-- A difference as it is shown. -/
def diffText (settings : Settings) (diff : EntityDiff) : String :=
  if settings.quiet then ""
  else
    match settings.format with
    | .text => diff.summary ++ "\n"
    | .json => diff.toJson.pretty ++ "\n"

/-- The first line about an entity. -/
def reportHeadline (report : Report) : String :=
  if report.isConsistent then report.entity ++ ": consistent"
  else report.entity ++ ": " ++ Nat.repr report.violations.length ++ " violation(s)"

/-- The lines about an entity. -/
def reportLines (report : Report) : List String :=
  reportHeadline report ::
    (report.violations.map (fun violation => "  - " ++ violation.message) ++
      report.staleDependencies.map fun name => "  ! stale dependency '" ++ name ++ "'")

/-- The document about all entities. -/
def reportsDocument (reports : List Report) : Json :=
  .obj [("consistent", .bool (reports.all (·.isConsistent))),
    ("entities", .arr (reports.map Report.toJson))]

/-- Reports as they are shown. -/
def reportsText (settings : Settings) (reports : List Report) : String :=
  if settings.quiet then ""
  else
    match settings.format with
    | .text => Complaint.lines (reports.flatMap reportLines)
    | .json => (reportsDocument reports).pretty ++ "\n"

/-- The news that a document is valid as it is shown. -/
def validText (settings : Settings) : String :=
  if settings.quiet then ""
  else
    match settings.format with
    | .text => "valid\n"
    | .json => "\x7b\"valid\": true\x7d\n"

/-- What is shown of a finding. A store that is not saved is shown whatever the settings. -/
def shown (settings : Settings) : Finding → String
  | .compared diff => diffText settings diff
  | .updated store _ none => storeText store
  | .updated _ diff (some _) => diffText settings diff
  | .inspected reports => reportsText settings reports
  | .valid => validText settings
  | .failed _ => ""

end Finding

end Cli

end ScriptStore
