import ScriptStore.Cli.Command
import ScriptStore.Json.Writer
import ScriptStore.Schema.Basic
import ScriptStore.SyncError

/-!
# Complaints

Why a command did not do what was asked, and how that is written. What the operating system or a
reader has to add is a detail at the end of the message.
-/

namespace ScriptStore

namespace Cli

/-! ## Causes -/

/-- What a pass over an entity was to do. -/
inductive Purpose where
  | diff
  | sync
  | clear
  deriving DecidableEq, Repr

/-- The name of a purpose. -/
def Purpose.label : Purpose → String
  | .diff => "diff"
  | .sync => "sync"
  | .clear => "clear"

/-- Why a command fails. -/
inductive Complaint where
  | unreadable (path detail : String)
  /-- A file that holds no JSON text. -/
  | malformed (path detail : String)
  /-- A JSON text that is no document of a store. -/
  | notStore (path detail : String)
  | badBody (path : String) (error : BodyError)
  | refused (purpose : Purpose) (error : SyncError)
  | untracked (entity path : String)
  | unwritable (path detail : String)
  /-- A document that departs from the schema. -/
  | invalid (faults : List SchemaFault)
  deriving DecidableEq, Repr

namespace Complaint

/-- The same complaint with another detail. -/
def withDetail (detail : String) : Complaint → Complaint
  | .unreadable path _ => .unreadable path detail
  | .malformed path _ => .malformed path detail
  | .notStore path _ => .notStore path detail
  | .unwritable path _ => .unwritable path detail
  | other => other

/-! ## Wording -/

/-- A path in quotes. -/
def quoted (path : String) : String := "'" ++ path ++ "'"

/-- The message of a complaint. -/
def message : Complaint → String
  | .unreadable path detail => "error reading " ++ quoted path ++ ": " ++ detail
  | .malformed path detail => "error parsing JSON in " ++ quoted path ++ ": " ++ detail
  | .notStore path detail => "invalid store document " ++ quoted path ++ ": " ++ detail
  | .badBody path error => "invalid parsed body " ++ quoted path ++ ": " ++ error.message
  | .refused purpose error => purpose.label ++ " error: " ++ error.message
  | .untracked entity path => "entity " ++ quoted entity ++ " is not tracked in " ++ quoted path
  | .unwritable path detail => "error writing " ++ quoted path ++ ": " ++ detail
  | .invalid _ => "invalid store"

/-- The document that lists the faults of an invalid document. -/
def faultDocument (faults : List SchemaFault) : Json :=
  .obj [("valid", .bool false),
    ("errors", .arr (faults.map fun fault => .str fault.message))]

/-- The lines that list the faults of an invalid document. -/
def faultLines (faults : List SchemaFault) : List String :=
  faults.map fun fault => "  - " ++ fault.message

/-- Lines of text, each with a line break. -/
def lines (texts : List String) : String := String.join (texts.map (· ++ "\n"))

/-- What is written about a complaint. With `quiet` it is nothing, except for the faults of an
invalid document in JSON. -/
def render (settings : Settings) (complaint : Complaint) : String :=
  match complaint, settings.format with
  | .invalid faults, .json => (faultDocument faults).pretty ++ "\n"
  | .invalid faults, .text =>
    if settings.quiet then "" else lines (complaint.message :: faultLines faults)
  | _, .json =>
    if settings.quiet then "" else (Json.obj [("error", .str complaint.message)]).compact ++ "\n"
  | _, .text => if settings.quiet then "" else complaint.message ++ "\n"

end Complaint

end Cli

end ScriptStore
