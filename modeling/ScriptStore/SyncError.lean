import ScriptStore.Body.Validation
import ScriptStore.Consistency

/-!
# Failures of a pass

Why a pass over an entity is refused. A refused pass leaves everything as it was.
-/

namespace ScriptStore

/-- The reason why a pass is refused. -/
inductive SyncError where
  /-- The body of an entity has an offending name. -/
  | malformedBody (entity : String) (error : BodyError)
  /-- The tables of an entity disagree. -/
  | inconsistent (entity : String) (violation : Violation)
  /-- A result was reported for a function that the entity does not have. -/
  | unknownFunction (entity function : String)
  deriving DecidableEq, Repr

/-- The message of a failure. -/
def SyncError.message : SyncError → String
  | .malformedBody entity error =>
    "malformed parsed body for entity '" ++ entity ++ "': " ++ error.message
  | .inconsistent entity violation =>
    "inconsistent state for entity '" ++ entity ++ "': " ++ violation.message
  | .unknownFunction entity function =>
    "entity '" ++ entity ++ "' has no function '" ++ function ++ "'"

/-- Accepts a consistent entity and reports the first violation of any other. -/
def EntityState.check (state : EntityState) : Except SyncError Unit :=
  match state.violations with
  | [] => .ok ()
  | violation :: _ => .error (.inconsistent state.record.name violation)

end ScriptStore
