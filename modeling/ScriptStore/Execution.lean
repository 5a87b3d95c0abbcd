import ScriptStore.Json.Basic

/-!
# Results of executions

The result of executing a function is captured as a JSON value. A result that is not finite is
captured as `null`; one that cannot be represented at all is captured as `null` too, and the
failure is noted. Capturing never fails.
-/

namespace ScriptStore

/-! ## Results -/

/-- What the execution of a function gives. -/
inductive ExecutionResult where
  | value (value : Json)
  /-- A number that is infinite or no number. -/
  | notFinite
  /-- A result that has no JSON form. -/
  | unrepresentable
  deriving DecidableEq

/-- The value that is stored for a result. -/
def ExecutionResult.data : ExecutionResult → Json
  | .value captured => captured
  | .notFinite => .null
  | .unrepresentable => .null

/-! ## Captured executions -/

/-- A captured execution: what was executed, what is stored, and what went wrong. -/
structure Execution where
  name : String
  data : Json
  failure : Option String
  deriving DecidableEq

/-- The note on a result that has no JSON form. -/
def unrepresentableNote (name : String) : String :=
  "Execution of " ++ name ++ " returned an unserializable data"

/-- Captures a result under the name of what was executed. -/
def Execution.capture (name : String) (result : ExecutionResult) : Execution :=
  ⟨name, result.data, if result = .unrepresentable then some (unrepresentableNote name) else none⟩

end ScriptStore
