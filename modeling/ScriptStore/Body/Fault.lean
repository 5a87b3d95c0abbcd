import ScriptStore.FieldPath

/-!
# Faults of parsed bodies

A fault is what is wrong at one place of a body. Fault and place are kept as data and written out
only in `BodyError.message`.
-/

namespace ScriptStore

/-! ## Faults -/

/-- The types that a body needs at its places. -/
inductive ExpectedType where
  | object
  | array
  | string
  deriving DecidableEq, Repr

/-- What is wrong at a place. -/
inductive BodyFault where
  /-- A required field is absent or null. -/
  | missing
  /-- The value has another type. -/
  | wrongType (expected : ExpectedType)
  /-- A name is empty. -/
  | empty
  /-- A name is declared before. -/
  | duplicate (name : String)
  /-- A name contains the separator of paths. -/
  | pathSeparator (name : String)
  deriving DecidableEq, Repr

/-- A fault and its place. -/
structure BodyError where
  path : FieldPath
  fault : BodyFault
  deriving DecidableEq, Repr

/-! ## Wording -/

/-- The name of a type with its article. -/
def ExpectedType.phrase : ExpectedType → String
  | .object => "an object"
  | .array => "an array"
  | .string => "a string"

/-- What is said about the field of a fault. -/
def BodyFault.phrase : BodyFault → String
  | .missing => "is missing"
  | .wrongType expected => "must be " ++ expected.phrase
  | .empty => "must not be empty"
  | .duplicate name => "repeats name '" ++ name ++ "'"
  | .pathSeparator name => "has name '" ++ name ++ "' containing a path separator"

namespace BodyError

/-- The place of the fault as it is shown. -/
def field (error : BodyError) : String := error.path.render

/-- The message of a fault. -/
def message (error : BodyError) : String :=
  "parsed body field '" ++ error.field ++ "' " ++ error.fault.phrase

end BodyError

end ScriptStore
