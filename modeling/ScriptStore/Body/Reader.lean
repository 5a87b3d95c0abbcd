import ScriptStore.Body.Validation

/-!
# Reading a parser's output

A body is read from the JSON form that parsers give. Absent and null lists are empty, an absent
value is null, and a null default value is no default. The first structural fault in the order
of the document is reported with its place; only a body without structural faults has its names
checked.
-/

namespace ScriptStore

namespace Body

/-! ## Fields -/

/-- The text of a required field. -/
def readText (path : FieldPath) (key : String) (value : Json) : Except BodyError String :=
  match value.field? key with
  | none | some .null => .error ⟨path ++ [.key key], .missing⟩
  | some (.str text) => .ok text
  | some _ => .error ⟨path ++ [.key key], .wrongType .string⟩

/-- The items of an optional list. -/
def readItems (path : FieldPath) (key : String) (value : Json) : Except BodyError (List Json) :=
  match value.field? key with
  | none | some .null => .ok []
  | some (.arr items) => .ok items
  | some _ => .error ⟨path ++ [.key key], .wrongType .array⟩

/-- Demands an object. -/
def readObject (path : FieldPath) : Json → Except BodyError Unit
  | .obj _ => .ok ()
  | _ => .error ⟨path, .wrongType .object⟩

/-- Reads the items of a list one after the other, from a position on. -/
def readEach {α : Type} (read : FieldPath → Json → Except BodyError α) (path : FieldPath) :
    Nat → List Json → Except BodyError (List α)
  | _, [] => .ok []
  | position, item :: rest => do
    let first ← read (path ++ [.index position]) item
    let others ← readEach read path (position + 1) rest
    return first :: others

/-- Reads each item of an optional list. -/
def readList {α : Type} (read : FieldPath → Json → Except BodyError α) (path : FieldPath)
    (key : String) (value : Json) : Except BodyError (List α) := do
  let items ← readItems path key value
  readEach read (path ++ [.key key]) 0 items

/-! ## Declarations -/

/-- Reads an argument of a function. -/
def readArgument (path : FieldPath) (value : Json) : Except BodyError Argument := do
  readObject path value
  let name ← readText path "name" value
  return ⟨name, (value.field? "value").filter (!·.isNull)⟩

/-- Reads a function. -/
def readFunction (path : FieldPath) (value : Json) : Except BodyError FunctionDecl := do
  readObject path value
  let name ← readText path "name" value
  let source ← readText path "body" value
  let arguments ← readList readArgument path "arguments" value
  return ⟨name, source, arguments⟩

/-- Reads a variable. -/
def readVariable (path : FieldPath) (value : Json) : Except BodyError VariableDecl := do
  readObject path value
  let name ← readText path "name" value
  return ⟨name, (value.field? "value").getD .null⟩

/-! ## Bodies -/

/-- Reads a body without a check of its names. -/
def readStructure (value : Json) : Except BodyError Body := do
  readObject [] value
  let functions ← readList readFunction [] "actions" value
  let vars ← readList readVariable [] "variables" value
  return ⟨functions, vars⟩

/-- Reads a body and checks its names. -/
def ofJson (value : Json) : Except BodyError Body := do
  let body ← readStructure value
  body.validate
  return body

end Body

end ScriptStore
