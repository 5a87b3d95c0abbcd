import ScriptStore.Store.Basic

/-!
# Reading documents of stores

Every stored type is read from its JSON form, and nothing is checked beyond the form. A value
with named fields is read from an object, where unknown fields are passed over, or from an array
of its fields in their order. Some fields may be missing and have a default; a null is a missing
value nowhere but in the default value of an argument.
-/

namespace ScriptStore

/-! ## Forms -/

namespace Json

/-- The fields of a value whose fields have these names: those of an object, or the items of an
array by position. An array with more items than names has no fields. -/
def namedFields? (names : List String) : Json → Option (List (String × Json))
  | .obj fields => some fields
  | .arr items => if items.length ≤ names.length then some (names.zip items) else none
  | _ => none

/-- A required field. -/
def require? {α : Type} (read : Json → Option α) (key : String)
    (fields : List (String × Json)) : Option α :=
  (Entries.get? key fields).bind read

/-- A field with a default. -/
def requireOr? {α : Type} (default : α) (read : Json → Option α) (key : String)
    (fields : List (String × Json)) : Option α :=
  match Entries.get? key fields with
  | some value => read value
  | none => some default

/-- The text of a string. -/
def toText? : Json → Option String
  | .str s => some s
  | _ => none

/-- The truth value. -/
def toBool? : Json → Option Bool
  | .bool b => some b
  | _ => none

/-- Each item of an array. -/
def toList? {α : Type} (read : Json → Option α) : Json → Option (List α)
  | .arr items => items.mapM read
  | _ => none

/-- A field with its value read. -/
def readField? {α : Type} (read : Json → Option α) (field : String × Json) :
    Option (String × α) :=
  (read field.2).map fun value => (field.1, value)

/-- Each field of an object, in order. -/
def toMap? {α : Type} (read : Json → Option α) : Json → Option (OrderedMap α)
  | .obj fields => (fields.mapM (readField? read)).map OrderedMap.ofList
  | _ => none

end Json

/-! ## Bodies -/

/-- An argument; a null default value is no default value. -/
def Argument.ofJson? (value : Json) : Option Argument := do
  let fields ← value.namedFields? ["name", "value"]
  let name ← Json.require? Json.toText? "name" fields
  return ⟨name, (Entries.get? "value" fields).filter (!·.isNull)⟩

/-- Arguments in order. -/
def argumentsOfJson? (value : Json) : Option (List Argument) := value.toList? Argument.ofJson?

/-- A declared function. -/
def FunctionDecl.ofJson? (value : Json) : Option FunctionDecl := do
  let fields ← value.namedFields? ["name", "body", "arguments"]
  let name ← Json.require? Json.toText? "name" fields
  let source ← Json.require? Json.toText? "body" fields
  let arguments ← Json.requireOr? [] argumentsOfJson? "arguments" fields
  return ⟨name, source, arguments⟩

/-- A declared variable. -/
def VariableDecl.ofJson? (value : Json) : Option VariableDecl := do
  let fields ← value.namedFields? ["name", "value"]
  let name ← Json.require? Json.toText? "name" fields
  return ⟨name, (Entries.get? "value" fields).getD .null⟩

/-- A body, without a check of its names. -/
def Body.ofDocument? (value : Json) : Option Body := do
  let fields ← value.namedFields? ["actions", "variables"]
  let functions ← Json.requireOr? [] (Json.toList? FunctionDecl.ofJson?) "actions" fields
  let vars ← Json.requireOr? [] (Json.toList? VariableDecl.ofJson?) "variables" fields
  return ⟨functions, vars⟩

/-! ## Records -/

/-- The metadata of a function. -/
def FunctionMeta.ofJson? (value : Json) : Option FunctionMeta := do
  let fields ← value.namedFields? ["arguments", "isAsync", "confirmBeforeExecute"]
  let arguments ← Json.require? argumentsOfJson? "arguments" fields
  let isAsync ← Json.require? Json.toBool? "isAsync" fields
  let confirm ← Json.require? Json.toBool? "confirmBeforeExecute" fields
  return ⟨arguments, isAsync, confirm⟩

/-- The substitution of a name. -/
def Substitution.ofLabel? (label : String) : Option Substitution :=
  [smart, template].find? (·.label = label)

/-- A substitution: its name, or an object whose one field has that name and is null. -/
def Substitution.ofJson? : Json → Option Substitution
  | .str label => ofLabel? label
  | .obj [(label, .null)] => ofLabel? label
  | _ => none

/-- A dynamic binding path. -/
def bindingPathOfJson? (value : Json) : Option String := do
  let fields ← value.namedFields? ["key"]
  Json.require? Json.toText? "key" fields

/-- A list of strings. -/
def stringsOfJson? (value : Json) : Option (List String) := value.toList? Json.toText?

/-- The names of the fields of a record. -/
def Record.fieldNames : List String :=
  ["name", "variables", "functions", "reactivePaths", "dynamicBindingPathList", "dependencyMap"]

/-- A record; all fields but the name have the defaults of a new record. -/
def Record.ofJson? (value : Json) : Option Record := do
  let fields ← value.namedFields? Record.fieldNames
  let name ← Json.require? Json.toText? "name" fields
  let vars ← Json.requireOr? [] stringsOfJson? "variables" fields
  let functions ← Json.requireOr? ∅ (Json.toMap? FunctionMeta.ofJson?) "functions" fields
  let paths ← Json.requireOr? ∅ (Json.toMap? Substitution.ofJson?) "reactivePaths" fields
  let bindings ←
    Json.requireOr? [] (Json.toList? bindingPathOfJson?) "dynamicBindingPathList" fields
  let dependencies ←
    Json.requireOr? DependencyMap.initial (Json.toMap? stringsOfJson?) "dependencyMap" fields
  return ⟨name, vars, functions, paths, bindings, dependencies⟩

/-! ## Members and stores -/

/-- A function from its fields; the data of a function that was never executed may be missing. -/
def Member.functionOfFields? (fields : List (String × Json)) : Option Member := do
  let source ← Json.require? Json.toText? "body" fields
  return .function source ((Entries.get? "data" fields).getD emptyData)

/-- A variable from its fields. -/
def Member.variableOfFields? (fields : List (String × Json)) : Option Member :=
  some (.var ((Entries.get? "value" fields).getD .null))

/-- A member of a kind, from the value that holds its other fields. -/
def Member.ofKind? (kind : String) (value : Json) : Option Member :=
  if kind = "function" then (value.namedFields? ["body", "data"]).bind functionOfFields?
  else if kind = "variable" then (value.namedFields? ["value"]).bind variableOfFields?
  else none

/-- A member: an object with its kind among its fields, or an array that starts with the
kind. -/
def Member.ofJson? : Json → Option Member
  | .obj fields => do
    let kind ← Json.require? Json.toText? "kind" fields
    ofKind? kind (.obj fields)
  | .arr (.str kind :: items) => ofKind? kind (.arr items)
  | _ => none

/-- The members of an entity. -/
def MemberTree.ofJson? (value : Json) : Option MemberTree := value.toMap? Member.ofJson?

/-- The members of all entities. -/
def Forest.ofJson? (value : Json) : Option Forest := value.toMap? MemberTree.ofJson?

/-- A store; documents do not say whether it verifies. -/
def Store.ofJson? (verify : Bool) (value : Json) : Option Store := do
  let fields ← value.namedFields? ["configs", "tree"]
  let configs ← Json.requireOr? ∅ (Json.toMap? Record.ofJson?) "configs" fields
  let trees ← Json.requireOr? ∅ Forest.ofJson? "tree" fields
  return ⟨configs, trees, verify⟩

end ScriptStore
