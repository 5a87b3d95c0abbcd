import ScriptStore.FieldPath
import ScriptStore.Json.Basic

/-!
# Schemas of documents

A schema says what form a document has. Where a document departs from it, each departure is one
fault with its place: a value of the wrong type has this one fault only, an object may lack
several required fields, and undeclared fields of a closed object are one fault together.
-/

namespace ScriptStore

/-! ## Schemas -/

/-- The form of a document. -/
inductive Schema where
  /-- Every value. -/
  | any
  | boolean
  /-- Every string, or every string that is not empty. -/
  | string (nonEmpty : Bool)
  /-- One of these strings. -/
  | label (allowed : List String)
  /-- An array of items of one form. -/
  | array (items : Schema)
  /-- An object with required fields and with a form for each declared field. The form of all
  other fields is `rest`; without one there must be no other fields. -/
  | object (required : List String) (properties : List (String × Schema)) (rest : Option Schema)
  /-- A value of exactly one of these forms. -/
  | exactlyOne (alternatives : List Schema)

/-! ## Faults -/

/-- How a value departs from its form. -/
inductive SchemaDeparture where
  | wrongType
  | emptyText
  | notAllowed
  | lacksField (key : String)
  | undeclaredFields
  | noSingleForm
  deriving DecidableEq, Repr

/-- A departure and its place. -/
structure SchemaFault where
  path : FieldPath
  departure : SchemaDeparture
  deriving DecidableEq, Repr

/-- What is said about a departure. -/
def SchemaDeparture.phrase : SchemaDeparture → String
  | .wrongType => "has the wrong type"
  | .emptyText => "is empty"
  | .notAllowed => "is not an allowed value"
  | .lacksField key => "lacks the field '" ++ key ++ "'"
  | .undeclaredFields => "has undeclared fields"
  | .noSingleForm => "does not have exactly one of the possible forms"

/-- The message of a fault. -/
def SchemaFault.message (fault : SchemaFault) : String :=
  fault.path.render ++ " " ++ fault.departure.phrase

namespace Schema

/-! ## Checking -/

/-- The faults of a string, if it must be non-empty. -/
def textFaults (path : FieldPath) (nonEmpty : Bool) : Json → List SchemaFault
  | .str s => if nonEmpty ∧ s = "" then [⟨path, .emptyText⟩] else []
  | _ => [⟨path, .wrongType⟩]

/-- The faults of a value that must be one of these strings. -/
def labelFaults (path : FieldPath) (allowed : List String) : Json → List SchemaFault
  | .str s => if s ∈ allowed then [] else [⟨path, .notAllowed⟩]
  | _ => [⟨path, .notAllowed⟩]

/-- The required fields that are missing. -/
def missingFields (path : FieldPath) (required : List String) (fields : List (String × Json)) :
    List SchemaFault :=
  (required.filter (· ∉ Entries.keys fields)).map fun key => ⟨path, .lacksField key⟩

/-- The fields without a form of their own. -/
def otherFields (properties : List (String × Schema)) (fields : List (String × Json)) :
    List (String × Json) :=
  fields.filter (·.1 ∉ Entries.keys properties)

/-- The faults of items, each with its position, where `check` gives the faults of one. -/
def itemFaults (check : FieldPath → Json → List SchemaFault) (path : FieldPath)
    (items : List Json) : List SchemaFault :=
  items.zipIdx.flatMap fun (item, position) => check (path ++ [.index position]) item

/-- The faults of fields, where `check` gives the faults of one value. -/
def fieldFaults (check : FieldPath → Json → List SchemaFault) (path : FieldPath)
    (fields : List (String × Json)) : List SchemaFault :=
  fields.flatMap fun (key, value) => check (path ++ [.key key]) value

mutual
/-- The faults of a value at a place. -/
def faults : Schema → FieldPath → Json → List SchemaFault
  | .any, _, _ => []
  | .boolean, path, value =>
    match value with
    | .bool _ => []
    | _ => [⟨path, .wrongType⟩]
  | .string nonEmpty, path, value => textFaults path nonEmpty value
  | .label allowed, path, value => labelFaults path allowed value
  | .array items, path, value =>
    match value with
    | .arr values => itemFaults (fun place item => faults items place item) path values
    | _ => [⟨path, .wrongType⟩]
  | .object required properties rest, path, value =>
    match value with
    | .obj fields =>
      missingFields path required fields ++ propertyFaults properties path fields ++
        restFaults rest path (otherFields properties fields)
    | _ => [⟨path, .wrongType⟩]
  | .exactlyOne alternatives, path, value =>
    if countForms alternatives path value = 1 then [] else [⟨path, .noSingleForm⟩]

/-- The faults of the declared fields of an object. -/
def propertyFaults : List (String × Schema) → FieldPath → List (String × Json) → List SchemaFault
  | [], _, _ => []
  | (key, form) :: others, path, fields =>
    (match Entries.get? key fields with
      | some value => faults form (path ++ [.key key]) value
      | none => []) ++ propertyFaults others path fields

/-- The faults of the fields that are not declared. -/
def restFaults : Option Schema → FieldPath → List (String × Json) → List SchemaFault
  | some form, path, fields => fieldFaults (fun place value => faults form place value) path fields
  | none, path, fields => if fields.isEmpty then [] else [⟨path, .undeclaredFields⟩]

/-- How many of these forms a value has. -/
def countForms : List Schema → FieldPath → Json → Nat
  | [], _, _ => 0
  | form :: others, path, value =>
    (if (faults form path value).isEmpty then 1 else 0) + countForms others path value
end

/-- Whether a document has the form of a schema. -/
def accepts (schema : Schema) (document : Json) : Bool := (schema.faults [] document).isEmpty

end Schema

end ScriptStore
