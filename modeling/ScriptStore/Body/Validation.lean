import ScriptStore.Body.Basic
import ScriptStore.Body.Fault

/-!
# Names of a parsed body

Names of functions and variables become segments of paths. They must not be empty, must not
contain the separator of paths, and may be declared once only, across functions and variables.
Names of arguments must not be empty. The first offender is reported: functions come before
variables and both before arguments.
-/

namespace ScriptStore

/-! ## Single names -/

/-- The character that separates the segments of a path. -/
def pathSeparator : Char := '.'

/-- What is wrong with a declared name after the names declared before it. -/
def nameFault? (before : List String) (name : String) : Option BodyFault :=
  if name = "" then some .empty
  else if pathSeparator ∈ name.toList then some (.pathSeparator name)
  else if name ∈ before then some (.duplicate name)
  else none

/-- What is wrong with the name of an argument. -/
def argumentFault? (name : String) : Option BodyFault :=
  if name = "" then some .empty else none

/-! ## Places of names -/

/-- A name and its place. -/
abbrev PlacedName := FieldPath × String

namespace Body

/-- The place of the name of a member of a list. -/
def namePath (list : String) (position : Nat) : FieldPath :=
  [.key list, .index position, .key "name"]

/-- The place of the name of an argument. -/
def argumentPath (position argument : Nat) : FieldPath :=
  [.key "actions", .index position, .key "arguments", .index argument, .key "name"]

/-- Names of a list with their places. -/
def placeNames (list : String) (names : List String) : List PlacedName :=
  names.zipIdx.map fun (name, position) => (namePath list position, name)

/-- The declared names, functions before variables. -/
def declaredNames (body : Body) : List PlacedName :=
  placeNames "actions" body.functionNames ++ placeNames "variables" body.variableNames

/-- The names of all arguments, function by function. -/
def argumentNames (body : Body) : List PlacedName :=
  body.functions.zipIdx.flatMap fun (function, position) =>
    function.arguments.zipIdx.map fun (argument, index) =>
      (argumentPath position index, argument.name)

/-! ## The first offender -/

/-- The first fault of declared names after the names declared before them. -/
def firstNameError? (before : List String) : List PlacedName → Option BodyError
  | [] => none
  | (path, name) :: rest =>
    match nameFault? before name with
    | some fault => some ⟨path, fault⟩
    | none => firstNameError? (name :: before) rest

/-- The first fault of argument names. -/
def firstArgumentError? (names : List PlacedName) : Option BodyError :=
  names.findSome? fun (path, name) => (argumentFault? name).map fun fault => ⟨path, fault⟩

/-- The first offending name of a body. -/
def nameError? (body : Body) : Option BodyError :=
  (firstNameError? [] body.declaredNames).or (firstArgumentError? body.argumentNames)

/-- Accepts a body without offending names. -/
def validate (body : Body) : Except BodyError Unit :=
  match body.nameError? with
  | some error => .error error
  | none => .ok ()

/-- A body without declarations has no offending names. -/
theorem nameError?_empty : empty.nameError? = none := rfl

end Body

end ScriptStore
