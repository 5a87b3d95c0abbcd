import ScriptStore.Json.Basic

/-!
# Parsed bodies

What a parser finds in the source of an entity: the functions and variables that it declares, in
the order in which they occur.
-/

namespace ScriptStore

/-! ## Declarations -/

/-- A declared parameter of a function, with the source of its default value if it has one. -/
structure Argument where
  name : String
  value : Option Json
  deriving DecidableEq

/-- Equality up to the order of fields in default values. -/
def Argument.same (a b : Argument) : Bool := a.name == b.name && Json.sameOption a.value b.value

/-- A function with its source text. -/
structure FunctionDecl where
  name : String
  source : String
  arguments : List Argument
  deriving DecidableEq

/-- A variable with its raw value. -/
structure VariableDecl where
  name : String
  value : Json
  deriving DecidableEq

/-! ## Bodies -/

/-- The functions and variables that an entity declares. -/
structure Body where
  functions : List FunctionDecl
  vars : List VariableDecl
  deriving DecidableEq

namespace Body

/-- The body without declarations, which is left when all code is deleted. -/
def empty : Body := ⟨[], []⟩

instance : Inhabited Body := ⟨empty⟩

/-- Whether nothing is declared. -/
def isEmpty (body : Body) : Bool := body.functions.isEmpty && body.vars.isEmpty

/-- The first function of this name. -/
def getFunction? (body : Body) (name : String) : Option FunctionDecl :=
  body.functions.find? (·.name = name)

/-- The first variable of this name. -/
def getVariable? (body : Body) (name : String) : Option VariableDecl :=
  body.vars.find? (·.name = name)

/-- The names of the functions, in order. -/
def functionNames (body : Body) : List String := body.functions.map (·.name)

/-- The names of the variables, in order. -/
def variableNames (body : Body) : List String := body.vars.map (·.name)

end Body

end ScriptStore
