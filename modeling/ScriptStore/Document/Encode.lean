import ScriptStore.Store.Basic

/-!
# Documents of stores and differences

The JSON form of everything that is stored or shown. Fields come in a fixed order; what is
absent is left out where the form has room for it.
-/

namespace ScriptStore

/-! ## Pieces -/

namespace Json

/-- A list of strings. -/
def ofStrings (strings : List String) : Json := .arr (strings.map .str)

/-- A field that is left out when its value is absent. -/
def optionalField (key : String) (value : Option Json) : List (String × Json) :=
  match value with
  | some v => [(key, v)]
  | none => []

/-- The object of a map, in the order of the map. -/
def ofMap {α : Type} (f : α → Json) (m : OrderedMap α) : Json :=
  .obj (Entries.mapValues f m.entries)

end Json

/-! ## Bodies -/

/-- An argument; an absent default value is left out. -/
def Argument.toJson (argument : Argument) : Json :=
  .obj (("name", .str argument.name) :: Json.optionalField "value" argument.value)

/-- Arguments in order. -/
def argumentsToJson (arguments : List Argument) : Json := .arr (arguments.map Argument.toJson)

/-- A declared function. -/
def FunctionDecl.toJson (decl : FunctionDecl) : Json :=
  .obj [("name", .str decl.name), ("body", .str decl.source),
    ("arguments", argumentsToJson decl.arguments)]

/-- A declared variable. -/
def VariableDecl.toJson (decl : VariableDecl) : Json :=
  .obj [("name", .str decl.name), ("value", decl.value)]

/-- A parsed body. -/
def Body.toJson (body : Body) : Json :=
  .obj [("actions", .arr (body.functions.map FunctionDecl.toJson)),
    ("variables", .arr (body.vars.map VariableDecl.toJson))]

/-! ## Records -/

/-- The metadata of a function. -/
def FunctionMeta.toJson (data : FunctionMeta) : Json :=
  .obj [("arguments", argumentsToJson data.arguments), ("isAsync", .bool data.isAsync),
    ("confirmBeforeExecute", .bool data.confirmBeforeExecute)]

/-- A substitution by its name. -/
def Substitution.toJson (substitution : Substitution) : Json := .str substitution.label

/-- A dynamic binding path. -/
def bindingPathToJson (key : String) : Json := .obj [("key", .str key)]

/-- The lists of a dependency map. -/
def DependencyMap.toJson (dependencies : DependencyMap) : Json :=
  Json.ofMap Json.ofStrings dependencies

/-- A record. -/
def Record.toJson (record : Record) : Json :=
  .obj [("name", .str record.name),
    ("variables", Json.ofStrings record.vars),
    ("functions", Json.ofMap FunctionMeta.toJson record.functions),
    ("reactivePaths", Json.ofMap Substitution.toJson record.reactivePaths),
    ("dynamicBindingPathList", .arr (record.bindingPaths.map bindingPathToJson)),
    ("dependencyMap", DependencyMap.toJson record.dependencies)]

/-! ## Members and stores -/

/-- A member, tagged with its kind. -/
def Member.toJson : Member → Json
  | .function source data =>
    .obj [("kind", .str "function"), ("body", .str source), ("data", data)]
  | .var v => .obj [("kind", .str "variable"), ("value", v)]

/-- The members of an entity. -/
def MemberTree.toJson (members : MemberTree) : Json := Json.ofMap Member.toJson members

/-- The members of all entities. -/
def Forest.toJson (forest : Forest) : Json := Json.ofMap MemberTree.toJson forest

/-- A store; its settings are not part of the document. -/
def Store.toJson (store : Store) : Json :=
  .obj [("configs", Json.ofMap Record.toJson store.configs), ("tree", Forest.toJson store.trees)]

/-! ## Differences -/

/-- The arguments of a change, left out when there are none. -/
def changeArguments (arguments : List Argument) : List (String × Json) :=
  if arguments.isEmpty then [] else [("arguments", argumentsToJson arguments)]

/-- A classified function. -/
def FunctionChange.toJson (change : FunctionChange) : Json :=
  .obj ([("name", .str change.name), ("kind", .str change.kind.label)] ++
    Json.optionalField "body" (change.source.map .str) ++ changeArguments change.arguments)

/-- A classified variable; a value that is null is written. -/
def VariableChange.toJson (change : VariableChange) : Json :=
  .obj ([("name", .str change.name), ("kind", .str change.kind.label)] ++
    Json.optionalField "value" change.value)

/-- The classified members of an entity. -/
def EntityDiff.toJson (diff : EntityDiff) : Json :=
  .obj [("entity", .str diff.entity),
    ("functions", .arr (diff.functions.map FunctionChange.toJson)),
    ("variables", .arr (diff.vars.map VariableChange.toJson))]

/-! ## Reports and executions -/

/-- A report, with the messages of its violations. -/
def Report.toJson (report : Report) : Json :=
  .obj [("entity", .str report.entity),
    ("violations", Json.ofStrings (report.violations.map Violation.message)),
    ("stale_dependencies", Json.ofStrings report.staleDependencies)]

/-- A captured execution; the note is left out when nothing went wrong. -/
def Execution.toJson (execution : Execution) : Json :=
  .obj ([("name", .str execution.name), ("data", execution.data)] ++
    Json.optionalField "error"
      (execution.failure.map fun note => .obj [("message", .str note)]))

end ScriptStore
