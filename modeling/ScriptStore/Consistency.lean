import ScriptStore.EntityState

/-!
# Consistency of an entity

The tables of an entity and its members are checked against each other. Violations of what every
pass maintains are listed in a fixed order. Dependencies on names that are no longer declared are
listed apart: they are not violations, since removing a variable leaves the dependencies alone.
-/

namespace ScriptStore

/-! ## Violations -/

/-- A disagreement between the tables and the members of an entity. -/
inductive Violation where
  /-- A reactive path whose key is not bound. -/
  | unboundPath (path key : String)
  | repeatedBinding (key : String)
  | notSmart (function : String)
  | noDataPath (function : String)
  | noDependency (function : String)
  | repeatedDependency (function : String) (count : Nat)
  /-- A function whose member is a variable. -/
  | functionHoldsVariable (function : String)
  | functionWithoutMember (function : String)
  | repeatedVariable (name : String)
  | functionAndVariable (name : String)
  | variableWithoutPath (name : String)
  /-- A variable whose member is a function. -/
  | variableHoldsFunction (name : String)
  | variableWithoutMember (name : String)
  | undeclaredMember (name : String)
  /-- A record that is kept under another name than its own. -/
  | misfiled (key name : String)
  /-- Members of an entity that has no record. -/
  | withoutRecord (entity : String)
  deriving DecidableEq, Repr

/-- What is said about a violation. -/
def Violation.message : Violation → String
  | .unboundPath path key =>
    "reactive path '" ++ path ++ "' has no dynamic binding path '" ++ key ++ "'"
  | .repeatedBinding key => "dynamic binding path '" ++ key ++ "' listed twice"
  | .notSmart function => "function '" ++ function ++ "' is not a smart-substitute path"
  | .noDataPath function => "function '" ++ function ++ "' has no template data path"
  | .noDependency function => "function '" ++ function ++ "' missing from dependency map"
  | .repeatedDependency function count =>
    "function '" ++ function ++ "' appears " ++ Nat.repr count ++ " times in dependency map"
  | .functionHoldsVariable function => "function '" ++ function ++ "' holds a variable leaf"
  | .functionWithoutMember function => "function '" ++ function ++ "' has no tree leaf"
  | .repeatedVariable name => "variable '" ++ name ++ "' declared twice"
  | .functionAndVariable name => "'" ++ name ++ "' is both a function and a variable"
  | .variableWithoutPath name => "variable '" ++ name ++ "' has no reactive path"
  | .variableHoldsFunction name => "variable '" ++ name ++ "' holds a function leaf"
  | .variableWithoutMember name => "variable '" ++ name ++ "' has no tree leaf"
  | .undeclaredMember name => "tree leaf '" ++ name ++ "' is not declared by the record"
  | .misfiled key name => "record tracked as '" ++ key ++ "' is named '" ++ name ++ "'"
  | .withoutRecord entity => "tree entity '" ++ entity ++ "' has no record"

/-! ## Checks of single entries -/

/-- The condition as a list of at most one violation. -/
def Violation.unless (holds : Bool) (violation : Violation) : List Violation :=
  if holds then [] else [violation]

/-- The key under which a reactive path must be bound: the name of a declared function for its
data path, and the path itself otherwise. -/
def Record.bindingKey (record : Record) (path : String) : String :=
  (record.functions.keys.find? fun function => dataPath function = path).getD path

/-- Whether a function or variable of this name is declared. -/
def Record.declares (record : Record) (name : String) : Bool :=
  record.hasFunction name || record.hasVariable name

namespace EntityState

/-- The violations of one reactive path. -/
def pathViolations (state : EntityState) (path : String) : List Violation :=
  let key := state.record.bindingKey path
  Violation.unless (state.record.hasBindingPath key) (.unboundPath path key)

/-- The violations of the number of times that a function is registered. -/
def dependencyViolations (state : EntityState) (function : String) : List Violation :=
  match state.record.dependencies.body.count function with
  | 0 => [.noDependency function]
  | 1 => []
  | count + 2 => [.repeatedDependency function (count + 2)]

/-- The violations of the member of a function. -/
def functionMemberViolations (state : EntityState) (function : String) : List Violation :=
  match state.members.get? function with
  | some (.function _ _) => []
  | some (.var _) => [.functionHoldsVariable function]
  | none => [.functionWithoutMember function]

/-- The violations of one function. -/
def functionViolations (state : EntityState) (function : String) : List Violation :=
  Violation.unless (state.record.reactivePaths.get? function = some .smart)
      (.notSmart function) ++
    Violation.unless (state.record.reactivePaths.get? (dataPath function) = some .template)
      (.noDataPath function) ++
    state.dependencyViolations function ++
    state.functionMemberViolations function

/-- The violations of the member of a variable. -/
def variableMemberViolations (state : EntityState) (name : String) : List Violation :=
  match state.members.get? name with
  | some (.var _) => []
  | some (.function _ _) => [.variableHoldsFunction name]
  | none => [.variableWithoutMember name]

/-- The violations of one variable that follows others in the list. -/
def variableViolations (state : EntityState) (before : List String) (name : String) :
    List Violation :=
  Violation.unless (name ∉ before) (.repeatedVariable name) ++
    Violation.unless (!state.record.hasFunction name) (.functionAndVariable name) ++
    Violation.unless (state.record.reactivePaths.contains name) (.variableWithoutPath name) ++
    state.variableMemberViolations name

/-- The violations of a list of variables that follows others. -/
def variableListViolations (state : EntityState) (before : List String) :
    List String → List Violation
  | [] => []
  | name :: rest =>
    state.variableViolations before name ++ state.variableListViolations (name :: before) rest

/-- The violations of one member. -/
def memberViolations (state : EntityState) (name : String) : List Violation :=
  Violation.unless (state.record.declares name) (.undeclaredMember name)

/-! ## Checks of an entity -/

/-- All violations: of paths, of bindings, of functions, of variables and of members. -/
def violations (state : EntityState) : List Violation :=
  state.record.reactivePaths.keys.flatMap state.pathViolations ++
    (Names.repeats [] state.record.bindingPaths).map .repeatedBinding ++
    state.record.functions.keys.flatMap state.functionViolations ++
    state.variableListViolations [] state.record.vars ++
    state.members.keys.flatMap state.memberViolations

/-- Whether there is no violation. -/
def isConsistent (state : EntityState) : Bool := state.violations.isEmpty

end EntityState

/-- The dependencies of the entity body on names that are not declared, each once. -/
def Record.staleDependencies (record : Record) : List String :=
  (Names.distinct [] record.dependencies.body).filter (!record.declares ·)

/-! ## Reports -/

/-- What is found about one entity. -/
structure Report where
  entity : String
  violations : List Violation
  staleDependencies : List String
  deriving DecidableEq

/-- Whether a report has no violation. -/
def Report.isConsistent (report : Report) : Bool := report.violations.isEmpty

/-- The report of an entity. -/
def EntityState.inspect (state : EntityState) : Report :=
  ⟨state.record.name, state.violations, state.record.staleDependencies⟩

end ScriptStore
