import ScriptStore.Coercion
import ScriptStore.SyncError

/-!
# Differences between a body and an entity

Every member of a freshly parsed body and of the entity it belongs to is classified as added,
modified, unchanged or removed. Members of the body come in the order of the body and are
followed by the removed ones in the order of the record, functions and variables apart.
-/

namespace ScriptStore

/-! ## Changes -/

/-- The classification of a member. -/
inductive ChangeKind where
  | added
  | modified
  | unchanged
  | removed
  deriving DecidableEq, Repr

namespace ChangeKind

/-- The name of a kind in documents. -/
def label : ChangeKind → String
  | .added => "ADDED"
  | .modified => "MODIFIED"
  | .unchanged => "UNCHANGED"
  | .removed => "REMOVED"

/-- The sign of a kind in summaries. -/
def marker : ChangeKind → String
  | .added => "+"
  | .modified => "~"
  | .unchanged => "="
  | .removed => "-"

/-- The kind of this name. -/
def ofLabel? (label : String) : Option ChangeKind :=
  [added, modified, unchanged, removed].find? (·.label = label)

end ChangeKind

/-- A classified function, with its source text if it is added or modified and its arguments if
it is added. -/
structure FunctionChange where
  name : String
  kind : ChangeKind
  source : Option String
  arguments : List Argument
  deriving DecidableEq

/-- A classified variable, with its value if it is added or modified. -/
structure VariableChange where
  name : String
  kind : ChangeKind
  value : Option Json
  deriving DecidableEq

/-- Equality up to the order of fields in default values. -/
def FunctionChange.same (a b : FunctionChange) : Bool :=
  a.name == b.name && a.kind == b.kind && a.source == b.source &&
    a.arguments.isEqv b.arguments Argument.same

/-- Equality up to the order of fields in values. -/
def VariableChange.same (a b : VariableChange) : Bool :=
  a.name == b.name && a.kind == b.kind && Json.sameOption a.value b.value

/-- A function that is no longer declared. -/
def FunctionChange.removal (name : String) : FunctionChange := ⟨name, .removed, none, []⟩

/-- A variable that is no longer declared. -/
def VariableChange.removal (name : String) : VariableChange := ⟨name, .removed, none⟩

/-- The classified members of an entity. -/
structure EntityDiff where
  entity : String
  functions : List FunctionChange
  vars : List VariableChange
  deriving DecidableEq

namespace EntityDiff

/-! ## Questions about a difference -/

/-- The kinds of all changes, functions first. -/
def kinds (diff : EntityDiff) : List ChangeKind :=
  diff.functions.map (·.kind) ++ diff.vars.map (·.kind)

/-- Whether every member is unchanged. -/
def isNoop (diff : EntityDiff) : Bool := diff.kinds.all (· = .unchanged)

/-- How many members are of a kind. -/
def count (diff : EntityDiff) (kind : ChangeKind) : Nat := diff.kinds.count kind

/-- The first change of a function of this name. -/
def getFunction? (diff : EntityDiff) (name : String) : Option FunctionChange :=
  diff.functions.find? (·.name = name)

/-- The first change of a variable of this name. -/
def getVariable? (diff : EntityDiff) (name : String) : Option VariableChange :=
  diff.vars.find? (·.name = name)

/-- Equality up to the order of fields in values. -/
def same (a b : EntityDiff) : Bool :=
  a.entity == b.entity && a.functions.isEqv b.functions FunctionChange.same &&
    a.vars.isEqv b.vars VariableChange.same

/-! ## Summaries -/

/-- The line of a member in a summary; unchanged members have none. -/
def changeLine? (kind : ChangeKind) (noun name : String) : Option String :=
  if kind = .unchanged then none else some ("  " ++ kind.marker ++ " " ++ noun ++ " " ++ name)

/-- The first line of a summary. -/
def headline (diff : EntityDiff) : String :=
  diff.entity ++ ": " ++ Nat.repr (diff.count .added) ++ " added, " ++
    Nat.repr (diff.count .modified) ++ " modified, " ++
    Nat.repr (diff.count .removed) ++ " removed"

/-- The lines of a summary. -/
def summaryLines (diff : EntityDiff) : List String :=
  diff.headline ::
    (diff.functions.filterMap (fun c => changeLine? c.kind "function" c.name) ++
      diff.vars.filterMap (fun c => changeLine? c.kind "variable" c.name))

/-- A summary for readers, without a line break at its end. -/
def summary (diff : EntityDiff) : String := String.intercalate "\n" diff.summaryLines

end EntityDiff

/-! ## Classification -/

namespace EntityState

/-- Classifies a declared function: it is unchanged exactly if the entity has a function of its
name with the same source text. -/
def classifyFunction (state : EntityState) (decl : FunctionDecl) : FunctionChange :=
  if state.record.hasFunction decl.name then
    if state.members.source? decl.name = some decl.source then
      ⟨decl.name, .unchanged, none, []⟩
    else ⟨decl.name, .modified, some decl.source, []⟩
  else ⟨decl.name, .added, some decl.source, decl.arguments⟩

/-- Classifies a declared variable by loose comparison with the value that the entity has. -/
def classifyVariable (state : EntityState) (decl : VariableDecl) : VariableChange :=
  if state.record.hasVariable decl.name then
    if Json.changed (state.members.value? decl.name) decl.value then
      ⟨decl.name, .modified, some decl.value⟩
    else ⟨decl.name, .unchanged, none⟩
  else ⟨decl.name, .added, some decl.value⟩

/-- The functions of the record that a body does not declare. -/
def missingFunctions (state : EntityState) (body : Body) : List String :=
  state.record.functions.keys.filter (· ∉ body.functionNames)

/-- The variables of the record that a body does not declare. -/
def missingVariables (state : EntityState) (body : Body) : List String :=
  state.record.vars.filter (· ∉ body.variableNames)

/-- Classifies all members of a body and of an entity. -/
def classify (state : EntityState) (body : Body) : EntityDiff :=
  ⟨state.record.name,
    body.functions.map state.classifyFunction ++
      (state.missingFunctions body).map FunctionChange.removal,
    body.vars.map state.classifyVariable ++
      (state.missingVariables body).map VariableChange.removal⟩

/-- The difference between a body and an entity; a body with offending names has none. -/
def diff (state : EntityState) (body : Body) : Except SyncError EntityDiff :=
  match body.nameError? with
  | some error => .error (.malformedBody state.record.name error)
  | none => .ok (state.classify body)

end EntityState

end ScriptStore
