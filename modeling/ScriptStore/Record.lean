import ScriptStore.Body.Basic
import ScriptStore.Names
import ScriptStore.OrderedMap

/-!
# Dependency records

The tables that an evaluator reads about one entity: its variables, the metadata of its
functions, how each reactive path is substituted, which paths are bound dynamically, and which
names the entity body depends on. Every table keeps the order in which its entries came.
-/

namespace ScriptStore

/-! ## Entries of the tables -/

/-- How a reactive path is substituted when a binding is evaluated. -/
inductive Substitution where
  | smart
  | template
  deriving DecidableEq, Repr

/-- The name of a substitution in documents. -/
def Substitution.label : Substitution → String
  | .smart => "SMART_SUBSTITUTE"
  | .template => "TEMPLATE"

/-- What is recorded about a function. -/
structure FunctionMeta where
  arguments : List Argument
  isAsync : Bool
  confirmBeforeExecute : Bool
  deriving DecidableEq

/-- A newly declared function is synchronous and runs without confirmation. -/
def FunctionMeta.declared (arguments : List Argument) : FunctionMeta := ⟨arguments, false, false⟩

/-- Equality up to the order of fields in default values. -/
def FunctionMeta.same (a b : FunctionMeta) : Bool :=
  a.arguments.isEqv b.arguments Argument.same && a.isAsync == b.isAsync &&
    a.confirmBeforeExecute == b.confirmBeforeExecute

/-! ## Dependencies -/

/-- Lists of names by key. Only the list of the entity body is maintained here. -/
abbrev DependencyMap := OrderedMap (List String)

namespace DependencyMap

/-- The key of the names that the entity body depends on. -/
def bodyKey : String := "body"

/-- The map of a new record: the entity body depends on nothing. -/
def initial : DependencyMap := (∅ : OrderedMap (List String)).insert bodyKey []

/-- The names that the entity body depends on, in the order of registration. -/
def body (dependencies : DependencyMap) : List String := (dependencies.get? bodyKey).getD []

/-- Registers a name for the entity body; the key is created when it is missing. -/
def pushBody (dependencies : DependencyMap) (name : String) : DependencyMap :=
  dependencies.insert bodyKey (Names.push dependencies.body name)

/-- Keeps the names of the entity body that pass a test; a missing key stays missing. -/
def filterBody (dependencies : DependencyMap) (keep : String → Bool) : DependencyMap :=
  match dependencies.get? bodyKey with
  | some names => dependencies.insert bodyKey (names.filter keep)
  | none => dependencies

/-- Removes a name from the list of the entity body. -/
def removeBody (dependencies : DependencyMap) (name : String) : DependencyMap :=
  dependencies.filterBody (· ≠ name)

/-- The list of the entity body after a registration. -/
theorem body_pushBody (dependencies : DependencyMap) (name : String) :
    (dependencies.pushBody name).body = Names.push dependencies.body name := by
  unfold pushBody
  rw [body, OrderedMap.get?_insert, if_pos rfl]
  rfl

/-- The list of the entity body after a selection. -/
theorem body_filterBody (dependencies : DependencyMap) (keep : String → Bool) :
    (dependencies.filterBody keep).body = dependencies.body.filter keep := by
  unfold filterBody
  cases h : dependencies.get? bodyKey with
  | none => simp [body, h]
  | some names => simp [body, h, OrderedMap.get?_insert]

end DependencyMap

/-! ## Records -/

/-- The tables of one entity. -/
structure Record where
  name : String
  /-- The names of the variables, in the order of declaration. -/
  vars : List String
  functions : OrderedMap FunctionMeta
  reactivePaths : OrderedMap Substitution
  /-- The keys of the dynamic binding paths. -/
  bindingPaths : List String
  dependencies : DependencyMap
  deriving DecidableEq

/-- What follows the name of a function in the path of its last result. -/
def dataSuffix : String := ".data"

/-- The path of the last result of a function. -/
def dataPath (function : String) : String := function ++ dataSuffix

namespace Record

/-- The record of an entity that is seen for the first time. -/
def new (name : String) : Record := ⟨name, [], ∅, ∅, [], DependencyMap.initial⟩

instance : Inhabited Record := ⟨new ""⟩

/-- Whether a function of this name is declared. -/
def hasFunction (record : Record) (name : String) : Bool := record.functions.contains name

/-- Whether a variable of this name is declared. -/
def hasVariable (record : Record) (name : String) : Bool := record.vars.contains name

/-- Whether a path is bound dynamically. -/
def hasBindingPath (record : Record) (key : String) : Bool := record.bindingPaths.contains key

/-- Whether nothing is declared. -/
def isEmpty (record : Record) : Bool := record.functions.isEmpty && record.vars.isEmpty

/-- Binds a path unless it is bound. -/
def pushBindingPath (record : Record) (key : String) : Record :=
  { record with bindingPaths := Names.push record.bindingPaths key }

/-- Unbinds a path. -/
def removeBindingPath (record : Record) (key : String) : Record :=
  { record with bindingPaths := Names.remove record.bindingPaths key }

/-- Equality up to the order of entries in maps. -/
def same (a b : Record) : Bool :=
  a.name == b.name && a.vars == b.vars &&
    a.functions.sameBy FunctionMeta.same b.functions &&
    a.reactivePaths.sameBy (· == ·) b.reactivePaths &&
    a.bindingPaths == b.bindingPaths &&
    a.dependencies.sameBy (· == ·) b.dependencies

/-! ## Edits of the two name lists -/

/-- An edit of the binding paths or of the dependencies of the entity body. -/
inductive Edit where
  | pushBinding (key : String)
  | removeBinding (key : String)
  | pushDependency (name : String)
  | removeDependency (name : String)
  | filterDependencies (keep : String → Bool)

/-- The edit that keeps only these names as dependencies. -/
def Edit.keepDependencies (kept : List String) : Edit := .filterDependencies kept.contains

/-- What an edit answers: a push whether the name is new, a removal of a dependency whether the list
has become shorter, the others nothing. -/
def editAnswer (record : Record) : Edit → Option Bool
  | .pushBinding key => some (!record.hasBindingPath key)
  | .removeBinding _ => none
  | .pushDependency name => some (!record.dependencies.body.contains name)
  | .removeDependency name =>
    some ((record.dependencies.removeBody name).body.length != record.dependencies.body.length)
  | .filterDependencies _ => none

/-- The record after an edit. -/
def edit (record : Record) : Edit → Record
  | .pushBinding key => record.pushBindingPath key
  | .removeBinding key => record.removeBindingPath key
  | .pushDependency name => { record with dependencies := record.dependencies.pushBody name }
  | .removeDependency name => { record with dependencies := record.dependencies.removeBody name }
  | .filterDependencies keep =>
    { record with dependencies := record.dependencies.filterBody keep }

end Record

end ScriptStore
