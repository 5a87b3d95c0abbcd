import ScriptStore.EntityDiff

/-!
# Passes over an entity

A pass brings an entity in line with a body: the difference is found first and applied then,
functions before variables. An entity can also be cleared as a whole. A pass gives the next
state of the entity together with the difference that leads to it.
-/

namespace ScriptStore

/-! ## Applying a difference -/

namespace EntityState

/-- Applies the change of a function. An addition or modification without a source text and an
unchanged function have no effect. -/
def applyFunctionChange (state : EntityState) (change : FunctionChange) : EntityState :=
  match change.kind, change.source with
  | .added, some source => state.addFunction change.name source change.arguments
  | .modified, some source => state.replaceSource change.name source
  | .removed, _ => state.removeFunction change.name
  | _, _ => state

/-- Applies the change of a variable. An addition or modification without a value and an
unchanged variable have no effect. -/
def applyVariableChange (state : EntityState) (change : VariableChange) : EntityState :=
  match change.kind, change.value with
  | .added, some value => state.addVariable change.name value
  | .modified, some value => state.replaceValue change.name value
  | .removed, _ => state.removeVariable change.name
  | _, _ => state

/-- Applies all changes of a difference, functions first. -/
def apply (state : EntityState) (diff : EntityDiff) : EntityState :=
  diff.vars.foldl applyVariableChange (diff.functions.foldl applyFunctionChange state)

end EntityState

/-! ## Passes -/

/-- The next state of an entity and the difference that leads to it. -/
structure PassOutcome where
  state : EntityState
  diff : EntityDiff
  deriving DecidableEq

/-- Equality up to the order of entries in maps. -/
def PassOutcome.same (a b : PassOutcome) : Bool := a.state.same b.state && a.diff.same b.diff

namespace EntityState

/-- Brings an entity in line with a body; a body with offending names is refused. -/
def synchronize (state : EntityState) (body : Body) : Except SyncError PassOutcome := do
  let diff ← state.diff body
  return ⟨state.apply diff, diff⟩

/-! ## Clearing -/

/-- The difference that removes every function and variable. -/
def clearingDiff (state : EntityState) : EntityDiff :=
  ⟨state.record.name, state.record.functions.keys.map FunctionChange.removal,
    state.record.vars.map VariableChange.removal⟩

/-- The entity without its functions and variables. Each table is filtered once: functions lose
their names and data paths, variables their names, and only functions leave the dependencies. -/
def withoutMembers (state : EntityState) : EntityState :=
  let functions := state.record.functions.keys
  let declared := functions ++ state.record.vars
  { record :=
      { name := state.record.name
        vars := []
        functions := ∅
        reactivePaths := state.record.reactivePaths.eraseAll (functions.map dataPath ++ declared)
        bindingPaths := state.record.bindingPaths.filter (· ∉ declared)
        dependencies := state.record.dependencies.filterBody (· ∉ functions) }
    members := state.members.eraseAll declared }

/-- Removes every function and variable of an entity. -/
def clear (state : EntityState) : PassOutcome := ⟨state.withoutMembers, state.clearingDiff⟩

end EntityState

end ScriptStore
