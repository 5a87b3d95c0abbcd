import ScriptStore.Store.Basic

/-!
# Working on a store

The operations of a store as they are carried out, one write after the other. The store is
threaded through the work, and a failure puts nothing back: it leaves the store with every write
that was made before it. Records and members are written one by one, and the data of a function in
its place among the members.
-/

namespace ScriptStore

/-- Sets the data of a function in its place, and tells whether there is such a function. -/
def MemberTree.writeData (members : MemberTree) (function : String) (data : Json) :
    Bool × MemberTree :=
  match members.get? function with
  | some (.function source _) => (true, members.insert function (.function source data))
  | _ => (false, members)

/-- Work on a store that may fail; the store that a failure leaves is the one at that point. -/
abbrev Session (α : Type) := ExceptT SyncError (StateM Store) α

namespace Session

/-- What work on a store gives, and the store that it leaves. -/
def on {α : Type} (work : Session α) (store : Store) : Except SyncError α × Store :=
  work.run.run store

/-! ## Writes -/

/-- Writes the record of an entity. -/
def writeRecord (entity : String) (record : Record) : Session Unit :=
  modify fun store => { store with configs := store.configs.insert entity record }

/-- Writes the members of an entity. -/
def writeMembers (entity : String) (members : MemberTree) : Session Unit :=
  modify fun store => { store with trees := store.trees.insert entity members }

/-- Sets the data of a function among the members of an entity, and tells whether there is such a
function. The members are written back either way. -/
def writeData (entity function : String) (data : Json) : Session Bool := do
  match (← get).tree? entity with
  | some members =>
    let (written, next) := members.writeData function data
    writeMembers entity next
    return written
  | none => return false

/-! ## Passes -/

/-- The record of an entity, which must bear the name of the entity. -/
def tracked (entity : String) : Session (Option Record) := do
  match (← get).record? entity with
  | some record =>
    if record.name ≠ entity then throw (.inconsistent entity (.misfiled entity record.name))
    return some record
  | none => return none

/-- Commits the outcome of a pass: with verification it is checked, then the record is written, and
the members last. -/
def commit (entity : String) (outcome : PassOutcome) : Session EntityDiff := do
  if (← get).verify then outcome.state.check
  writeRecord entity outcome.state.record
  writeMembers entity outcome.state.members
  return outcome.diff

/-- Brings an entity in line with a body. An untracked entity starts from an empty record, and a
tracked one whose body is empty is cleared as a whole. -/
def reconcile (entity : String) (body : Body) : Session EntityDiff := do
  let record := (← tracked entity).getD (Record.new entity)
  let store ← get
  let state : EntityState := ⟨record, (store.tree? entity).getD ∅⟩
  let outcome ←
    if body.isEmpty && store.configs.contains entity then pure state.clear
    else state.synchronize body
  commit entity outcome

/-- Removes every function and variable of an entity; nothing is answered for an untracked
one. -/
def clear (entity : String) : Session (Option EntityDiff) := do
  match ← tracked entity with
  | some record =>
    let members := ((← get).tree? entity).getD ∅
    let diff ← commit entity (EntityState.clear ⟨record, members⟩)
    return some diff
  | none => return none

/-! ## Results of executions -/

/-- Captures the result of a declared function and writes its data. -/
def recordResult (entity function : String) (result : ExecutionResult) : Session Execution := do
  let declared := ((← get).record? entity).any fun record => record.hasFunction function
  if !declared then throw (.unknownFunction entity function)
  let execution := Execution.capture (entity ++ "." ++ function) result
  let written ← writeData entity function execution.data
  if !written then throw (.unknownFunction entity function)
  return execution

end Session

end ScriptStore
