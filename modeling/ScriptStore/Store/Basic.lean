import ScriptStore.Execution
import ScriptStore.Pass

/-!
# Stores of entities

A store keeps the records and the members of all entities and commits both together. The
operations are told here as a whole: one that succeeds gives its answer with the next store, and
one that fails gives the reason. How they are carried out, one write after the other, is told by
`Session`.
-/

namespace ScriptStore

/-! ## Stores -/

/-- The records and members of all entities. With `verify` set, only consistent entities are
committed. -/
structure Store where
  configs : OrderedMap Record
  trees : Forest
  verify : Bool
  deriving DecidableEq

namespace Store

/-- The store without entities. -/
def empty (verify : Bool) : Store := ⟨∅, ∅, verify⟩

instance : Inhabited Store := ⟨empty false⟩

/-- Equality up to the order of entries in maps. -/
def same (a b : Store) : Bool :=
  a.configs.sameBy Record.same b.configs && a.trees.same b.trees && a.verify == b.verify

/-- The record of an entity. -/
def record? (store : Store) (entity : String) : Option Record := store.configs.get? entity

/-- The members of an entity. -/
def tree? (store : Store) (entity : String) : Option MemberTree := store.trees.get? entity

/-- The members of an entity, none if there is no tree of it. -/
def members (store : Store) (entity : String) : MemberTree := (store.tree? entity).getD ∅

/-! ## Records under their own names -/

/-- The record of an entity, which must bear the name of the entity. -/
def tracked? (store : Store) (entity : String) : Except SyncError (Option Record) :=
  match store.record? entity with
  | some record =>
    if record.name = entity then .ok (some record)
    else .error (.inconsistent entity (.misfiled entity record.name))
  | none => .ok none

/-! ## Passes -/

/-- Puts the outcome of a pass in the place of an entity. -/
def put (store : Store) (entity : String) (state : EntityState) : Store :=
  { store with
    configs := store.configs.insert entity state.record
    trees := store.trees.insert entity state.members }

/-- Commits the outcome of a pass; with verification an inconsistent outcome is refused. -/
def commit (store : Store) (entity : String) (outcome : PassOutcome) :
    Except SyncError (EntityDiff × Store) := do
  if store.verify then outcome.state.check
  return (outcome.diff, store.put entity outcome.state)

/-- Brings an entity in line with a body. An untracked entity starts from an empty record and
the members that are there; a tracked one whose body is empty is cleared as a whole. -/
def reconcile (store : Store) (entity : String) (body : Body) :
    Except SyncError (EntityDiff × Store) := do
  match ← store.tracked? entity with
  | some record =>
    let state : EntityState := ⟨record, store.members entity⟩
    let outcome ← if body.isEmpty then pure state.clear else state.synchronize body
    store.commit entity outcome
  | none =>
    let state : EntityState := ⟨Record.new entity, store.members entity⟩
    let outcome ← state.synchronize body
    store.commit entity outcome

/-- Removes every function and variable of an entity; nothing is answered for an untracked
one. -/
def clear (store : Store) (entity : String) : Except SyncError (Option EntityDiff × Store) := do
  match ← store.tracked? entity with
  | some record =>
    let (diff, next) ← store.commit entity (EntityState.clear ⟨record, store.members entity⟩)
    return (some diff, next)
  | none => return (none, store)

/-! ## Results of executions -/

/-- The store with the data of a function replaced; none if the entity does not declare the
function or has no member for it that is a function. -/
def setData? (store : Store) (entity function : String) (data : Json) : Option Store := do
  let record ← store.record? entity
  guard (record.hasFunction function)
  let members ← store.tree? entity
  let next ← members.setData? function data
  return { store with trees := store.trees.insert entity next }

/-- Captures the result of a function and stores its data. -/
def recordResult (store : Store) (entity function : String) (result : ExecutionResult) :
    Except SyncError (Execution × Store) :=
  let execution := Execution.capture (entity ++ "." ++ function) result
  match store.setData? entity function execution.data with
  | some next => .ok (execution, next)
  | none => .error (.unknownFunction entity function)

/-! ## Entities as a whole -/

/-- Tracks an entity under the name of its record, in place of what was kept under it. -/
def insertEntity (store : Store) (state : EntityState) : Store :=
  store.put state.record.name state

/-- Stops tracking an entity; members without a record stay. -/
def removeEntity (store : Store) (entity : String) : Option EntityState × Store :=
  match store.record? entity with
  | some record =>
    (some ⟨record, store.members entity⟩,
      { store with configs := store.configs.erase entity, trees := store.trees.erase entity })
  | none => (none, store)

/-! ## Inspection -/

/-- The report of a tracked entity under the name of the entity; a record of another name is its
first violation. -/
def inspect (store : Store) (entity : String) : Option Report :=
  (store.record? entity).map fun record =>
    let report := EntityState.inspect ⟨record, store.members entity⟩
    if record.name = entity then report
    else ⟨entity, .misfiled entity record.name :: report.violations, report.staleDependencies⟩

/-- The names of trees whose entity has no record. -/
def orphans (store : Store) : List String := store.trees.keys.filter (!store.configs.contains ·)

/-- The report of a tree whose entity has no record. -/
def orphanReport (entity : String) : Report := ⟨entity, [.withoutRecord entity], []⟩

/-- The reports of all tracked entities and of all trees without a record. -/
def inspectAll (store : Store) : List Report :=
  store.configs.keys.filterMap store.inspect ++ store.orphans.map orphanReport

end Store

end ScriptStore
