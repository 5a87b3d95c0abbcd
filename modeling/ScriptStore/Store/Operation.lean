import ScriptStore.Store.Session

/-!
# Sequences of operations

The operations that change a store, as data, and their answers. A sequence is carried out one
operation after the other, each on the store that the last one left, be it by a failure.
-/

namespace ScriptStore

/-! ## Operations and answers -/

namespace Store

/-- An operation that may change a store. -/
inductive Operation where
  | reconcile (entity : String) (body : Body)
  | clear (entity : String)
  | recordResult (entity function : String) (result : ExecutionResult)
  | insertEntity (state : EntityState)
  | removeEntity (entity : String)
  | setVerify (verify : Bool)
  deriving DecidableEq

/-- What an operation answers. -/
inductive Answer where
  | reconciled (diff : EntityDiff)
  | cleared (diff : Option EntityDiff)
  | recorded (execution : Execution)
  | inserted
  | removed (state : Option EntityState)
  | verifySet (verify : Bool)
  | failed (error : SyncError)
  deriving DecidableEq

/-- The entity that an operation addresses. -/
def Operation.entity? : Operation → Option String
  | .reconcile entity _ => some entity
  | .clear entity => some entity
  | .recordResult entity _ _ => some entity
  | .insertEntity state => some state.record.name
  | .removeEntity entity => some entity
  | .setVerify _ => none

/-! ## Carrying out -/

/-- The answer to work on a store, and the store that the work leaves. -/
def answer {α : Type} (store : Store) (answered : α → Answer) (work : Session α) :
    Answer × Store :=
  match work.on store with
  | (.ok value, left) => (answered value, left)
  | (.error error, left) => (.failed error, left)

/-- Carries out an operation. -/
def perform (store : Store) : Operation → Answer × Store
  | .reconcile entity body => store.answer .reconciled (Session.reconcile entity body)
  | .clear entity => store.answer .cleared (Session.clear entity)
  | .recordResult entity function result =>
    store.answer .recorded (Session.recordResult entity function result)
  | .insertEntity state => (.inserted, store.insertEntity state)
  | .removeEntity entity =>
    let (removed, next) := store.removeEntity entity
    (.removed removed, next)
  | .setVerify verify => (.verifySet verify, { store with verify := verify })

/-- Carries out operations in order and gives the answer of each. -/
def run (store : Store) : List Operation → List Answer × Store
  | [] => ([], store)
  | operation :: rest =>
    let (answer, next) := store.perform operation
    let (answers, last) := run next rest
    (answer :: answers, last)

end Store

end ScriptStore
