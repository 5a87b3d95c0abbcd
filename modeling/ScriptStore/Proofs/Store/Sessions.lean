import ScriptStore.Proofs.Fallible
import ScriptStore.Proofs.OrderedMap
import ScriptStore.Store.Operation

/-!
# Work on a store and what it comes to

Carried out write by write, each operation gives what the function of the same name computes from
the store as a whole.  If it succeeds it leaves the next store of that function, and if it fails it
leaves the store as it was: the checks of a reconciliation and of a clearing come before the first
write, and a result for a name without a function writes back the members that were there
(`Session.on_reconcile`, `Session.on_clear`, `Session.on_recordResult`).

So an operation that is performed is answered by what the function computes
(`Store.perform_reconcile`, `Store.perform_clear`, `Store.perform_recordResult`).
-/

namespace ScriptStore

/-! ## Attempts -/

namespace Store

/-- What an attempt gives, and the store after it: the next one, or the old one if it fails. -/
def attempt {α : Type} (store : Store) :
    Except SyncError (α × Store) → Except SyncError α × Store
  | .ok (value, next) => (.ok value, next)
  | .error error => (.error error, store)

/-- The answer to an attempt, and the store after it. -/
def settle {α : Type} (store : Store) (answered : α → Answer) :
    Except SyncError (α × Store) → Answer × Store
  | .ok (value, next) => (answered value, next)
  | .error error => (.failed error, store)

end Store

namespace Session

variable {α β : Type}

/-! ## Steps -/

/-- A step that fails ends the work, with the store that the step leaves. -/
theorem on_bind (work : Session α) (next : α → Session β) (store : Store) :
    (work >>= next).on store =
      match work.on store with
      | (.ok value, left) => (next value).on left
      | (.error error, left) => (.error error, left) := by
  cases h : work.on store with
  | mk result left =>
    cases result with
    | ok value => exact run_bind_of_ok h
    | error error => exact run_bind_of_error h

/-- Looking at the store leaves it alone. -/
theorem on_get (store : Store) : (get : Session Store).on store = (.ok store, store) := rfl

/-- A computation that may fail leaves the store alone, whether it fails or not. -/
theorem on_lift (result : Except SyncError α) (store : Store) :
    (liftM result : Session α).on store = (result, store) := rfl

/-- Looking up the record changes nothing, and it is refused as from the store itself. -/
theorem on_tracked (entity : String) (store : Store) :
    (tracked entity).on store = (store.tracked? entity, store) := by
  unfold tracked Store.tracked?
  rw [on_bind, on_get]
  dsimp only
  cases store.record? entity with
  | none => rfl
  | some record =>
    by_cases hname : record.name = entity
    · dsimp only
      rw [if_neg (not_not_intro hname), if_pos hname]
      rfl
    · dsimp only
      rw [if_pos hname, if_neg hname]
      rfl

/-- **A commit writes the record and the members, or nothing**: it is checked before the first of
the two. -/
theorem on_commit (entity : String) (outcome : PassOutcome) (store : Store) :
    (commit entity outcome).on store = store.attempt (store.commit entity outcome) := by
  unfold commit Store.commit
  rw [on_bind, on_get]
  dsimp only
  cases store.verify with
  | false => rfl
  | true =>
    rw [if_pos rfl, if_pos rfl]
    cases outcome.state.check with
    | error error => rfl
    | ok value => rfl

/-! ## Passes -/

/-- A pass that may be refused, and the commit of its outcome. -/
theorem on_pass (entity : String) (pass : Except SyncError PassOutcome) (store : Store) :
    (liftM pass >>= commit entity : Session EntityDiff).on store =
      store.attempt (pass >>= store.commit entity) := by
  rw [on_bind, on_lift]
  cases pass with
  | error error => rfl
  | ok outcome => exact on_commit entity outcome store

/-- What is tracked is what the table of records has. -/
theorem contains_of_tracked? {store : Store} {entity : String} {found : Option Record}
    (h : store.tracked? entity = .ok found) : store.configs.contains entity = found.isSome := by
  unfold Store.tracked? at h
  show (store.record? entity).isSome = _
  cases hrecord : store.record? entity with
  | none =>
    rw [hrecord] at h
    exact congrArg Option.isSome (Except.ok.inj h)
  | some record =>
    rw [hrecord] at h
    dsimp only at h
    split at h
    · exact congrArg Option.isSome (Except.ok.inj h)
    · cases h

/-- **A reconciliation, write by write, is the reconciliation of the store as a whole.** -/
theorem on_reconcile (entity : String) (body : Body) (store : Store) :
    (reconcile entity body).on store = store.attempt (store.reconcile entity body) := by
  unfold reconcile Store.reconcile
  rw [on_bind, on_tracked]
  cases htracked : store.tracked? entity with
  | error error => rfl
  | ok found =>
    dsimp only
    rw [on_bind, on_get]
    dsimp only
    -- a tracked entity is in the table, so the body alone decides how the pass is done
    rw [contains_of_tracked? htracked]
    cases found with
    | none =>
      rw [Option.isSome_none, Bool.and_false, if_neg Bool.false_ne_true]
      exact on_pass entity _ store
    | some record =>
      rw [Option.isSome_some, Bool.and_true]
      cases body.isEmpty with
      | true => exact on_pass entity (.ok _) store
      | false => exact on_pass entity _ store

/-- **A clearing, write by write, is the clearing of the store as a whole.** -/
theorem on_clear (entity : String) (store : Store) :
    (clear entity).on store = store.attempt (store.clear entity) := by
  unfold clear Store.clear
  rw [on_bind, on_tracked]
  cases store.tracked? entity with
  | error error => rfl
  | ok found =>
    cases found with
    | none => rfl
    | some record =>
      dsimp only
      rw [on_bind, on_get]
      dsimp only
      rw [on_bind, on_commit]
      show _ = store.attempt (store.commit entity _ >>= _)
      unfold Store.members
      cases store.commit entity
          (EntityState.clear ⟨record, (store.tree? entity).getD ∅⟩) with
      | error error => rfl
      | ok outcome => rfl

/-! ## Results of executions -/

/-- The members that are written back are those that were there, unless the data of a function is
among them. -/
theorem on_writeData (entity function : String) (data : Json) (store : Store) :
    (writeData entity function data).on store =
      match (store.tree? entity).bind fun members => members.setData? function data with
      | some members => (.ok true, { store with trees := store.trees.insert entity members })
      | none => (.ok false, store) := by
  unfold writeData
  rw [on_bind, on_get]
  dsimp only
  cases htree : store.tree? entity with
  | none => rfl
  | some members =>
    -- without such a function the members are written back as they were
    have hback : store.trees.insert entity members = store.trees := OrderedMap.insert_of_get? htree
    have hkept : (Except.ok false, { store with trees := store.trees.insert entity members }) =
        ((Except.ok false, store) : Except SyncError Bool × Store) := by rw [hback]
    dsimp only
    rw [Option.bind_some, MemberTree.writeData, MemberTree.setData?]
    cases members.get? function with
    | none => exact hkept
    | some member =>
      cases member with
      | function source old => rfl
      | var value => exact hkept

/-- The data of a declared function are set where the members have the function. -/
theorem setData?_of_record? {store : Store} {entity : String} {record : Record}
    (h : store.record? entity = some record) (function : String) (data : Json) :
    store.setData? entity function data =
      if record.hasFunction function then
        ((store.tree? entity).bind fun members => members.setData? function data).map
          fun members => { store with trees := store.trees.insert entity members }
      else none := by
  unfold Store.setData?
  rw [h]
  by_cases hfunction : record.hasFunction function = true
  · have hguard : (guard (record.hasFunction function = true) : Option Unit) = some () :=
      if_pos hfunction
    show Option.bind (guard (record.hasFunction function = true)) _ = _
    rw [hguard, if_pos hfunction]
    cases store.tree? entity with
    | none => rfl
    | some members =>
      show (members.setData? function data).bind _ = _
      rw [Option.bind_some]
      cases members.setData? function data with
      | none => rfl
      | some next => rfl
  · have hguard : (guard (record.hasFunction function = true) : Option Unit) = none :=
      if_neg hfunction
    show Option.bind (guard (record.hasFunction function = true)) _ = _
    rw [hguard, if_neg hfunction]
    rfl

/-- **A result, written in its place, is the result recorded in the store as a whole.** -/
theorem on_recordResult (entity function : String) (result : ExecutionResult) (store : Store) :
    (recordResult entity function result).on store =
      store.attempt (store.recordResult entity function result) := by
  unfold recordResult Store.recordResult
  rw [on_bind, on_get]
  dsimp only
  cases hrecord : store.record? entity with
  | none =>
    rw [Store.setData?, hrecord]
    rfl
  | some record =>
    rw [setData?_of_record? hrecord, Option.any_some]
    cases record.hasFunction function with
    | false => rfl
    | true =>
      rw [if_neg (by decide), if_pos rfl, on_bind, on_writeData]
      cases (store.tree? entity).bind fun members => members.setData? function
          (Execution.capture (entity ++ "." ++ function) result).data with
      | none => rfl
      | some members => rfl

end Session

/-! ## Operations -/

namespace Store

variable {α : Type}

/-- Work that comes to an attempt is answered as the attempt. -/
theorem answer_eq_settle {store : Store} {answered : α → Answer} {work : Session α}
    {result : Except SyncError (α × Store)} (h : work.on store = store.attempt result) :
    store.answer answered work = store.settle answered result := by
  rw [answer, h]
  cases result with
  | error error => rfl
  | ok outcome => rfl

/-- The answer to a reconciliation. -/
theorem perform_reconcile (store : Store) (entity : String) (body : Body) :
    store.perform (.reconcile entity body) =
      store.settle .reconciled (store.reconcile entity body) :=
  answer_eq_settle (Session.on_reconcile entity body store)

/-- The answer to a clearing. -/
theorem perform_clear (store : Store) (entity : String) :
    store.perform (.clear entity) = store.settle .cleared (store.clear entity) :=
  answer_eq_settle (Session.on_clear entity store)

/-- The answer to a result. -/
theorem perform_recordResult (store : Store) (entity function : String)
    (result : ExecutionResult) :
    store.perform (.recordResult entity function result) =
      store.settle .recorded (store.recordResult entity function result) :=
  answer_eq_settle (Session.on_recordResult entity function result store)

end Store

end ScriptStore
