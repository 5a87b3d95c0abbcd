import ScriptStore.Proofs.Pass.Blanking
import ScriptStore.Proofs.Store.Failures
import ScriptStore.Proofs.Store.Independence

/-!
# Results of executions between passes

Since no pass looks at data, a result may come in before or after a reconciliation that keeps the
function: the data is set in another tree, but the passes are the same up to it, and the data that
they carry along is the recorded one either way.  So the executions of functions and the edits of
their sources may take turns in any order, as far as the functions survive the edits.
-/

namespace ScriptStore

namespace Store

variable {store : Store} {entity function : String}

/-! ## Results in place -/

/-- Of two states that are put in one place the last one stays. -/
theorem put_put (store : Store) (entity : String) (state last : EntityState) :
    (store.put entity state).put entity last = store.put entity last := by
  unfold put
  rw [OrderedMap.insert_insert, OrderedMap.insert_insert]

/-- Data is set in the state that was put in place. -/
theorem setData?_put (store : Store) (entity : String) {state : EntityState}
    (hdeclared : state.record.hasFunction function = true)
    {data : Json} {members : MemberTree}
    (hset : state.members.setData? function data = some members) :
    (store.put entity state).setData? entity function data =
      some (store.put entity ⟨state.record, members⟩) := by
  refine setData?_eq_some_iff.mpr ⟨state.record, state.members, members, ?_, hdeclared, ?_, hset,
    (put_put store entity state _).symm⟩
  · rw [record?_put, if_pos rfl]
  · rw [tree?_put, if_pos rfl]

/-- Setting data puts the state of the entity with this data in place. -/
theorem stateOf_of_setData? {data : Json} {next : Store}
    (h : store.setData? entity function data = some next) :
    store.record? entity = some (store.stateOf entity).record ∧
      ∃ members, (store.stateOf entity).members.setData? function data = some members ∧
        next = store.put entity ⟨(store.stateOf entity).record, members⟩ := by
  obtain ⟨record, tree, members, hrecord, -, htree, hmembers, rfl⟩ := setData?_eq_some_iff.mp h
  have hstate : store.stateOf entity = ⟨record, tree⟩ := by
    rw [stateOf, hrecord, members_of_tree? htree]
    rfl
  rw [hstate]
  exact ⟨hrecord, members, hmembers, rfl⟩

theorem recordResult_of_setData? {result : ExecutionResult} {next : Store}
    (h : store.setData? entity function
      (Execution.capture (entity ++ "." ++ function) result).data = some next) :
    store.recordResult entity function result =
      .ok (Execution.capture (entity ++ "." ++ function) result, next) := by
  unfold recordResult
  dsimp only
  rw [h]

/-! ## Two operations in a row -/

theorem run_pair {first second : Operation} {answer other : Answer} {next last : Store}
    (hfirst : store.perform first = (answer, next))
    (hsecond : next.perform second = (other, last)) :
    store.run [first, second] = ([answer, other], last) := by
  rw [run_cons, hfirst, run_cons, hsecond]
  rfl

/-! ## Reconciliation up to data -/

/-- A reconciliation fails for the same reasons, whatever data the entity has. -/
theorem reconcile_eq_error_congr {other : Store}
    (hrecord : store.record? entity = other.record? entity) (hverify : store.verify = other.verify)
    (hdata : (store.stateOf entity).SameButData (other.stateOf entity))
    (body : Body) (error : SyncError) :
    store.reconcile entity body = .error error ↔ other.reconcile entity body = .error error := by
  have htracked : store.tracked? entity = other.tracked? entity := by
    unfold tracked?
    rw [hrecord]
  have hfiled : store.Filed entity ↔ other.Filed entity := by
    unfold Filed
    rw [hrecord]
  have hcheck : ((store.stateOf entity).withBody body).check =
      ((other.stateOf entity).withBody body).check := (hdata.withBody body).check
  rw [reconcile_eq_error_iff, reconcile_eq_error_iff, htracked, hfiled, hverify, hcheck]

/-- **Results commute with reconciliations** that keep the function, also with those that fail. -/
theorem run_recordResult_comm (h : store.HasFunction entity function) {body : Body}
    (hfunction : function ∈ body.functionNames) (result : ExecutionResult) :
    ∃ answer execution last,
      store.run [.reconcile entity body, .recordResult entity function result] =
        ([answer, .recorded execution], last) ∧
      store.run [.recordResult entity function result, .reconcile entity body] =
        ([.recorded execution, answer], last) := by
  let execution := Execution.capture (entity ++ "." ++ function) result
  cases hset : store.setData? entity function execution.data with
  | none => exact absurd h ((setData?_eq_none_iff function execution.data).mp hset)
  | some recorded =>
    have hresult := perform_recordResult store entity function result
    rw [recordResult_of_setData? hset] at hresult
    obtain ⟨hrecord, members, hmembers, rfl⟩ := stateOf_of_setData? hset
    -- the entity before and the store after the result: they differ in data only
    let state := store.stateOf entity
    let next := store.put entity ⟨state.record, members⟩
    have hdata : state.SameButData (next.stateOf entity) := by
      rw [stateOf_put]
      exact (EntityState.sameButData_of_setData? hmembers).symm
    have hkept : store.record? entity = next.record? entity := by
      rw [record?_put, if_pos rfl, hrecord]
    have hfirst := perform_reconcile store entity body
    have hsecond := perform_reconcile next entity body
    cases hattempt : store.reconcile entity body with
    | error error =>
      have hagain := (reconcile_eq_error_congr hkept rfl hdata body error).mp hattempt
      rw [hattempt] at hfirst
      rw [hagain] at hsecond
      exact ⟨.failed error, execution, next, run_pair hfirst hresult, run_pair hresult hsecond⟩
    | ok outcome =>
      obtain ⟨diff, passed⟩ := outcome
      obtain ⟨hfiled, hnames, hviolations, rfl, rfl⟩ := reconcile_eq_ok hattempt
      have hbody : body.WellNamed := (Body.nameError?_eq_none_iff body).mp hnames
      have hfiledNext : next.Filed entity := fun found hfound => hfiled found (hkept.trans hfound)
      have hdeclared : (state.withBody body).record.hasFunction function = true := by
        rw [Record.hasFunction_iff, EntityState.mem_functions_withBody]
        exact hfunction
      -- the data is set in what the reconciliation leaves, and the reconciliation finds it set
      have hlast :=
        perform_recordResult (store.put entity (state.withBody body)) entity function result
      rw [recordResult_of_setData? (setData?_put store entity hdeclared
        (EntityState.setData?_withBody state hbody hfunction hmembers))] at hlast
      have hagain := reconcile_of_violations hfiledNext hnames fun hverify => by
        rw [← (hdata.withBody body).violations, hviolations hverify]
      rw [← hdata.classify, stateOf_put, put_put] at hagain
      rw [hattempt] at hfirst
      rw [hagain] at hsecond
      exact ⟨.reconciled (state.classify body), execution, _, run_pair hfirst hlast,
        run_pair hresult hsecond⟩

/-! ## The main theorem -/

/-- **Data of executions is irrelevant.**  Two entities with the same record whose members differ in
data only have the same differences and reports, and passes and clearings give the same differences
and records and members that differ in data only again.  So the result of a function that an entity
has and a body declares may be recorded before or after a reconciliation with the body: the answers
and the store are the same. -/
theorem execution_data_is_irrelevant :
    (∀ (record : Record) (a b : MemberTree), a.withoutData = b.withoutData →
      (∀ body, EntityState.diff ⟨record, a⟩ body = EntityState.diff ⟨record, b⟩ body ∧
        (EntityState.synchronize ⟨record, a⟩ body).map PassOutcome.withoutData =
          (EntityState.synchronize ⟨record, b⟩ body).map PassOutcome.withoutData) ∧
      (EntityState.clear ⟨record, a⟩).withoutData = (EntityState.clear ⟨record, b⟩).withoutData ∧
      EntityState.inspect ⟨record, a⟩ = EntityState.inspect ⟨record, b⟩) ∧
    ∀ (store : Store) (entity function : String) (body : Body) (result : ExecutionResult),
      store.HasFunction entity function → function ∈ body.functionNames →
      ∃ answer execution last,
        store.run [.reconcile entity body, .recordResult entity function result] =
          ([answer, .recorded execution], last) ∧
        store.run [.recordResult entity function result, .reconcile entity body] =
          ([.recorded execution, answer], last) := by
  refine ⟨fun record a b h => ?_, fun store entity function body result hhas hfunction =>
    run_recordResult_comm hhas hfunction result⟩
  have hdata : EntityState.SameButData ⟨record, a⟩ ⟨record, b⟩ := congrArg (EntityState.mk record) h
  exact ⟨fun body => ⟨hdata.diff body, hdata.synchronize body⟩, hdata.clear, hdata.inspect⟩

/-- A verified store with an entity that has a function and a variable. -/
def executedStore : Store :=
  (Store.empty true).put "Page"
    (((EntityState.new "Page").addFunction "load" "() => 1" []).addVariable "count" .null)

/-- A body that keeps the function, with another source. -/
def reloadingBody : Body := ⟨[⟨"load", "() => 2", []⟩], [⟨"ready", .null⟩]⟩

/-- The members of the entity after an execution of its function. -/
def executedMembers (data : Json) : MemberTree :=
  ((∅ : MemberTree).insert "load" (.function "() => 1" data)).insert "count" (.var .null)

/-- Members with the results of different executions are reported alike, and the function keeps its
result through the edit or gets it afterwards. -/
theorem executedStore_commutes :
    (executedMembers emptyData).withoutData = (executedMembers (.str "old")).withoutData ∧
      EntityState.inspect ⟨Record.new "Page", executedMembers emptyData⟩ =
        EntityState.inspect ⟨Record.new "Page", executedMembers (.str "old")⟩ ∧
      executedStore.HasFunction "Page" "load" ∧ "load" ∈ reloadingBody.functionNames ∧
      ∃ answer execution last,
        executedStore.run [.reconcile "Page" reloadingBody,
            .recordResult "Page" "load" (.value (.str "done"))] =
          ([answer, .recorded execution], last) ∧
        executedStore.run [.recordResult "Page" "load" (.value (.str "done")),
            .reconcile "Page" reloadingBody] = ([.recorded execution, answer], last) ∧
        (last.members "Page").get? "load" = some (.function "() => 2" (.str "done")) := by
  have hblank : (executedMembers emptyData).withoutData =
      (executedMembers (.str "old")).withoutData := by decide
  have hhas : executedStore.HasFunction "Page" "load" := ⟨_, rfl, by decide, _, _, rfl⟩
  have hfunction : "load" ∈ reloadingBody.functionNames := by decide
  obtain ⟨hpasses, hruns⟩ := execution_data_is_irrelevant
  obtain ⟨-, -, hinspect⟩ := hpasses (Record.new "Page") _ _ hblank
  obtain ⟨answer, execution, last, hafter, hbefore⟩ :=
    hruns executedStore "Page" "load" reloadingBody (.value (.str "done")) hhas hfunction
  refine ⟨hblank, hinspect, hhas, hfunction, answer, execution, last, hafter, hbefore, ?_⟩
  have hlast : last = (executedStore.run [.reconcile "Page" reloadingBody,
      .recordResult "Page" "load" (.value (.str "done"))]).2 := by rw [hafter]
  rw [hlast]
  decide

end Store

end ScriptStore
