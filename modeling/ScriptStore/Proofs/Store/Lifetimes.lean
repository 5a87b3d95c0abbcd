import Mathlib.Data.List.DropRight
import ScriptStore.Proofs.Store.Independence
import ScriptStore.Proofs.Store.Runs

/-!
# Lifetimes of execution data

The data of a function lives as long as the function does.  The lifetime of a function at the end of
a run is the longest last part of the run in which the function is there after every step
(`Store.lifetime`).  It begins with the step that declares the function anew, and the data of the
function is the last result that was recorded since then (`Store.data_follows_lifetime`).

One step is enough to know (`Store.slot_perform`): where the function is there after the step, its
data is what the step has recorded for it, or else what was there before.  A name without a function
has no data in an aligned store, so a function that comes anew finds nothing to take over, not even
if the name was a function before and a variable in between.
-/

namespace ScriptStore

namespace Store

/-! ## Functions and their data -/

/-- Whether a name is a function of an entity. -/
def declares (store : Store) (entity function : String) : Bool :=
  (store.record? entity).any (·.hasFunction function)

/-- The data of a function of an entity. -/
def data? (store : Store) (entity function : String) : Option Json :=
  (store.members entity).data? function

/-- The data that a pass finds for a function: empty where there is none. -/
def slot (store : Store) (entity function : String) : Json :=
  (store.data? entity function).getD emptyData

/-- An untracked entity has no functions, and neither has the record that it starts from. -/
theorem declares_iff_mem_stateOf (store : Store) (entity function : String) :
    store.declares entity function = true ↔
      function ∈ (store.stateOf entity).record.functions.keys := by
  rw [← Record.hasFunction_iff, declares, stateOf]
  cases store.record? entity with
  | none => rfl
  | some record => rfl

theorem declares_put (store : Store) (entity function : String) (state : EntityState) :
    (store.put entity state).declares entity function = true ↔
      function ∈ state.record.functions.keys := by
  rw [declares_iff_mem_stateOf, stateOf_put]

theorem slot_put (store : Store) (entity function : String) (state : EntityState) :
    (store.put entity state).slot entity function =
      (state.members.data? function).getD emptyData := by
  rw [slot, data?, members_put, if_pos rfl]

/-- A removed entity declares nothing. -/
theorem declares_without (store : Store) (entity function : String) :
    ¬ (store.without entity).declares entity function = true := by
  rw [declares, record?_without, if_pos rfl]
  exact Bool.false_ne_true

namespace AgreeOn

variable {entity : String} {s t : Store}

/-- They have the same data of a function. -/
theorem slot (h : AgreeOn entity s t) (function : String) :
    s.slot entity function = t.slot entity function := by
  rw [Store.slot, Store.slot, data?, data?, h.members]

end AgreeOn

namespace Aligned

variable {store : Store} {entity function : String}

/-- In an aligned store exactly the functions have data. -/
theorem declares_iff_data? (h : store.Aligned) :
    store.declares entity function = true ↔ ∃ data, store.data? entity function = some data := by
  rw [declares_iff_mem_stateOf, ← (h.stateOf entity).functionMembers]
  simp only [data?, MemberTree.data?_eq_some_iff]
  exact exists_comm

theorem data?_of_declares (h : store.Aligned) (hdeclares : store.declares entity function = true) :
    store.data? entity function = some (store.slot entity function) := by
  obtain ⟨data, hdata⟩ := h.declares_iff_data?.mp hdeclares
  rw [slot, hdata, Option.getD_some]

/-- A name without a function has nothing that a function could take over. -/
theorem slot_of_not_declares (h : store.Aligned)
    (hdeclares : ¬ store.declares entity function = true) :
    store.slot entity function = emptyData := by
  rw [h.declares_iff_data?, not_exists] at hdeclares
  rw [slot, Option.eq_none_iff_forall_ne_some.mpr hdeclares, Option.getD_none]

end Aligned

/-! ## Steps -/

/-- A step of a run: what was carried out, what was answered, and the store that it led to. -/
structure Step where
  operation : Operation
  answer : Answer
  store : Store

/-- The step that an operation makes. -/
def step (store : Store) (operation : Operation) : Step :=
  ⟨operation, (store.perform operation).1, (store.perform operation).2⟩

/-- The data that a step has recorded for a function of an entity. -/
def Step.result? (entity function : String) (step : Step) : Option Json :=
  match step.operation, step.answer with
  | .recordResult addressed executed _, .recorded execution =>
    if addressed = entity ∧ executed = function then some execution.data else none
  | _, _ => none

section Step

variable {store : Store} {entity function : String}

/-- What a step records is the data of a result that the store has taken. -/
theorem result?_step_recordResult (addressed executed : String) (result : ExecutionResult) :
    (store.step (.recordResult addressed executed result)).result? entity function =
      match store.recordResult addressed executed result with
      | .ok outcome =>
        if addressed = entity ∧ executed = function then some outcome.1.data else none
      | .error _ => none := by
  unfold step Step.result?
  rw [perform_recordResult]
  cases store.recordResult addressed executed result <;> rfl

/-- Only a recorded result of the function itself counts. -/
theorem result?_step_eq_some {operation : Operation} {data : Json}
    (h : (store.step operation).result? entity function = some data) :
    ∃ result outcome, operation = .recordResult entity function result ∧
      store.recordResult entity function result = .ok outcome ∧ outcome.1.data = data := by
  cases operation with
  | recordResult addressed executed result =>
    rw [result?_step_recordResult] at h
    cases hrecord : store.recordResult addressed executed result with
    | error error =>
      rw [hrecord] at h
      cases h
    | ok outcome =>
      rw [hrecord] at h
      dsimp only at h
      split at h
      · rename_i heq
        obtain ⟨rfl, rfl⟩ := heq
        exact ⟨result, outcome, rfl, hrecord, Option.some.inj h⟩
      · cases h
  | reconcile addressed body => cases h
  | clear addressed => cases h
  | insertEntity state => cases h
  | removeEntity addressed => cases h
  | setVerify verify => cases h

/-- Operations on other entities record nothing for the entity. -/
theorem result?_step_of_not_concerns {operation : Operation}
    (h : operation.concerns entity = false) :
    (store.step operation).result? entity function = none := by
  refine Option.eq_none_iff_forall_ne_some.mpr fun data hresult => ?_
  obtain ⟨result, outcome, rfl, -, -⟩ := result?_step_eq_some hresult
  simp [Operation.concerns, Operation.entity?] at h

/-- Nothing is recorded for a function that is not there. -/
theorem result?_step_of_not_declares {operation : Operation}
    (h : ¬ store.declares entity function = true) :
    (store.step operation).result? entity function = none := by
  refine Option.eq_none_iff_forall_ne_some.mpr fun data hresult => h ?_
  obtain ⟨result, outcome, rfl, hrecord, -⟩ := result?_step_eq_some hresult
  obtain ⟨record, tree, members, hrecord, hfunction, -, -, -⟩ :=
    setData?_eq_some_iff.mp (recordResult_eq_ok hrecord).2
  rw [declares, hrecord]
  exact hfunction

/-- A reconciliation keeps the data of functions that were there, and starts new ones without. -/
theorem slot_reconcile {body : Body} {diff : EntityDiff} {next : Store}
    (hreconcile : store.reconcile entity body = .ok (diff, next))
    (hdeclares : next.declares entity function = true) :
    next.slot entity function = store.slot entity function := by
  obtain ⟨-, hname, -, -, rfl⟩ := reconcile_eq_ok hreconcile
  have hbody := (Body.nameError?_eq_none_iff body).mp hname
  rw [declares_put, EntityState.mem_functions_withBody] at hdeclares
  obtain ⟨decl, hdecl, rfl⟩ := List.mem_map.mp hdeclares
  have hmember := EntityState.get?_members_withBody_function (store.stateOf entity) hbody hdecl
  have hdata := (MemberTree.data?_eq_some_iff _ _ _).mpr ⟨_, hmember⟩
  rw [slot_put, hdata]
  rfl

/-- Clearing leaves no function. -/
theorem declares_clear {diff : Option EntityDiff} {next : Store}
    (hclear : store.clear entity = .ok (diff, next)) :
    ¬ next.declares entity function = true := by
  rcases clear_eq_ok hclear with ⟨hrecord, -, rfl⟩ | ⟨record, -, -, -, rfl⟩
  · rw [declares, hrecord]
    exact Bool.false_ne_true
  · rw [declares_put, ← EntityState.withBody_empty, EntityState.mem_functions_withBody]
    exact List.not_mem_nil

/-- A result that is recorded for one function is the data of this function and of no other. -/
theorem slot_recordResult {executed : String} {result : ExecutionResult} {execution : Execution}
    {next : Store} (hrecord : store.recordResult entity executed result = .ok (execution, next)) :
    next.slot entity function =
      if executed = function then execution.data else store.slot entity function := by
  obtain ⟨record, tree, members, -, -, htree, hmembers, rfl⟩ :=
    setData?_eq_some_iff.mp (recordResult_eq_ok hrecord).2
  obtain ⟨source, old, -, rfl⟩ := MemberTree.setData?_eq_some_iff.mp hmembers
  rw [slot_put, MemberTree.data?, OrderedMap.get?_insert]
  split
  · rfl
  · rw [slot, data?, members_of_tree? htree]
    rfl

/-- **The step**: the data of a function that is there afterwards is what the step has recorded, or
else what was there before. -/
theorem slot_perform {operation : Operation} (hoperation : ∀ state, operation ≠ .insertEntity state)
    (hdeclares : (store.perform operation).2.declares entity function = true) :
    (store.perform operation).2.slot entity function =
      ((store.step operation).result? entity function).getD (store.slot entity function) := by
  cases hconcerns : operation.concerns entity with
  | false =>
    rw [result?_step_of_not_concerns hconcerns, Option.getD_none]
    exact ((perform_agree store hconcerns).slot function).symm
  | true =>
    have heq := Operation.concerns_iff.mp hconcerns
    cases operation with
    | reconcile addressed body =>
      obtain rfl := heq addressed rfl
      rw [perform_reconcile] at hdeclares ⊢
      cases hreconcile : store.reconcile addressed body with
      | error error => rfl
      | ok outcome =>
        rw [hreconcile] at hdeclares
        exact slot_reconcile hreconcile hdeclares
    | clear addressed =>
      obtain rfl := heq addressed rfl
      rw [perform_clear] at hdeclares ⊢
      cases hclear : store.clear addressed with
      | error error => rfl
      | ok outcome =>
        rw [hclear] at hdeclares
        exact absurd hdeclares (declares_clear hclear)
    | recordResult addressed executed result =>
      obtain rfl := heq addressed rfl
      rw [result?_step_recordResult, perform_recordResult]
      cases hrecord : store.recordResult addressed executed result with
      | error error => rfl
      | ok outcome =>
        dsimp only [settle]
        rw [slot_recordResult hrecord]
        -- the result of another function leaves the data alone
        by_cases hfunction : executed = function <;> simp [hfunction]
    | insertEntity state => exact absurd rfl (hoperation state)
    | removeEntity addressed =>
      obtain rfl := heq addressed rfl
      rw [perform, removeEntity_eq] at hdeclares ⊢
      cases hrecord : store.record? addressed with
      | none => rfl
      | some record =>
        rw [hrecord] at hdeclares
        -- a removed entity declares nothing, so there is no data to speak of
        exact absurd hdeclares (declares_without store addressed function)
    | setVerify verify => rfl

end Step

/-- What a step does to the data of a function that is there after the step. -/
structure Carries (entity function : String) (store : Store) (step : Step) : Prop where
  /-- The data of a function that was there is kept, unless a result was recorded for it. -/
  keeps : store.declares entity function = true → step.store.declares entity function = true →
    step.result? entity function = none →
    step.store.data? entity function = store.data? entity function
  /-- A function that was not there starts with empty data. -/
  starts : store.declares entity function = false → step.store.declares entity function = true →
    step.store.data? entity function = some emptyData

/-- Every step of an aligned store but an insertion carries data along. -/
theorem step_carries {store : Store} (h : store.Aligned) {operation : Operation}
    (hoperation : ∀ state, operation ≠ .insertEntity state) (entity function : String) :
    Carries entity function store (store.step operation) := by
  have hdata : (store.step operation).store.declares entity function = true →
      (store.step operation).store.data? entity function =
        some (((store.step operation).result? entity function).getD
          (store.slot entity function)) := by
    intro hdeclares
    rw [← slot_perform hoperation hdeclares]
    exact (perform_aligned h hoperation).1.data?_of_declares hdeclares
  constructor
  · intro hthere hdeclares hresult
    rw [hdata hdeclares, hresult, h.data?_of_declares hthere]
    rfl
  · intro hgone hdeclares
    rw [← Bool.not_eq_true] at hgone
    rw [hdata hdeclares, result?_step_of_not_declares hgone, h.slot_of_not_declares hgone]
    rfl

/-! ## Runs -/

/-- The steps of a run. -/
def steps (store : Store) : List Operation → List Step
  | [] => []
  | operation :: rest => store.step operation :: steps (store.step operation).store rest

/-- The answers of a run are those of its steps. -/
theorem answers_run (store : Store) (operations : List Operation) :
    (store.run operations).1 = (store.steps operations).map (·.answer) := by
  induction operations generalizing store with
  | nil => rfl
  | cons operation rest ih =>
    rw [run_cons, ih]
    rfl

theorem run_concat (store : Store) (before : List Operation) (operation : Operation) :
    (store.run (before ++ [operation])).2 = ((store.run before).2.perform operation).2 := by
  induction before generalizing store with
  | nil => rfl
  | cons first rest ih => exact ih (store.perform first).2

theorem steps_concat (store : Store) (before : List Operation) (operation : Operation) :
    store.steps (before ++ [operation]) =
      store.steps before ++ [(store.run before).2.step operation] := by
  induction before generalizing store with
  | nil => rfl
  | cons first rest ih => exact congrArg _ (ih (store.perform first).2)

/-- The last steps for which the function was there without a break. -/
def lifetime (entity function : String) (steps : List Step) : List Step :=
  steps.rtakeWhile (·.store.declares entity function)

/-- The data that steps have recorded for a function. -/
def results (entity function : String) (steps : List Step) : List Json :=
  steps.filterMap (·.result? entity function)

/-- The last result of the lifetime of a function, empty if there was none. -/
def lastResult (entity function : String) (steps : List Step) : Json :=
  (results entity function (lifetime entity function steps)).getLast?.getD emptyData

/-- A step at which the function is there continues the lifetime. -/
theorem lastResult_concat_of_declares {entity function : String} (before : List Step) {step : Step}
    (h : step.store.declares entity function = true) :
    lastResult entity function (before ++ [step]) =
      (step.result? entity function).getD (lastResult entity function before) := by
  rw [lastResult, lifetime, List.rtakeWhile_concat, if_pos h, results, List.filterMap_append,
    List.getLast?_append]
  cases hresult : step.result? entity function with
  | none => simp [hresult, lastResult, results, lifetime]
  | some data => simp [hresult]

/-- A step at which the function is not there ends the lifetime. -/
theorem lastResult_concat_of_not_declares {entity function : String} (before : List Step)
    {step : Step} (h : ¬ step.store.declares entity function = true) :
    lastResult entity function (before ++ [step]) = emptyData := by
  rw [lastResult, lifetime, List.rtakeWhile_concat, if_neg h]
  rfl

/-- A run without insertions has none before its last operation. -/
theorem notMem_of_concat {before : List Operation} {operation : Operation}
    (h : ∀ state, Operation.insertEntity state ∉ before ++ [operation]) :
    (∀ state, Operation.insertEntity state ∉ before) ∧
      ∀ state, operation ≠ .insertEntity state := by
  simp only [List.mem_append, List.mem_singleton, not_or] at h
  exact ⟨fun state => (h state).1, fun state => Ne.symm (h state).2⟩

/-- The run: what a pass would find for a function is the last result of its lifetime. -/
theorem slot_run (verify : Bool) {operations : List Operation}
    (h : ∀ state, Operation.insertEntity state ∉ operations) (entity function : String) :
    ((empty verify).run operations).2.slot entity function =
      lastResult entity function ((empty verify).steps operations) := by
  -- the induction is on the end of the run, as lifetimes are read from there
  induction operations using List.reverseRecOn with
  | nil => rfl
  | append_singleton before operation ih =>
    have haligned := (run_aligned (aligned_empty verify) h).1
    obtain ⟨hbefore, hoperation⟩ := notMem_of_concat h
    rw [run_concat] at haligned ⊢
    rw [steps_concat]
    by_cases hdeclares :
        (((empty verify).run before).2.perform operation).2.declares entity function = true
    · rw [slot_perform hoperation hdeclares, lastResult_concat_of_declares _ hdeclares, ih hbefore]
    · rw [haligned.slot_of_not_declares hdeclares, lastResult_concat_of_not_declares _ hdeclares]

/-- **Data lives as long as its function.**  In a run from the empty store without insertions, the
data of every function that is there at the end is the last result of its lifetime, and empty if
there was none.  On the way, data changes only with a result that is recorded for the function, and
a function that comes anew starts with empty data. -/
theorem data_follows_lifetime (verify : Bool) (operations : List Operation)
    (h : ∀ state, Operation.insertEntity state ∉ operations) (entity function : String) :
    (((empty verify).run operations).2.declares entity function = true →
      ((empty verify).run operations).2.data? entity function =
        some ((results entity function
          (lifetime entity function ((empty verify).steps operations))).getLast?.getD
            emptyData)) ∧
    ∀ before operation, before ++ [operation] <+: operations →
      Carries entity function ((empty verify).run before).2
        (((empty verify).run before).2.step operation) := by
  constructor
  · intro hdeclares
    have haligned := (run_aligned (aligned_empty verify) h).1
    rw [haligned.data?_of_declares hdeclares, slot_run verify h]
    rfl
  · intro before operation hpart
    obtain ⟨hbefore, hoperation⟩ :=
      notMem_of_concat fun state hmem => h state (hpart.subset hmem)
    exact step_carries (run_aligned (aligned_empty verify) hbefore).1 hoperation entity function

/-- A run in which a function is executed, becomes a variable and comes back beside another one,
which is executed and edited; two results are refused. -/
def relaunchingRun : List Operation :=
  [.reconcile "Page" ⟨[⟨"run", "() => 1", []⟩], []⟩,
    .recordResult "Page" "run" (.value (.bool true)),
    .reconcile "Page" ⟨[], [⟨"run", .null⟩]⟩,
    .recordResult "Page" "run" (.value (.bool false)),
    .reconcile "Page" ⟨[⟨"run", "() => 1", []⟩, ⟨"load", "() => 2", []⟩], []⟩,
    .recordResult "Page" "load" (.value (.str "a")),
    .recordResult "Chart" "load" .notFinite,
    .reconcile "Page" ⟨[⟨"load", "() => 3", []⟩, ⟨"run", "() => 1", []⟩], []⟩]

/-- The function that came back is without data, and the edited one has kept its own. -/
theorem relaunchingRun_follows_lifetime :
    (∀ state, Operation.insertEntity state ∉ relaunchingRun) ∧
      ((empty true).run relaunchingRun).2.data? "Page" "run" = some emptyData ∧
      ((empty true).run relaunchingRun).2.data? "Page" "load" = some (.str "a") := by
  have hinsert : ∀ state, Operation.insertEntity state ∉ relaunchingRun := by
    intro state
    simp [relaunchingRun]
  have hrun := (data_follows_lifetime true relaunchingRun hinsert "Page" "run").1 (by decide)
  have hload := (data_follows_lifetime true relaunchingRun hinsert "Page" "load").1 (by decide)
  have hresults : results "Page" "run"
      (lifetime "Page" "run" ((empty true).steps relaunchingRun)) = [] := by decide
  have hresults' : results "Page" "load"
      (lifetime "Page" "load" ((empty true).steps relaunchingRun)) = [.str "a"] := by decide
  rw [hresults] at hrun
  rw [hresults'] at hload
  exact ⟨hinsert, hrun, hload⟩

end Store

end ScriptStore
