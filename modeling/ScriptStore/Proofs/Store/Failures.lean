import ScriptStore.Proofs.Pass.Tables
import ScriptStore.Proofs.Store.Passes
import ScriptStore.Proofs.Store.Sessions

/-!
# When operations fail

A reconciliation has three causes of failure, and they are tried in order: the entity is kept under
a foreign name, the body has an offending name, and verification refuses the outcome.  Clearing
knows the first and the third.  Results are refused exactly for names without a declared function
and a member that is a function, whatever the result is.

The statements hold for every store, consistent or not, and they are about the operations as they
are carried out, one write after the other.  They say both that an operation fails in these cases
and that it succeeds in all others, and that the work is atomic: no write comes before a failure
that would show in the store that is left (`Store.failures_are_exact`).
-/

namespace ScriptStore

namespace Store

variable {store : Store} {entity : String}

/-! ## Records under foreign names -/

/-- The lookup of the record refuses a record of another name, and nothing else. -/
theorem tracked?_eq_error_iff (error : SyncError) :
    store.tracked? entity = .error error ↔
      ∃ record, store.record? entity = some record ∧ record.name ≠ entity ∧
        error = .inconsistent entity (.misfiled entity record.name) := by
  unfold tracked?
  cases hrecord : store.record? entity with
  | none => simp
  | some record =>
    by_cases hname : record.name = entity
    · simp [hname]
    · dsimp only
      rw [if_neg hname]
      simp [hname, eq_comm (a := error)]

/-! ## Reconciliation -/

/-- A store that keeps a foreign record for the entity refuses every body. -/
theorem reconcile_of_tracked?_error {error : SyncError} (h : store.tracked? entity = .error error)
    (body : Body) : store.reconcile entity body = .error error := by
  rw [reconcile, h]
  rfl

/-- **Failures of a reconciliation**, in the order in which their causes are tried. -/
theorem reconcile_eq_error_iff (body : Body) (error : SyncError) :
    store.reconcile entity body = .error error ↔
      store.tracked? entity = .error error ∨
      (store.Filed entity ∧ ∃ fault, body.nameError? = some fault ∧
        error = .malformedBody entity fault) ∨
      (store.Filed entity ∧ body.nameError? = none ∧ store.verify = true ∧
        ((store.stateOf entity).withBody body).check = .error error) := by
  cases htracked : store.tracked? entity with
  | error found =>
    have hfiled : ¬ store.Filed entity := by
      intro hfiled
      rw [tracked?_of_filed hfiled] at htracked
      cases htracked
    rw [reconcile_of_tracked?_error htracked]
    simp [hfiled]
  | ok found =>
    have hfiled := filed_of_tracked? htracked
    rw [reconcile_of_filed hfiled]
    cases hfault : body.nameError? with
    | some fault => simp [hfiled, eq_comm (a := error)]
    | none => simp [hfiled, commit_eq_error_iff]

/-! ## Clearing -/

/-- **Failures of a clearing**: a foreign record, or an outcome that verification refuses. -/
theorem clear_eq_error_iff (error : SyncError) :
    store.clear entity = .error error ↔
      store.tracked? entity = .error error ∨
      ∃ record, store.record? entity = some record ∧ record.name = entity ∧
        store.verify = true ∧
        (EntityState.clear ⟨record, store.members entity⟩).state.check = .error error := by
  cases htracked : store.tracked? entity with
  | error found =>
    obtain ⟨record, hrecord, hname, -⟩ := (tracked?_eq_error_iff found).mp htracked
    have hclear : store.clear entity = .error found := by
      rw [clear, htracked]
      rfl
    rw [hclear, hrecord]
    simp [hname]
  | ok found =>
    have hfiled := filed_of_tracked? htracked
    rw [clear_of_filed hfiled]
    cases hrecord : store.record? entity with
    | none => simp
    | some record =>
      have hname := hfiled record hrecord
      dsimp only
      have hmap : ((store.commit entity (EntityState.clear ⟨record, store.members entity⟩)).map
          fun outcome => (some outcome.1, outcome.2)) = .error error ↔
          store.commit entity (EntityState.clear ⟨record, store.members entity⟩) =
            .error error := by
        cases store.commit entity (EntityState.clear ⟨record, store.members entity⟩) <;>
          simp [Except.map]
      rw [hmap, commit_eq_error_iff]
      simp [hname]

/-- A clearing answers nothing exactly for an untracked entity, and then does nothing. -/
theorem clear_eq_none_iff (next : Store) :
    store.clear entity = .ok (none, next) ↔ store.record? entity = none ∧ next = store := by
  cases htracked : store.tracked? entity with
  | error found =>
    obtain ⟨record, hrecord, -⟩ := (tracked?_eq_error_iff found).mp htracked
    have hclear : store.clear entity = .error found := by
      rw [clear, htracked]
      rfl
    rw [hclear, hrecord]
    simp
  | ok found =>
    rw [clear_of_filed (filed_of_tracked? htracked)]
    cases hrecord : store.record? entity with
    | none => simp [eq_comm]
    | some record =>
      dsimp only
      cases store.commit entity (EntityState.clear ⟨record, store.members entity⟩) <;>
        simp [Except.map]

/-! ## Results of executions -/

/-- The function of an entity is declared by its record and has a member that is a function. -/
def HasFunction (store : Store) (entity function : String) : Prop :=
  ∃ record, store.record? entity = some record ∧ record.hasFunction function = true ∧
    ∃ source data, (store.members entity).get? function = some (.function source data)

/-- The data of a function can be replaced exactly if the entity has the function. -/
theorem setData?_eq_none_iff (function : String) (data : Json) :
    store.setData? entity function data = none ↔ ¬ store.HasFunction entity function := by
  rw [Option.eq_none_iff_forall_ne_some, ← not_exists, not_iff_not]
  constructor
  · rintro ⟨next, hset⟩
    obtain ⟨record, tree, members, hrecord, hfunction, htree, hmembers, -⟩ :=
      setData?_eq_some_iff.mp hset
    obtain ⟨source, old, hmember, -⟩ := MemberTree.setData?_eq_some_iff.mp hmembers
    exact ⟨record, hrecord, hfunction, source, old, members_of_tree? htree ▸ hmember⟩
  · rintro ⟨record, hrecord, hfunction, source, old, hmember⟩
    cases htree : store.tree? entity with
    | none =>
      rw [members, htree] at hmember
      cases hmember
    | some tree =>
      rw [members_of_tree? htree] at hmember
      have hset : tree.setData? function data =
          some (tree.insert function (.function source data)) :=
        MemberTree.setData?_eq_some_iff.mpr ⟨source, old, hmember, rfl⟩
      exact ⟨_, setData?_eq_some_iff.mpr
        ⟨record, tree, _, hrecord, hfunction, htree, hset, rfl⟩⟩

/-- **Failures of a result**: the entity does not have the function.  What the result is does not
matter. -/
theorem recordResult_eq_error_iff (function : String) (result : ExecutionResult)
    (error : SyncError) :
    store.recordResult entity function result = .error error ↔
      ¬ store.HasFunction entity function ∧ error = .unknownFunction entity function := by
  rw [← setData?_eq_none_iff function
    (Execution.capture (entity ++ "." ++ function) result).data, recordResult]
  cases store.setData? entity function
    (Execution.capture (entity ++ "." ++ function) result).data <;> simp [eq_comm]

/-! ## Failed work -/

/-- Work is atomic if it leaves the store as it was whenever it fails. -/
def Atomic {α : Type} (work : Session α) : Prop :=
  ∀ store error, (work.on store).1 = .error error → (work.on store).2 = store

variable {α : Type} {result : Except SyncError (α × Store)}

/-- An attempt fails as what is attempted. -/
theorem attempt_eq_error_iff (error : SyncError) :
    (store.attempt result).1 = .error error ↔ result = .error error := by
  cases result with
  | error found => rw [attempt, Except.error.injEq, Except.error.injEq]
  | ok outcome =>
    constructor
    · rintro ⟨⟩
    · rintro ⟨⟩

/-- A failed attempt leaves the store as it was. -/
theorem attempt_of_error {error : SyncError} (h : (store.attempt result).1 = .error error) :
    (store.attempt result).2 = store := by
  rw [(attempt_eq_error_iff error).mp h]
  rfl

/-- Work that comes to attempts is atomic. -/
theorem Atomic.of_attempts {work : Session α} {results : Store → Except SyncError (α × Store)}
    (h : ∀ store, work.on store = store.attempt (results store)) : Atomic work := by
  intro store error herror
  rw [h] at herror ⊢
  exact attempt_of_error herror

/-- A failed answer to an attempt leaves the store as it was. -/
theorem settle_of_failed {answered : α → Answer} {error : SyncError}
    (hanswered : ∀ value, answered value ≠ .failed error)
    (h : (store.settle answered result).1 = .failed error) :
    (store.settle answered result).2 = store := by
  cases result with
  | error found => rfl
  | ok outcome => exact absurd h (hanswered outcome.1)

/-- An operation that fails leaves the store as it was. -/
theorem perform_of_failed {operation : Operation} {error : SyncError}
    (h : (store.perform operation).1 = .failed error) : (store.perform operation).2 = store := by
  cases operation with
  | reconcile entity body =>
    rw [perform_reconcile] at h ⊢
    exact settle_of_failed (fun _ => by rintro ⟨⟩) h
  | clear entity =>
    rw [perform_clear] at h ⊢
    exact settle_of_failed (fun _ => by rintro ⟨⟩) h
  | recordResult entity function result =>
    rw [perform_recordResult] at h ⊢
    exact settle_of_failed (fun _ => by rintro ⟨⟩) h
  | insertEntity state => cases h
  | removeEntity entity => cases h
  | setVerify verify => cases h

/-! ## The causes of failures -/

/-- The causes of a failed reconciliation: the violation that is reported is the first one of the
outcome that the pass computes. -/
theorem reconcile_eq_error_iff_cause (body : Body) (error : SyncError) :
    store.reconcile entity body = .error error ↔
      (∃ record, store.record? entity = some record ∧ record.name ≠ entity ∧
        error = .inconsistent entity (.misfiled entity record.name)) ∨
      (store.Filed entity ∧ ∃ fault, body.validate = .error fault ∧
        error = .malformedBody entity fault) ∨
      (store.Filed entity ∧ store.verify = true ∧ ∃ outcome violation,
        (store.stateOf entity).synchronize body = .ok outcome ∧
        outcome.state.violations.head? = some violation ∧
        error = .inconsistent entity violation) := by
  rw [reconcile_eq_error_iff, tracked?_eq_error_iff]
  -- the causes are tried in order; only the last one asks for the outcome of the pass
  refine or_congr_right (or_congr ?_ ?_)
  · simp only [Body.validate_eq_error_iff]
  · refine and_congr_right fun hfiled => ?_
    constructor
    · rintro ⟨hbody, hverify, hcheck⟩
      obtain ⟨violation, hhead, rfl⟩ := (EntityState.check_eq_error_iff _ error).mp hcheck
      refine ⟨hverify, _, violation, EntityState.synchronize_of_nameError? _ hbody, hhead, ?_⟩
      show SyncError.inconsistent (store.stateOf entity).record.name violation = _
      rw [name_stateOf hfiled]
    · rintro ⟨hverify, outcome, violation, houtcome, hhead, rfl⟩
      obtain ⟨hbody, rfl⟩ := EntityState.synchronize_eq_ok houtcome
      refine ⟨hbody, hverify, (EntityState.check_eq_error_iff _ _).mpr ⟨violation, hhead, ?_⟩⟩
      show _ = SyncError.inconsistent (store.stateOf entity).record.name violation
      rw [name_stateOf hfiled]

/-- The causes of a failed clearing: the violation that is reported is the first one of the cleared
entity. -/
theorem clear_eq_error_iff_cause (error : SyncError) :
    store.clear entity = .error error ↔
      (∃ record, store.record? entity = some record ∧ record.name ≠ entity ∧
        error = .inconsistent entity (.misfiled entity record.name)) ∨
      ∃ record violation, store.record? entity = some record ∧ record.name = entity ∧
        store.verify = true ∧
        (EntityState.clear ⟨record, store.members entity⟩).state.violations.head? =
          some violation ∧
        error = .inconsistent entity violation := by
  rw [clear_eq_error_iff, tracked?_eq_error_iff]
  refine or_congr_right (exists_congr fun record => ?_)
  constructor
  · rintro ⟨hrecord, hname, hverify, hcheck⟩
    obtain ⟨violation, hhead, rfl⟩ := (EntityState.check_eq_error_iff _ error).mp hcheck
    refine ⟨violation, hrecord, hname, hverify, hhead, ?_⟩
    show SyncError.inconsistent record.name violation = _
    rw [hname]
  · rintro ⟨violation, hrecord, hname, hverify, hhead, rfl⟩
    refine ⟨hrecord, hname, hverify,
      (EntityState.check_eq_error_iff _ _).mpr ⟨violation, hhead, ?_⟩⟩
    show _ = SyncError.inconsistent record.name violation
    rw [hname]

/-- A clearing, write by write, answers nothing exactly for an untracked entity, and then it leaves
the store as it was. -/
theorem on_clear_eq_none_iff :
    (((Session.clear entity).on store).1 = .ok none ↔ store.record? entity = none) ∧
      (store.record? entity = none → (Session.clear entity).on store = (.ok none, store)) := by
  have hnone : store.record? entity = none →
      (Session.clear entity).on store = (.ok none, store) := by
    intro hrecord
    rw [Session.on_clear, (clear_eq_none_iff store).mpr ⟨hrecord, rfl⟩]
    rfl
  refine ⟨⟨fun h => ?_, fun h => by rw [hnone h]⟩, hnone⟩
  rw [Session.on_clear] at h
  cases hclear : store.clear entity with
  | error error =>
    rw [hclear] at h
    cases h
  | ok outcome =>
    obtain ⟨answer, next⟩ := outcome
    rw [hclear] at h
    obtain rfl := Except.ok.inj h
    exact ((clear_eq_none_iff next).mp hclear).1

/-! ## The main theorem -/

/-- **Failures are exact and atomic.**  Carried out write by write, a reconciliation fails exactly
if the entity is kept under a foreign name, or else the body has an offending name, or else
verification finds a violation in the outcome, and it reports this cause.  Clearing fails exactly
for the first and the third cause, and answers nothing exactly for an untracked entity.  A result is
refused exactly if the entity does not have the function, whatever the result is.  The work is
atomic: where it fails, and where a clearing answers nothing, the store that it leaves is the one
that it has found, and the same holds for every operation that is answered by a failure. -/
theorem failures_are_exact (store : Store) (entity : String) :
    (∀ body error, ((Session.reconcile entity body).on store).1 = .error error ↔
      (∃ record, store.record? entity = some record ∧ record.name ≠ entity ∧
        error = .inconsistent entity (.misfiled entity record.name)) ∨
      (store.Filed entity ∧ ∃ fault, body.validate = .error fault ∧
        error = .malformedBody entity fault) ∨
      (store.Filed entity ∧ store.verify = true ∧ ∃ outcome violation,
        (store.stateOf entity).synchronize body = .ok outcome ∧
        outcome.state.violations.head? = some violation ∧
        error = .inconsistent entity violation)) ∧
    (∀ error, ((Session.clear entity).on store).1 = .error error ↔
      (∃ record, store.record? entity = some record ∧ record.name ≠ entity ∧
        error = .inconsistent entity (.misfiled entity record.name)) ∨
      ∃ record violation, store.record? entity = some record ∧ record.name = entity ∧
        store.verify = true ∧
        (EntityState.clear ⟨record, store.members entity⟩).state.violations.head? =
          some violation ∧
        error = .inconsistent entity violation) ∧
    (((Session.clear entity).on store).1 = .ok none ↔ store.record? entity = none) ∧
    (∀ function result error,
      ((Session.recordResult entity function result).on store).1 = .error error ↔
        ¬ store.HasFunction entity function ∧ error = .unknownFunction entity function) ∧
    (∀ body, Atomic (Session.reconcile entity body)) ∧ Atomic (Session.clear entity) ∧
    (store.record? entity = none → (Session.clear entity).on store = (.ok none, store)) ∧
    (∀ function result, Atomic (Session.recordResult entity function result)) ∧
    ∀ operation error, (store.perform operation).1 = .failed error →
      (store.perform operation).2 = store := by
  refine ⟨fun body error => ?_, fun error => ?_, on_clear_eq_none_iff.1,
    fun function result error => ?_, fun body => .of_attempts (Session.on_reconcile entity body),
    .of_attempts (Session.on_clear entity), on_clear_eq_none_iff.2,
    fun function result => .of_attempts (Session.on_recordResult entity function result),
    fun operation error => perform_of_failed⟩
  · rw [Session.on_reconcile, attempt_eq_error_iff, reconcile_eq_error_iff_cause]
  · rw [Session.on_clear, attempt_eq_error_iff, clear_eq_error_iff_cause]
  · rw [Session.on_recordResult, attempt_eq_error_iff, recordResult_eq_error_iff]

/-- A store that keeps the record of another entity under a name. -/
def misfiledStore : Store := ⟨(∅ : OrderedMap Record).insert "Page" (Record.new "Chart"), ∅, true⟩

/-- A body with a function without a name. -/
def namelessBody : Body := ⟨[⟨"", "() => 1", []⟩], []⟩

/-- The foreign record is reported before the offending name of the body, and the store stays. -/
theorem misfiledStore_refuses :
    namelessBody.nameError?.isSome ∧
      (Session.reconcile "Page" namelessBody).on misfiledStore =
        (.error (.inconsistent "Page" (.misfiled "Page" "Chart")), misfiledStore) ∧
      (misfiledStore.perform (.reconcile "Page" namelessBody)).2 = misfiledStore := by
  obtain ⟨hreconcile, -, -, -, hatomic, -, -, -, hperform⟩ :=
    failures_are_exact misfiledStore "Page"
  have hmisfiled : ((Session.reconcile "Page" namelessBody).on misfiledStore).1 =
      .error (.inconsistent "Page" (.misfiled "Page" "Chart")) :=
    (hreconcile namelessBody _).mpr (Or.inl ⟨Record.new "Chart", rfl, by decide, rfl⟩)
  have hkept := hatomic namelessBody misfiledStore _ hmisfiled
  have hfailed : (misfiledStore.perform (.reconcile "Page" namelessBody)).1 =
      .failed (.inconsistent "Page" (.misfiled "Page" "Chart")) := by
    rw [perform, answer, ← Prod.eta ((Session.reconcile "Page" namelessBody).on misfiledStore),
      hmisfiled]
  exact ⟨by decide, Prod.ext hmisfiled hkept, hperform _ _ hfailed⟩

end Store

end ScriptStore
