import ScriptStore.Proofs.Consistency
import ScriptStore.Proofs.Pass.Clearing

/-!
# What passes do to a store

A reconciliation is refused because the record bears a foreign name, because the body has an
offending name, or because verification finds the outcome inconsistent.  Otherwise the state that
takes in the body is put in the place of the entity.  `Store.reconcile_of_filed` says all of it
in one equation and `Store.reconcile_eq_ok` reads off what a success means.  Clearing is the same
without a body (`Store.clear_of_filed`).
-/

namespace ScriptStore

namespace Store

variable {store : Store} {entity : String}

/-- The members of an entity are those of its subtree. -/
theorem members_of_tree? {tree : MemberTree} (h : store.tree? entity = some tree) :
    store.members entity = tree := by
  rw [members, h, Option.getD_some]

/-! ## Records under their own names -/

/-- A record that is kept for the entity bears the name of the entity. -/
def Filed (store : Store) (entity : String) : Prop :=
  ∀ record, store.record? entity = some record → record.name = entity

/-- A record under its own name is found. -/
theorem tracked?_of_filed (h : store.Filed entity) :
    store.tracked? entity = .ok (store.record? entity) := by
  unfold tracked?
  cases hrecord : store.record? entity with
  | none => rfl
  | some record =>
    dsimp only
    rw [if_pos (h record hrecord)]

/-- Only a record under its own name is found. -/
theorem filed_of_tracked? {found : Option Record} (h : store.tracked? entity = .ok found) :
    store.Filed entity := by
  intro record hrecord
  unfold tracked? at h
  rw [hrecord] at h
  dsimp only at h
  split at h
  · assumption
  · cases h

/-- A store that keeps the record of the entity under its name files the entity. -/
theorem filed_of_record? {record : Record} (h : store.record? entity = some record)
    (hname : record.name = entity) : store.Filed entity := by
  intro found hfound
  rw [h, Option.some.injEq] at hfound
  exact hfound ▸ hname

/-- The state of a filed entity bears the name of the entity. -/
theorem name_stateOf (h : store.Filed entity) : (store.stateOf entity).record.name = entity := by
  unfold stateOf
  cases hrecord : store.record? entity with
  | none => rfl
  | some record => exact h record hrecord

/-! ## Commits -/

/-- An outcome without violations is committed, and without verification any outcome is. -/
theorem commit_of_violations (outcome : PassOutcome)
    (h : store.verify = true → outcome.state.violations = []) :
    store.commit entity outcome = .ok (outcome.diff, store.put entity outcome.state) := by
  unfold commit
  by_cases hverify : store.verify = true
  · rw [if_pos hverify, (outcome.state.check_eq_ok_iff).mpr (h hverify)]
    rfl
  · rw [if_neg hverify]
    rfl

/-- What a successful commit means. -/
theorem commit_eq_ok {outcome : PassOutcome} {diff : EntityDiff} {next : Store}
    (h : store.commit entity outcome = .ok (diff, next)) :
    (store.verify = true → outcome.state.violations = []) ∧ diff = outcome.diff ∧
      next = store.put entity outcome.state := by
  have hviolations : store.verify = true → outcome.state.violations = [] := by
    intro hverify
    unfold commit at h
    rw [if_pos hverify] at h
    cases hcheck : outcome.state.check with
    | error error =>
      rw [hcheck] at h
      cases h
    | ok value => exact (outcome.state.check_eq_ok_iff).mp hcheck
  rw [commit_of_violations outcome hviolations, Except.ok.injEq, Prod.mk.injEq] at h
  exact ⟨hviolations, h.1.symm, h.2.symm⟩

/-- A commit fails exactly if verification finds a violation. -/
theorem commit_eq_error_iff (outcome : PassOutcome) (error : SyncError) :
    store.commit entity outcome = .error error ↔
      store.verify = true ∧ outcome.state.check = .error error := by
  unfold commit
  by_cases hverify : store.verify = true
  · rw [if_pos hverify, and_iff_right hverify]
    cases hcheck : outcome.state.check with
    | error found =>
      show Except.error found = .error error ↔ _
      rw [Except.error.injEq, Except.error.injEq]
    | ok value =>
      show Except.ok _ = .error error ↔ _
      simp
  · rw [if_neg hverify]
    show Except.ok _ = .error error ↔ _
    simp [hverify]

/-! ## Reconciliation -/

/-- **Reconciliation in one equation**, for an entity that is filed under its own name. -/
theorem reconcile_of_filed (h : store.Filed entity) (body : Body) :
    store.reconcile entity body =
      match body.nameError? with
      | some error => .error (.malformedBody entity error)
      | none => store.commit entity
          ⟨(store.stateOf entity).withBody body, (store.stateOf entity).classify body⟩ := by
  rw [reconcile_eq_reconcileByPass, reconcileByPass, tracked?_of_filed h]
  show ((store.stateOf entity).synchronize body >>= store.commit entity) = _
  cases herror : body.nameError? with
  | some error =>
    rw [EntityState.synchronize, EntityState.diff, herror, name_stateOf h]
    rfl
  | none =>
    rw [EntityState.synchronize_of_nameError? _ herror]
    rfl

/-- A reconciliation succeeds for a filed entity and a body without offending names, if the outcome
has no violations or is not verified. -/
theorem reconcile_of_violations {body : Body} (h : store.Filed entity)
    (hnames : body.nameError? = none)
    (hviolations : store.verify = true → ((store.stateOf entity).withBody body).violations = []) :
    store.reconcile entity body = .ok ((store.stateOf entity).classify body,
      store.put entity ((store.stateOf entity).withBody body)) := by
  rw [reconcile_of_filed h, hnames]
  exact commit_of_violations _ hviolations

/-- What a successful reconciliation means. -/
theorem reconcile_eq_ok {body : Body} {diff : EntityDiff} {next : Store}
    (h : store.reconcile entity body = .ok (diff, next)) :
    store.Filed entity ∧ body.nameError? = none ∧
      (store.verify = true → ((store.stateOf entity).withBody body).violations = []) ∧
      diff = (store.stateOf entity).classify body ∧
      next = store.put entity ((store.stateOf entity).withBody body) := by
  have hfiled : store.Filed entity := by
    rw [reconcile_eq_reconcileByPass, reconcileByPass] at h
    cases htracked : store.tracked? entity with
    | error error =>
      rw [htracked] at h
      cases h
    | ok found => exact filed_of_tracked? htracked
  rw [reconcile_of_filed hfiled] at h
  cases herror : body.nameError? with
  | some error =>
    rw [herror] at h
    cases h
  | none =>
    rw [herror] at h
    dsimp only at h
    obtain ⟨hviolations, hdiff, hnext⟩ := commit_eq_ok h
    exact ⟨hfiled, rfl, hviolations, hdiff, hnext⟩

/-! ## Clearing -/

/-- **Clearing in one equation**, for an entity that is filed under its own name. -/
theorem clear_of_filed (h : store.Filed entity) :
    store.clear entity =
      match store.record? entity with
      | some record =>
        (store.commit entity (EntityState.clear ⟨record, store.members entity⟩)).map
          fun outcome => (some outcome.1, outcome.2)
      | none => .ok (none, store) := by
  rw [clear, tracked?_of_filed h]
  cases store.record? entity with
  | none => rfl
  | some record =>
    show (store.commit entity (EntityState.clear ⟨record, store.members entity⟩) >>= fun outcome =>
      pure (some outcome.1, outcome.2)) =
        (store.commit entity (EntityState.clear ⟨record, store.members entity⟩)).map _
    cases store.commit entity (EntityState.clear ⟨record, store.members entity⟩) <;> rfl

/-- What a successful clearing means. -/
theorem clear_eq_ok {answer : Option EntityDiff} {next : Store}
    (h : store.clear entity = .ok (answer, next)) :
    (store.record? entity = none ∧ answer = none ∧ next = store) ∨
      ∃ record, store.record? entity = some record ∧ record.name = entity ∧
        answer = some (EntityState.clearingDiff ⟨record, store.members entity⟩) ∧
        next = store.put entity (EntityState.withoutMembers ⟨record, store.members entity⟩) := by
  have hfiled : store.Filed entity := by
    cases htracked : store.tracked? entity with
    | error error =>
      rw [clear, htracked] at h
      cases h
    | ok found => exact filed_of_tracked? htracked
  rw [clear_of_filed hfiled] at h
  cases hrecord : store.record? entity with
  | none =>
    rw [hrecord, Except.ok.injEq, Prod.mk.injEq] at h
    exact Or.inl ⟨rfl, h.1.symm, h.2.symm⟩
  | some record =>
    rw [hrecord] at h
    dsimp only at h
    cases hcommit : store.commit entity (EntityState.clear ⟨record, store.members entity⟩) with
    | error error =>
      rw [hcommit] at h
      cases h
    | ok outcome =>
      rw [hcommit, Except.map, Except.ok.injEq, Prod.mk.injEq] at h
      obtain ⟨-, hdiff, hnext⟩ := commit_eq_ok hcommit
      refine Or.inr ⟨record, rfl, hfiled record hrecord, ?_, ?_⟩
      · rw [← h.1, hdiff]
        rfl
      · rw [← h.2, hnext]
        rfl

/-- Clearing a tracked entity is reconciling it with the empty body. -/
theorem reconcile_of_clear {diff : EntityDiff} {next : Store}
    (h : store.clear entity = .ok (some diff, next)) :
    store.reconcile entity Body.empty = .ok (diff, next) := by
  unfold clear at h
  unfold reconcile
  cases htracked : store.tracked? entity with
  | error error =>
    rw [htracked] at h
    cases h
  | ok found =>
    rw [htracked] at h
    cases found with
    | none => cases h
    | some record =>
      show store.commit entity (EntityState.clear ⟨record, store.members entity⟩) = _
      cases hcommit : store.commit entity (EntityState.clear ⟨record, store.members entity⟩) with
      | error error =>
        dsimp only [bind, Except.bind] at h
        rw [hcommit] at h
        cases h
      | ok outcome =>
        dsimp only [bind, Except.bind] at h
        rw [hcommit] at h
        cases h
        rfl

/-! ## The place of an entity -/

/-- An entity that is put has its new record, and the others have theirs. -/
theorem record?_put (store : Store) (entity other : String) (state : EntityState) :
    (store.put entity state).record? other =
      if entity = other then some state.record else store.record? other :=
  OrderedMap.get?_insert store.configs entity other state.record

/-- An entity that is put has its new subtree, and the others have theirs. -/
theorem tree?_put (store : Store) (entity other : String) (state : EntityState) :
    (store.put entity state).tree? other =
      if entity = other then some state.members else store.tree? other :=
  OrderedMap.get?_insert store.trees entity other state.members

/-- An entity that is put has its new members, and the others have theirs. -/
theorem members_put (store : Store) (entity other : String) (state : EntityState) :
    (store.put entity state).members other =
      if entity = other then state.members else store.members other := by
  rw [members, tree?_put, members]
  split <;> rfl

/-- The state that is put is the state of the entity. -/
theorem stateOf_put (store : Store) (entity : String) (state : EntityState) :
    (store.put entity state).stateOf entity = state := by
  rw [stateOf, record?_put, if_pos rfl, members_put, if_pos rfl]
  rfl

/-- Putting a state where it is already changes nothing. -/
theorem put_of_eq {state : EntityState} (hrecord : store.record? entity = some state.record)
    (htree : store.tree? entity = some state.members) : store.put entity state = store := by
  rw [put, OrderedMap.insert_of_get? hrecord, OrderedMap.insert_of_get? htree]

/-! ## Data of executions -/

/-- The data of a function can be replaced exactly if the record declares the function and its
member is a function; then only the members are put anew. -/
theorem setData?_eq_some_iff {function : String} {data : Json} {next : Store} :
    store.setData? entity function data = some next ↔
      ∃ record tree members, store.record? entity = some record ∧
        record.hasFunction function = true ∧ store.tree? entity = some tree ∧
        tree.setData? function data = some members ∧
        next = store.put entity ⟨record, members⟩ := by
  have hput : ∀ record members, store.record? entity = some record →
      { store with trees := store.trees.insert entity members } =
        store.put entity ⟨record, members⟩ := by
    intro record members hrecord
    rw [put, OrderedMap.insert_of_get? hrecord]
  constructor
  · intro hset
    obtain ⟨record, hrecord, hset⟩ := Option.bind_eq_some_iff.mp hset
    obtain ⟨_, hguard, hset⟩ := Option.bind_eq_some_iff.mp hset
    obtain ⟨tree, htree, hset⟩ := Option.bind_eq_some_iff.mp hset
    obtain ⟨members, hmembers, hset⟩ := Option.bind_eq_some_iff.mp hset
    have hfunction : record.hasFunction function = true := by
      change (if record.hasFunction function = true then pure () else failure) = some _ at hguard
      split at hguard
      · assumption
      · cases hguard
    exact ⟨record, tree, members, hrecord, hfunction, htree, hmembers,
      (Option.some.inj hset).symm.trans (hput record members hrecord)⟩
  · rintro ⟨record, tree, members, hrecord, hfunction, htree, hmembers, rfl⟩
    refine Option.bind_eq_some_iff.mpr ⟨record, hrecord, ?_⟩
    refine Option.bind_eq_some_iff.mpr ⟨(), if_pos hfunction, ?_⟩
    refine Option.bind_eq_some_iff.mpr ⟨tree, htree, ?_⟩
    refine Option.bind_eq_some_iff.mpr ⟨members, hmembers, ?_⟩
    exact congrArg some (hput record members hrecord)

/-- What a successfully recorded result means. -/
theorem recordResult_eq_ok {function : String} {result : ExecutionResult} {execution : Execution}
    {next : Store} (h : store.recordResult entity function result = .ok (execution, next)) :
    execution = Execution.capture (entity ++ "." ++ function) result ∧
      store.setData? entity function execution.data = some next := by
  unfold recordResult at h
  dsimp only at h
  split at h
  · rename_i hset
    rw [Except.ok.injEq, Prod.mk.injEq] at h
    obtain ⟨rfl, rfl⟩ := h
    exact ⟨rfl, hset⟩
  · cases h

/-! ## Removed entities -/

/-- The store without an entity. -/
def without (store : Store) (entity : String) : Store :=
  { store with configs := store.configs.erase entity, trees := store.trees.erase entity }

/-- A removal gives back what is kept about a tracked entity, and does nothing for any other. -/
theorem removeEntity_eq (store : Store) (entity : String) :
    store.removeEntity entity =
      match store.record? entity with
      | some record => (some ⟨record, store.members entity⟩, store.without entity)
      | none => (none, store) := rfl

/-- A removed entity has no record. -/
theorem record?_without (store : Store) (entity other : String) :
    (store.without entity).record? other =
      if other = entity then none else store.record? other := by
  show OrderedMap.get? (store.configs.eraseAll [entity]) other = _
  rw [OrderedMap.get?_eraseAll]
  simp only [List.mem_singleton]
  rfl

/-- A removed entity has no subtree. -/
theorem tree?_without (store : Store) (entity other : String) :
    (store.without entity).tree? other = if other = entity then none else store.tree? other := by
  show OrderedMap.get? (store.trees.eraseAll [entity]) other = _
  rw [OrderedMap.get?_eraseAll]
  simp only [List.mem_singleton]
  rfl

/-- The other entities keep their members. -/
theorem members_without (store : Store) {entity other : String} (h : other ≠ entity) :
    (store.without entity).members other = store.members other := by
  rw [members, tree?_without, if_neg h, members]

end Store

end ScriptStore
