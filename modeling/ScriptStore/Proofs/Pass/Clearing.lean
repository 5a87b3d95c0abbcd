import ScriptStore.Proofs.Pass.Batch
import ScriptStore.Store.Basic

/-!
# Clearing is the pass of the empty body

Clearing filters every table once, while the pass of the empty body removes member by member and
leaves alone what a function still owns.  Both give the same outcome, whatever the state: names
may be repeated, be function and variable at once or hold separators, and the list of the entity
body may be missing.  A store may therefore take either way for an empty body.
-/

namespace ScriptStore

/-! ## Entities -/

namespace EntityState

/-- The empty body lacks every function. -/
@[simp] theorem missingFunctions_empty (state : EntityState) :
    state.missingFunctions Body.empty = state.record.functions.keys := by
  rw [missingFunctions, List.filter_eq_self]
  intro name _
  simp [Body.functionNames, Body.empty]

/-- The empty body lacks every variable. -/
@[simp] theorem missingVariables_empty (state : EntityState) :
    state.missingVariables Body.empty = state.record.vars := by
  rw [missingVariables, List.filter_eq_self]
  intro name _
  simp [Body.variableNames, Body.empty]

/-- Against the empty body everything is removed. -/
theorem classify_empty (state : EntityState) :
    state.classify Body.empty = state.clearingDiff := by
  rw [classify, missingFunctions_empty, missingVariables_empty]
  rfl

/-- Without its functions a record owns no name. -/
theorem unowned_dropFunctions_keys (record : Record) (names : List String) :
    (record.dropFunctions record.functions.keys).unowned names = names := by
  rw [Record.unowned, List.filter_eq_self]
  intro name _
  have hnone : (record.dropFunctions record.functions.keys).functions = ∅ :=
    OrderedMap.eraseAll_of_keys_subset _ (List.Subset.refl _)
  rw [Record.hasFunction, hnone]
  rfl

/-- Taking in the empty body leaves what clearing leaves. -/
theorem withBody_empty (state : EntityState) :
    state.withBody Body.empty = state.withoutMembers := by
  -- the functions go first, so no variable is owned by one when the variables go
  have hfunctions : state.withFunctions Body.empty =
      ⟨state.record.dropFunctions state.record.functions.keys,
        state.members.eraseAll state.record.functions.keys⟩ := by
    rw [withFunctions, missingFunctions_empty]
    rfl
  have hadded : state.addedVariables Body.empty = [] := rfl
  unfold withBody
  rw [hfunctions, hadded, missingVariables_empty, Record.declareVariables_nil]
  unfold withoutMembers Record.dropVariables
  dsimp only
  rw [unowned_dropFunctions_keys]
  unfold Record.dropFunctions
  simp only [EntityState.mk.injEq, Record.mk.injEq, true_and, and_true]
  refine ⟨⟨?_, ?_, ?_, ?_⟩, ?_⟩
  · rw [Names.removeAll, List.filter_eq_nil_iff]
    intro name hname
    simpa using hname
  · exact OrderedMap.eraseAll_of_keys_subset _ (List.Subset.refl _)
  · rw [OrderedMap.eraseAll_eraseAll]
    refine OrderedMap.eraseAll_congr _ (fun path _ => ?_)
    simp only [List.mem_append]
    rw [or_assoc, or_left_comm]
  · rw [Names.removeAll_removeAll]
    rfl
  · show (state.members.eraseAll state.record.functions.keys).eraseAll state.record.vars = _
    rw [OrderedMap.eraseAll_eraseAll]

/-- The pass of the empty body succeeds and gives what clearing gives. -/
theorem synchronize_empty (state : EntityState) :
    state.synchronize Body.empty = .ok state.clear := by
  rw [synchronize_of_nameError? state Body.nameError?_empty, withBody_empty, classify_empty]
  rfl

end EntityState

/-! ## Stores -/

theorem Body.isEmpty_iff (body : Body) : body.isEmpty = true ↔ body = Body.empty := by
  obtain ⟨functions, vars⟩ := body
  simp [isEmpty, empty]

namespace Store

/-- What is kept about an entity, or what it starts from when it is not tracked. -/
def stateOf (store : Store) (entity : String) : EntityState :=
  ⟨(store.record? entity).getD (Record.new entity), store.members entity⟩

/-- Brings an entity in line with a body by the general pass, whether the body is empty or not. -/
def reconcileByPass (store : Store) (entity : String) (body : Body) :
    Except SyncError (EntityDiff × Store) := do
  let _ ← store.tracked? entity
  let outcome ← (store.stateOf entity).synchronize body
  store.commit entity outcome

/-- A tracked record is the record of the entity. -/
theorem record?_of_tracked? {store : Store} {entity : String} {found : Option Record}
    (h : store.tracked? entity = .ok found) : store.record? entity = found := by
  unfold tracked? at h
  cases hrecord : store.record? entity with
  | none =>
    rw [hrecord] at h
    exact Except.ok.inj h
  | some record =>
    rw [hrecord] at h
    dsimp only at h
    split at h
    · exact Except.ok.inj h
    · cases h

/-- The choice that reconciliation makes for an empty body does not show. -/
theorem reconcile_eq_reconcileByPass (store : Store) (entity : String) (body : Body) :
    store.reconcile entity body = store.reconcileByPass entity body := by
  unfold reconcile reconcileByPass
  cases htracked : store.tracked? entity with
  | error error => rfl
  | ok found =>
    have hrecord := record?_of_tracked? htracked
    have hstate : store.stateOf entity =
        ⟨found.getD (Record.new entity), store.members entity⟩ := by
      rw [stateOf, hrecord]
    rw [hstate]
    cases found with
    | none => rfl
    | some record =>
      by_cases hempty : body.isEmpty = true
      -- the shortcut is taken: the general pass gives the same outcome
      · obtain rfl := (Body.isEmpty_iff body).mp hempty
        show store.commit entity (EntityState.clear ⟨record, store.members entity⟩) =
          (EntityState.synchronize ⟨record, store.members entity⟩ Body.empty >>=
            store.commit entity)
        rw [EntityState.synchronize_empty]
        rfl
      · show (do
            let outcome ←
              if body.isEmpty = true then pure (EntityState.clear ⟨record, store.members entity⟩)
              else EntityState.synchronize ⟨record, store.members entity⟩ body
            store.commit entity outcome) = _
        rw [if_neg hempty]
        rfl

end Store

/-! ## The main theorem -/

/-- **Clearing in bulk**: for every state the pass of the empty body succeeds with exactly the
outcome of clearing, and so no store shows which of the two ways it takes. -/
theorem clear_eq_pass_of_empty_body :
    (∀ state : EntityState, state.synchronize Body.empty = .ok state.clear) ∧
      ∀ (store : Store) (entity : String) (body : Body),
        store.reconcile entity body = store.reconcileByPass entity body :=
  ⟨EntityState.synchronize_empty, Store.reconcile_eq_reconcileByPass⟩

end ScriptStore
