import ScriptStore.Proofs.Alignment
import ScriptStore.Proofs.Store.Failures

/-!
# Alignment over whole runs

From the empty store, any sequence of reconciliations, clearings, recorded results, removals and
changes of the verification keeps the store aligned (`Store.Aligned`): records and trees belong to
the same entities in the same order, every record bears the name that it is kept under, and every
entity is aligned.  The step lemma `Store.perform_aligned` carries the run.

An aligned store passes every check, so on such a run verification never refuses anything.
Operations may fail all the same, for a body with an offending name or for a function that is not
there; a failure leaves the store, and with it the alignment, as it was.
-/

namespace ScriptStore

namespace Store

/-! ## The invariant -/

/-- Records and trees belong to the same entities, and every entity is aligned. -/
structure Aligned (store : Store) : Prop where
  /-- Records and trees are of the same entities in the same order. -/
  keys : store.configs.keys = store.trees.keys
  /-- Every record bears the name that it is kept under. -/
  filed : ∀ entity, store.Filed entity
  /-- Every entity is aligned. -/
  state : ∀ entity record, store.record? entity = some record →
    EntityState.Aligned ⟨record, store.members entity⟩

theorem aligned_empty (verify : Bool) : (empty verify).Aligned where
  keys := rfl
  filed := by
    intro entity record hrecord
    cases hrecord
  state := by
    intro entity record hrecord
    cases hrecord

namespace Aligned

variable {store : Store}

theorem mem_trees_iff (h : store.Aligned) (entity : String) :
    entity ∈ store.trees.keys ↔ ∃ record, store.record? entity = some record := by
  rw [← h.keys, OrderedMap.mem_keys_iff]
  rfl

/-- What a pass starts from is aligned, also when the entity is not tracked. -/
theorem stateOf (h : store.Aligned) (entity : String) : (store.stateOf entity).Aligned := by
  unfold Store.stateOf
  cases hrecord : store.record? entity with
  | some record => exact h.state entity record hrecord
  | none =>
    have htree : store.tree? entity = none := by
      rw [tree?, OrderedMap.get?_eq_none_iff, h.mem_trees_iff, hrecord]
      rintro ⟨record, hsome⟩
      cases hsome
    have hmembers : store.members entity = ∅ := by
      rw [members, htree]
      rfl
    rw [hmembers]
    exact EntityState.Aligned.new entity

/-- An aligned state may be put in the place of the entity whose name it bears. -/
theorem put (h : store.Aligned) {entity : String} {state : EntityState} (hstate : state.Aligned)
    (hname : state.record.name = entity) : (store.put entity state).Aligned where
  keys := by
    show (store.configs.insert entity state.record).keys =
      (store.trees.insert entity state.members).keys
    rw [OrderedMap.keys_insert, OrderedMap.keys_insert, h.keys]
  filed := by
    intro other record hrecord
    rw [record?_put] at hrecord
    split at hrecord
    · rename_i heq
      rw [Option.some.injEq] at hrecord
      rw [← hrecord, hname, heq]
    · exact h.filed other record hrecord
  state := by
    intro other record hrecord
    rw [record?_put] at hrecord
    rw [members_put]
    split at hrecord
    · rename_i heq
      rw [Option.some.injEq] at hrecord
      rw [if_pos heq, ← hrecord]
      exact hstate
    · rename_i hne
      rw [if_neg hne]
      exact h.state other record hrecord

/-! ## Steps -/

/-- A pass over an aligned store is committed, with verification or without. -/
theorem commit (h : store.Aligned) {entity : String} (outcome : PassOutcome)
    (hstate : outcome.state.Aligned) (hname : outcome.state.record.name = entity) :
    store.commit entity outcome = .ok (outcome.diff, store.put entity outcome.state) ∧
      (store.put entity outcome.state).Aligned :=
  ⟨commit_of_violations outcome fun _ => hstate.violations_eq_nil, h.put hstate hname⟩

/-- A reconciliation succeeds, unless the body has an offending name. -/
theorem reconcile (h : store.Aligned) (entity : String) (body : Body) :
    (∃ error, store.reconcile entity body = .error (.malformedBody entity error)) ∨
      ∃ diff next, store.reconcile entity body = .ok (diff, next) ∧ next.Aligned := by
  rw [reconcile_of_filed (h.filed entity)]
  cases herror : body.nameError? with
  | some error => exact Or.inl ⟨error, rfl⟩
  | none =>
    have hbody := (Body.nameError?_eq_none_iff body).mp herror
    have hname : ((store.stateOf entity).withBody body).record.name = entity :=
      name_stateOf (h.filed entity)
    obtain ⟨hcommit, hnext⟩ := h.commit
      ⟨(store.stateOf entity).withBody body, (store.stateOf entity).classify body⟩
      ((h.stateOf entity).withBody hbody) hname
    exact Or.inr ⟨_, _, hcommit, hnext⟩

/-- Clearing succeeds. -/
theorem clear (h : store.Aligned) (entity : String) :
    ∃ diff next, store.clear entity = .ok (diff, next) ∧ next.Aligned := by
  rw [clear_of_filed (h.filed entity)]
  cases hrecord : store.record? entity with
  | none => exact ⟨none, store, rfl, h⟩
  | some record =>
    obtain ⟨hcommit, hnext⟩ := h.commit
      (EntityState.clear ⟨record, store.members entity⟩)
      (h.state entity record hrecord).withoutMembers (h.filed entity record hrecord)
    dsimp only
    rw [hcommit]
    exact ⟨_, _, rfl, hnext⟩

/-- Data of a function keeps the store aligned. -/
theorem setData? (h : store.Aligned) {entity function : String} {data : Json} {next : Store}
    (hset : store.setData? entity function data = some next) : next.Aligned := by
  obtain ⟨record, tree, members, hrecord, -, htree, hmembers, rfl⟩ :=
    setData?_eq_some_iff.mp hset
  have hstate := h.state entity record hrecord
  rw [members_of_tree? htree] at hstate
  exact h.put (hstate.setData? hmembers) (h.filed entity record hrecord)

/-- An aligned store stays aligned without an entity. -/
theorem without (h : store.Aligned) (entity : String) : (store.without entity).Aligned := by
  have hother : ∀ other found, (store.without entity).record? other = some found →
      other ≠ entity ∧ store.record? other = some found := by
    intro other found hfound
    rw [record?_without] at hfound
    split at hfound
    · cases hfound
    · rename_i hne
      exact ⟨hne, hfound⟩
  refine ⟨?_, ?_, ?_⟩
  · show (store.configs.erase entity).keys = (store.trees.erase entity).keys
    rw [OrderedMap.erase, OrderedMap.erase, OrderedMap.keys_eraseAll, OrderedMap.keys_eraseAll,
      h.keys]
  · intro other found hfound
    exact h.filed other found (hother other found hfound).2
  · intro other found hfound
    obtain ⟨hne, hold⟩ := hother other found hfound
    rw [members_without store hne]
    exact h.state other found hold

/-- A removal keeps the store aligned. -/
theorem removeEntity (h : store.Aligned) (entity : String) :
    (store.removeEntity entity).2.Aligned := by
  rw [removeEntity_eq]
  cases store.record? entity with
  | none => exact h
  | some record => exact h.without entity

/-! ## Inspection -/

/-- Every report on an aligned store is clean. -/
theorem inspectAll (h : store.Aligned) :
    ∀ report ∈ store.inspectAll, report.violations = [] ∧ report.staleDependencies = [] := by
  intro report hreport
  unfold Store.inspectAll at hreport
  rcases List.mem_append.mp hreport with hreport | hreport
  · obtain ⟨entity, -, hinspect⟩ := List.mem_filterMap.mp hreport
    unfold inspect at hinspect
    obtain ⟨record, hrecord, rfl⟩ := Option.map_eq_some_iff.mp hinspect
    have hstate := h.state entity record hrecord
    dsimp only
    rw [if_pos (h.filed entity record hrecord)]
    exact ⟨hstate.violations_eq_nil, hstate.staleDependencies_eq_nil⟩
  -- there is no tree without a record
  · obtain ⟨entity, horphan, -⟩ := List.mem_map.mp hreport
    unfold orphans at horphan
    rw [← h.keys, List.mem_filter, ← OrderedMap.contains_iff] at horphan
    rw [horphan.1] at horphan
    simp at horphan

end Aligned

/-! ## Runs -/

/-- **The step**: every operation but an insertion keeps an aligned store aligned, and is not
refused for an inconsistency. -/
theorem perform_aligned {store : Store} (h : store.Aligned) {operation : Operation}
    (hoperation : ∀ state, operation ≠ .insertEntity state) :
    (store.perform operation).2.Aligned ∧
      ∀ entity violation,
        (store.perform operation).1 ≠ .failed (.inconsistent entity violation) := by
  cases operation with
  | reconcile entity body =>
    rw [perform_reconcile]
    rcases h.reconcile entity body with ⟨error, herror⟩ | ⟨diff, next, hok, hnext⟩
    · rw [herror]
      exact ⟨h, fun _ _ => by simp [settle]⟩
    · rw [hok]
      exact ⟨hnext, fun _ _ => by simp [settle]⟩
  | clear entity =>
    rw [perform_clear]
    obtain ⟨diff, next, hok, hnext⟩ := h.clear entity
    rw [hok]
    exact ⟨hnext, fun _ _ => by simp [settle]⟩
  | recordResult entity function result =>
    rw [perform_recordResult]
    cases hrecord : store.recordResult entity function result with
    | error error =>
      obtain ⟨-, rfl⟩ := (recordResult_eq_error_iff function result error).mp hrecord
      exact ⟨h, fun _ _ => by simp [settle]⟩
    | ok outcome => exact ⟨h.setData? (recordResult_eq_ok hrecord).2, fun _ _ => by simp [settle]⟩
  | insertEntity state => exact absurd rfl (hoperation state)
  | removeEntity entity => exact ⟨h.removeEntity entity, fun _ _ => by simp [perform]⟩
  | setVerify verify => exact ⟨⟨h.keys, h.filed, h.state⟩, fun _ _ => by simp [perform]⟩

/-- The run: alignment is kept by every sequence of operations without insertions, and no answer
is a refusal for an inconsistency. -/
theorem run_aligned {store : Store} (h : store.Aligned) {operations : List Operation}
    (hoperations : ∀ state, Operation.insertEntity state ∉ operations) :
    (store.run operations).2.Aligned ∧ ∀ answer ∈ (store.run operations).1,
      ∀ entity violation, answer ≠ .failed (.inconsistent entity violation) := by
  induction operations generalizing store with
  | nil => exact ⟨h, fun answer hanswer => by cases hanswer⟩
  | cons operation rest ih =>
    have hfirst : ∀ state, operation ≠ .insertEntity state := by
      rintro state rfl
      exact hoperations state List.mem_cons_self
    have hrest : ∀ state, Operation.insertEntity state ∉ rest :=
      fun state hmem => hoperations state (List.mem_cons_of_mem _ hmem)
    obtain ⟨hnext, hanswer⟩ := perform_aligned h hfirst
    obtain ⟨hlast, hanswers⟩ := ih hnext hrest
    refine ⟨hlast, fun answer hmem => ?_⟩
    rcases List.mem_cons.mp hmem with rfl | hmem
    · exact hanswer
    · exact hanswers answer hmem

/-- **Tables over whole runs.**  Whatever is reconciled, cleared, recorded, removed and switched
from the empty store on, in whatever order and with whatever failures: records and trees are of
the same entities in the same order, every record bears its key, and all tables and members hold
exactly what the functions and variables account for.  So no inspection finds a violation or a
stale dependency, and no operation is refused for an inconsistency. -/
theorem run_keeps_tables (verify : Bool) (operations : List Operation)
    (h : ∀ state, Operation.insertEntity state ∉ operations) :
    ((empty verify).run operations).2.Aligned ∧
      (∀ report ∈ ((empty verify).run operations).2.inspectAll,
        report.violations = [] ∧ report.staleDependencies = []) ∧
      ∀ answer ∈ ((empty verify).run operations).1,
        ∀ entity violation, answer ≠ .failed (.inconsistent entity violation) := by
  obtain ⟨haligned, hanswers⟩ := run_aligned (aligned_empty verify) h
  exact ⟨haligned, haligned.inspectAll, hanswers⟩

/-- A run in which two names swap their kinds, a body and a result are refused, one entity is
removed, and verification is switched on in between. -/
def swappingRun : List Operation :=
  [.reconcile "Page" ⟨[⟨"run", "() => 1", []⟩], [⟨"count", .str "1"⟩]⟩,
    .recordResult "Page" "run" (.value (.bool true)),
    .setVerify true,
    .reconcile "Page" ⟨[⟨"count", "() => 2", []⟩], [⟨"run", .str ""⟩]⟩,
    .reconcile "Page" ⟨[⟨"run.data", "() => 3", []⟩], []⟩,
    .recordResult "Page" "run" .notFinite,
    .reconcile "Chart" ⟨[⟨"load", "() => 4", []⟩], []⟩,
    .clear "Page",
    .reconcile "Page" ⟨[⟨"count", "() => 5", []⟩], [⟨"run", .null⟩]⟩,
    .removeEntity "Chart"]

/-- The swapping run keeps the tables, and leaves both names with their new kinds. -/
theorem swappingRun_keeps_tables :
    (∀ state, Operation.insertEntity state ∉ swappingRun) ∧
      ((empty false).run swappingRun).2.Aligned ∧
      (∀ report ∈ ((empty false).run swappingRun).2.inspectAll,
        report.violations = [] ∧ report.staleDependencies = []) ∧
      ((empty false).run swappingRun).2.configs.keys = ["Page"] ∧
      (((empty false).run swappingRun).2.record? "Page").map (·.functions.keys) =
        some ["count"] ∧
      (((empty false).run swappingRun).2.record? "Page").map (·.vars) = some ["run"] := by
  have hinsert : ∀ state, Operation.insertEntity state ∉ swappingRun := by
    intro state
    simp [swappingRun]
  obtain ⟨haligned, hinspect, -⟩ := run_keeps_tables false swappingRun hinsert
  refine ⟨hinsert, haligned, hinspect, ?_, ?_, ?_⟩
  · decide
  · decide
  · decide

end Store

end ScriptStore
