import ScriptStore.Proofs.Store.Passes
import ScriptStore.Proofs.Store.Sessions

/-!
# Independence of entities

What is kept about an entity depends on the operations that concern it alone: those that address
the entity and the switches of verification.  Two facts about single steps carry this.  An operation
that does not concern the entity leaves its record and its tree as they are
(`Store.perform_agree`), and one that does answers alike, and does the same to the entity, in all
stores that keep the same about it (`Store.perform_congr`).

So a run may be thinned out to the operations that concern the entity, and runs in which every
entity sees the same operations differ in the order of entities only
(`Store.entities_are_independent`).  This holds from any store on, with foreign records and trees
without a record.
-/

namespace ScriptStore

namespace Store

/-! ## Operations that concern an entity -/

/-- Whether an operation addresses the entity or switches the verification. -/
def Operation.concerns (operation : Operation) (entity : String) : Bool :=
  operation.entity?.all (· = entity)

/-- An operation concerns an entity if it addresses no other. -/
theorem Operation.concerns_iff {operation : Operation} {entity : String} :
    operation.concerns entity = true ↔
      ∀ addressed, operation.entity? = some addressed → addressed = entity := by
  unfold concerns
  cases operation.entity? <;> simp

/-- The operations of a sequence that concern an entity. -/
def operationsOn (entity : String) (operations : List Operation) : List Operation :=
  operations.filter (·.concerns entity)

/-- The answers to the operations of a sequence that concern an entity. -/
def answersOn (entity : String) (operations : List Operation) (answers : List Answer) :
    List Answer :=
  ((operations.zip answers).filter fun step => step.1.concerns entity).map Prod.snd

/-- Operations on other entities are left out. -/
theorem operationsOn_cons (entity : String) (operation : Operation) (rest : List Operation) :
    operationsOn entity (operation :: rest) =
      if operation.concerns entity then operation :: operationsOn entity rest
      else operationsOn entity rest := List.filter_cons

/-- Answers to operations on other entities are left out. -/
theorem answersOn_cons (entity : String) (operation : Operation) (rest : List Operation)
    (answer : Answer) (answers : List Answer) :
    answersOn entity (operation :: rest) (answer :: answers) =
      if operation.concerns entity then answer :: answersOn entity rest answers
      else answersOn entity rest answers := by
  unfold answersOn
  rw [List.zip_cons_cons, List.filter_cons]
  split <;> rfl

/-- A run is its first operation and the run of the others. -/
theorem run_cons (store : Store) (operation : Operation) (rest : List Operation) :
    store.run (operation :: rest) =
      ((store.perform operation).1 :: ((store.perform operation).2.run rest).1,
        ((store.perform operation).2.run rest).2) := rfl

/-! ## Stores that agree on an entity -/

/-- Two stores keep the same about an entity and verify alike. -/
structure AgreeOn (entity : String) (s t : Store) : Prop where
  record : s.record? entity = t.record? entity
  tree : s.tree? entity = t.tree? entity
  verify : s.verify = t.verify

namespace AgreeOn

variable {entity : String} {s t u : Store}

/-- Every store agrees with itself. -/
theorem refl (entity : String) (s : Store) : AgreeOn entity s s := ⟨rfl, rfl, rfl⟩

/-- Agreement goes both ways. -/
theorem symm (h : AgreeOn entity s t) : AgreeOn entity t s :=
  ⟨h.record.symm, h.tree.symm, h.verify.symm⟩

/-- Agreement goes on from store to store. -/
theorem trans (h : AgreeOn entity s t) (h' : AgreeOn entity t u) : AgreeOn entity s u :=
  ⟨h.record.trans h'.record, h.tree.trans h'.tree, h.verify.trans h'.verify⟩

/-- They have the same members of the entity. -/
theorem members (h : AgreeOn entity s t) : s.members entity = t.members entity := by
  rw [Store.members, Store.members, h.tree]

/-- They have the same state of the entity. -/
theorem stateOf (h : AgreeOn entity s t) : s.stateOf entity = t.stateOf entity := by
  rw [Store.stateOf, Store.stateOf, h.record, h.members]

/-- They find the same record, or the same fault. -/
theorem tracked? (h : AgreeOn entity s t) : s.tracked? entity = t.tracked? entity := by
  rw [Store.tracked?, Store.tracked?, h.record]

/-- They give the same report on the entity. -/
theorem inspect (h : AgreeOn entity s t) : s.inspect entity = t.inspect entity := by
  rw [Store.inspect, Store.inspect, h.record, h.members]

/-- Stores that agree on every entity are the same up to the order of entities. -/
theorem perm (h : ∀ entity, AgreeOn entity s t) :
    s.configs.entries.Perm t.configs.entries ∧ s.trees.entries.Perm t.trees.entries :=
  ⟨OrderedMap.perm_entries fun entity => (h entity).record,
    OrderedMap.perm_entries fun entity => (h entity).tree⟩

/-! ### Updates of the stores -/

/-- The same state may be put in the place of the entity in both stores. -/
theorem put (h : AgreeOn entity s t) (state : EntityState) :
    AgreeOn entity (s.put entity state) (t.put entity state) where
  record := by rw [record?_put, record?_put, if_pos rfl, if_pos rfl]
  tree := by rw [tree?_put, tree?_put, if_pos rfl, if_pos rfl]
  verify := h.verify

/-- What is put in the place of another entity does not matter. -/
theorem put_of_ne {other : String} (hne : other ≠ entity) (s : Store) (state : EntityState) :
    AgreeOn entity s (s.put other state) where
  record := by rw [record?_put, if_neg hne]
  tree := by rw [tree?_put, if_neg hne]
  verify := rfl

/-- The entity may be removed from both stores. -/
theorem without (h : AgreeOn entity s t) :
    AgreeOn entity (s.without entity) (t.without entity) where
  record := by rw [record?_without, record?_without, if_pos rfl, if_pos rfl]
  tree := by rw [tree?_without, tree?_without, if_pos rfl, if_pos rfl]
  verify := h.verify

/-- Another entity may be removed. -/
theorem without_of_ne {other : String} (hne : other ≠ entity) (s : Store) :
    AgreeOn entity s (s.without other) where
  record := by rw [record?_without, if_neg (Ne.symm hne)]
  tree := by rw [tree?_without, if_neg (Ne.symm hne)]
  verify := rfl

end AgreeOn

/-! ## Operations on other entities -/

/-- An operation puts a state in the place of the entity that it addresses, removes this entity,
switches the verification, or leaves the store as it is. -/
theorem perform_cases (store : Store) (operation : Operation) :
    (store.perform operation).2 = store ∨
      (∃ entity state, operation.entity? = some entity ∧
        (store.perform operation).2 = store.put entity state) ∨
      (∃ entity, operation.entity? = some entity ∧
        (store.perform operation).2 = store.without entity) ∨
      ∃ verify, operation = .setVerify verify := by
  cases operation with
  | reconcile entity body =>
    rw [perform_reconcile]
    cases hattempt : store.reconcile entity body with
    | error error => exact Or.inl rfl
    | ok outcome =>
      obtain ⟨-, -, -, -, hnext⟩ := reconcile_eq_ok hattempt
      exact Or.inr (Or.inl ⟨entity, _, rfl, hnext⟩)
  | clear entity =>
    rw [perform_clear]
    cases hattempt : store.clear entity with
    | error error => exact Or.inl rfl
    | ok outcome =>
      rcases clear_eq_ok hattempt with ⟨-, -, hnext⟩ | ⟨record, -, -, -, hnext⟩
      · exact Or.inl hnext
      · exact Or.inr (Or.inl ⟨entity, _, rfl, hnext⟩)
  | recordResult entity function result =>
    rw [perform_recordResult]
    cases hattempt : store.recordResult entity function result with
    | error error => exact Or.inl rfl
    | ok outcome =>
      obtain ⟨record, tree, members, -, -, -, -, hnext⟩ :=
        setData?_eq_some_iff.mp (recordResult_eq_ok hattempt).2
      exact Or.inr (Or.inl ⟨entity, _, rfl, hnext⟩)
  | insertEntity state => exact Or.inr (Or.inl ⟨state.record.name, state, rfl, rfl⟩)
  | removeEntity entity =>
    rw [perform, removeEntity_eq]
    cases store.record? entity with
    | none => exact Or.inl rfl
    | some record => exact Or.inr (Or.inr (Or.inl ⟨entity, rfl, rfl⟩))
  | setVerify verify => exact Or.inr (Or.inr (Or.inr ⟨verify, rfl⟩))

/-- **The frame**: an operation that does not concern an entity leaves it as it is. -/
theorem perform_agree (store : Store) {operation : Operation} {entity : String}
    (h : operation.concerns entity = false) :
    AgreeOn entity store (store.perform operation).2 := by
  have hne : ∀ other, operation.entity? = some other → other ≠ entity := by
    rintro other hother rfl
    rw [Operation.concerns, hother, Option.all_some, decide_eq_false_iff_not] at h
    exact h rfl
  rcases store.perform_cases operation with
    hsame | ⟨other, state, hother, hput⟩ | ⟨other, hother, hwithout⟩ | ⟨verify, rfl⟩
  · rw [hsame]
    exact AgreeOn.refl entity store
  · rw [hput]
    exact AgreeOn.put_of_ne (hne other hother) store state
  · rw [hwithout]
    exact AgreeOn.without_of_ne (hne other hother) store
  · cases h

/-! ## Operations on the entity -/

/-- Two attempts fail alike, or give the same value and stores that agree on the entity. -/
inductive SameAttempt {α : Type} (entity : String) :
    Except SyncError (α × Store) → Except SyncError (α × Store) → Prop
  | failed (error : SyncError) : SameAttempt entity (.error error) (.error error)
  | done (value : α) {s t : Store} (h : AgreeOn entity s t) :
    SameAttempt entity (.ok (value, s)) (.ok (value, t))

/-- A value that is there may be wrapped. -/
theorem SameAttempt.bind_some {α : Type} {entity : String} {a b : Except SyncError (α × Store)}
    (h : SameAttempt entity a b) :
    SameAttempt entity (a >>= fun outcome => pure (some outcome.1, outcome.2))
      (b >>= fun outcome => pure (some outcome.1, outcome.2)) := by
  cases h with
  | failed error => exact .failed error
  | done value hnext => exact .done (some value) hnext

section Congruence

variable {entity : String} {s t : Store} (h : AgreeOn entity s t)

include h

/-- The same attempt settles with the same answer. -/
theorem settle_congr {α : Type} (answer : α → Answer) {a b : Except SyncError (α × Store)}
    (hsame : SameAttempt entity a b) :
    (s.settle answer a).1 = (t.settle answer b).1 ∧
      AgreeOn entity (s.settle answer a).2 (t.settle answer b).2 := by
  cases hsame with
  | failed error => exact ⟨rfl, h⟩
  | done value hnext => exact ⟨rfl, hnext⟩

/-- A commit to the entity comes out alike. -/
theorem commit_congr (outcome : PassOutcome) :
    SameAttempt entity (s.commit entity outcome) (t.commit entity outcome) := by
  by_cases hverify : t.verify = true
  · cases hcheck : outcome.state.check with
    | error error =>
      rw [(commit_eq_error_iff outcome error).mpr ⟨h.verify.trans hverify, hcheck⟩,
        (commit_eq_error_iff outcome error).mpr ⟨hverify, hcheck⟩]
      exact .failed error
    | ok value =>
      have hviolations := (outcome.state.check_eq_ok_iff).mp hcheck
      rw [commit_of_violations outcome fun _ => hviolations,
        commit_of_violations outcome fun _ => hviolations]
      exact .done outcome.diff (h.put outcome.state)
  · rw [commit_of_violations outcome fun hs => absurd (h.verify ▸ hs) hverify,
      commit_of_violations outcome fun ht => absurd ht hverify]
    exact .done outcome.diff (h.put outcome.state)

/-- A reconciliation of the entity comes out alike. -/
theorem reconcile_congr (body : Body) :
    SameAttempt entity (s.reconcile entity body) (t.reconcile entity body) := by
  rw [reconcile_eq_reconcileByPass, reconcile_eq_reconcileByPass, reconcileByPass,
    reconcileByPass, h.tracked?, h.stateOf]
  cases t.tracked? entity with
  | error error => exact .failed error
  | ok found =>
    cases hpass : (t.stateOf entity).synchronize body with
    | error error => exact .failed error
    | ok outcome => exact commit_congr h outcome

/-- A clearing of the entity comes out alike. -/
theorem clear_congr : SameAttempt entity (s.clear entity) (t.clear entity) := by
  rw [clear, clear, h.tracked?, h.members]
  cases t.tracked? entity with
  | error error => exact .failed error
  | ok found =>
    cases found with
    | none => exact .done none h
    | some record =>
      exact (commit_congr h (EntityState.clear ⟨record, t.members entity⟩)).bind_some

/-- Data that one store takes in, the other takes in too. -/
theorem setData?_congr {function : String} {data : Json} {next : Store}
    (hset : s.setData? entity function data = some next) :
    ∃ next', t.setData? entity function data = some next' ∧ AgreeOn entity next next' := by
  obtain ⟨record, tree, members, hrecord, hfunction, htree, hmembers, rfl⟩ :=
    setData?_eq_some_iff.mp hset
  rw [h.record] at hrecord
  rw [h.tree] at htree
  exact ⟨_, setData?_eq_some_iff.mpr
    ⟨record, tree, members, hrecord, hfunction, htree, hmembers, rfl⟩, h.put _⟩

/-- A result of the entity is recorded alike. -/
theorem recordResult_congr (function : String) (result : ExecutionResult) :
    SameAttempt entity (s.recordResult entity function result)
      (t.recordResult entity function result) := by
  unfold recordResult
  dsimp only
  cases hs : s.setData? entity function
      (Execution.capture (entity ++ "." ++ function) result).data with
  | some next =>
    obtain ⟨next', hnext', hagree⟩ := setData?_congr h hs
    rw [hnext']
    exact .done _ hagree
  | none =>
    cases ht : t.setData? entity function
        (Execution.capture (entity ++ "." ++ function) result).data with
    | none => exact .failed _
    | some next =>
      obtain ⟨next', hnext', -⟩ := setData?_congr h.symm ht
      rw [hs] at hnext'
      cases hnext'

/-- **The congruence**: an operation that concerns an entity answers alike in stores that agree on
it, and they agree afterwards. -/
theorem perform_congr {operation : Operation} (hconcerns : operation.concerns entity = true) :
    (s.perform operation).1 = (t.perform operation).1 ∧
      AgreeOn entity (s.perform operation).2 (t.perform operation).2 := by
  have heq := Operation.concerns_iff.mp hconcerns
  cases operation with
  | reconcile other body =>
    obtain rfl := heq other rfl
    rw [perform_reconcile, perform_reconcile]
    exact settle_congr h _ (reconcile_congr h body)
  | clear other =>
    obtain rfl := heq other rfl
    rw [perform_clear, perform_clear]
    exact settle_congr h _ (clear_congr h)
  | recordResult other function result =>
    obtain rfl := heq other rfl
    rw [perform_recordResult, perform_recordResult]
    exact settle_congr h _ (recordResult_congr h function result)
  | insertEntity state =>
    obtain rfl := heq state.record.name rfl
    exact ⟨rfl, h.put state⟩
  | removeEntity other =>
    obtain rfl := heq other rfl
    rw [perform, perform, removeEntity_eq, removeEntity_eq, h.record, h.members]
    cases t.record? other with
    | none => exact ⟨rfl, h⟩
    | some record => exact ⟨rfl, h.without⟩
  | setVerify verify => exact ⟨rfl, h.record, h.tree, rfl⟩

end Congruence

/-! ## Runs -/

/-- The run: stores that agree on an entity agree after a run of one and the thinned out run of the
other, and the answers that concern the entity are the same. -/
theorem run_agree {entity : String} {s t : Store} (h : AgreeOn entity s t)
    (operations : List Operation) :
    answersOn entity operations (s.run operations).1 =
        (t.run (operationsOn entity operations)).1 ∧
      AgreeOn entity (s.run operations).2 (t.run (operationsOn entity operations)).2 := by
  induction operations generalizing s t with
  | nil => exact ⟨rfl, h⟩
  | cons operation rest ih =>
    rw [run_cons, answersOn_cons, operationsOn_cons]
    cases hconcerns : operation.concerns entity with
    | true =>
      obtain ⟨hanswer, hnext⟩ := perform_congr h hconcerns
      obtain ⟨hanswers, hlast⟩ := ih hnext
      rw [if_pos rfl, if_pos rfl, run_cons, hanswer, hanswers]
      exact ⟨rfl, hlast⟩
    | false =>
      have hnext := (perform_agree s hconcerns).symm.trans h
      rw [if_neg Bool.false_ne_true, if_neg Bool.false_ne_true]
      exact ih hnext

/-- **Entities are independent.**  From any store on, a run answers the operations that concern an
entity as if only these were carried out, and leaves the same record, tree and report of the entity.
So two sequences that concern every entity by the same operations in the same order get the same
answers about it, and lead to the same store up to the order of entities. -/
theorem entities_are_independent (store : Store) :
    (∀ operations entity,
      answersOn entity operations (store.run operations).1 =
          (store.run (operationsOn entity operations)).1 ∧
        (store.run operations).2.record? entity =
          (store.run (operationsOn entity operations)).2.record? entity ∧
        (store.run operations).2.tree? entity =
          (store.run (operationsOn entity operations)).2.tree? entity ∧
        (store.run operations).2.inspect entity =
          (store.run (operationsOn entity operations)).2.inspect entity) ∧
    ∀ operations others, (∀ entity, operationsOn entity operations = operationsOn entity others) →
      (∀ entity, answersOn entity operations (store.run operations).1 =
        answersOn entity others (store.run others).1) ∧
      (store.run operations).2.configs.entries.Perm (store.run others).2.configs.entries ∧
      (store.run operations).2.trees.entries.Perm (store.run others).2.trees.entries ∧
      (store.run operations).2.verify = (store.run others).2.verify := by
  have hrun := fun operations entity => run_agree (AgreeOn.refl entity store) operations
  refine ⟨fun operations entity => ?_, fun operations others hsame => ?_⟩
  · obtain ⟨hanswers, hagree⟩ := hrun operations entity
    exact ⟨hanswers, hagree.record, hagree.tree, hagree.inspect⟩
  · have hagree : ∀ entity, AgreeOn entity (store.run operations).2 (store.run others).2 := by
      intro entity
      have hthinned := (hrun operations entity).2
      rw [hsame] at hthinned
      exact hthinned.trans (hrun others entity).2.symm
    obtain ⟨hconfigs, htrees⟩ := AgreeOn.perm hagree
    refine ⟨fun entity => ?_, hconfigs, htrees, (hagree "").verify⟩
    rw [(hrun operations entity).1, (hrun others entity).1, hsame]

/-- Operations on two entities, one after the other. -/
def separateRun : List Operation :=
  [.reconcile "Page" ⟨[⟨"run", "() => 1", []⟩], []⟩,
    .recordResult "Page" "run" (.value (.bool true)),
    .removeEntity "Page",
    .insertEntity (EntityState.new "Page"),
    .reconcile "Chart" ⟨[⟨"run", "() => 2", []⟩], []⟩,
    .clear "Chart"]

/-- The same operations on each of the two entities, in turns. -/
def alternatingRun : List Operation :=
  [.reconcile "Chart" ⟨[⟨"run", "() => 2", []⟩], []⟩,
    .reconcile "Page" ⟨[⟨"run", "() => 1", []⟩], []⟩,
    .recordResult "Page" "run" (.value (.bool true)),
    .clear "Chart",
    .removeEntity "Page",
    .insertEntity (EntityState.new "Page")]

/-- The two runs lead to the same store up to the order of entities, which differs. -/
theorem alternatingRun_agrees :
    (∀ entity, operationsOn entity separateRun = operationsOn entity alternatingRun) ∧
      ((empty true).run separateRun).2.configs.keys = ["Page", "Chart"] ∧
      ((empty true).run alternatingRun).2.configs.keys = ["Chart", "Page"] ∧
      ((empty true).run separateRun).2.configs.entries.Perm
        ((empty true).run alternatingRun).2.configs.entries ∧
      ((empty true).run separateRun).2.trees.entries.Perm
        ((empty true).run alternatingRun).2.trees.entries := by
  have hsame : ∀ entity, operationsOn entity separateRun = operationsOn entity alternatingRun := by
    intro entity
    by_cases hpage : "Page" = entity
    · subst hpage
      decide
    · by_cases hchart : "Chart" = entity
      · subst hchart
        decide
      · have hname : (EntityState.new "Page").record.name = "Page" := rfl
        simp [operationsOn, separateRun, alternatingRun, Operation.concerns, Operation.entity?,
          hpage, hchart, hname]
  obtain ⟨-, hconfigs, htrees, -⟩ := (entities_are_independent (empty true)).2 _ _ hsame
  exact ⟨hsame, by decide, by decide, hconfigs, htrees⟩

end Store

end ScriptStore
