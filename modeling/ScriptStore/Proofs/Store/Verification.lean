import ScriptStore.Proofs.Pass.Blanking
import ScriptStore.Proofs.Pass.Preservation
import ScriptStore.Proofs.Store.Failures
import ScriptStore.Proofs.Store.Independence

/-!
# What verification does and does not do

Verification looks at the outcome of a pass before it is committed and changes nothing else.  So a
verified pass that succeeds is the unverified pass whose outcome happens to be consistent, and one
that is refused is an unverified pass whose outcome has the reported violation in the first place.
Both follow from one equation about commits (`Store.commit_withVerify`).

An entity that passed stays consistent (`Store.ConsistentOn`) as long as its passes are verified and
it is neither inserted nor removed (`Store.sparing`): recorded data changes a member that is a
function to another one with the same source, which no check sees, and operations on other entities
leave this one alone.

The store that the passes start from is arbitrary, also in what it keeps about the entity.
-/

namespace ScriptStore

/-! ## Consistency and data of executions -/

namespace EntityState

/-- The checks do not look at the data of a function. -/
theorem Consistent.setData? {state : EntityState} (h : state.Consistent) {function : String}
    {data : Json} {members : MemberTree}
    (hset : state.members.setData? function data = some members) :
    Consistent ⟨state.record, members⟩ := by
  rw [← violations_eq_nil_iff] at h ⊢
  rw [(sameButData_of_setData? hset).violations, h]

end EntityState

namespace Store

variable {store : Store} {entity : String}

/-! ## Entities that are found consistent -/

/-- The entity is tracked, and its report has no violation. -/
def ConsistentOn (store : Store) (entity : String) : Prop :=
  ∃ report, store.inspect entity = some report ∧ report.violations = []

/-- An entity is found consistent if its record bears its name and agrees with its members. -/
theorem consistentOn_iff :
    store.ConsistentOn entity ↔ ∃ record, store.record? entity = some record ∧
      record.name = entity ∧ EntityState.Consistent ⟨record, store.members entity⟩ := by
  constructor
  · rintro ⟨report, hreport, hclean⟩
    obtain ⟨hfiled, hstate⟩ := consistent_of_inspect hreport hclean
    obtain ⟨record, hrecord, -⟩ := Option.map_eq_some_iff.mp hreport
    rw [stateOf, hrecord] at hstate
    exact ⟨record, hrecord, hfiled record hrecord, hstate⟩
  · rintro ⟨record, hrecord, hname, hstate⟩
    refine ⟨EntityState.inspect ⟨record, store.members entity⟩, ?_,
      (EntityState.violations_eq_nil_iff _).mpr hstate⟩
    rw [inspect, hrecord, Option.map_some, if_pos hname]

/-- A state that bears the name of the entity is reported as it is once it is put there. -/
theorem inspect_put {state : EntityState} (hname : state.record.name = entity) :
    (store.put entity state).inspect entity = some state.inspect := by
  rw [inspect, record?_put, if_pos rfl, members_put, if_pos rfl, Option.map_some, if_pos hname]

theorem consistentOn_put {state : EntityState} (hname : state.record.name = entity)
    (h : state.violations = []) : (store.put entity state).ConsistentOn entity :=
  ⟨state.inspect, inspect_put hname, h⟩

theorem AgreeOn.consistentOn {other : Store} (h : AgreeOn entity store other)
    (hstore : store.ConsistentOn entity) : other.ConsistentOn entity := by
  rwa [ConsistentOn, ← h.inspect]

/-! ## The same store with and without verification -/

/-- The store with verification switched on or off. -/
def withVerify (store : Store) (verify : Bool) : Store := { store with verify := verify }

theorem filed_withVerify (verify : Bool) :
    (store.withVerify verify).Filed entity ↔ store.Filed entity := Iff.rfl

/-- A verified commit is the unverified one if the outcome has no violation, and is refused with the
first violation otherwise. -/
theorem commit_withVerify (store : Store) (entity : String) (outcome : PassOutcome) :
    (store.withVerify false).commit entity outcome =
        .ok (outcome.diff, (store.put entity outcome.state).withVerify false) ∧
      (store.withVerify true).commit entity outcome =
        match outcome.state.violations.head? with
        | none => .ok (outcome.diff, (store.put entity outcome.state).withVerify true)
        | some violation => .error (.inconsistent outcome.state.record.name violation) := by
  constructor
  · exact commit_of_violations outcome nofun
  · cases hhead : outcome.state.violations.head? with
    | none => exact commit_of_violations outcome fun _ => List.head?_eq_none_iff.mp hhead
    | some violation =>
      exact (commit_eq_error_iff outcome _).mpr
        ⟨rfl, (outcome.state.check_eq_error_iff _).mpr ⟨violation, hhead, rfl⟩⟩

/-! ## Guarded attempts -/

/-- What verification makes of an attempt to commit a state of the entity: `verified` is the attempt
with it and `plain` the one without it. -/
inductive Guarded {α : Type} (entity : String) :
    (verified plain : Except SyncError (α × Store)) → Prop
  /-- The outcome has no violation, and both attempts commit it. -/
  | passed (value : α) (next : Store) (h : next.ConsistentOn entity)
      (hverify : next.verify = true) :
    Guarded entity (.ok (value, next)) (.ok (value, next.withVerify false))
  /-- The outcome has a violation, which is reported first if it is committed all the same. -/
  | refused (value : α) (next : Store) (report : Report) (violation : Violation)
    (hreport : next.inspect entity = some report)
    (hhead : report.violations.head? = some violation) :
    Guarded entity (.error (.inconsistent entity violation)) (.ok (value, next))
  /-- The attempt fails for a reason that has nothing to do with consistency. -/
  | failed (error : SyncError) (h : ∀ named violation, error ≠ .inconsistent named violation) :
    Guarded entity (.error error) (.error error)

/-- **Commits are guarded**, if the state bears the name of the entity. -/
theorem guarded_commit (store : Store) {outcome : PassOutcome}
    (hname : outcome.state.record.name = entity) :
    Guarded entity ((store.withVerify true).commit entity outcome)
      ((store.withVerify false).commit entity outcome) := by
  obtain ⟨hplain, hverified⟩ := store.commit_withVerify entity outcome
  rw [hplain, hverified]
  cases hhead : outcome.state.violations.head? with
  | none =>
    have hnext : (store.put entity outcome.state).ConsistentOn entity :=
      consistentOn_put hname (List.head?_eq_none_iff.mp hhead)
    exact .passed outcome.diff ((store.put entity outcome.state).withVerify true) hnext rfl
  | some violation =>
    dsimp only
    rw [hname]
    exact .refused _ _ outcome.state.inspect violation (inspect_put hname) hhead

/-- The value of a guarded attempt may be wrapped. -/
theorem Guarded.map {α β : Type} {verified plain : Except SyncError (α × Store)}
    (h : Guarded entity verified plain) (f : α → β) :
    Guarded entity (verified.map fun outcome => (f outcome.1, outcome.2))
      (plain.map fun outcome => (f outcome.1, outcome.2)) := by
  cases h with
  | passed value next hnext hverify => exact .passed (f value) next hnext hverify
  | refused value next report violation hreport hhead =>
    exact .refused (f value) next report violation hreport hhead
  | failed error hother => exact .failed error hother

/-- A reconciliation of an entity that is filed under its own name is guarded. -/
theorem guarded_reconcile (h : store.Filed entity) (body : Body) :
    Guarded entity ((store.withVerify true).reconcile entity body)
      ((store.withVerify false).reconcile entity body) := by
  rw [reconcile_of_filed ((filed_withVerify true).mpr h),
    reconcile_of_filed ((filed_withVerify false).mpr h)]
  cases body.nameError? with
  | some fault => exact .failed _ nofun
  | none => exact store.guarded_commit (name_stateOf h)

/-- A clearing of a tracked entity that is filed under its own name is guarded. -/
theorem guarded_clear {record : Record} (hrecord : store.record? entity = some record)
    (hname : record.name = entity) :
    Guarded entity ((store.withVerify true).clear entity)
      ((store.withVerify false).clear entity) := by
  have hfiled := filed_of_record? hrecord hname
  have hverified : (store.withVerify true).record? entity = some record := hrecord
  have hplain : (store.withVerify false).record? entity = some record := hrecord
  rw [clear_of_filed ((filed_withVerify true).mpr hfiled),
    clear_of_filed ((filed_withVerify false).mpr hfiled), hverified, hplain]
  let outcome := EntityState.clear ⟨record, store.members entity⟩
  have hcommit : Guarded entity ((store.withVerify true).commit entity outcome)
      ((store.withVerify false).commit entity outcome) := store.guarded_commit hname
  exact hcommit.map some

/-- Only a tracked entity is cleared with a difference. -/
theorem record_of_clear_eq_ok {diff : EntityDiff} {next : Store}
    (h : (store.withVerify true).clear entity = .ok (some diff, next)) :
    ∃ record, store.record? entity = some record ∧ record.name = entity := by
  rcases clear_eq_ok h with ⟨-, hanswer, -⟩ | ⟨record, hrecord, hname, -⟩
  · cases hanswer
  · exact ⟨record, hrecord, hname⟩

/-- Only a tracked entity is refused when it is cleared. -/
theorem record_of_clear_eq_error {error : SyncError} (hfiled : store.Filed entity)
    (h : (store.withVerify true).clear entity = .error error) :
    ∃ record, store.record? entity = some record := by
  rcases (clear_eq_error_iff error).mp h with htracked | ⟨record, hrecord, -⟩
  · rw [tracked?_of_filed ((filed_withVerify true).mpr hfiled)] at htracked
    cases htracked
  · exact ⟨record, hrecord⟩

/-- What passes verification is found consistent, and verification stays switched on. -/
theorem Guarded.consistentOn {α : Type} {value : α} {next : Store}
    {plain : Except SyncError (α × Store)} (h : Guarded entity (.ok (value, next)) plain) :
    next.ConsistentOn entity ∧ next.verify = true := by
  cases h with
  | passed _ _ hnext hverify => exact ⟨hnext, hverify⟩

/-! ## Operations that spare an entity -/

/-- Whether verification is on after an operation. -/
def Operation.verifyAfter (verify : Bool) : Operation → Bool
  | .setVerify next => next
  | _ => verify

/-- Whether an operation cannot make the entity inconsistent.  Without verification a pass over the
entity may do so, and its insertion or removal always may. -/
def Operation.spares (entity : String) (verify : Bool) : Operation → Bool
  | .reconcile other _ => verify || other != entity
  | .clear other => verify || other != entity
  | .recordResult _ _ _ => true
  | .insertEntity state => state.record.name != entity
  | .removeEntity other => other != entity
  | .setVerify _ => true

/-- Whether no operation of a sequence can make the entity inconsistent, where verification is
switched by the sequence itself. -/
def sparing (entity : String) : Bool → List Operation → Bool
  | _, [] => true
  | verify, operation :: rest =>
    operation.spares entity verify && sparing entity (operation.verifyAfter verify) rest

/-- Only a switch changes the verification. -/
theorem verify_perform (store : Store) (operation : Operation) :
    (store.perform operation).2.verify = operation.verifyAfter store.verify := by
  have hother : (∀ verify, operation ≠ .setVerify verify) →
      (store.perform operation).2.verify = store.verify := by
    intro hne
    rcases store.perform_cases operation with
      hsame | ⟨other, state, -, hput⟩ | ⟨other, -, hwithout⟩ | ⟨verify, rfl⟩
    · rw [hsame]
    · rw [hput, put]
    · rw [hwithout, without]
    · exact absurd rfl (hne verify)
  cases operation with
  | setVerify verify => rfl
  | _ =>
    refine hother ?_
    rintro _ ⟨⟩

/-- An attempt that gives only stores in which the entity is consistent leaves it consistent, also
when it fails. -/
theorem consistentOn_settle {α : Type} {answer : α → Answer}
    {attempt : Except SyncError (α × Store)} (h : store.ConsistentOn entity)
    (hattempt : ∀ value next, attempt = .ok (value, next) → next.ConsistentOn entity) :
    (store.settle answer attempt).2.ConsistentOn entity := by
  cases attempt with
  | error error => exact h
  | ok outcome => exact hattempt outcome.1 outcome.2 rfl

/-- **The step**: an operation that spares a consistent entity leaves it consistent. -/
theorem consistentOn_perform (h : store.ConsistentOn entity) {operation : Operation}
    (hspares : operation.spares entity store.verify = true) :
    (store.perform operation).2.ConsistentOn entity := by
  by_cases hconcerns : operation.concerns entity = true
  swap
  -- what happens to other entities does not touch this one
  · exact (store.perform_agree (Bool.eq_false_iff.mpr hconcerns)).consistentOn h
  have heq := Operation.concerns_iff.mp hconcerns
  obtain ⟨record, hrecord, hname, hstate⟩ := consistentOn_iff.mp h
  have hverified : store.verify = true → store.withVerify true = store := by
    intro hverify
    rw [withVerify, ← hverify]
  cases operation with
  | reconcile other body =>
    obtain rfl := heq other rfl
    rw [Operation.spares, bne_self_eq_false, Bool.or_false] at hspares
    have hguarded := guarded_reconcile (filed_of_record? hrecord hname) body
    rw [hverified hspares] at hguarded
    rw [perform_reconcile]
    exact consistentOn_settle h fun diff next hok => (hok ▸ hguarded).consistentOn.1
  | clear other =>
    obtain rfl := heq other rfl
    rw [Operation.spares, bne_self_eq_false, Bool.or_false] at hspares
    have hguarded := guarded_clear hrecord hname
    rw [hverified hspares] at hguarded
    rw [perform_clear]
    exact consistentOn_settle h fun diff next hok => (hok ▸ hguarded).consistentOn.1
  | recordResult other function result =>
    obtain rfl := heq other rfl
    rw [perform_recordResult]
    refine consistentOn_settle h fun execution next hok => ?_
    obtain ⟨found, tree, members, hfound, -, htree, hmembers, rfl⟩ :=
      setData?_eq_some_iff.mp (recordResult_eq_ok hok).2
    -- only the data of a member changes, which no check reads
    rw [hrecord, Option.some.injEq] at hfound
    rw [members_of_tree? htree] at hstate
    subst hfound
    exact consistentOn_put hname
      ((EntityState.violations_eq_nil_iff _).mpr (hstate.setData? hmembers))
  | insertEntity state =>
    rw [Operation.spares, heq state.record.name rfl, bne_self_eq_false] at hspares
    cases hspares
  | removeEntity other =>
    rw [Operation.spares, heq other rfl, bne_self_eq_false] at hspares
    cases hspares
  | setVerify verify => exact AgreeOn.consistentOn ⟨rfl, rfl, rfl⟩ h

/-- The run: a sequence that spares a consistent entity leaves it consistent. -/
theorem consistentOn_run (h : store.ConsistentOn entity) {operations : List Operation}
    (hsparing : sparing entity store.verify operations = true) :
    (store.run operations).2.ConsistentOn entity := by
  induction operations generalizing store with
  | nil => exact h
  | cons operation rest ih =>
    rw [sparing, Bool.and_eq_true] at hsparing
    obtain ⟨hspares, hrest⟩ := hsparing
    rw [run_cons]
    rw [← verify_perform] at hrest
    exact ih (consistentOn_perform h hspares) hrest

/-! ## The main theorem -/

/-- What a verified success means: without verification the attempt gives the same value, records
and trees, and the entity is consistent and stays so under all operations that spare it. -/
theorem Guarded.of_ok {α : Type} {value : α} {next : Store}
    {plain : Except SyncError (α × Store)} (h : Guarded entity (.ok (value, next)) plain) :
    plain = .ok (value, next.withVerify false) ∧ next.ConsistentOn entity ∧
      ∀ operations, sparing entity true operations = true →
        (next.run operations).2.ConsistentOn entity := by
  obtain ⟨hnext, hverify⟩ := h.consistentOn
  cases h with
  | passed _ _ _ _ =>
    exact ⟨rfl, hnext, fun operations hsparing => consistentOn_run hnext (hverify ▸ hsparing)⟩

/-- What a refusal means: without verification the attempt succeeds, and the report on the outcome
has the violation first. -/
theorem Guarded.of_error {α : Type} {named : String} {violation : Violation}
    {plain : Except SyncError (α × Store)}
    (h : Guarded entity (.error (.inconsistent named violation)) plain) :
    named = entity ∧ ∃ value next report, plain = .ok (value, next) ∧
      next.inspect entity = some report ∧ report.violations.head? = some violation := by
  cases h with
  | refused value next report _ hreport hhead =>
    exact ⟨rfl, value, next, report, rfl, hreport, hhead⟩
  | failed _ hother => exact absurd rfl (hother named violation)

/-- **Verification is a sound and transparent guard.**  A reconciliation or clearing that gives a
difference with verification gives the same difference, records and trees without it, leaves the
entity consistent, and the entity stays consistent under verified passes, recorded results and any
operations on other entities.  One that is refused for an inconsistency, of an entity that is not
kept under a foreign name, succeeds without verification, and the report on the outcome has what was
reported as its first violation. -/
theorem verification_is_transparent (store : Store) (entity : String) :
    (∀ body diff next, (store.withVerify true).reconcile entity body = .ok (diff, next) →
      (store.withVerify false).reconcile entity body = .ok (diff, next.withVerify false) ∧
        next.ConsistentOn entity ∧
        ∀ operations, sparing entity true operations = true →
          (next.run operations).2.ConsistentOn entity) ∧
    (∀ diff next, (store.withVerify true).clear entity = .ok (some diff, next) →
      (store.withVerify false).clear entity = .ok (some diff, next.withVerify false) ∧
        next.ConsistentOn entity ∧
        ∀ operations, sparing entity true operations = true →
          (next.run operations).2.ConsistentOn entity) ∧
    (store.Filed entity →
      (∀ body named violation,
        (store.withVerify true).reconcile entity body = .error (.inconsistent named violation) →
        named = entity ∧ ∃ diff next report,
          (store.withVerify false).reconcile entity body = .ok (diff, next) ∧
          next.inspect entity = some report ∧ report.violations.head? = some violation) ∧
      ∀ named violation,
        (store.withVerify true).clear entity = .error (.inconsistent named violation) →
        named = entity ∧ ∃ diff next report,
          (store.withVerify false).clear entity = .ok (some diff, next) ∧
          next.inspect entity = some report ∧ report.violations.head? = some violation) := by
  refine ⟨fun body diff next hok => ?_, fun diff next hok => ?_, fun hfiled =>
    ⟨fun body named violation herror => ?_, fun named violation herror => ?_⟩⟩
  · have hfiled : store.Filed entity := (filed_withVerify true).mp (reconcile_eq_ok hok).1
    have hguarded := guarded_reconcile hfiled body
    rw [hok] at hguarded
    exact hguarded.of_ok
  · obtain ⟨record, hrecord, hname⟩ := record_of_clear_eq_ok hok
    have hguarded := guarded_clear hrecord hname
    rw [hok] at hguarded
    exact hguarded.of_ok
  · have hguarded := guarded_reconcile hfiled body
    rw [herror] at hguarded
    exact hguarded.of_error
  · obtain ⟨record, hrecord⟩ := record_of_clear_eq_error hfiled herror
    have hguarded := guarded_clear hrecord (hfiled record hrecord)
    rw [herror] at hguarded
    obtain ⟨hnamed, answer, next, report, hplain, hreport, hhead⟩ := hguarded.of_error
    cases answer with
    | none =>
      have huntracked : store.record? entity = none := ((clear_eq_none_iff next).mp hplain).1
      rw [hrecord] at huntracked
      cases huntracked
    | some diff => exact ⟨hnamed, diff, next, report, hplain, hreport, hhead⟩

/-- A store in which one entity has a reactive path that is not bound, and another has members but
no record. -/
def danglingStore : Store :=
  let dangling : Record :=
    { Record.new "Page" with reactivePaths := (∅ : OrderedMap Substitution).insert "ghost" .smart }
  { configs := (∅ : OrderedMap Record).insert "Page" dangling
    trees := (∅ : Forest).insert "Chart"
      ((∅ : MemberTree).insert "load" (.function "() => 0" .null))
    verify := false }

/-- The body with one function. -/
def loadBody : Body := ⟨[⟨"load", "() => 1", []⟩], []⟩

/-- Operations that spare one entity: a result, verified passes, and whatever happens to another
entity, also while verification is off. -/
def sparingRun : List Operation :=
  [.recordResult "Chart" "load" (.value (.bool true)),
    .reconcile "Page" loadBody,
    .setVerify false,
    .reconcile "Page" loadBody,
    .insertEntity (EntityState.new "Page"),
    .removeEntity "Page",
    .setVerify true,
    .reconcile "Chart" ⟨[], [⟨"load", .null⟩]⟩,
    .clear "Chart"]

/-- The dangling entity is refused and has the reported path first in its report otherwise; the
entity without a record passes and is consistent to the end. -/
theorem danglingStore_is_guarded :
    danglingStore.Filed "Page" ∧
      (danglingStore.withVerify true).reconcile "Page" loadBody =
        .error (.inconsistent "Page" (.unboundPath "ghost" "ghost")) ∧
      (∃ diff next report,
        (danglingStore.withVerify false).reconcile "Page" loadBody = .ok (diff, next) ∧
          next.inspect "Page" = some report ∧
          report.violations.head? = some (.unboundPath "ghost" "ghost")) ∧
      (danglingStore.withVerify true).clear "Page" =
        .error (.inconsistent "Page" (.unboundPath "ghost" "ghost")) ∧
      (∃ diff next report, (danglingStore.withVerify false).clear "Page" = .ok (some diff, next) ∧
          next.inspect "Page" = some report ∧
          report.violations.head? = some (.unboundPath "ghost" "ghost")) ∧
      ∃ diff next, (danglingStore.withVerify true).reconcile "Chart" loadBody = .ok (diff, next) ∧
        (danglingStore.withVerify false).reconcile "Chart" loadBody =
          .ok (diff, next.withVerify false) ∧
        sparing "Chart" true sparingRun = true ∧
        (next.run sparingRun).2.ConsistentOn "Chart" := by
  have hfiled : danglingStore.Filed "Page" := filed_of_record? rfl rfl
  obtain ⟨-, -, hrefused⟩ := verification_is_transparent danglingStore "Page"
  obtain ⟨hreconcile, hclear⟩ := hrefused hfiled
  have hpage : (danglingStore.withVerify true).reconcile "Page" loadBody =
      .error (.inconsistent "Page" (.unboundPath "ghost" "ghost")) := by decide
  have hcleared : (danglingStore.withVerify true).clear "Page" =
      .error (.inconsistent "Page" (.unboundPath "ghost" "ghost")) := by decide
  obtain ⟨hpassed, -, -⟩ := verification_is_transparent danglingStore "Chart"
  have hchart : (danglingStore.withVerify true).reconcile "Chart" loadBody = .ok (_, _) := rfl
  obtain ⟨hplain, -, hlater⟩ := hpassed loadBody _ _ hchart
  have hsparing : sparing "Chart" true sparingRun = true := by decide
  exact ⟨hfiled, hpage, (hreconcile loadBody _ _ hpage).2, hcleared, (hclear _ _ hcleared).2,
    _, _, hchart, hplain, hsparing, hlater sparingRun hsparing⟩

end Store

end ScriptStore
