import ScriptStore.Proofs.Consistency
import ScriptStore.Proofs.Pass.Tables
import ScriptStore.Proofs.Store.Failures

/-!
# Which passes keep an entity consistent

The checks accept records that no pass leads to: names may hold separators, and a name that is not
declared may be registered several times.  Such entries are harmless until a body declares a
function next to them.  A member that is named like the data path of the function takes that path
with it when it is dropped, and a name that is registered twice stays so when it becomes a
function.

Nothing else goes wrong: a pass of an accepted body over a consistent entity gives a consistent
entity exactly if the entity admits the body (`EntityState.consistent_withBody_iff`).  Whatever
other paths, bindings and dependencies there are, the rest of the checks holds in any case.
-/

namespace ScriptStore

namespace EntityState

variable {state : EntityState} {body : Body}

/-! ## Bodies that an entity admits -/

/-- An entity admits a body if no member is named like the data path of a declared function and
no declared function is registered more than once. -/
def Admits (state : EntityState) (body : Body) : Prop :=
  ∀ function ∈ body.functionNames,
    (dataPath function ∉ state.record.functions.keys ∧ dataPath function ∉ state.record.vars) ∧
      state.record.dependencies.body.count function ≤ 1

instance (state : EntityState) (body : Body) : Decidable (state.Admits body) :=
  inferInstanceAs (Decidable (∀ function ∈ body.functionNames, _))

/-! ## Consistent entities -/

namespace Consistent

theorem isDisjoint (h : state.Consistent) : state.record.IsDisjoint := by
  intro name hfunction
  rw [Record.hasFunction_iff] at hfunction
  rw [← Bool.not_eq_true, Record.hasVariable_iff]
  exact fun hvar => (h.vars name hvar).notFunction hfunction

/-- A function whose name is a segment is bound. -/
theorem mem_bindingPaths (h : state.Consistent) {function : String} (hsegment : IsSegment function)
    (hfunction : function ∈ state.record.functions.keys) :
    function ∈ state.record.bindingPaths := by
  have hkey : state.record.bindingKey function = function :=
    Record.bindingKey_of_forall_ne fun other _ heq => hsegment.ne_dataPath other heq.symm
  have hpath := OrderedMap.mem_keys_of_get? (h.functions function hfunction).smart
  exact hkey ▸ h.bound function hpath

end Consistent

/-! ## Functions after a pass -/

section Pass

variable (h : state.Consistent) (hbody : body.WellNamed)

include h hbody

/-- A function of the body has a smart path. -/
theorem get?_reactivePaths_withBody_function {function : String}
    (hfunction : function ∈ body.functionNames) :
    (state.withBody body).record.reactivePaths.get? function = some .smart := by
  have hmap := (hbody.segment_function hfunction).notMem_map_dataPath
  rw [get?_reactivePaths_withBody state hbody]
  simp only [List.mem_append, hmap, or_false, if_false, mem_droppedVariables, mem_addedVariables,
    mem_missingFunctions, mem_addedFunctionNames, hfunction, hbody.disjoint hfunction,
    not_true_eq_false, and_false, false_and, true_and]
  split
  · rfl
  -- a function that stays has had its smart path before
  · rename_i hold
    exact (h.functions function (not_not.mp hold)).smart

/-- A function of the body keeps or gets its data path exactly if no member of that name is
dropped. -/
theorem get?_reactivePaths_withBody_template_iff {function : String}
    (hfunction : function ∈ body.functionNames) :
    (state.withBody body).record.reactivePaths.get? (dataPath function) = some .template ↔
      dataPath function ∉ state.record.functions.keys ∧
        dataPath function ∉ state.record.vars := by
  obtain ⟨hnotFunction, hnotVariable⟩ := hbody.dataPath_notMem function
  rw [get?_reactivePaths_withBody state hbody]
  simp only [List.mem_append, mem_map_dataPath, mem_droppedVariables, mem_addedVariables,
    mem_missingFunctions, mem_addedFunctionNames, hnotFunction, hnotVariable, hfunction,
    not_false_eq_true, not_true_eq_false, and_true, and_false, or_false, false_and, true_and,
    if_false]
  by_cases hvar : dataPath function ∈ state.record.vars
  · simp [hvar]
  · by_cases hdropped : dataPath function ∈ state.record.functions.keys
    · simp [hvar, hdropped]
    · by_cases hold : function ∈ state.record.functions.keys
      · simp [hvar, hdropped, hold, (h.functions function hold).template]
      · simp [hvar, hdropped, hold]

omit hbody in
/-- A function of the body is registered once afterwards exactly if it was not registered more
than once before. -/
theorem count_dependencies_withBody_iff {function : String}
    (hfunction : function ∈ body.functionNames) :
    (state.withBody body).record.dependencies.body.count function = 1 ↔
      state.record.dependencies.body.count function ≤ 1 := by
  have hmissing : function ∉ state.missingFunctions body := by
    rw [mem_missingFunctions]
    exact fun hmem => hmem.2 hfunction
  rw [dependencyBody_withBody, Names.count_removeAll _ hmissing, Names.count_pushAll]
  by_cases hold : function ∈ state.record.functions.keys
  · have hone := (h.functions function hold).dependency
    have hmem : function ∈ state.record.dependencies.body := by
      rw [← List.count_pos_iff, hone]
      exact Nat.one_pos
    rw [if_pos hmem, hone]
    simp
  · have hadded : function ∈ (state.addedFunctions body).map (·.name) :=
      (mem_addedFunctionNames state body function).mpr ⟨hfunction, hold⟩
    by_cases hmem : function ∈ state.record.dependencies.body
    · have hpos := List.count_pos_iff.mpr hmem
      rw [if_pos hmem]
      omega
    · rw [if_neg hmem, if_pos hadded, List.count_eq_zero.mpr hmem]
      simp

/-- A function of the body is sound after a pass exactly if the entity admits it. -/
theorem functionSound_withBody_iff {function : String} (hfunction : function ∈ body.functionNames) :
    (state.withBody body).FunctionSound function ↔
      (dataPath function ∉ state.record.functions.keys ∧
          dataPath function ∉ state.record.vars) ∧
        state.record.dependencies.body.count function ≤ 1 := by
  rw [← get?_reactivePaths_withBody_template_iff h hbody hfunction,
    ← count_dependencies_withBody_iff h hfunction]
  constructor
  · rintro ⟨-, htemplate, hdependency, -⟩
    exact ⟨htemplate, hdependency⟩
  · rintro ⟨htemplate, hdependency⟩
    obtain ⟨decl, hdecl, rfl⟩ := List.mem_map.mp hfunction
    have hmember := get?_members_withBody_function state hbody hdecl
    exact ⟨get?_reactivePaths_withBody_function h hbody hfunction, htemplate, hdependency,
      decl.source, _, hmember⟩

/-! ## Variables and members after a pass -/

/-- A variable of the body is sound after a pass. -/
theorem variableSound_withBody {name : String} (hname : name ∈ body.variableNames) :
    (state.withBody body).VariableSound name where
  notFunction := by
    rw [mem_functions_withBody]
    exact fun hfunction => hbody.disjoint hfunction hname
  path := by
    have hmap := (hbody.segment_variable hname).notMem_map_dataPath
    have hfunction : name ∉ body.functionNames := fun hmem => hbody.disjoint hmem hname
    rw [OrderedMap.mem_keys_iff, get?_reactivePaths_withBody state hbody]
    simp only [List.mem_append, hmap, or_false, if_false, mem_droppedVariables,
      mem_addedVariables, mem_missingFunctions, mem_addedFunctionNames, hname, hfunction,
      not_true_eq_false, not_false_eq_true, and_false, false_and, true_and, and_true]
    by_cases hvar : name ∈ state.record.vars
    -- a variable that stays was no function, so no function takes its path
    · have hsound := h.vars name hvar
      obtain ⟨kind, hkind⟩ := (OrderedMap.mem_keys_iff _ name).mp hsound.path
      exact ⟨kind, by simp [hvar, hsound.notFunction, hkind]⟩
    · exact ⟨.smart, by simp [hvar]⟩
  member := by
    obtain ⟨decl, hdecl, rfl⟩ := List.mem_map.mp hname
    obtain ⟨value, hget, -⟩ := value_withBody state h.isDisjoint hbody hdecl
    exact ⟨value, hget⟩

omit hbody in
/-- Every member after a pass is declared by the body. -/
theorem mem_members_withBody {name : String} (hname : name ∈ (state.withBody body).members.keys) :
    name ∈ body.functionNames ∨ name ∈ body.variableNames := by
  by_contra hnone
  rw [not_or] at hnone
  obtain ⟨member, hmember⟩ := (OrderedMap.mem_keys_iff _ name).mp hname
  rw [get?_members_withBody_of_notMem state hnone.1 hnone.2] at hmember
  split at hmember
  · cases hmember
  · rename_i hundeclared
    exact hundeclared (h.members name (OrderedMap.mem_keys_of_get? hmember))

/-! ## Paths after a pass -/

/-- A function of the body is bound. -/
theorem mem_bindingPaths_withBody_function {function : String}
    (hfunction : function ∈ body.functionNames) :
    function ∈ (state.withBody body).record.bindingPaths := by
  rw [mem_bindingPaths_withBody, mem_missingFunctions, mem_addedFunctionNames,
    mem_droppedVariables]
  refine ⟨Or.inl ⟨?_, fun hmissing => hmissing.2 hfunction⟩, fun hdropped => hdropped.2 hfunction⟩
  by_cases hold : function ∈ state.record.functions.keys
  · exact Or.inl (h.mem_bindingPaths (hbody.segment_function hfunction) hold)
  · exact Or.inr ⟨hfunction, hold⟩

/-- A path that is the data path of no function of the body is bound under itself. -/
theorem mem_bindingPaths_withBody_of_ne {path : String}
    (hpath : path ∈ (state.withBody body).record.reactivePaths.keys)
    (hne : ∀ function ∈ body.functionNames, dataPath function ≠ path) :
    path ∈ (state.withBody body).record.bindingPaths := by
  obtain ⟨kind, hkind⟩ := (OrderedMap.mem_keys_iff _ path).mp hpath
  rw [get?_reactivePaths_withBody state hbody] at hkind
  rw [mem_bindingPaths_withBody]
  by_cases hdropped : path ∈ state.droppedVariables body
  · rw [if_pos hdropped] at hkind
    cases hkind
  refine ⟨?_, hdropped⟩
  rw [if_neg hdropped] at hkind
  by_cases hvariable : path ∈ state.addedVariables body
  · exact Or.inr hvariable
  left
  rw [if_neg hvariable] at hkind
  by_cases hmissing : path ∈ state.missingFunctions body ++
      (state.missingFunctions body).map dataPath
  · rw [if_pos hmissing] at hkind
    cases hkind
  rw [if_neg hmissing] at hkind
  rw [List.mem_append, not_or] at hmissing
  refine ⟨?_, hmissing.1⟩
  by_cases hadded : path ∈ (state.addedFunctions body).map (·.name)
  · exact Or.inr hadded
  left
  have hnotAdded : path ∉ ((state.addedFunctions body).map (·.name)).map dataPath := by
    intro hmem
    obtain ⟨function, hfunction, heq⟩ := List.mem_map.mp hmem
    exact hne function ((mem_addedFunctionNames state body function).mp hfunction).1 heq
  rw [if_neg hadded, if_neg hnotAdded] at hkind
  -- the path was there before, and under itself: a function that owned it has been dropped with it
  have hkey : state.record.bindingKey path = path := by
    refine Record.bindingKey_of_forall_ne fun function hfunction heq => hmissing.2 ?_
    have hnotBody : function ∉ body.functionNames := fun hmem => hne function hmem heq
    exact List.mem_map.mpr
      ⟨function, (mem_missingFunctions state body function).mpr ⟨hfunction, hnotBody⟩, heq⟩
  exact hkey ▸ h.bound path (OrderedMap.mem_keys_of_get? hkind)

/-- Every path is bound after a pass. -/
theorem bound_withBody {path : String}
    (hpath : path ∈ (state.withBody body).record.reactivePaths.keys) :
    (state.withBody body).record.bindingKey path ∈ (state.withBody body).record.bindingPaths := by
  by_cases howned : ∃ function ∈ body.functionNames, dataPath function = path
  · obtain ⟨function, hfunction, rfl⟩ := howned
    have hmem : function ∈ (state.withBody body).record.functions.keys :=
      (mem_functions_withBody state body function).mpr hfunction
    rw [Record.bindingKey_dataPath hmem]
    exact mem_bindingPaths_withBody_function h hbody hfunction
  · have hne : ∀ function ∈ body.functionNames, dataPath function ≠ path :=
      fun function hfunction heq => howned ⟨function, hfunction, heq⟩
    have hkey : (state.withBody body).record.bindingKey path = path :=
      Record.bindingKey_of_forall_ne fun function hfunction =>
        hne function ((mem_functions_withBody state body function).mp hfunction)
    rw [hkey]
    exact mem_bindingPaths_withBody_of_ne h hbody hpath hne

/-! ## The exact condition -/

/-- **Consistency after a pass**: a consistent entity stays consistent exactly if it admits the
body. -/
theorem consistent_withBody_iff : (state.withBody body).Consistent ↔ state.Admits body := by
  constructor
  · intro hnext function hfunction
    have hmem := (mem_functions_withBody state body function).mpr hfunction
    exact (functionSound_withBody_iff h hbody hfunction).mp (hnext.functions function hmem)
  · intro hadmits
    exact {
      bound := fun path hpath => bound_withBody h hbody hpath
      nodup_bindingPaths := nodup_bindingPaths_withBody state body h.nodup_bindingPaths
      functions := fun function hmem =>
        have hfunction := (mem_functions_withBody state body function).mp hmem
        (functionSound_withBody_iff h hbody hfunction).mpr (hadmits function hfunction)
      nodup_vars := nodup_vars_withBody state hbody h.nodup_vars
      vars := fun name hmem =>
        variableSound_withBody h hbody ((mem_vars_withBody state body name).mp hmem)
      members := by
        intro name hname
        rw [mem_functions_withBody, mem_vars_withBody]
        exact mem_members_withBody h hname }

end Pass

end EntityState

/-! ## Verified reconciliation -/

namespace Store

variable {store : Store} {entity : String}

/-- A clean report is about a consistent entity that is kept under its own name. -/
theorem consistent_of_inspect {report : Report} (h : store.inspect entity = some report)
    (hclean : report.violations = []) :
    store.Filed entity ∧ (store.stateOf entity).Consistent := by
  obtain ⟨record, hrecord, rfl⟩ := Option.map_eq_some_iff.mp h
  dsimp only at hclean
  split at hclean
  · rename_i hname
    refine ⟨filed_of_record? hrecord hname, ?_⟩
    rw [stateOf, hrecord]
    exact (EntityState.violations_eq_nil_iff _).mp hclean
  · cases hclean

/-- Of a consistent entity, verification refuses the bodies that the entity does not admit. -/
theorem reconcile_eq_inconsistent_iff (hfiled : store.Filed entity)
    (h : (store.stateOf entity).Consistent) (body : Body) :
    (∃ named violation, store.reconcile entity body = .error (.inconsistent named violation)) ↔
      store.verify = true ∧ body.validate = .ok () ∧ ¬ (store.stateOf entity).Admits body := by
  simp only [reconcile_eq_error_iff, tracked?_of_filed hfiled, reduceCtorEq, and_false,
    exists_false, false_or, hfiled, true_and]
  rw [Body.validate_eq_ok_iff, ← Body.nameError?_eq_none_iff]
  constructor
  · rintro ⟨named, violation, hbody, hverify, hcheck⟩
    have hnamed := (Body.nameError?_eq_none_iff body).mp hbody
    refine ⟨hverify, hbody, fun hadmits => ?_⟩
    have hnext := (EntityState.consistent_withBody_iff h hnamed).mpr hadmits
    rw [← EntityState.violations_eq_nil_iff, ← EntityState.check_eq_ok_iff] at hnext
    rw [hnext] at hcheck
    cases hcheck
  · rintro ⟨hverify, hbody, hadmits⟩
    have hnamed := (Body.nameError?_eq_none_iff body).mp hbody
    rw [← EntityState.consistent_withBody_iff h hnamed, ← EntityState.violations_eq_nil_iff,
      ← EntityState.check_eq_ok_iff] at hadmits
    cases hcheck : ((store.stateOf entity).withBody body).check with
    | ok value => exact absurd hcheck hadmits
    | error error =>
      obtain ⟨violation, -, rfl⟩ := (EntityState.check_eq_error_iff _ error).mp hcheck
      exact ⟨_, violation, hbody, hverify, rfl⟩

end Store

/-! ## The main theorem -/

/-- **Where passes keep consistency.**  A pass of an accepted body over an entity that the checks
accept succeeds, and the checks accept the outcome exactly if the entity admits the body.  So
verified reconciliation of an entity whose report is clean is refused for an inconsistency exactly
for the accepted bodies that the entity does not admit. -/
theorem pass_keeps_consistency_iff (body : Body) :
    (∀ state : EntityState, state.check = .ok () → body.validate = .ok () →
      ∃ outcome, state.synchronize body = .ok outcome ∧
        (outcome.state.check = .ok () ↔ state.Admits body)) ∧
    ∀ (store : Store) (entity : String) (report : Report),
      store.inspect entity = some report → report.violations = [] →
      ((∃ named violation,
          store.reconcile entity body = .error (.inconsistent named violation)) ↔
        store.verify = true ∧ body.validate = .ok () ∧
          ¬ (store.stateOf entity).Admits body) := by
  refine ⟨fun state hcheck hvalid => ?_, fun store entity report hreport hclean => ?_⟩
  · have hstate : state.Consistent :=
      (EntityState.violations_eq_nil_iff state).mp ((EntityState.check_eq_ok_iff state).mp hcheck)
    have hbody : body.WellNamed := (Body.validate_eq_ok_iff body).mp hvalid
    refine ⟨_, EntityState.synchronize_of_nameError? state
      ((Body.nameError?_eq_none_iff body).mpr hbody), ?_⟩
    rw [EntityState.check_eq_ok_iff, EntityState.violations_eq_nil_iff]
    exact EntityState.consistent_withBody_iff hstate hbody
  · obtain ⟨hfiled, hstate⟩ := Store.consistent_of_inspect hreport hclean
    exact Store.reconcile_eq_inconsistent_iff hfiled hstate body

/-- The body with one function. -/
def runBody : Body := ⟨[⟨"run", "() => 1", []⟩], []⟩

/-- An entity without members that depends on a name twice. -/
def doublyRegistered : EntityState :=
  ⟨{ Record.new "Page" with
      dependencies := DependencyMap.initial.insert DependencyMap.bodyKey ["run", "run"] }, ∅⟩

/-- An entity with a function and a variable that is named like the data path of the function. -/
def shadowedDataPath : EntityState :=
  let declared := (EntityState.new "Page").addFunction "run" "() => 1" []
  ⟨{ declared.record with vars := ["run.data"] }, declared.members.insert "run.data" (.var .null)⟩

/-- Passes lose consistency: the checks accept both entities, and after a pass of an accepted body
the function is registered twice in one and has no data path in the other.  A verified store refuses
the body. -/
theorem consistency_is_lost :
    doublyRegistered.check = .ok () ∧ shadowedDataPath.check = .ok () ∧
      runBody.validate = .ok () ∧
      (∃ outcome, doublyRegistered.synchronize runBody = .ok outcome ∧
        outcome.state.check = .error (.inconsistent "Page" (.repeatedDependency "run" 2))) ∧
      (∃ outcome, shadowedDataPath.synchronize runBody = .ok outcome ∧
        outcome.state.check = .error (.inconsistent "Page" (.noDataPath "run"))) ∧
      ((Store.empty true).put "Page" doublyRegistered).reconcile "Page" runBody =
        .error (.inconsistent "Page" (.repeatedDependency "run" 2)) :=
  ⟨by decide, by decide, by decide, ⟨_, rfl, by decide⟩, ⟨_, rfl, by decide⟩, by decide⟩

/-- An entity with a foreign path and binding, a name with a separator and a stale dependency. -/
def crowdedState : EntityState :=
  let declared := ((EntityState.new "Page").addFunction "load" "() => 1" []).addVariable "a.b" .null
  ⟨{ declared.record with
      reactivePaths := declared.record.reactivePaths.insert "foreign" .template
      bindingPaths := declared.record.bindingPaths ++ ["foreign", "spare"]
      dependencies := declared.record.dependencies.pushBody "run" }, declared.members⟩

/-- The crowded entity admits the body with one function, and stays consistent. -/
theorem crowdedState_stays_consistent :
    crowdedState.check = .ok () ∧ runBody.validate = .ok () ∧ crowdedState.Admits runBody ∧
      (∃ outcome, crowdedState.synchronize runBody = .ok outcome ∧
        outcome.state.check = .ok ()) ∧
      ¬ ∃ named violation, ((Store.empty true).put "Page" crowdedState).reconcile "Page" runBody =
        .error (.inconsistent named violation) := by
  have hcheck : crowdedState.check = .ok () := by decide
  have hvalid : runBody.validate = .ok () := by decide
  have hadmits : crowdedState.Admits runBody := by decide
  obtain ⟨hpass, hreconcile⟩ := pass_keeps_consistency_iff runBody
  obtain ⟨outcome, houtcome, hnext⟩ := hpass crowdedState hcheck hvalid
  have hinspect : ((Store.empty true).put "Page" crowdedState).inspect "Page" =
      some crowdedState.inspect := rfl
  have hclean : crowdedState.inspect.violations = [] := by decide
  have hstore := hreconcile _ "Page" _ hinspect hclean
  refine ⟨hcheck, hvalid, hadmits, ⟨outcome, houtcome, hnext.mpr hadmits⟩, ?_⟩
  rw [hstore]
  exact fun hrefused => hrefused.2.2 hadmits

end ScriptStore
