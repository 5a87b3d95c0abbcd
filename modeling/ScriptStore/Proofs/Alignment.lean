import ScriptStore.Proofs.Consistency
import ScriptStore.Proofs.Pass.Clearing
import ScriptStore.Proofs.Pass.Tables

/-!
# Alignment of tables and members

The exact contents of all tables and of the members of an entity, given the names of its functions
and of its variables (`EntityState.Aligned`).  Alignment is stronger than consistency: nothing else
may stand in a table, and names are segments of paths.  It holds of a new entity and is kept by
every pass, by clearing and by data of executions, so it holds of all states that an entity goes
through.

What carries the argument is that a data path is no segment: the paths of functions and of
variables never meet, whatever the names are.
-/

namespace ScriptStore

/-! ## Names and data paths -/

/-- That names are smart paths, data paths of functions are templates, and nothing else is, said of
data paths and of all other paths apart. -/
theorem reactivePaths_iff {paths : OrderedMap Substitution} {functions vars : List String}
    (hseg : ∀ name, name ∈ functions ∨ name ∈ vars → IsSegment name) :
    (∀ path kind, paths.get? path = some kind ↔
      ((path ∈ functions ∨ path ∈ vars) ∧ kind = .smart) ∨
        (∃ function ∈ functions, path = dataPath function) ∧ kind = .template) ↔
    (∀ function, paths.get? (dataPath function) =
      if function ∈ functions then some .template else none) ∧
    ∀ path, (∀ function, path ≠ dataPath function) → paths.get? path =
      if path ∈ functions ∨ path ∈ vars then some .smart else none := by
  have hdata : ∀ function, ¬ (dataPath function ∈ functions ∨ dataPath function ∈ vars) :=
    fun function hmem => (hseg _ hmem).ne_dataPath function rfl
  constructor
  · intro h
    constructor
    · intro function
      refine Option.ext fun kind => ?_
      rw [h]
      simp only [hdata, false_and, false_or, dataPath_inj, exists_eq_right']
      split <;> simp_all [eq_comm]
    · intro path hne
      refine Option.ext fun kind => ?_
      rw [h]
      split <;> simp_all [eq_comm]
  · rintro ⟨htemplate, hsmart⟩ path kind
    by_cases hpath : ∃ function, path = dataPath function
    · obtain ⟨function, rfl⟩ := hpath
      rw [htemplate]
      simp only [hdata, false_and, false_or, dataPath_inj, exists_eq_right']
      split <;> simp_all [eq_comm]
    · rw [not_exists] at hpath
      rw [hsmart path hpath]
      split <;> simp_all [eq_comm]

namespace EntityState

/-! ## The invariant -/

/-- Every table holds exactly what the functions and variables of the entity account for. -/
structure Aligned (state : EntityState) : Prop where
  /-- The names of functions and variables are segments of paths. -/
  segment : ∀ name, name ∈ state.record.functions.keys ∨ name ∈ state.record.vars →
    IsSegment name
  /-- No name is function and variable at once. -/
  disjoint : ∀ name ∈ state.record.functions.keys, name ∉ state.record.vars
  nodup_vars : state.record.vars.Nodup
  /-- Names are smart paths, data paths of functions are templates, and nothing else is. -/
  reactivePaths : ∀ path kind, state.record.reactivePaths.get? path = some kind ↔
    ((path ∈ state.record.functions.keys ∨ path ∈ state.record.vars) ∧ kind = .smart) ∨
      (∃ function ∈ state.record.functions.keys, path = dataPath function) ∧ kind = .template
  nodup_bindingPaths : state.record.bindingPaths.Nodup
  /-- The names are bound, and nothing else is. -/
  bindingPaths : ∀ key, key ∈ state.record.bindingPaths ↔
    key ∈ state.record.functions.keys ∨ key ∈ state.record.vars
  /-- There is no list but that of the entity body. -/
  dependencyKeys : state.record.dependencies.keys = [DependencyMap.bodyKey]
  nodup_dependencies : state.record.dependencies.body.Nodup
  /-- The functions are registered, and nothing else is. -/
  dependencies : ∀ name, name ∈ state.record.dependencies.body ↔
    name ∈ state.record.functions.keys
  /-- The members that are functions are those of the functions. -/
  functionMembers : ∀ name,
    (∃ source data, state.members.get? name = some (.function source data)) ↔
      name ∈ state.record.functions.keys
  /-- The members that are variables are those of the variables. -/
  variableMembers : ∀ name, (∃ value, state.members.get? name = some (.var value)) ↔
    name ∈ state.record.vars

namespace Aligned

variable {state : EntityState}

theorem isDisjoint (h : state.Aligned) : state.record.IsDisjoint := by
  intro name hfunction
  rw [Record.hasFunction_iff] at hfunction
  rw [← Bool.not_eq_true, Record.hasVariable_iff]
  exact h.disjoint name hfunction

/-- A name that is not declared has no member. -/
theorem get?_members_eq_none (h : state.Aligned) {name : String}
    (hfunction : name ∉ state.record.functions.keys) (hvariable : name ∉ state.record.vars) :
    state.members.get? name = none := by
  cases hmember : state.members.get? name with
  | none => rfl
  | some member =>
    cases member with
    | function source data =>
      exact absurd ((h.functionMembers name).mp ⟨source, data, hmember⟩) hfunction
    | var value => exact absurd ((h.variableMembers name).mp ⟨value, hmember⟩) hvariable

/-- A new entity is aligned. -/
theorem new (name : String) : (EntityState.new name).Aligned where
  segment := by
    rintro other (h | h) <;> cases h
  disjoint := by
    intro other h
    cases h
  nodup_vars := List.nodup_nil
  reactivePaths := by
    intro path kind
    show none = some kind ↔ _
    simp [EntityState.new, Record.new]
  nodup_bindingPaths := List.nodup_nil
  bindingPaths := by
    intro key
    simp [EntityState.new, Record.new]
  dependencyKeys := rfl
  nodup_dependencies := List.nodup_nil
  dependencies := by
    intro other
    simp [EntityState.new, Record.new]
  functionMembers := by
    intro other
    simp [EntityState.new, Record.new]
  variableMembers := by
    intro other
    simp [EntityState.new, Record.new]

/-! ## Passes -/

section Pass

variable {body : Body}

/-- The data path of a function after a pass: a template exactly if the body has the function. -/
theorem get?_reactivePaths_withBody_dataPath (h : state.Aligned) (hbody : body.WellNamed)
    (function : String) :
    (state.withBody body).record.reactivePaths.get? (dataPath function) =
      if function ∈ body.functionNames then some .template else none := by
  have hold := ((reactivePaths_iff h.segment).mp h.reactivePaths).1 function
  obtain ⟨hnotFunction, hnotVariable⟩ := hbody.dataPath_notMem function
  have hnotName : ¬ (dataPath function ∈ state.record.functions.keys ∨
      dataPath function ∈ state.record.vars) :=
    fun hmem => (h.segment _ hmem).ne_dataPath function rfl
  rw [not_or] at hnotName
  rw [get?_reactivePaths_withBody state hbody, hold]
  -- no batch of names has the path, so only the data paths of functions count
  simp only [List.mem_append, mem_map_dataPath, mem_droppedVariables, mem_addedVariables,
    mem_missingFunctions, mem_addedFunctionNames, hnotFunction, hnotVariable, hnotName,
    false_and, false_or, if_false]
  by_cases hfunction : function ∈ body.functionNames
  · by_cases hrecord : function ∈ state.record.functions.keys <;> simp [hfunction, hrecord]
  · by_cases hrecord : function ∈ state.record.functions.keys <;> simp [hfunction, hrecord]

/-- Any other path after a pass: smart exactly if the body declares it. -/
theorem get?_reactivePaths_withBody_of_ne (h : state.Aligned) (hbody : body.WellNamed)
    {path : String} (hne : ∀ function, path ≠ dataPath function) :
    (state.withBody body).record.reactivePaths.get? path =
      if path ∈ body.functionNames ∨ path ∈ body.variableNames then some .smart else none := by
  have hold := ((reactivePaths_iff h.segment).mp h.reactivePaths).2 path hne
  have hmap := notMem_map_dataPath hne
  rw [get?_reactivePaths_withBody state hbody, hold]
  simp only [List.mem_append, hmap, or_false, if_false, mem_droppedVariables, mem_addedVariables,
    mem_missingFunctions, mem_addedFunctionNames]
  by_cases hfunction : path ∈ body.functionNames
  · have hvariable : path ∉ body.variableNames := hbody.disjoint hfunction
    by_cases hrecord : path ∈ state.record.functions.keys <;> simp [hfunction, hvariable, hrecord]
  · by_cases hvariable : path ∈ body.variableNames
    · by_cases hvar : path ∈ state.record.vars
      -- a variable that stays was no function, so it is not dropped as one
      · have hrecord : path ∉ state.record.functions.keys := fun hmem => h.disjoint path hmem hvar
        simp [hfunction, hvariable, hvar, hrecord]
      · simp [hfunction, hvariable, hvar]
    · by_cases hvar : path ∈ state.record.vars <;>
        by_cases hrecord : path ∈ state.record.functions.keys <;>
        simp [hfunction, hvariable, hvar, hrecord]

/-- The reactive paths after a pass are those of the body. -/
theorem reactivePaths_withBody (h : state.Aligned) (hbody : body.WellNamed) (path : String)
    (kind : Substitution) :
    (state.withBody body).record.reactivePaths.get? path = some kind ↔
      ((path ∈ body.functionNames ∨ path ∈ body.variableNames) ∧ kind = .smart) ∨
        (∃ function ∈ body.functionNames, path = dataPath function) ∧ kind = .template := by
  have hseg : ∀ name, name ∈ body.functionNames ∨ name ∈ body.variableNames → IsSegment name :=
    fun _ hname => hname.elim hbody.segment_function hbody.segment_variable
  have hdata := h.get?_reactivePaths_withBody_dataPath hbody
  have hname : ∀ path, (∀ function, path ≠ dataPath function) →
      (state.withBody body).record.reactivePaths.get? path =
        if path ∈ body.functionNames ∨ path ∈ body.variableNames then some .smart else none :=
    fun _ hne => h.get?_reactivePaths_withBody_of_ne hbody hne
  exact (reactivePaths_iff hseg).mpr ⟨hdata, hname⟩ path kind

/-- The bound paths after a pass. -/
theorem bindingPaths_withBody (h : state.Aligned) (hbody : body.WellNamed) (key : String) :
    key ∈ (state.withBody body).record.bindingPaths ↔
      key ∈ body.functionNames ∨ key ∈ body.variableNames := by
  have hrecord : key ∈ state.record.functions.keys → key ∉ state.record.vars := h.disjoint key
  have hdeclared : key ∈ body.functionNames → key ∉ body.variableNames := hbody.disjoint
  rw [mem_bindingPaths_withBody, h.bindingPaths, mem_addedFunctionNames, mem_missingFunctions,
    mem_addedVariables, mem_droppedVariables]
  grind

/-- The dependencies of the entity body after a pass. -/
theorem dependencies_withBody (h : state.Aligned) (name : String) :
    name ∈ (state.withBody body).record.dependencies.body ↔ name ∈ body.functionNames := by
  rw [mem_dependencyBody_withBody, h.dependencies, mem_addedFunctionNames, mem_missingFunctions]
  grind

/-- The member of a name after a pass is that of its declaration. -/
theorem members_withBody (h : state.Aligned) (hbody : body.WellNamed) (name : String) :
    ((∃ source data, (state.withBody body).members.get? name = some (.function source data)) ↔
        name ∈ body.functionNames) ∧
      ((∃ value, (state.withBody body).members.get? name = some (.var value)) ↔
        name ∈ body.variableNames) := by
  by_cases hfunction : name ∈ body.functionNames
  · obtain ⟨decl, hdecl, rfl⟩ := List.mem_map.mp hfunction
    have hget := get?_members_withBody_function state hbody hdecl
    have hvariable := hbody.disjoint hfunction
    simp [hget, hfunction, hvariable]
  · by_cases hvariable : name ∈ body.variableNames
    · obtain ⟨decl, hdecl, rfl⟩ := List.mem_map.mp hvariable
      obtain ⟨value, hget, -⟩ := value_withBody state h.isDisjoint hbody hdecl
      simp [hget, hfunction, hvariable]
    · have hget : (state.withBody body).members.get? name = none := by
        rw [get?_members_withBody_of_notMem state hfunction hvariable]
        split
        · rfl
        · rename_i hnone
          rw [not_or] at hnone
          exact h.get?_members_eq_none hnone.1 hnone.2
      simp [hget, hfunction, hvariable]

/-- **A pass keeps alignment.** -/
theorem withBody (h : state.Aligned) (hbody : body.WellNamed) :
    (state.withBody body).Aligned where
  segment := by
    intro name hname
    rw [mem_functions_withBody, mem_vars_withBody] at hname
    exact hname.elim hbody.segment_function hbody.segment_variable
  disjoint := by
    intro name hname
    rw [mem_functions_withBody] at hname
    rw [mem_vars_withBody]
    exact hbody.disjoint hname
  nodup_vars := nodup_vars_withBody state hbody h.nodup_vars
  reactivePaths := by
    intro path kind
    simp only [mem_functions_withBody, mem_vars_withBody]
    exact h.reactivePaths_withBody hbody path kind
  nodup_bindingPaths := nodup_bindingPaths_withBody state body h.nodup_bindingPaths
  bindingPaths := by
    intro key
    rw [mem_functions_withBody, mem_vars_withBody]
    exact h.bindingPaths_withBody hbody key
  dependencyKeys := by
    have hkey : DependencyMap.bodyKey ∈ state.record.dependencies.keys := by
      rw [h.dependencyKeys]
      exact List.mem_cons_self
    rw [EntityState.dependencies_withBody, DependencyMap.keys_filterBody,
      DependencyMap.keys_pushBodyAll hkey, h.dependencyKeys]
  nodup_dependencies := nodup_dependencyBody_withBody state body h.nodup_dependencies
  dependencies := by
    intro name
    rw [mem_functions_withBody]
    exact h.dependencies_withBody name
  functionMembers := by
    intro name
    rw [mem_functions_withBody]
    exact (h.members_withBody hbody name).1
  variableMembers := by
    intro name
    rw [mem_vars_withBody]
    exact (h.members_withBody hbody name).2

/-- Clearing keeps alignment. -/
theorem withoutMembers (h : state.Aligned) : state.withoutMembers.Aligned := by
  rw [← withBody_empty]
  exact h.withBody Body.wellNamed_empty

end Pass

/-! ## Data of executions -/

/-- Data of executions keeps alignment: only the data of one member differs. -/
theorem setData? (h : state.Aligned) {function : String} {data : Json} {members : MemberTree}
    (hset : state.members.setData? function data = some members) :
    Aligned ⟨state.record, members⟩ := by
  obtain ⟨source, old, hmember, rfl⟩ := MemberTree.setData?_eq_some_iff.mp hset
  refine { h with functionMembers := fun name => ?_, variableMembers := fun name => ?_ }
  · rw [OrderedMap.get?_insert, ← h.functionMembers]
    split
    · rename_i heq
      subst heq
      simp [hmember]
    · rfl
  · rw [OrderedMap.get?_insert, ← h.variableMembers]
    split
    · rename_i heq
      subst heq
      simp [hmember]
    · rfl

/-! ## Consistency -/

/-- An aligned entity is consistent. -/
theorem consistent (h : state.Aligned) : state.Consistent where
  bound := by
    intro path hpath
    obtain ⟨kind, hkind⟩ := (OrderedMap.mem_keys_iff _ path).mp hpath
    -- a path is the name of a member, which no function owns, or the data path of a function
    rcases (h.reactivePaths path kind).mp hkind with ⟨hname, -⟩ | ⟨⟨function, hfunction, rfl⟩, -⟩
    · have hne : ∀ function ∈ state.record.functions.keys, dataPath function ≠ path := by
        intro function _ heq
        exact (h.segment path hname).ne_dataPath function heq.symm
      rw [Record.bindingKey_of_forall_ne hne, h.bindingPaths]
      exact hname
    · rw [Record.bindingKey_dataPath hfunction, h.bindingPaths]
      exact Or.inl hfunction
  nodup_bindingPaths := h.nodup_bindingPaths
  functions := by
    intro function hfunction
    exact {
      smart := (h.reactivePaths _ _).mpr (Or.inl ⟨Or.inl hfunction, rfl⟩)
      template := (h.reactivePaths _ _).mpr (Or.inr ⟨⟨function, hfunction, rfl⟩, rfl⟩)
      dependency :=
        List.count_eq_one_of_mem h.nodup_dependencies ((h.dependencies function).mpr hfunction)
      member := (h.functionMembers function).mpr hfunction }
  nodup_vars := h.nodup_vars
  vars := by
    intro name hname
    exact {
      notFunction := fun hfunction => h.disjoint name hfunction hname
      path := OrderedMap.mem_keys_of_get?
        ((h.reactivePaths name .smart).mpr (Or.inl ⟨Or.inr hname, rfl⟩))
      member := (h.variableMembers name).mpr hname }
  members := by
    intro name hname
    by_contra hnone
    rw [not_or] at hnone
    exact (OrderedMap.get?_eq_none_iff _ name).mp (h.get?_members_eq_none hnone.1 hnone.2) hname

theorem violations_eq_nil (h : state.Aligned) : state.violations = [] :=
  (violations_eq_nil_iff state).mpr h.consistent

/-- An aligned entity depends on nothing that is not declared. -/
theorem staleDependencies_eq_nil (h : state.Aligned) : state.record.staleDependencies = [] := by
  rw [Record.staleDependencies, List.filter_eq_nil_iff]
  intro name hname
  have hfunction := (h.dependencies name).mp ((Names.mem_distinct_iff _ _ _).mp hname).1
  rw [(Record.declares_iff _ _).mpr (Or.inl hfunction)]
  exact Bool.false_ne_true

end Aligned

end EntityState

end ScriptStore
