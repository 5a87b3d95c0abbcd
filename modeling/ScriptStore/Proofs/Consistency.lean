import ScriptStore.Proofs.Body.Validity
import ScriptStore.Proofs.Record
import ScriptStore.SyncError

/-!
# What the checks of an entity amount to

The checks list violations; here is the condition that none is listed
(`EntityState.violations_eq_nil_iff`), table by table and without reference to messages or to the
order in which the entries are visited.

The checks do not look at everything that an entity has.  Sources, values, data, metadata and names
that the entity body depends on without declaring them make no difference to the violations
(`EntityState.LooksLike.violations`).
-/

namespace ScriptStore

/-! ## Keys of reactive paths -/

namespace Record

/-- The data path of a declared function is bound under the function. -/
theorem bindingKey_dataPath {record : Record} {function : String}
    (h : function ∈ record.functions.keys) : record.bindingKey (dataPath function) = function := by
  unfold bindingKey
  cases hfind : record.functions.keys.find? fun f => dataPath f = dataPath function with
  | none =>
    have hnone := List.find?_eq_none.mp hfind function h
    simp at hnone
  | some found =>
    have hdata : dataPath found = dataPath function := by
      simpa using List.find?_some hfind
    exact dataPath_inj.mp hdata

/-- A path that is the data path of no declared function is bound under itself. -/
theorem bindingKey_of_forall_ne {record : Record} {path : String}
    (h : ∀ function ∈ record.functions.keys, dataPath function ≠ path) :
    record.bindingKey path = path := by
  unfold bindingKey
  have hnone : (record.functions.keys.find? fun f => dataPath f = path) = none := by
    rw [List.find?_eq_none]
    intro function hfunction
    simpa using h function hfunction
  rw [hnone]
  rfl

/-- A declared name is that of a function or of a variable. -/
theorem declares_iff (record : Record) (name : String) :
    record.declares name = true ↔ name ∈ record.functions.keys ∨ name ∈ record.vars := by
  rw [declares, Bool.or_eq_true, hasFunction_iff, hasVariable_iff]

end Record

/-! ## Sound entries -/

/-- There is no violation if and only if the condition holds. -/
theorem Violation.unless_eq_nil_iff (holds : Bool) (violation : Violation) :
    Violation.unless holds violation = [] ↔ holds = true := by
  cases holds <;> simp [Violation.unless]

/-- A condition that fails is reported by its own violation. -/
theorem Violation.eq_of_mem_unless {holds : Bool} {violation found : Violation}
    (h : found ∈ Violation.unless holds violation) : found = violation := by
  cases holds
  · exact List.mem_singleton.mp h
  · cases h

namespace EntityState

/-- A function has its two reactive paths, is registered once and has a member that is a
function. -/
structure FunctionSound (state : EntityState) (function : String) : Prop where
  smart : state.record.reactivePaths.get? function = some .smart
  template : state.record.reactivePaths.get? (dataPath function) = some .template
  dependency : state.record.dependencies.body.count function = 1
  member : ∃ source data, state.members.get? function = some (.function source data)

/-- A variable is no function, has a reactive path and a member that is a variable. -/
structure VariableSound (state : EntityState) (name : String) : Prop where
  notFunction : name ∉ state.record.functions.keys
  path : name ∈ state.record.reactivePaths.keys
  member : ∃ value, state.members.get? name = some (.var value)

/-- The tables and the members of an entity agree. -/
structure Consistent (state : EntityState) : Prop where
  bound : ∀ path ∈ state.record.reactivePaths.keys,
    state.record.bindingKey path ∈ state.record.bindingPaths
  nodup_bindingPaths : state.record.bindingPaths.Nodup
  functions : ∀ function ∈ state.record.functions.keys, state.FunctionSound function
  nodup_vars : state.record.vars.Nodup
  vars : ∀ name ∈ state.record.vars, state.VariableSound name
  members : ∀ name ∈ state.members.keys,
    name ∈ state.record.functions.keys ∨ name ∈ state.record.vars

variable (state : EntityState)

/-- A path is in order if its key is among the binding paths. -/
theorem pathViolations_eq_nil_iff (path : String) :
    state.pathViolations path = [] ↔
      state.record.bindingKey path ∈ state.record.bindingPaths := by
  rw [pathViolations, Violation.unless_eq_nil_iff]
  exact List.contains_iff_mem

/-- A function is in order among the dependencies of the body if it is listed once. -/
theorem dependencyViolations_eq_nil_iff (function : String) :
    state.dependencyViolations function = [] ↔
      state.record.dependencies.body.count function = 1 := by
  unfold dependencyViolations
  split
  · rename_i hzero
    rw [hzero]
    simp
  · rename_i hone
    rw [hone]
    simp
  · rename_i count hmore
    rw [hmore]
    simp

/-- The member of a function is in order if it is there and is a function. -/
theorem functionMemberViolations_eq_nil_iff (function : String) :
    state.functionMemberViolations function = [] ↔
      ∃ source data, state.members.get? function = some (.function source data) := by
  unfold functionMemberViolations
  split
  · rename_i source data hmember
    exact iff_of_true rfl ⟨source, data, hmember⟩
  · rename_i value hmember
    simp [hmember]
  · rename_i hmember
    simp [hmember]

/-- The member of a variable is in order if it is there and is a variable. -/
theorem variableMemberViolations_eq_nil_iff (name : String) :
    state.variableMemberViolations name = [] ↔
      ∃ value, state.members.get? name = some (.var value) := by
  unfold variableMemberViolations
  split
  · rename_i value hmember
    exact iff_of_true rfl ⟨value, hmember⟩
  · rename_i source data hmember
    simp [hmember]
  · rename_i hmember
    simp [hmember]

/-- The check of a function finds nothing if and only if the function is sound. -/
theorem functionViolations_eq_nil_iff (function : String) :
    state.functionViolations function = [] ↔ state.FunctionSound function := by
  unfold functionViolations
  rw [List.append_eq_nil_iff, List.append_eq_nil_iff, List.append_eq_nil_iff,
    Violation.unless_eq_nil_iff, Violation.unless_eq_nil_iff, decide_eq_true_eq,
    decide_eq_true_eq, dependencyViolations_eq_nil_iff, functionMemberViolations_eq_nil_iff]
  constructor
  · rintro ⟨⟨⟨hsmart, htemplate⟩, hdependency⟩, hmember⟩
    exact ⟨hsmart, htemplate, hdependency, hmember⟩
  · rintro ⟨hsmart, htemplate, hdependency, hmember⟩
    exact ⟨⟨⟨hsmart, htemplate⟩, hdependency⟩, hmember⟩

/-- The check of a variable finds nothing if it is sound and was not declared before. -/
theorem variableViolations_eq_nil_iff (before : List String) (name : String) :
    state.variableViolations before name = [] ↔ name ∉ before ∧ state.VariableSound name := by
  unfold variableViolations
  rw [List.append_eq_nil_iff, List.append_eq_nil_iff, List.append_eq_nil_iff,
    Violation.unless_eq_nil_iff, Violation.unless_eq_nil_iff, Violation.unless_eq_nil_iff,
    decide_eq_true_eq, Record.hasFunction_eq_decide, Bool.not_eq_true', decide_eq_false_iff_not,
    OrderedMap.contains_iff, variableMemberViolations_eq_nil_iff]
  constructor
  · rintro ⟨⟨⟨hbefore, hfunction⟩, hpath⟩, hmember⟩
    exact ⟨hbefore, hfunction, hpath, hmember⟩
  · rintro ⟨hbefore, hfunction, hpath, hmember⟩
    exact ⟨⟨⟨hbefore, hfunction⟩, hpath⟩, hmember⟩

/-- A list of variables is sound if each is, none comes twice and none came before. -/
theorem variableListViolations_eq_nil_iff (before names : List String) :
    state.variableListViolations before names = [] ↔
      names.Nodup ∧ (∀ name ∈ names, name ∉ before) ∧
        ∀ name ∈ names, state.VariableSound name := by
  induction names generalizing before with
  | nil => simp [variableListViolations]
  | cons first rest ih =>
    rw [variableListViolations, List.append_eq_nil_iff, variableViolations_eq_nil_iff, ih,
      List.nodup_cons, List.forall_mem_cons, List.forall_mem_cons]
    constructor
    · rintro ⟨⟨hbefore, hsound⟩, hnd, hrest, hsounds⟩
      have hfirst : first ∉ rest := fun hmem => hrest first hmem List.mem_cons_self
      exact ⟨⟨hfirst, hnd⟩,
        ⟨hbefore, fun name hname hmem => hrest name hname (List.mem_cons_of_mem _ hmem)⟩,
        hsound, hsounds⟩
    · rintro ⟨⟨hfirst, hnd⟩, ⟨hbefore, hrest⟩, hsound, hsounds⟩
      refine ⟨⟨hbefore, hsound⟩, hnd, fun name hname hmem => ?_, hsounds⟩
      rcases List.mem_cons.mp hmem with rfl | hmem'
      · exact hfirst hname
      · exact hrest name hname hmem'

/-! ## The whole check -/

/-- **The checks**: no violation is listed exactly when tables and members agree. -/
theorem violations_eq_nil_iff : state.violations = [] ↔ state.Consistent := by
  unfold violations
  rw [List.append_eq_nil_iff, List.append_eq_nil_iff, List.append_eq_nil_iff,
    List.append_eq_nil_iff, List.flatMap_eq_nil_iff, List.map_eq_nil_iff,
    Names.repeats_eq_nil_iff, List.flatMap_eq_nil_iff, variableListViolations_eq_nil_iff,
    List.flatMap_eq_nil_iff]
  simp only [pathViolations_eq_nil_iff, functionViolations_eq_nil_iff, memberViolations,
    Violation.unless_eq_nil_iff, Record.declares_iff]
  constructor
  · rintro ⟨⟨⟨⟨hbound, hbindings, -⟩, hfunctions⟩, hvars, -, hsounds⟩, hmembers⟩
    exact ⟨hbound, hbindings, hfunctions, hvars, hsounds, hmembers⟩
  · rintro ⟨hbound, hbindings, hfunctions, hvars, hsounds, hmembers⟩
    exact ⟨⟨⟨⟨hbound, hbindings, fun _ _ => List.not_mem_nil⟩, hfunctions⟩, hvars,
      fun _ _ => List.not_mem_nil, hsounds⟩, hmembers⟩

/-! ## What the checks look at -/

/-- What the checks look at is alike in two entities: the tables are, except for the metadata of
functions and for what the entity body depends on besides functions, and under every name both have
a function, a variable or no member. -/
structure LooksLike (other : EntityState) : Prop where
  vars : state.record.vars = other.record.vars
  functions : state.record.functions.keys = other.record.functions.keys
  reactivePaths : state.record.reactivePaths = other.record.reactivePaths
  bindingPaths : state.record.bindingPaths = other.record.bindingPaths
  dependencies : ∀ function ∈ state.record.functions.keys,
    state.record.dependencies.body.count function = other.record.dependencies.body.count function
  members : state.members.keys = other.members.keys
  kinds : ∀ name, (state.members.get? name).map Member.isFunction =
    (other.members.get? name).map Member.isFunction

/-- Members of the same kind are both missing, both functions or both variables. -/
theorem members_cases {member other : Option Member}
    (h : member.map Member.isFunction = other.map Member.isFunction) :
    (member = none ∧ other = none) ∨
      (∃ source data source' data', member = some (.function source data) ∧
        other = some (.function source' data')) ∨
      ∃ value value', member = some (.var value) ∧ other = some (.var value') := by
  rcases member with _ | ⟨source, data⟩ | value
  · exact Or.inl ⟨rfl, Option.map_eq_none_iff.mp h.symm⟩
  · rcases other with _ | ⟨source', data'⟩ | value'
    · cases h
    · exact Or.inr (Or.inl ⟨source, data, source', data', rfl, rfl⟩)
    · cases h
  · rcases other with _ | ⟨source', data'⟩ | value'
    · cases h
    · cases h
    · exact Or.inr (Or.inr ⟨value, value', rfl, rfl⟩)

namespace LooksLike

variable {state} {other : EntityState}

/-- The same functions are declared. -/
theorem hasFunction (h : state.LooksLike other) (name : String) :
    state.record.hasFunction name = other.record.hasFunction name := by
  rw [Record.hasFunction_eq_decide, Record.hasFunction_eq_decide, h.functions]

/-- The same paths are in order. -/
theorem pathViolations (h : state.LooksLike other) (path : String) :
    state.pathViolations path = other.pathViolations path := by
  unfold EntityState.pathViolations Record.bindingKey Record.hasBindingPath
  rw [h.functions, h.bindingPaths]

/-- The members of functions are in order alike. -/
theorem functionMemberViolations (h : state.LooksLike other) (function : String) :
    state.functionMemberViolations function = other.functionMemberViolations function := by
  unfold EntityState.functionMemberViolations
  rcases members_cases (h.kinds function) with ⟨hmember, hother⟩ | ⟨_, _, _, _, hmember, hother⟩ |
    ⟨_, _, hmember, hother⟩ <;> rw [hmember, hother]

/-- The same is found about a declared function. -/
theorem functionViolations (h : state.LooksLike other) {function : String}
    (hfunction : function ∈ state.record.functions.keys) :
    state.functionViolations function = other.functionViolations function := by
  unfold EntityState.functionViolations dependencyViolations
  rw [h.functionMemberViolations, h.reactivePaths, h.dependencies function hfunction]

/-- The members of variables are in order alike. -/
theorem variableMemberViolations (h : state.LooksLike other) (name : String) :
    state.variableMemberViolations name = other.variableMemberViolations name := by
  unfold EntityState.variableMemberViolations
  rcases members_cases (h.kinds name) with ⟨hmember, hother⟩ | ⟨_, _, _, _, hmember, hother⟩ |
    ⟨_, _, hmember, hother⟩ <;> rw [hmember, hother]

/-- The same is found about the variables of a list. -/
theorem variableListViolations (h : state.LooksLike other) (before names : List String) :
    state.variableListViolations before names = other.variableListViolations before names := by
  induction names generalizing before with
  | nil => rfl
  | cons first rest ih =>
    rw [EntityState.variableListViolations, EntityState.variableListViolations, ih,
      variableViolations, variableViolations, h.variableMemberViolations, h.hasFunction,
      h.reactivePaths]

/-- The same is found about a member. -/
theorem memberViolations (h : state.LooksLike other) (name : String) :
    state.memberViolations name = other.memberViolations name := by
  unfold EntityState.memberViolations Record.declares Record.hasVariable
  rw [h.hasFunction, h.vars]

/-- Entities that look alike to the checks have the same violations, in the same order. -/
theorem violations (h : state.LooksLike other) : state.violations = other.violations := by
  have hfunctions : state.record.functions.keys.flatMap state.functionViolations =
      other.record.functions.keys.flatMap other.functionViolations := by
    rw [← h.functions]
    exact congrArg List.flatten
      (List.map_congr_left fun _ hfunction => h.functionViolations hfunction)
  unfold EntityState.violations
  rw [hfunctions, h.variableListViolations, funext h.pathViolations, funext h.memberViolations,
    h.vars, h.reactivePaths, h.bindingPaths, h.members]

end LooksLike

/-! ## Acceptance -/

/-- A state is accepted if there is no violation. -/
theorem check_eq_ok_iff : state.check = .ok () ↔ state.violations = [] := by
  unfold check
  cases state.violations <;> simp

/-- The checks refuse an entity for its first violation. -/
theorem check_eq_error_iff (error : SyncError) :
    state.check = .error error ↔ ∃ violation, state.violations.head? = some violation ∧
      error = .inconsistent state.record.name violation := by
  unfold check
  cases state.violations with
  | nil => simp
  | cons violation rest => simp [eq_comm]

end EntityState

end ScriptStore
