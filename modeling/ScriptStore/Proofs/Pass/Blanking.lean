import ScriptStore.Proofs.Consistency
import ScriptStore.Proofs.Pass.Tables

/-!
# Passes and the data of executions

Every pass carries along the data that functions got from their executions: it is read and copied
when a source is set and dropped together with its function.  It is never looked at, though.  To say
so, all data is blanked (`EntityState.withoutData`), and blanking commutes with each change of a
member, hence with whole passes, while differences and reports are the same for the blank entity.
Two entities that differ in nothing but data have the same blank form, so no pass and no check can
tell them apart.
-/

namespace ScriptStore

/-! ## Blank members -/

/-- The member with the data of a function that has not been executed. -/
def Member.withoutData : Member → Member
  | .function source _ => .function source emptyData
  | .var value => .var value

/-- Sources are kept. -/
@[simp] theorem Member.source?_withoutData (member : Member) :
    member.withoutData.source? = member.source? := by
  cases member <;> rfl

/-- Values are kept. -/
@[simp] theorem Member.value?_withoutData (member : Member) :
    member.withoutData.value? = member.value? := by
  cases member <;> rfl

/-- Functions stay functions. -/
@[simp] theorem Member.isFunction_withoutData (member : Member) :
    member.withoutData.isFunction = member.isFunction := by
  cases member <;> rfl

/-- A member is given by its blank form and its data. -/
theorem Member.ext_of_withoutData {member other : Member}
    (h : member.withoutData = other.withoutData) (hdata : member.data? = other.data?) :
    member = other := by
  cases member <;> cases other <;> simp_all [withoutData, data?]

namespace MemberTree

/-- The members with all data blanked. -/
def withoutData (members : MemberTree) : MemberTree := members.map Member.withoutData

variable (members : MemberTree)

/-- The members keep their names and their order. -/
theorem keys_withoutData : members.withoutData.keys = members.keys :=
  OrderedMap.keys_map Member.withoutData members

/-- A blank member is found under its name. -/
theorem get?_withoutData (name : String) :
    members.withoutData.get? name = (members.get? name).map Member.withoutData :=
  OrderedMap.get?_map Member.withoutData members name

/-- The sources are the same. -/
theorem source?_withoutData (name : String) :
    members.withoutData.source? name = members.source? name := by
  unfold source?
  rw [get?_withoutData]
  cases members.get? name with
  | none => rfl
  | some member => exact member.source?_withoutData

/-- The values are the same. -/
theorem value?_withoutData (name : String) :
    members.withoutData.value? name = members.value? name := by
  unfold value?
  rw [get?_withoutData]
  cases members.get? name with
  | none => rfl
  | some member => exact member.value?_withoutData

/-- There is no data left under any name. -/
theorem getD_data?_withoutData (name : String) :
    (members.withoutData.data? name).getD emptyData = emptyData := by
  unfold data?
  rw [get?_withoutData]
  rcases members.get? name with _ | ⟨source, data⟩ | value <;> rfl

/-- A member is blanked before or after it is written. -/
theorem withoutData_insert (name : String) (member : Member) :
    withoutData (members.insert name member) =
      members.withoutData.insert name member.withoutData :=
  OrderedMap.map_insert Member.withoutData members name member

/-- Members are blanked before or after others are removed. -/
theorem withoutData_eraseAll (names : List String) :
    withoutData (members.eraseAll names) = members.withoutData.eraseAll names :=
  OrderedMap.map_eraseAll Member.withoutData members names

/-- A new source keeps the data, so it does not matter when they are blanked. -/
theorem withoutData_setSource (name source : String) :
    (members.setSource name source).withoutData = members.withoutData.setSource name source := by
  rw [setSource, withoutData_insert, setSource, getD_data?_withoutData]
  rfl

variable {members}

/-- Only the data changes when data is set. -/
theorem withoutData_of_setData? {next : MemberTree} {name : String} {data : Json}
    (h : members.setData? name data = some next) : next.withoutData = members.withoutData := by
  obtain ⟨source, old, hmember, rfl⟩ := setData?_eq_some_iff.mp h
  rw [withoutData_insert]
  refine OrderedMap.insert_of_get? ?_
  rw [get?_withoutData, hmember]
  rfl

/-- Of all data only that of the function is set. -/
theorem data?_of_setData? {next : MemberTree} {name : String} {data : Json}
    (h : members.setData? name data = some next) (other : String) :
    next.data? other = if name = other then some data else members.data? other := by
  obtain ⟨source, old, -, rfl⟩ := setData?_eq_some_iff.mp h
  unfold data?
  rw [OrderedMap.get?_insert]
  split <;> rfl

/-- Members are given by their blank form and their data. -/
theorem ext_of_withoutData {others : MemberTree} (h : members.withoutData = others.withoutData)
    (hdata : ∀ name, members.data? name = others.data? name) : members = others := by
  refine OrderedMap.ext_of_keys ?_ fun name => ?_
  · rw [← keys_withoutData, h, keys_withoutData]
  · have hblank : (members.get? name).map Member.withoutData =
        (others.get? name).map Member.withoutData := by
      rw [← get?_withoutData, h, get?_withoutData]
    have hname := hdata name
    unfold data? at hname
    cases hmember : members.get? name with
    | none =>
      rw [hmember, Option.map_none, eq_comm, Option.map_eq_none_iff] at hblank
      exact hblank.symm
    | some member =>
      rw [hmember] at hblank hname
      obtain ⟨other, hother, heq⟩ := Option.map_eq_some_iff.mp hblank.symm
      rw [hother] at hname ⊢
      rw [Member.ext_of_withoutData heq.symm hname]

end MemberTree

namespace EntityState

/-- The entity with all data blanked. -/
def withoutData (state : EntityState) : EntityState :=
  { state with members := state.members.withoutData }

variable (state : EntityState)

/-! ## The checks -/

/-- The checks see no difference, as they do not look at data. -/
theorem looksLike_withoutData : state.withoutData.LooksLike state where
  vars := rfl
  functions := rfl
  reactivePaths := rfl
  bindingPaths := rfl
  dependencies := fun _ _ => rfl
  members := state.members.keys_withoutData
  kinds := by
    intro name
    show (state.members.withoutData.get? name).map Member.isFunction = _
    rw [MemberTree.get?_withoutData, Option.map_map]
    congr 1
    exact funext Member.isFunction_withoutData

/-- The same violations are found. -/
theorem violations_withoutData : state.withoutData.violations = state.violations :=
  state.looksLike_withoutData.violations

/-- The same states are accepted. -/
theorem check_withoutData : state.withoutData.check = state.check := by
  rw [check, violations_withoutData]
  rfl

/-- The same report is given. -/
theorem inspect_withoutData : state.withoutData.inspect = state.inspect := by
  rw [inspect, violations_withoutData]
  rfl

/-! ## Differences -/

/-- A function is classified by its source. -/
theorem classifyFunction_withoutData (decl : FunctionDecl) :
    state.withoutData.classifyFunction decl = state.classifyFunction decl := by
  unfold classifyFunction withoutData
  rw [MemberTree.source?_withoutData]

/-- A variable is classified by its value. -/
theorem classifyVariable_withoutData (decl : VariableDecl) :
    state.withoutData.classifyVariable decl = state.classifyVariable decl := by
  unfold classifyVariable withoutData
  rw [MemberTree.value?_withoutData]

/-- The changes are the same. -/
theorem classify_withoutData (body : Body) :
    state.withoutData.classify body = state.classify body := by
  unfold classify
  rw [funext state.classifyFunction_withoutData, funext state.classifyVariable_withoutData]
  rfl

/-- The difference to a body is the same, and so is the error. -/
theorem diff_withoutData (body : Body) : state.withoutData.diff body = state.diff body := by
  unfold diff
  rw [classify_withoutData]
  rfl

/-! ## Changes of members -/

/-- One change of a function commutes with blanking. -/
theorem withoutData_applyFunctionChange (change : FunctionChange) :
    (state.applyFunctionChange change).withoutData =
      state.withoutData.applyFunctionChange change := by
  obtain ⟨name, kind, source, arguments⟩ := change
  have hset : ∀ text, (state.members.setSource name text).withoutData =
      state.members.withoutData.setSource name text :=
    fun text => MemberTree.withoutData_setSource _ name text
  rcases kind <;> rcases source with _ | text
  case added.none => rfl
  case added.some => exact congrArg (EntityState.mk _) (hset text)
  case modified.none => rfl
  case modified.some => exact congrArg (EntityState.mk _) (hset text)
  case unchanged.none => rfl
  case unchanged.some => rfl
  case removed.none => exact congrArg (EntityState.mk _) (MemberTree.withoutData_eraseAll _ [name])
  case removed.some => exact congrArg (EntityState.mk _) (MemberTree.withoutData_eraseAll _ [name])

/-- One change of a variable commutes with blanking. -/
theorem withoutData_applyVariableChange (change : VariableChange) :
    (state.applyVariableChange change).withoutData =
      state.withoutData.applyVariableChange change := by
  obtain ⟨name, kind, value⟩ := change
  have hinsert : ∀ value, MemberTree.withoutData (state.members.insert name (.var value)) =
      state.members.withoutData.insert name (.var value) :=
    fun value => MemberTree.withoutData_insert _ name (.var value)
  have hremove : (state.removeVariable name).withoutData =
      state.withoutData.removeVariable name := by
    unfold removeVariable
    by_cases hfunction : state.record.hasFunction name = true
    · rw [if_pos hfunction, if_pos (by exact hfunction)]
      rfl
    · rw [if_neg hfunction, if_neg (by exact hfunction)]
      exact congrArg (EntityState.mk _) (MemberTree.withoutData_eraseAll _ [name])
  rcases kind <;> rcases value with _ | value
  case added.none => rfl
  case added.some => exact congrArg (EntityState.mk _) (hinsert value)
  case modified.none => rfl
  case modified.some => exact congrArg (EntityState.mk _) (hinsert value)
  case unchanged.none => rfl
  case unchanged.some => rfl
  case removed.none => exact hremove
  case removed.some => exact hremove

/-! ## Passes -/

/-- Changes of functions are made to the blank state alike, one after the other. -/
theorem withoutData_foldl_functions (changes : List FunctionChange) :
    (changes.foldl applyFunctionChange state).withoutData =
      changes.foldl applyFunctionChange state.withoutData := by
  induction changes generalizing state with
  | nil => rfl
  | cons change rest ih =>
    rw [List.foldl_cons, List.foldl_cons, ih, withoutData_applyFunctionChange]

/-- Changes of variables are made to the blank state alike, one after the other. -/
theorem withoutData_foldl_variables (changes : List VariableChange) :
    (changes.foldl applyVariableChange state).withoutData =
      changes.foldl applyVariableChange state.withoutData := by
  induction changes generalizing state with
  | nil => rfl
  | cons change rest ih =>
    rw [List.foldl_cons, List.foldl_cons, ih, withoutData_applyVariableChange]

/-- Applying a difference commutes with blanking. -/
theorem withoutData_apply (diff : EntityDiff) :
    (state.apply diff).withoutData = state.withoutData.apply diff := by
  rw [apply, withoutData_foldl_variables, withoutData_foldl_functions, apply]

/-- Taking in a body commutes with blanking. -/
theorem withoutData_withBody (body : Body) :
    (state.withBody body).withoutData = state.withoutData.withBody body := by
  rw [← apply_classify, withoutData_apply, ← apply_classify, classify_withoutData]

end EntityState

/-- The outcome with all data blanked. -/
def PassOutcome.withoutData (outcome : PassOutcome) : PassOutcome :=
  ⟨outcome.state.withoutData, outcome.diff⟩

namespace EntityState

variable (state : EntityState)

/-- **Passes do not look at data**: the pass over the blank entity is the blank form of the pass. -/
theorem synchronize_withoutData (body : Body) :
    state.withoutData.synchronize body = (state.synchronize body).map PassOutcome.withoutData := by
  unfold synchronize
  rw [diff_withoutData]
  cases state.diff body with
  | error error => rfl
  | ok diff =>
    show Except.ok (PassOutcome.mk (state.withoutData.apply diff) diff) =
      Except.ok (PassOutcome.mk (state.apply diff).withoutData diff)
    rw [withoutData_apply]

/-- Clearing does not look at data either. -/
theorem clear_withoutData : state.withoutData.clear = state.clear.withoutData := by
  have hmembers := state.members.withoutData_eraseAll
    (state.record.functions.keys ++ state.record.vars)
  unfold clear PassOutcome.withoutData
  rw [PassOutcome.mk.injEq]
  exact ⟨congrArg (EntityState.mk _) hmembers.symm, rfl⟩

/-! ## Entities that differ in data only -/

/-- Two entities differ in nothing but the data of functions. -/
def SameButData (state other : EntityState) : Prop := state.withoutData = other.withoutData

namespace SameButData

variable {state} {other : EntityState}

/-- They have the same violations. -/
protected theorem violations (h : state.SameButData other) :
    state.violations = other.violations := by
  rw [← violations_withoutData, h, violations_withoutData]

/-- They are accepted or refused alike. -/
protected theorem check (h : state.SameButData other) : state.check = other.check := by
  rw [← check_withoutData, h, check_withoutData]

/-- They give the same report. -/
protected theorem inspect (h : state.SameButData other) : state.inspect = other.inspect := by
  rw [← inspect_withoutData, h, inspect_withoutData]

/-- They are classified alike. -/
protected theorem classify (h : state.SameButData other) (body : Body) :
    state.classify body = other.classify body := by
  rw [← classify_withoutData, h, classify_withoutData]

/-- They differ from a body alike. -/
protected theorem diff (h : state.SameButData other) (body : Body) :
    state.diff body = other.diff body := by
  rw [← diff_withoutData, h, diff_withoutData]

/-- They differ in data only after a pass as well. -/
protected theorem withBody (h : state.SameButData other) (body : Body) :
    (state.withBody body).SameButData (other.withBody body) := by
  rw [SameButData, withoutData_withBody, h, withoutData_withBody]

/-- Passes succeed alike, with the same difference and with states that differ in data only. -/
protected theorem synchronize (h : state.SameButData other) (body : Body) :
    (state.synchronize body).map PassOutcome.withoutData =
      (other.synchronize body).map PassOutcome.withoutData := by
  rw [← synchronize_withoutData, h, synchronize_withoutData]

/-- They are cleared alike. -/
protected theorem clear (h : state.SameButData other) :
    state.clear.withoutData = other.clear.withoutData := by
  rw [← clear_withoutData, h, clear_withoutData]

end SameButData

/-! ## Data after a pass -/

variable {state}

/-- An entity differs in data only after data is set. -/
theorem sameButData_of_setData? {members : MemberTree} {function : String} {data : Json}
    (h : state.members.setData? function data = some members) :
    SameButData ⟨state.record, members⟩ state :=
  congrArg (EntityState.mk _) (MemberTree.withoutData_of_setData? h)

variable (state) {body : Body}

/-- Data after a pass: functions of the body keep what they have, variables have none, and what the
record declared besides is gone. -/
theorem data?_withBody (h : body.WellNamed) (name : String) :
    (state.withBody body).members.data? name =
      if name ∈ body.functionNames then some ((state.members.data? name).getD emptyData)
      else if name ∈ body.variableNames ∨ name ∈ state.record.functions.keys ∨
        name ∈ state.record.vars then none
      else state.members.data? name := by
  by_cases hfunction : name ∈ body.functionNames
  · obtain ⟨decl, hdecl, rfl⟩ := List.mem_map.mp hfunction
    rw [if_pos hfunction, MemberTree.data?_eq_some_iff]
    exact ⟨decl.source, get?_members_withBody_function state h hdecl⟩
  rw [if_neg hfunction]
  by_cases hvariable : name ∈ body.variableNames
  · obtain ⟨decl, hdecl, rfl⟩ := List.mem_map.mp hvariable
    have hget := get?_members_withBody_variable state h hdecl
    rw [if_pos (Or.inl hvariable), MemberTree.data?, hget]
    by_cases hsets : state.setsValue decl = true
    · rw [if_pos hsets]
      rfl
    -- an unchanged variable has a value, so its member has no data
    · rw [if_neg hsets]
      obtain ⟨-, hchanged⟩ := (not_setsValue_iff state decl).mp hsets
      obtain ⟨value, hvalue, -⟩ := Json.truthy_of_not_changed hchanged
      rw [(MemberTree.value?_eq_some_iff _ _ _).mp hvalue]
      split <;> rfl
  · rw [MemberTree.data?, get?_members_withBody_of_notMem state hfunction hvariable]
    simp only [hvariable, false_or]
    split <;> rfl

/-- Setting the data of a function of the body after a pass is setting it before. -/
theorem setData?_withBody (h : body.WellNamed) {function : String}
    (hfunction : function ∈ body.functionNames) {members : MemberTree} {data : Json}
    (hset : state.members.setData? function data = some members) :
    (state.withBody body).members.setData? function data =
      some (withBody ⟨state.record, members⟩ body).members := by
  obtain ⟨decl, hdecl, rfl⟩ := List.mem_map.mp hfunction
  have hmember := get?_members_withBody_function state h hdecl
  have hafter : (state.withBody body).members.setData? decl.name data =
      some ((state.withBody body).members.insert decl.name (.function decl.source data)) :=
    MemberTree.setData?_eq_some_iff.mpr ⟨decl.source, _, hmember, rfl⟩
  have hblank := (sameButData_of_setData? hset).withBody body
  rw [hafter]
  -- both have the same blank form, so their data is left to compare
  refine congrArg some (MemberTree.ext_of_withoutData ?_ fun name => ?_)
  · rw [MemberTree.withoutData_of_setData? hafter]
    exact (congrArg EntityState.members hblank).symm
  · rw [MemberTree.data?_of_setData? hafter, data?_withBody state h,
      data?_withBody ⟨state.record, members⟩ h, MemberTree.data?_of_setData? hset]
    by_cases heq : decl.name = name
    · subst heq
      rw [if_pos rfl, if_pos hfunction, if_pos rfl]
      rfl
    · rw [if_neg heq, if_neg heq]

end EntityState

end ScriptStore
