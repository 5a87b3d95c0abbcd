import ScriptStore.Proofs.Alignment

/-!
# Passes and rebuilds

A pass brings a grown entity in line with a body member by member; a rebuild starts over from a new
entity.  The two lead to the same tables and members, up to the order of entries and up to what the
entity keeps of names that it has declared already (`EntityState.AgreesWithRebuild`): the metadata
and the data of a function, and the value of a variable that counts as unchanged.

This holds for aligned entities, and whatever passes, clearings and executions make of a new entity
is aligned (`EntityState.aligned_afterAll`).
-/

namespace ScriptStore

namespace EntityState

/-! ## Histories -/

/-- What happens to an entity: a pass, a clearing, or new data of a function. -/
inductive Event where
  | pass (body : Body)
  | clear
  | data (function : String) (value : Json)

/-- The state after an event.  A body that is refused and data for a name without a function leave
the state as it is. -/
def after (state : EntityState) : Event → EntityState
  | .pass body =>
    match state.synchronize body with
    | .ok outcome => outcome.state
    | .error _ => state
  | .clear => state.clear.state
  | .data function value =>
    match state.members.setData? function value with
    | some members => ⟨state.record, members⟩
    | none => state

/-- The state after a history. -/
def afterAll (state : EntityState) (history : List Event) : EntityState :=
  history.foldl after state

/-- All that an event can do: nothing, taking in an accepted body, or setting the data of a member.
Clearing takes in the empty body. -/
theorem after_cases (state : EntityState) (event : Event) :
    state.after event = state ∨
      (∃ body : Body, body.WellNamed ∧ state.after event = state.withBody body) ∨
      ∃ function value members, state.members.setData? function value = some members ∧
        state.after event = ⟨state.record, members⟩ := by
  cases event with
  | pass body =>
    cases herror : body.nameError? with
    | none =>
      refine Or.inr (Or.inl ⟨body, (Body.nameError?_eq_none_iff body).mp herror, ?_⟩)
      rw [after, synchronize_of_nameError? state herror]
    | some error =>
      left
      rw [after, synchronize, diff, herror]
      rfl
  | clear => exact Or.inr (Or.inl ⟨Body.empty, Body.wellNamed_empty, state.withBody_empty.symm⟩)
  | data function value =>
    cases hset : state.members.setData? function value with
    | none =>
      left
      rw [after, hset]
    | some members =>
      refine Or.inr (Or.inr ⟨function, value, members, hset, ?_⟩)
      rw [after, hset]

/-- **The step**: every event keeps alignment. -/
theorem aligned_after {state : EntityState} (h : state.Aligned) (event : Event) :
    (state.after event).Aligned := by
  rcases state.after_cases event with hsame | ⟨body, hbody, hpass⟩ | ⟨_, _, _, hset, hdata⟩
  · rw [hsame]
    exact h
  · rw [hpass]
    exact h.withBody hbody
  · rw [hdata]
    exact h.setData? hset

/-- The history: whatever a new entity goes through, it stays aligned. -/
theorem aligned_afterAll {state : EntityState} (h : state.Aligned) (history : List Event) :
    (state.afterAll history).Aligned := by
  induction history generalizing state with
  | nil => exact h
  | cons event rest ih => exact ih (aligned_after h event)

/-- No event changes the name of the entity. -/
theorem name_after (state : EntityState) (event : Event) :
    (state.after event).record.name = state.record.name := by
  rcases state.after_cases event with hsame | ⟨body, -, hpass⟩ | ⟨_, _, _, -, hdata⟩
  · rw [hsame]
  · rw [hpass]
    rfl
  · rw [hdata]

theorem name_afterAll (state : EntityState) (history : List Event) :
    (state.afterAll history).record.name = state.record.name := by
  induction history generalizing state with
  | nil => rfl
  | cons event rest ih => exact (ih (state.after event)).trans (name_after state event)

/-! ## What an entity keeps -/

/-- The metadata of a function after a pass, given that of a rebuild: a function that was declared
before keeps the metadata from when it was added. -/
def keptMeta (old : EntityState) (name : String) (rebuilt : FunctionMeta) : FunctionMeta :=
  if old.record.hasFunction name then (old.record.functions.get? name).getD rebuilt else rebuilt

/-- The member of a name after a pass, given that of a rebuild: a function that was declared before
keeps its data, and a variable that was declared before keeps a value that counts as unchanged. -/
def keptMember (old : EntityState) (name : String) : Member → Member
  | .function source data =>
    .function source
      (if old.record.hasFunction name then (old.members.data? name).getD data else data)
  | .var value =>
    .var (if old.record.hasVariable name ∧ Json.changed (old.members.value? name) value = false
      then (old.members.value? name).getD value else value)

/-- The source of a function is never kept. -/
theorem source?_keptMember (old : EntityState) (name : String) (member : Member) :
    (old.keptMember name member).source? = member.source? := by
  cases member <;> rfl

/-- The kind of a member is never kept. -/
theorem isFunction_keptMember (old : EntityState) (name : String) (member : Member) :
    (old.keptMember name member).isFunction = member.isFunction := by
  cases member <;> rfl

/-- The state after a pass agrees with a rebuild: the same names, paths and members in some order,
every list without repetition, and the same metadata and members up to what is kept from before. -/
structure AgreesWithRebuild (old incremental rebuilt : EntityState) : Prop where
  name : incremental.record.name = rebuilt.record.name
  reactivePaths : ∀ path,
    incremental.record.reactivePaths.get? path = rebuilt.record.reactivePaths.get? path
  nodup_bindingPaths : incremental.record.bindingPaths.Nodup
  bindingPaths : incremental.record.bindingPaths.Perm rebuilt.record.bindingPaths
  dependencyKeys : incremental.record.dependencies.keys = rebuilt.record.dependencies.keys
  nodup_dependencies : incremental.record.dependencies.body.Nodup
  dependencies : incremental.record.dependencies.body.Perm rebuilt.record.dependencies.body
  nodup_functions : incremental.record.functions.keys.Nodup
  functions : incremental.record.functions.keys.Perm rebuilt.record.functions.keys
  functionMeta : ∀ name, incremental.record.functions.get? name =
    (rebuilt.record.functions.get? name).map (old.keptMeta name)
  nodup_vars : incremental.record.vars.Nodup
  vars : incremental.record.vars.Perm rebuilt.record.vars
  memberKeys : incremental.members.keys.Perm rebuilt.members.keys
  kind : ∀ name, (incremental.members.get? name).map Member.isFunction =
    (rebuilt.members.get? name).map Member.isFunction
  source : ∀ name, incremental.members.source? name = rebuilt.members.source? name
  member : ∀ name, incremental.members.get? name =
    (rebuilt.members.get? name).map (old.keptMember name)

/-! ## Rebuilds -/

section Rebuild

variable {body : Body} (entity : String)

/-- A rebuild gives every function its metadata. -/
theorem get?_functions_rebuild (hbody : body.WellNamed) {decl : FunctionDecl}
    (hdecl : decl ∈ body.functions) :
    ((EntityState.new entity).withBody body).record.functions.get? decl.name =
      some (.declared decl.arguments) :=
  get?_functions_withBody_of_notMem _ hbody hdecl List.not_mem_nil

/-- A rebuild gives every function its source and no data. -/
theorem get?_members_rebuild_function (hbody : body.WellNamed) {decl : FunctionDecl}
    (hdecl : decl ∈ body.functions) :
    ((EntityState.new entity).withBody body).members.get? decl.name =
      some (.function decl.source emptyData) :=
  get?_members_withBody_function _ hbody hdecl

/-- A rebuild gives every variable its value. -/
theorem get?_members_rebuild_variable (hbody : body.WellNamed) {decl : VariableDecl}
    (hdecl : decl ∈ body.vars) :
    ((EntityState.new entity).withBody body).members.get? decl.name = some (.var decl.value) :=
  get?_members_withBody_variable _ hbody hdecl

end Rebuild

/-! ## Metadata and members -/

section Kept

variable {state : EntityState} {body : Body} (entity : String)

/-- The metadata after a pass is that of a rebuild, up to what is kept. -/
theorem get?_functions_eq_rebuild (hbody : body.WellNamed) (name : String) :
    (state.withBody body).record.functions.get? name =
      (((EntityState.new entity).withBody body).record.functions.get? name).map
        (state.keptMeta name) := by
  by_cases hname : name ∈ body.functionNames
  · obtain ⟨decl, hdecl, rfl⟩ := List.mem_map.mp hname
    rw [get?_functions_rebuild entity hbody hdecl, Option.map_some, keptMeta]
    by_cases hold : decl.name ∈ state.record.functions.keys
    · obtain ⟨found, hfound⟩ := (OrderedMap.mem_keys_iff _ _).mp hold
      rw [get?_functions_withBody_of_mem state body hname hold,
        if_pos ((Record.hasFunction_iff _ _).mpr hold), hfound, Option.getD_some]
    · rw [get?_functions_withBody_of_notMem state hbody hdecl hold,
        if_neg (mt (Record.hasFunction_iff _ _).mp hold)]
  · have hnone : ∀ s : EntityState, (s.withBody body).record.functions.get? name = none := by
      intro s
      rw [OrderedMap.get?_eq_none_iff, mem_functions_withBody]
      exact hname
    rw [hnone, hnone, Option.map_none]

/-- The member of a function after a pass: the declared source, and data if it was there before. -/
theorem get?_members_eq_kept_function (h : state.Aligned) (hbody : body.WellNamed)
    {decl : FunctionDecl} (hdecl : decl ∈ body.functions) :
    (state.withBody body).members.get? decl.name =
      some (state.keptMember decl.name (.function decl.source emptyData)) := by
  rw [get?_members_withBody_function state hbody hdecl, keptMember]
  by_cases hold : state.record.hasFunction decl.name = true
  · rw [if_pos hold]
  -- only a function of the record has data
  · have hdata : state.members.data? decl.name = none := by
      refine Option.eq_none_iff_forall_ne_some.mpr fun data hdata => hold ?_
      obtain ⟨source, hget⟩ := (MemberTree.data?_eq_some_iff _ _ _).mp hdata
      exact (Record.hasFunction_iff _ _).mpr
        ((h.functionMembers decl.name).mp ⟨source, data, hget⟩)
    rw [if_neg hold, hdata, Option.getD_none]

/-- The member of a variable after a pass: the value before if it counts as unchanged, and the
declared value otherwise. -/
theorem get?_members_eq_kept_variable (h : state.Aligned) (hbody : body.WellNamed)
    {decl : VariableDecl} (hdecl : decl ∈ body.vars) :
    (state.withBody body).members.get? decl.name =
      some (state.keptMember decl.name (.var decl.value)) := by
  rw [get?_members_withBody_variable state hbody hdecl, keptMember]
  by_cases hkept : state.record.hasVariable decl.name = true ∧
      Json.changed (state.members.value? decl.name) decl.value = false
  -- the value is left, and the name is a variable of the record and no function
  · have hvar := (Record.hasVariable_iff _ _).mp hkept.1
    have hfunction : decl.name ∉ state.record.functions.keys :=
      fun hmem => h.disjoint decl.name hmem hvar
    obtain ⟨value, hmember⟩ := (h.variableMembers decl.name).mpr hvar
    have hvalue := (MemberTree.value?_eq_some_iff _ _ _).mpr hmember
    rw [if_neg ((not_setsValue_iff state decl).mpr hkept), if_neg hfunction, if_pos hkept,
      hmember, hvalue, Option.getD_some]
  · have hsets : state.setsValue decl = true := by
      by_contra hnot
      exact hkept ((not_setsValue_iff state decl).mp hnot)
    rw [if_pos hsets, if_neg hkept]

/-- The members after a pass of an aligned entity are those of a rebuild, up to what is kept. -/
theorem get?_members_eq_rebuild (h : state.Aligned) (hbody : body.WellNamed) (name : String) :
    (state.withBody body).members.get? name =
      (((EntityState.new entity).withBody body).members.get? name).map
        (state.keptMember name) := by
  by_cases hfunction : name ∈ body.functionNames
  · obtain ⟨decl, hdecl, rfl⟩ := List.mem_map.mp hfunction
    rw [get?_members_eq_kept_function h hbody hdecl,
      get?_members_rebuild_function entity hbody hdecl, Option.map_some]
  · by_cases hvariable : name ∈ body.variableNames
    · obtain ⟨decl, hdecl, rfl⟩ := List.mem_map.mp hvariable
      rw [get?_members_eq_kept_variable h hbody hdecl,
        get?_members_rebuild_variable entity hbody hdecl, Option.map_some]
    · have hnone : ∀ s : EntityState, s.Aligned → (s.withBody body).members.get? name = none := by
        intro s hs
        have haligned := hs.withBody hbody
        refine haligned.get?_members_eq_none ?_ ?_
        · rwa [mem_functions_withBody]
        · rwa [mem_vars_withBody]
      rw [hnone state h, hnone _ (Aligned.new entity), Option.map_none]

/-! ## Agreement -/

/-- A pass of an aligned entity agrees with a rebuild. -/
theorem agreesWithRebuild_withBody (h : state.Aligned) (hbody : body.WellNamed) :
    state.AgreesWithRebuild (state.withBody body)
      ((EntityState.new state.record.name).withBody body) := by
  -- both states are aligned, so their tables follow from the declared names, which are the same
  have hpass := h.withBody hbody
  have hrebuild := (Aligned.new state.record.name).withBody hbody
  have hmember := get?_members_eq_rebuild state.record.name h hbody
  have hfunctions : ∀ name, name ∈ (state.withBody body).record.functions.keys ↔
      name ∈ ((EntityState.new state.record.name).withBody body).record.functions.keys := by
    intro name
    rw [mem_functions_withBody, mem_functions_withBody]
  have hvars : ∀ name, name ∈ (state.withBody body).record.vars ↔
      name ∈ ((EntityState.new state.record.name).withBody body).record.vars := by
    intro name
    rw [mem_vars_withBody, mem_vars_withBody]
  refine {
    name := rfl
    reactivePaths := fun path => Option.ext fun kind => ?_
    nodup_bindingPaths := hpass.nodup_bindingPaths
    bindingPaths :=
      (List.perm_ext_iff_of_nodup hpass.nodup_bindingPaths hrebuild.nodup_bindingPaths).mpr
        fun key => ?_
    dependencyKeys := hpass.dependencyKeys.trans hrebuild.dependencyKeys.symm
    nodup_dependencies := hpass.nodup_dependencies
    dependencies :=
      (List.perm_ext_iff_of_nodup hpass.nodup_dependencies hrebuild.nodup_dependencies).mpr
        fun name => ?_
    nodup_functions := OrderedMap.nodup_keys _
    functions := OrderedMap.perm_keys hfunctions
    functionMeta := get?_functions_eq_rebuild state.record.name hbody
    nodup_vars := hpass.nodup_vars
    vars := (List.perm_ext_iff_of_nodup hpass.nodup_vars hrebuild.nodup_vars).mpr hvars
    memberKeys := OrderedMap.perm_keys fun name => ?_
    kind := fun name => ?_
    source := fun name => ?_
    member := hmember }
  · rw [hpass.reactivePaths, hrebuild.reactivePaths]
    simp only [hfunctions, hvars]
  · rw [hpass.bindingPaths, hrebuild.bindingPaths, hfunctions, hvars]
  · rw [hpass.dependencies, hrebuild.dependencies, hfunctions]
  · rw [← OrderedMap.contains_iff, ← OrderedMap.contains_iff, OrderedMap.contains,
      OrderedMap.contains, hmember, Option.isSome_map]
  · rw [hmember, Option.map_map]
    congr 1
    funext member
    exact isFunction_keptMember state name member
  · rw [MemberTree.source?, MemberTree.source?, hmember, Option.bind_map]
    congr 1
    funext member
    exact source?_keptMember state name member

end Kept

/-! ## The main theorem -/

/-- **Passes and rebuilds agree.**  Whatever passes, clearings and data a new entity has gone
through, a pass of an accepted body and a rebuild with it succeed, and they agree: they have the
same names, paths and members with the same kinds and sources.  Apart from the order of entries,
only the metadata and the data of functions that were declared before may differ, and the values of
variables that were declared before and count as unchanged; everything else is as declared. -/
theorem pass_agrees_with_rebuild (entity : String) (history : List Event) (body : Body)
    (h : body.validate = .ok ()) :
    ∃ incremental rebuilt,
      ((EntityState.new entity).afterAll history).synchronize body = .ok incremental ∧
      (EntityState.new entity).synchronize body = .ok rebuilt ∧
      ((EntityState.new entity).afterAll history).AgreesWithRebuild incremental.state
        rebuilt.state ∧
      (∀ decl ∈ body.functions,
        rebuilt.state.record.functions.get? decl.name = some (.declared decl.arguments) ∧
        rebuilt.state.members.get? decl.name = some (.function decl.source emptyData)) ∧
      ∀ decl ∈ body.vars, rebuilt.state.members.get? decl.name = some (.var decl.value) := by
  have hbody : body.WellNamed := (Body.validate_eq_ok_iff body).mp h
  have herror : body.nameError? = none := (Body.nameError?_eq_none_iff body).mpr hbody
  have haligned := aligned_afterAll (Aligned.new entity) history
  have hagrees := agreesWithRebuild_withBody haligned hbody
  rw [name_afterAll] at hagrees
  refine ⟨_, _, synchronize_of_nameError? _ herror, synchronize_of_nameError? _ herror, hagrees,
    fun decl hdecl => ⟨?_, ?_⟩, fun decl hdecl => ?_⟩
  · exact get?_functions_rebuild entity hbody hdecl
  · exact get?_members_rebuild_function entity hbody hdecl
  · exact get?_members_rebuild_variable entity hbody hdecl

/-- A history in which two names swap their kinds and a function gets data. -/
def swappingHistory : List Event :=
  [.pass ⟨[⟨"run", "() => 1", []⟩], [⟨"count", .null⟩]⟩,
    .pass ⟨[⟨"count", "() => 2", []⟩], [⟨"run", .str "true"⟩]⟩,
    .data "count" (.str "done")]

/-- A body that has another source for the function and an equally written value for the variable
of the swapping history, and a new variable. -/
def editedBody : Body :=
  ⟨[⟨"count", "id => 2", [⟨"id", none⟩]⟩], [⟨"new", .null⟩, ⟨"run", .bool true⟩]⟩

/-- After the swapping history, a pass of the edited body agrees with a rebuild: the function keeps
its data and the variable its value, and nothing else differs. -/
theorem swappingHistory_agrees_with_rebuild :
    editedBody.validate = .ok () ∧ ∃ incremental rebuilt,
      ((EntityState.new "Page").afterAll swappingHistory).synchronize editedBody =
        .ok incremental ∧
      (EntityState.new "Page").synchronize editedBody = .ok rebuilt ∧
      ((EntityState.new "Page").afterAll swappingHistory).AgreesWithRebuild incremental.state
        rebuilt.state ∧
      incremental.state.members.get? "count" = some (.function "id => 2" (.str "done")) ∧
      incremental.state.members.get? "run" = some (.var (.str "true")) := by
  have hvalid : editedBody.validate = .ok () := by decide
  obtain ⟨incremental, rebuilt, hincremental, hrebuilt, hagrees, -⟩ :=
    pass_agrees_with_rebuild "Page" swappingHistory editedBody hvalid
  have hstate : incremental.state =
      ((EntityState.new "Page").afterAll swappingHistory).withBody editedBody := by
    rw [synchronize_of_nameError? _ (by decide), Except.ok.injEq] at hincremental
    rw [← hincremental]
  refine ⟨hvalid, incremental, rebuilt, hincremental, hrebuilt, hagrees, ?_, ?_⟩
  · rw [hstate]
    decide
  · rw [hstate]
    decide

end EntityState

end ScriptStore
