import ScriptStore.Proofs.Pass.Tables
import ScriptStore.Proofs.Store.Passes

/-!
# A second pass of the same body

After one pass an entity is in line with the body (`EntityState.InLine`): the names agree, every
function has its source, and every variable has a value that counts as unchanged against the
declared one, unless it is the declared one and false in a condition.  A body that an entity is in
line with changes nothing any more, although it still reports the variables of the second kind as
modified.

That the first pass gets there needs that no name of the record is function and variable at once:
the member of such a name would be dropped with the function and still count for the variable.
-/

namespace ScriptStore

namespace EntityState

variable {state : EntityState} {body : Body}

/-! ## States in line with a body -/

/-- An entity is in line with a body: nothing is left to do. -/
structure InLine (state : EntityState) (body : Body) : Prop where
  functions : ∀ name, name ∈ state.record.functions.keys ↔ name ∈ body.functionNames
  vars : ∀ name, name ∈ state.record.vars ↔ name ∈ body.variableNames
  source : ∀ decl ∈ body.functions, state.members.source? decl.name = some decl.source
  value : ∀ decl ∈ body.vars, ∃ value, state.members.get? decl.name = some (.var value) ∧
    Json.changed (some value) decl.value = !value.truthy ∧
    (value.truthy = false → value = decl.value)

namespace InLine

/-- No function of the body is new. -/
theorem addsFunction (h : state.InLine body) {decl : FunctionDecl} (hdecl : decl ∈ body.functions) :
    state.addsFunction decl = false := by
  exact addsFunction_of_mem state ((h.functions decl.name).mpr (List.mem_map_of_mem hdecl))

/-- No variable of the body is new. -/
theorem addsVariable (h : state.InLine body) {decl : VariableDecl} (hdecl : decl ∈ body.vars) :
    state.addsVariable decl = false := by
  exact addsVariable_of_mem state ((h.vars decl.name).mpr (List.mem_map_of_mem hdecl))

/-- No function comes. -/
theorem addedFunctions (h : state.InLine body) : state.addedFunctions body = [] := by
  rw [EntityState.addedFunctions, List.filter_eq_nil_iff]
  intro decl hdecl
  rw [h.addsFunction hdecl]
  exact Bool.false_ne_true

/-- No function goes. -/
theorem missingFunctions (h : state.InLine body) : state.missingFunctions body = [] := by
  rw [EntityState.missingFunctions, List.filter_eq_nil_iff]
  intro name hname
  have hbody := (h.functions name).mp hname
  simpa using hbody

/-- No variable comes. -/
theorem addedVariables (h : state.InLine body) : state.addedVariables body = [] := by
  rw [EntityState.addedVariables, List.map_eq_nil_iff, List.filter_eq_nil_iff]
  intro decl hdecl
  rw [h.addsVariable hdecl]
  exact Bool.false_ne_true

/-- No variable goes. -/
theorem missingVariables (h : state.InLine body) : state.missingVariables body = [] := by
  rw [EntityState.missingVariables, List.filter_eq_nil_iff]
  intro name hname
  have hbody := (h.vars name).mp hname
  simpa using hbody

/-- No source is set. -/
theorem setsSource (h : state.InLine body) : body.functions.filter state.setsSource = [] := by
  rw [List.filter_eq_nil_iff]
  intro decl hdecl
  have hname := (h.functions decl.name).mpr (List.mem_map_of_mem hdecl)
  rw [setsSource_of_mem state hname (h.source decl hdecl)]
  exact Bool.false_ne_true

/-- The values that are set are the ones that are there. -/
theorem get?_of_setsValue (h : state.InLine body) {decl : VariableDecl} (hdecl : decl ∈ body.vars)
    (hsets : state.setsValue decl = true) :
    state.members.get? decl.name = some (.var decl.value) := by
  obtain ⟨value, hget, hchanged, hfalse⟩ := h.value decl hdecl
  have hvalue := (MemberTree.value?_eq_some_iff _ _ _).mpr hget
  rw [EntityState.setsValue, h.addsVariable hdecl, Bool.false_or, hvalue, hchanged,
    Bool.not_eq_true'] at hsets
  rw [hget, hfalse hsets]

/-- **The fixed point**: a body that an entity is in line with changes nothing. -/
theorem withBody (h : state.InLine body) : state.withBody body = state := by
  have hfunctions : state.withFunctions body = state := by
    rw [EntityState.withFunctions, h.addedFunctions, h.missingFunctions, h.setsSource,
      Record.declareFunctions_nil, Record.dropFunctions_nil, MemberTree.setSources_nil,
      OrderedMap.eraseAll_nil]
  have hvalues : state.members.setValues (body.vars.filter state.setsValue) = state.members := by
    refine OrderedMap.insertAll_of_get? (fun entry hentry => ?_)
    obtain ⟨decl, hdecl, rfl⟩ := List.mem_map.mp hentry
    obtain ⟨hmem, hsets⟩ := List.mem_filter.mp hdecl
    exact h.get?_of_setsValue hmem hsets
  unfold EntityState.withBody
  rw [hfunctions, hvalues, h.addedVariables, h.missingVariables, Record.declareVariables_nil]
  dsimp only
  rw [Record.dropVariables_nil, Record.unowned_nil, OrderedMap.eraseAll_nil]

/-- Every function is reported unchanged. -/
theorem functions_classify (h : state.InLine body) :
    (state.classify body).functions =
      body.functions.map fun decl => ⟨decl.name, .unchanged, none, []⟩ := by
  show body.functions.map state.classifyFunction ++
    (state.missingFunctions body).map FunctionChange.removal = _
  rw [h.missingFunctions, List.map_nil, List.append_nil]
  refine List.map_congr_left (fun decl hdecl => ?_)
  have hfun : state.record.hasFunction decl.name = true := by
    rw [Record.hasFunction_iff, h.functions]
    exact List.mem_map_of_mem hdecl
  rw [classifyFunction, if_pos hfun, if_pos (h.source decl hdecl)]

/-- A variable is reported modified exactly if its value is false in a condition. -/
theorem vars_classify (h : state.InLine body) :
    (state.classify body).vars = body.vars.map fun decl =>
      if (state.members.value? decl.name).any Json.truthy then ⟨decl.name, .unchanged, none⟩
      else ⟨decl.name, .modified, some decl.value⟩ := by
  show body.vars.map state.classifyVariable ++
    (state.missingVariables body).map VariableChange.removal = _
  rw [h.missingVariables, List.map_nil, List.append_nil]
  refine List.map_congr_left (fun decl hdecl => ?_)
  obtain ⟨value, hget, hchanged, -⟩ := h.value decl hdecl
  have hvalue := (MemberTree.value?_eq_some_iff _ _ _).mpr hget
  have hvar : state.record.hasVariable decl.name = true := by
    rw [Record.hasVariable_iff, h.vars]
    exact List.mem_map_of_mem hdecl
  rw [classifyVariable, if_pos hvar, hvalue, hchanged, Option.any_some]
  cases value.truthy <;> rfl

end InLine

/-! ## The first pass -/

/-- After a pass an entity is in line with the body. -/
theorem inLine_withBody (hdisjoint : state.record.IsDisjoint) (hbody : body.WellNamed) :
    (state.withBody body).InLine body where
  functions := mem_functions_withBody state body
  vars := mem_vars_withBody state body
  source := by
    intro decl hdecl
    rw [MemberTree.source?, get?_members_withBody_function state hbody hdecl]
    rfl
  value := fun _ hdecl => value_withBody state hdisjoint hbody hdecl

end EntityState

/-! ## Repeated reconciliation -/

namespace Store

/-- The record of an untracked entity declares nothing. -/
theorem isDisjoint_stateOf {store : Store} {entity : String}
    (h : ∀ record, store.record? entity = some record → record.IsDisjoint) :
    (store.stateOf entity).record.IsDisjoint := by
  unfold stateOf
  cases hrecord : store.record? entity with
  | none =>
    intro name hname
    cases hname
  | some record => exact h record hrecord

/-- A reconciliation that succeeds can be repeated, and the second one changes nothing. -/
theorem reconcile_again {store next : Store} {entity : String} {body : Body} {diff : EntityDiff}
    (hdisjoint : ∀ record, store.record? entity = some record → record.IsDisjoint)
    (h : store.reconcile entity body = .ok (diff, next)) :
    ∃ again, next.reconcile entity body = .ok (again, next) := by
  obtain ⟨hfiled, hbody, hviolations, -, rfl⟩ := reconcile_eq_ok h
  have hinLine : ((store.stateOf entity).withBody body).InLine body :=
    EntityState.inLine_withBody (isDisjoint_stateOf hdisjoint)
      ((Body.nameError?_eq_none_iff body).mp hbody)
  generalize hstate : (store.stateOf entity).withBody body = state at hinLine hviolations
  have hrecord : (store.put entity state).record? entity = some state.record := by
    rw [record?_put, if_pos rfl]
  have htree : (store.put entity state).tree? entity = some state.members := by
    rw [tree?_put, if_pos rfl]
  have hnext : (store.put entity state).Filed entity := by
    intro record hfound
    rw [hrecord, Option.some.injEq] at hfound
    rw [← hfound, ← hstate]
    exact name_stateOf hfiled
  -- verification is as before the first pass
  have hverified : (store.put entity state).verify = true → state.violations = [] := hviolations
  have hcommit : (store.put entity state).commit entity ⟨state, state.classify body⟩ =
      .ok (state.classify body, store.put entity state) := by
    rw [commit_of_violations ⟨state, state.classify body⟩ hverified, put_of_eq hrecord htree]
  refine ⟨state.classify body, ?_⟩
  rw [reconcile_of_filed hnext, hbody, stateOf_put, hinLine.withBody]
  exact hcommit

end Store

/-! ## The main theorem -/

/-- **Idempotence.**  If no name of the record is function and variable at once, a pass of an
accepted body succeeds, a second one too, and the second one leaves the state exactly as it is.  It
reports every function as unchanged, a variable as modified exactly if its value is false in a
condition, and then the value is the declared one.  In a store, a reconciliation that succeeds can
be repeated under the same verification and leaves the store exactly as it is. -/
theorem pass_idempotent :
    (∀ (state : EntityState) (body : Body), state.record.IsDisjoint → body.validate = .ok () →
      ∃ first second, state.synchronize body = .ok first ∧
        first.state.synchronize body = .ok second ∧
        second.state = first.state ∧
        second.diff.functions =
          body.functions.map (fun decl => ⟨decl.name, .unchanged, none, []⟩) ∧
        second.diff.vars = body.vars.map (fun decl =>
          if (first.state.members.value? decl.name).any Json.truthy
          then ⟨decl.name, .unchanged, none⟩
          else ⟨decl.name, .modified, some decl.value⟩) ∧
        ∀ decl ∈ body.vars, ∃ value, first.state.members.get? decl.name = some (.var value) ∧
          (value.truthy = false → value = decl.value)) ∧
    ∀ (store next : Store) (entity : String) (body : Body) (diff : EntityDiff),
      (∀ record, store.record? entity = some record → record.IsDisjoint) →
      store.reconcile entity body = .ok (diff, next) →
      next.verify = store.verify ∧ ∃ again, next.reconcile entity body = .ok (again, next) := by
  refine ⟨fun state body hdisjoint hvalid => ?_, fun store next entity body diff hdisjoint h => ?_⟩
  · have hbody : body.WellNamed := (Body.validate_eq_ok_iff body).mp hvalid
    have herror : body.nameError? = none := (Body.nameError?_eq_none_iff body).mpr hbody
    have hinLine := EntityState.inLine_withBody hdisjoint hbody
    refine ⟨_, _, EntityState.synchronize_of_nameError? state herror,
      EntityState.synchronize_of_nameError? _ herror, hinLine.withBody,
      hinLine.functions_classify, hinLine.vars_classify, fun decl hdecl => ?_⟩
    obtain ⟨value, hget, -, hfalse⟩ := hinLine.value decl hdecl
    exact ⟨value, hget, hfalse⟩
  · refine ⟨?_, Store.reconcile_again hdisjoint h⟩
    obtain ⟨-, -, -, -, rfl⟩ := Store.reconcile_eq_ok h
    rfl

/-- An entity whose function has the member of a variable, whose variable has no member, and which
has a member that is not declared. -/
def unevenState : EntityState :=
  ⟨(((EntityState.new "Page").addFunction "run" "() => 1" []).addVariable "count" .null).record,
    ((∅ : MemberTree).insert "run" (.var (.str "1"))).insert "stray" (.var .null)⟩

/-- The body in which the two names swap their kinds, with a value that is false in a condition. -/
def swappedBody : Body := ⟨[⟨"count", "() => 2", []⟩], [⟨"run", .str ""⟩]⟩

/-- The uneven entity is in line with the swapped body after one pass, alone and in a store.  The
second pass reports the value as modified, since it is false in a condition. -/
theorem unevenState_idempotent :
    unevenState.record.IsDisjoint ∧ swappedBody.validate = .ok () ∧
      (∃ first second, unevenState.synchronize swappedBody = .ok first ∧
        first.state.synchronize swappedBody = .ok second ∧ second.state = first.state ∧
        second.diff.functions = [⟨"count", .unchanged, none, []⟩] ∧
        second.diff.vars = [⟨"run", .modified, some (.str "")⟩]) ∧
      ∃ diff next, ((Store.empty false).put "Page" unevenState).reconcile "Page" swappedBody =
          .ok (diff, next) ∧
        ∃ again, next.reconcile "Page" swappedBody = .ok (again, next) := by
  have hdisjoint : unevenState.record.IsDisjoint := by
    intro name hname
    have heq : name = "run" := List.mem_singleton.mp ((Record.hasFunction_iff _ _).mp hname)
    rw [heq]
    decide
  have hvalid : swappedBody.validate = .ok () := by decide
  have htracked : ∀ record,
      ((Store.empty false).put "Page" unevenState).record? "Page" = some record →
        record.IsDisjoint := by
    intro record hrecord
    rw [Store.record?_put, if_pos rfl, Option.some.injEq] at hrecord
    exact hrecord ▸ hdisjoint
  have hreconcile : ((Store.empty false).put "Page" unevenState).reconcile "Page" swappedBody =
      .ok (unevenState.classify swappedBody,
        ((Store.empty false).put "Page" unevenState).put "Page"
          (unevenState.withBody swappedBody)) := by
    rfl
  obtain ⟨first, second, hfirst, hsecond, heq, hfunctions, hvars, -⟩ :=
    pass_idempotent.1 unevenState swappedBody hdisjoint hvalid
  obtain ⟨-, hagain⟩ := pass_idempotent.2 _ _ "Page" swappedBody _ htracked hreconcile
  have hstate : first.state = unevenState.withBody swappedBody := by
    rw [EntityState.synchronize_of_nameError? _ (by decide), Except.ok.injEq] at hfirst
    rw [← hfirst]
  refine ⟨hdisjoint, hvalid, ⟨first, second, hfirst, hsecond, heq, hfunctions, ?_⟩, _, _,
    hreconcile, hagain⟩
  rw [hvars, hstate]
  decide

end ScriptStore
