import ScriptStore.Proofs.Pass.Tables

/-!
# The order of the tables after a pass

Additions and removals take turns during a pass, and yet every table ends up in two parts: what
stays of the table, in the order in which it was, and behind it what is new, in the order of the
body (`Record.Follows`).  The binding paths have a third part, as variables are bound after
functions.

Nothing is asked of the state before the pass: names may be repeated, be function and variable at
once or hold separators (`EntityState.tables_after_pass`).
-/

namespace ScriptStore

/-! ## Survivors and newcomers -/

/-- The record comes after another one by a pass of the body: functions of the body that were there
keep their metadata, and each table lists what stays before what is new. -/
structure Record.Follows (next before : Record) (body : Body) : Prop where
  functions : next.functions.keys =
    before.functions.keys.filter (· ∈ body.functionNames) ++
      body.functionNames.filter (· ∉ before.functions.keys)
  vars : next.vars =
    before.vars.filter (· ∈ body.variableNames) ++ body.variableNames.filter (· ∉ before.vars)
  dependencies : next.dependencies.body =
    before.dependencies.body.filter
        (fun name => ¬ (name ∈ before.functions.keys ∧ name ∉ body.functionNames)) ++
      body.functionNames.filter
        (fun name => name ∉ before.functions.keys ∧ name ∉ before.dependencies.body)
  bindingPaths : next.bindingPaths =
    before.bindingPaths.filter
        (fun key => ¬ (key ∈ before.functions.keys ∧ key ∉ body.functionNames) ∧
          ¬ (key ∈ before.vars ∧ key ∉ body.variableNames ∧ key ∉ body.functionNames)) ++
      body.functionNames.filter
        (fun name => name ∉ before.functions.keys ∧ name ∉ before.bindingPaths) ++
      body.variableNames.filter
        (fun name => name ∉ before.vars ∧ (name ∉ before.bindingPaths ∨
          (name ∈ before.functions.keys ∧ name ∉ body.functionNames)))
  kept : ∀ name ∈ before.functions.keys, name ∈ body.functionNames →
    next.functions.get? name = before.functions.get? name
  added : ∀ decl ∈ body.functions, decl.name ∉ before.functions.keys →
    next.functions.get? decl.name = some ⟨decl.arguments, false, false⟩

namespace EntityState

variable (state : EntityState) {body : Body}

/-! ## Functions and variables -/

/-- The functions that stay keep their order, and the new ones follow in the order of the body. -/
theorem keys_functions_withBody (h : body.WellNamed) :
    (state.withBody body).record.functions.keys =
      state.record.functions.keys.filter (· ∈ body.functionNames) ++
        body.functionNames.filter (· ∉ state.record.functions.keys) := by
  have hkeys : Entries.keys ((state.addedFunctions body).map
      fun decl => (decl.name, FunctionMeta.declared decl.arguments)) =
      body.functionNames.filter (· ∉ state.record.functions.keys) := by
    rw [← addedFunctionNames_eq, Entries.keys, List.map_map]
    rfl
  have hnd : (Entries.keys ((state.addedFunctions body).map
      fun decl => (decl.name, FunctionMeta.declared decl.arguments))).Nodup :=
    hkeys ▸ h.nodup_functionNames.filter _
  show ((state.record.functions.insertAll _).eraseAll (state.missingFunctions body)).keys = _
  rw [OrderedMap.keys_eraseAll, OrderedMap.keys_insertAll _ hnd, hkeys, List.filter_append,
    List.filter_filter, List.filter_filter]
  congr 1
  · refine List.filter_congr fun name hname => ?_
    simp [mem_missingFunctions, hname]
  · refine List.filter_congr fun name hname => ?_
    simp [mem_missingFunctions, hname]

/-- The variables that stay keep their order, and the new ones follow in the order of the body. -/
theorem vars_withBody_eq_append :
    (state.withBody body).record.vars =
      state.record.vars.filter (· ∈ body.variableNames) ++
        body.variableNames.filter (· ∉ state.record.vars) := by
  rw [vars_withBody, addedVariables_eq, Names.removeAll, List.filter_append, List.filter_filter]
  congr 1
  · refine List.filter_congr fun name hname => ?_
    simp [mem_missingVariables, hname]
  · refine List.filter_congr fun name hname => ?_
    simp [mem_missingVariables, hname]

/-! ## Dependencies -/

/-- The dependencies of the entity body lose the functions that go and gain those that come, unless
they are listed. -/
theorem dependencyBody_withBody_eq_append (h : body.WellNamed) :
    (state.withBody body).record.dependencies.body =
      state.record.dependencies.body.filter
          (fun name => ¬ (name ∈ state.record.functions.keys ∧ name ∉ body.functionNames)) ++
        body.functionNames.filter
          (fun name => name ∉ state.record.functions.keys ∧
            name ∉ state.record.dependencies.body) := by
  rw [dependencyBody_withBody, addedFunctionNames_eq,
    Names.pushAll_eq_append _ (h.nodup_functionNames.filter _), Names.removeAll,
    List.filter_append, List.filter_filter, List.filter_filter]
  congr 1
  · refine List.filter_congr fun name _ => ?_
    rw [decide_eq_decide, mem_missingFunctions]
  · refine List.filter_congr fun name hname => ?_
    simp [mem_missingFunctions, hname, and_comm]

/-! ## Binding paths -/

/-- The binding paths once the functions of a body are taken in. -/
theorem bindingPaths_withFunctions (h : body.WellNamed) :
    (state.withFunctions body).record.bindingPaths =
      state.record.bindingPaths.filter (· ∉ state.missingFunctions body) ++
        body.functionNames.filter
          (fun name => name ∉ state.record.functions.keys ∧ name ∉ state.record.bindingPaths) := by
  show Names.removeAll (Names.pushAll state.record.bindingPaths
    ((state.addedFunctions body).map (·.name))) (state.missingFunctions body) = _
  rw [addedFunctionNames_eq, Names.pushAll_eq_append _ (h.nodup_functionNames.filter _),
    Names.removeAll, List.filter_append, List.filter_filter, List.filter_filter]
  congr 1
  refine List.filter_congr fun name hname => ?_
  simp [mem_missingFunctions, hname, and_comm]

/-- A variable of the body is unbound before its turn comes exactly if it was so before the pass or
was bound as a function that goes. -/
theorem notMem_bindingPaths_withFunctions_iff (h : body.WellNamed) {name : String}
    (hname : name ∈ body.variableNames) :
    name ∉ (state.withFunctions body).record.bindingPaths ↔
      name ∉ state.record.bindingPaths ∨
        (name ∈ state.record.functions.keys ∧ name ∉ body.functionNames) := by
  have hfunction : name ∉ body.functionNames := fun hmem => h.disjoint hmem hname
  rw [bindingPaths_withFunctions state h, List.mem_append, List.mem_filter, List.mem_filter,
    decide_eq_true_eq, mem_missingFunctions]
  simp only [hfunction, not_false_eq_true, and_true, false_and, or_false]
  rw [not_and_or, not_not]

/-- The binding paths after a pass: those that stay, the new functions and the new variables. -/
theorem bindingPaths_withBody_eq_append (h : body.WellNamed) :
    (state.withBody body).record.bindingPaths =
      state.record.bindingPaths.filter
          (fun key => ¬ (key ∈ state.record.functions.keys ∧ key ∉ body.functionNames) ∧
            ¬ (key ∈ state.record.vars ∧ key ∉ body.variableNames ∧ key ∉ body.functionNames)) ++
        body.functionNames.filter
          (fun name => name ∉ state.record.functions.keys ∧ name ∉ state.record.bindingPaths) ++
        body.variableNames.filter
          (fun name => name ∉ state.record.vars ∧ (name ∉ state.record.bindingPaths ∨
            (name ∈ state.record.functions.keys ∧ name ∉ body.functionNames))) := by
  show Names.removeAll (Names.pushAll (state.withFunctions body).record.bindingPaths
    (state.addedVariables body)) (state.droppedVariables body) = _
  rw [addedVariables_eq, Names.pushAll_eq_append _ (h.nodup_variableNames.filter _),
    Names.removeAll, List.filter_append, List.filter_filter, List.filter_filter]
  congr 1
  · rw [bindingPaths_withFunctions state h, List.filter_append, List.filter_filter,
      List.filter_filter]
    congr 1
    · refine List.filter_congr fun key _ => ?_
      rw [← Bool.decide_and, decide_eq_decide, mem_missingFunctions, mem_droppedVariables,
        and_assoc]
      exact and_comm
    -- no function of the body is dropped as a variable
    · refine List.filter_congr fun name hname => ?_
      simp [mem_droppedVariables, hname]
  · refine List.filter_congr fun name hname => ?_
    have hdropped : name ∉ state.droppedVariables body := by
      rw [mem_droppedVariables]
      exact fun hmem => hmem.1.2 hname
    rw [← Bool.decide_and, ← Bool.decide_and, decide_eq_decide, and_iff_right hdropped,
      notMem_bindingPaths_withFunctions_iff state h hname]
    exact and_comm

/-! ## The main theorem -/

/-- **The order of the tables.**  A pass of an accepted body succeeds over every state.  Functions,
variables, dependencies and binding paths then list what stays, as it was ordered, before what is
new, in the order of the body.  A function that stays keeps its metadata, and a new one has its
declared arguments, is synchronous and runs without confirmation. -/
theorem tables_after_pass (state : EntityState) (body : Body) (hvalid : body.validate = .ok ()) :
    ∃ outcome, state.synchronize body = .ok outcome ∧
      outcome.state.record.Follows state.record body := by
  have h : body.WellNamed := (Body.validate_eq_ok_iff body).mp hvalid
  refine ⟨_, synchronize_of_nameError? state ((Body.nameError?_eq_none_iff body).mpr h), ?_⟩
  exact {
    functions := keys_functions_withBody state h
    vars := vars_withBody_eq_append state
    dependencies := dependencyBody_withBody_eq_append state h
    bindingPaths := bindingPaths_withBody_eq_append state h
    kept := fun name hrecord hbody => get?_functions_withBody_of_mem state body hbody hrecord
    added := fun decl hdecl hrecord => get?_functions_withBody_of_notMem state h hdecl hrecord }

/-- An entity with a name that is function and variable, repeated variables and bindings, a stale
dependency and one on a function that is not declared yet. -/
def tangledState : EntityState :=
  ⟨{ Record.new "Page" with
      vars := ["x", "y", "y", "gone"]
      functions := OrderedMap.ofList
        [("load", ⟨[], true, true⟩), ("x", .declared []), ("old", .declared [])]
      bindingPaths := ["y", "x", "stray", "old", "x", "gone"]
      dependencies := DependencyMap.initial.insert DependencyMap.bodyKey
        ["old", "stale", "load", "new"] }, ∅⟩

/-- A body that adds a function and a variable and makes a function a variable. -/
def untanglingBody : Body :=
  ⟨[⟨"new", "() => 1", [⟨"id", none⟩]⟩, ⟨"load", "() => 2", []⟩],
    [⟨"z", .null⟩, ⟨"y", .null⟩, ⟨"old", .null⟩]⟩

/-- What stays of the tangled entity is listed before what is new. -/
theorem tangledState_tables :
    untanglingBody.validate = .ok () ∧ ∃ outcome,
      tangledState.synchronize untanglingBody = .ok outcome ∧
        outcome.state.record.functions.keys = ["load", "new"] ∧
        outcome.state.record.vars = ["y", "y", "z", "old"] ∧
        outcome.state.record.dependencies.body = ["stale", "load", "new"] ∧
        outcome.state.record.bindingPaths = ["y", "stray", "new", "z", "old"] ∧
        outcome.state.record.functions.get? "load" = some ⟨[], true, true⟩ ∧
        outcome.state.record.functions.get? "new" = some ⟨[⟨"id", none⟩], false, false⟩ := by
  have hvalid : untanglingBody.validate = .ok () := by decide
  obtain ⟨outcome, houtcome, h⟩ := tables_after_pass tangledState untanglingBody hvalid
  have hkept := h.kept "load" (by decide) (by decide)
  have hadded := h.added ⟨"new", "() => 1", [⟨"id", none⟩]⟩ (by decide) (by decide)
  exact ⟨hvalid, outcome, houtcome, h.functions.trans (by decide), h.vars.trans (by decide),
    h.dependencies.trans (by decide), h.bindingPaths.trans (by decide), hkept.trans rfl, hadded⟩

end EntityState

end ScriptStore
