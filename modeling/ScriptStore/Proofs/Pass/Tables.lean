import Mathlib.Data.List.Nodup
import ScriptStore.Proofs.Body.Validity
import ScriptStore.Proofs.Coercion
import ScriptStore.Proofs.Pass.Batch

/-!
# The tables after a pass

What `EntityState.withBody` leaves in each table and in the members, name by name, in terms of the
state before the pass.  The functions and variables afterwards are those of the body, whatever was
there before.  The other tables keep what no declared name touches.
-/

namespace ScriptStore

/-! ## Single batches -/

namespace Record

/-- No name of a record is function and variable at once. -/
def IsDisjoint (record : Record) : Prop :=
  ∀ name, record.hasFunction name = true → record.hasVariable name = false

/-- Paths of declared functions are smart under the names and templates under the data paths. -/
theorem get?_insertAll_functionPaths (m : OrderedMap Substitution) {names : List String}
    (hseg : ∀ name ∈ names, IsSegment name) (path : String) :
    (m.insertAll (functionPaths names)).get? path =
      if path ∈ names then some .smart
      else if path ∈ names.map dataPath then some .template
      else m.get? path := by
  induction names generalizing m with
  | nil => rfl
  | cons name rest ih =>
    have hname : IsSegment name := hseg name List.mem_cons_self
    have hrest : ∀ other ∈ rest, IsSegment other :=
      fun other hother => hseg other (List.mem_cons_of_mem _ hother)
    show (((m.insert name .smart).insert (dataPath name) .template).insertAll
      (functionPaths rest)).get? path = _
    rw [ih _ hrest, OrderedMap.get?_insert, OrderedMap.get?_insert]
    by_cases hmem : path ∈ rest
    · rw [if_pos hmem, if_pos (List.mem_cons_of_mem _ hmem)]
    · rw [if_neg hmem]
      by_cases heq : path = name
      -- a segment is no data path, neither of this function nor of another one
      · subst heq
        have hnone : path ∉ rest.map dataPath := hname.notMem_map_dataPath rest
        rw [if_neg hnone, if_neg (Ne.symm (hname.ne_dataPath path)), if_pos rfl,
          if_pos List.mem_cons_self]
      · have hnot : path ∉ name :: rest := by
          rw [List.mem_cons, not_or]
          exact ⟨heq, hmem⟩
        rw [if_neg hnot, if_neg (Ne.symm heq), List.map_cons]
        by_cases hdata : dataPath name = path
        · have hmap : path ∈ dataPath name :: rest.map dataPath := hdata ▸ List.mem_cons_self
          rw [if_pos hdata, if_pos hmap]
          split <;> rfl
        · rw [if_neg hdata]
          simp only [List.mem_cons, Ne.symm hdata, false_or]

/-- Paths of declared variables are smart under the names. -/
theorem get?_insertAll_variablePaths (m : OrderedMap Substitution) (names : List String)
    (path : String) :
    (m.insertAll (variablePaths names)).get? path =
      if path ∈ names then some .smart else m.get? path := by
  induction names generalizing m with
  | nil => rfl
  | cons name rest ih =>
    show ((m.insert name .smart).insertAll (variablePaths rest)).get? path = _
    rw [ih, OrderedMap.get?_insert]
    by_cases hmem : path ∈ rest
    · rw [if_pos hmem, if_pos (List.mem_cons_of_mem _ hmem)]
    · rw [if_neg hmem]
      by_cases heq : name = path
      · rw [if_pos heq, if_pos (heq ▸ List.mem_cons_self)]
      · have hnot : path ∉ name :: rest := by
          rw [List.mem_cons, not_or]
          exact ⟨Ne.symm heq, hmem⟩
        rw [if_neg heq, if_neg hnot]

end Record

namespace MemberTree

/-- A source is that of a function. -/
theorem source?_eq_some_iff (members : MemberTree) (name source : String) :
    members.source? name = some source ↔
      ∃ data, members.get? name = some (.function source data) := by
  unfold source?
  rcases members.get? name with _ | ⟨old, data⟩ | value <;> simp [Member.source?]

/-- Data are those of a function. -/
theorem data?_eq_some_iff (members : MemberTree) (name : String) (data : Json) :
    members.data? name = some data ↔
      ∃ source, members.get? name = some (.function source data) := by
  unfold data?
  rcases members.get? name with _ | ⟨source, old⟩ | value <;> simp [Member.data?]

/-- A value is that of a variable. -/
theorem value?_eq_some_iff (members : MemberTree) (name : String) (value : Json) :
    members.value? name = some value ↔ members.get? name = some (.var value) := by
  unfold value?
  rcases members.get? name with _ | ⟨source, data⟩ | old <;> simp [Member.value?]

/-- The member of a function after its source is set: data that is there is kept. -/
theorem get?_setSource (members : MemberTree) (name source other : String) :
    (members.setSource name source).get? other =
      if name = other then some (.function source ((members.data? name).getD emptyData))
      else members.get? other := OrderedMap.get?_insert members name other _

/-- Data can be set exactly where a function is, and then only the data is another. -/
theorem setData?_eq_some_iff {members next : MemberTree} {name : String} {data : Json} :
    members.setData? name data = some next ↔
      ∃ source old, members.get? name = some (.function source old) ∧
        next = members.insert name (.function source data) := by
  unfold setData?
  rcases members.get? name with _ | ⟨source, old⟩ | value <;> simp [eq_comm]

/-- Other members keep what they have. -/
theorem get?_setSources_of_notMem (members : MemberTree) {decls : List FunctionDecl}
    {name : String} (h : ∀ decl ∈ decls, decl.name ≠ name) :
    (members.setSources decls).get? name = members.get? name := by
  induction decls generalizing members with
  | nil => rfl
  | cons decl rest ih =>
    rw [List.forall_mem_cons] at h
    rw [setSources_cons, ih _ h.2, get?_setSource, if_neg h.1]

/-- Each of these functions has its source and the data that a function of its name had. -/
theorem get?_setSources_of_mem (members : MemberTree) {decls : List FunctionDecl}
    (hnd : (decls.map (·.name)).Nodup) {decl : FunctionDecl} (hmem : decl ∈ decls) :
    (members.setSources decls).get? decl.name =
      some (.function decl.source ((members.data? decl.name).getD emptyData)) := by
  induction decls generalizing members with
  | nil => cases hmem
  | cons first rest ih =>
    rw [List.map_cons, List.nodup_cons] at hnd
    rw [setSources_cons]
    rcases List.mem_cons.mp hmem with rfl | hrest
    · have hother : ∀ other ∈ rest, other.name ≠ decl.name := by
        intro other hother heq
        exact hnd.1 (heq ▸ List.mem_map_of_mem hother)
      rw [get?_setSources_of_notMem _ hother, get?_setSource, if_pos rfl]
    · have hne : first.name ≠ decl.name := by
        intro heq
        exact hnd.1 (heq ▸ List.mem_map_of_mem hrest)
      rw [ih _ hnd.2 hrest, data?, get?_setSource, if_neg hne, ← data?]

/-- Other members keep what they have. -/
theorem get?_setValues_of_notMem (members : MemberTree) {decls : List VariableDecl}
    {name : String} (h : ∀ decl ∈ decls, decl.name ≠ name) :
    (members.setValues decls).get? name = members.get? name := by
  refine OrderedMap.get?_insertAll_of_notMem members ?_
  rw [Entries.keys, List.map_map, List.mem_map]
  rintro ⟨decl, hdecl, rfl⟩
  exact h decl hdecl rfl

/-- Each of these variables has its value. -/
theorem get?_setValues_of_mem (members : MemberTree) {decls : List VariableDecl}
    (hnd : (decls.map (·.name)).Nodup) {decl : VariableDecl} (hmem : decl ∈ decls) :
    (members.setValues decls).get? decl.name = some (.var decl.value) := by
  have hkeys : (Entries.keys (decls.map fun d => (d.name, Member.var d.value))).Nodup := by
    rw [Entries.keys, List.map_map]
    exact hnd
  rw [setValues, OrderedMap.get?_insertAll _ hkeys,
    Entries.get?_map_of_nodup VariableDecl.name (fun d => Member.var d.value) hnd hmem]
  rfl

end MemberTree

namespace EntityState

variable (state : EntityState) (body : Body)

/-! ## Names before the pass -/

/-- A function of the record is not new. -/
theorem addsFunction_of_mem {decl : FunctionDecl} (h : decl.name ∈ state.record.functions.keys) :
    state.addsFunction decl = false := by
  rw [addsFunction, Record.hasFunction_eq_decide, decide_eq_true h, Bool.not_true]

/-- A function of the record with the declared source is left as it is. -/
theorem setsSource_of_mem {decl : FunctionDecl} (h : decl.name ∈ state.record.functions.keys)
    (hsource : state.members.source? decl.name = some decl.source) :
    state.setsSource decl = false := by
  rw [setsSource, addsFunction_of_mem state h, hsource]
  simp

/-- A variable of the record is not new. -/
theorem addsVariable_of_mem {decl : VariableDecl} (h : decl.name ∈ state.record.vars) :
    state.addsVariable decl = false := by
  rw [addsVariable, (Record.hasVariable_iff _ _).mpr h, Bool.not_true]

/-- The functions that go are those that the body does not have. -/
theorem mem_missingFunctions (name : String) :
    name ∈ state.missingFunctions body ↔
      name ∈ state.record.functions.keys ∧ name ∉ body.functionNames := by
  rw [missingFunctions, List.mem_filter, decide_eq_true_eq]

/-- The variables that go are those that the body does not have. -/
theorem mem_missingVariables (name : String) :
    name ∈ state.missingVariables body ↔
      name ∈ state.record.vars ∧ name ∉ body.variableNames := by
  rw [missingVariables, List.mem_filter, decide_eq_true_eq]

/-- The functions that come are new ones of the body, in its order. -/
theorem addedFunctionNames_eq :
    (state.addedFunctions body).map (·.name) =
      body.functionNames.filter (· ∉ state.record.functions.keys) := by
  rw [addedFunctions, Body.functionNames, List.filter_map]
  congr 1
  refine List.filter_congr (fun decl _ => ?_)
  rw [addsFunction, Record.hasFunction_eq_decide, Function.comp_apply, decide_not]

/-- The variables that come are new ones of the body, in its order. -/
theorem addedVariables_eq :
    state.addedVariables body = body.variableNames.filter (· ∉ state.record.vars) := by
  rw [addedVariables, Body.variableNames, List.filter_map]
  congr 1
  refine List.filter_congr (fun decl _ => ?_)
  simp [addsVariable, Record.hasVariable]

theorem mem_addedFunctionNames (name : String) :
    name ∈ (state.addedFunctions body).map (·.name) ↔
      name ∈ body.functionNames ∧ name ∉ state.record.functions.keys := by
  rw [addedFunctionNames_eq, List.mem_filter, decide_eq_true_eq]

theorem mem_addedVariables (name : String) :
    name ∈ state.addedVariables body ↔
      name ∈ body.variableNames ∧ name ∉ state.record.vars := by
  rw [addedVariables_eq, List.mem_filter, decide_eq_true_eq]

/-! ## Functions -/

/-- The functions after a pass are those of the body. -/
theorem mem_functions_withBody (name : String) :
    name ∈ (state.withBody body).record.functions.keys ↔ name ∈ body.functionNames := by
  have hkeys : Entries.keys ((state.addedFunctions body).map
      fun decl => (decl.name, FunctionMeta.declared decl.arguments)) =
      (state.addedFunctions body).map (·.name) := by
    rw [Entries.keys, List.map_map]
    rfl
  show name ∈ ((state.record.functions.insertAll _).eraseAll _).keys ↔ _
  rw [OrderedMap.mem_keys_eraseAll, OrderedMap.mem_keys_insertAll, hkeys, mem_missingFunctions,
    mem_addedFunctionNames]
  by_cases hbody : name ∈ body.functionNames
  · simp only [hbody, not_true_eq_false, and_false, not_false_eq_true, true_and, and_true, iff_true]
    exact Classical.em _
  · simp only [hbody, not_false_eq_true, and_true, false_and, or_false, iff_false]
    exact fun h => h.2 h.1

/-- A function that is there keeps its metadata. -/
theorem get?_functions_withBody_of_mem {name : String} (hbody : name ∈ body.functionNames)
    (hrecord : name ∈ state.record.functions.keys) :
    (state.withBody body).record.functions.get? name = state.record.functions.get? name := by
  show ((state.record.functions.insertAll _).eraseAll _).get? name = _
  have hmissing : name ∉ state.missingFunctions body := by
    rw [mem_missingFunctions]
    exact fun h => h.2 hbody
  rw [OrderedMap.get?_eraseAll, if_neg hmissing]
  refine OrderedMap.get?_insertAll_of_notMem _ ?_
  rw [Entries.keys, List.map_map]
  intro hadded
  exact ((mem_addedFunctionNames state body name).mp hadded).2 hrecord

variable {body}

/-- A new function has its declared arguments. -/
theorem get?_functions_withBody_of_notMem (h : body.WellNamed) {decl : FunctionDecl}
    (hdecl : decl ∈ body.functions) (hrecord : decl.name ∉ state.record.functions.keys) :
    (state.withBody body).record.functions.get? decl.name =
      some (.declared decl.arguments) := by
  have hbody : decl.name ∈ body.functionNames := List.mem_map_of_mem hdecl
  have hmissing : decl.name ∉ state.missingFunctions body := by
    rw [mem_missingFunctions]
    exact fun hmem => hmem.2 hbody
  have hnd : ((state.addedFunctions body).map (·.name)).Nodup := by
    rw [addedFunctionNames_eq]
    exact h.nodup_functionNames.filter _
  have hadded : decl ∈ state.addedFunctions body := by
    rw [addedFunctions, List.mem_filter]
    refine ⟨hdecl, ?_⟩
    rw [addsFunction, Record.hasFunction_eq_decide, Bool.not_eq_true', decide_eq_false_iff_not]
    exact hrecord
  show ((state.record.functions.insertAll _).eraseAll _).get? decl.name = _
  rw [OrderedMap.get?_eraseAll, if_neg hmissing, OrderedMap.get?_insertAll]
  · rw [Entries.get?_map_of_nodup FunctionDecl.name (fun d => FunctionMeta.declared d.arguments)
      hnd hadded]
    rfl
  · rw [Entries.keys, List.map_map]
    exact hnd

/-! ## Variables -/

variable (body)

/-- The variables after a pass: new ones come last, and those that the body lacks go. -/
theorem vars_withBody :
    (state.withBody body).record.vars =
      Names.removeAll (state.record.vars ++ state.addedVariables body)
        (state.missingVariables body) := rfl

/-- The variables after a pass are those of the body. -/
theorem mem_vars_withBody (name : String) :
    name ∈ (state.withBody body).record.vars ↔ name ∈ body.variableNames := by
  rw [vars_withBody, Names.mem_removeAll, List.mem_append, mem_addedVariables,
    mem_missingVariables]
  by_cases hbody : name ∈ body.variableNames
  · simp only [hbody, not_true_eq_false, and_false, not_false_eq_true, true_and, and_true, iff_true]
    exact Classical.em _
  · simp only [hbody, not_false_eq_true, and_true, false_and, or_false, iff_false]
    exact fun h => h.2 h.1

variable {body}

/-- A pass repeats no variable. -/
theorem nodup_vars_withBody (h : body.WellNamed) (hnd : state.record.vars.Nodup) :
    (state.withBody body).record.vars.Nodup := by
  rw [vars_withBody]
  refine Names.nodup_removeAll ?_ _
  rw [List.nodup_append]
  refine ⟨hnd, ?_, ?_⟩
  · rw [addedVariables_eq]
    exact h.nodup_variableNames.filter _
  · rintro name hname other hother rfl
    exact ((mem_addedVariables state body name).mp hother).2 hname

variable (body)

/-! ## Names that leave the tables -/

/-- The names of variables that leave the tables: a function of the body keeps its own. -/
def droppedVariables : List String :=
  ((state.withFunctions body).record.declareVariables (state.addedVariables body)).unowned
    (state.missingVariables body)

/-- A variable leaves the tables unless a function takes over its name. -/
theorem mem_droppedVariables (name : String) :
    name ∈ state.droppedVariables body ↔
      (name ∈ state.record.vars ∧ name ∉ body.variableNames) ∧ name ∉ body.functionNames := by
  have hfunctions : name ∈ ((state.withFunctions body).record.declareVariables
      (state.addedVariables body)).functions.keys ↔ name ∈ body.functionNames :=
    mem_functions_withBody state body name
  rw [droppedVariables, Record.mem_unowned, mem_missingVariables, hfunctions]

/-! ## Reactive paths -/

/-- The reactive paths after a pass, the last batch first. -/
theorem get?_reactivePaths_withBody {body : Body} (h : body.WellNamed) (path : String) :
    (state.withBody body).record.reactivePaths.get? path =
      if path ∈ state.droppedVariables body then none
      else if path ∈ state.addedVariables body then some .smart
      else if path ∈ state.missingFunctions body ++ (state.missingFunctions body).map dataPath
        then none
      else if path ∈ (state.addedFunctions body).map (·.name) then some .smart
      else if path ∈ ((state.addedFunctions body).map (·.name)).map dataPath then some .template
      else state.record.reactivePaths.get? path := by
  have hseg : ∀ name ∈ (state.addedFunctions body).map (·.name), IsSegment name := by
    intro name hname
    exact h.segment_function ((mem_addedFunctionNames state body name).mp hname).1
  rw [← Record.get?_insertAll_functionPaths _ hseg, ← OrderedMap.get?_eraseAll,
    ← Record.get?_insertAll_variablePaths, ← OrderedMap.get?_eraseAll]
  rfl

/-! ## Binding paths -/

/-- The binding paths after a pass, as the four batches leave them. -/
theorem bindingPaths_withBody :
    (state.withBody body).record.bindingPaths =
      Names.removeAll
        (Names.pushAll
          (Names.removeAll
            (Names.pushAll state.record.bindingPaths ((state.addedFunctions body).map (·.name)))
            (state.missingFunctions body))
          (state.addedVariables body))
        (state.droppedVariables body) := rfl

/-- The bound paths after a pass, the last batch first. -/
theorem mem_bindingPaths_withBody (key : String) :
    key ∈ (state.withBody body).record.bindingPaths ↔
      (((key ∈ state.record.bindingPaths ∨ key ∈ (state.addedFunctions body).map (·.name)) ∧
          key ∉ state.missingFunctions body) ∨ key ∈ state.addedVariables body) ∧
        key ∉ state.droppedVariables body := by
  rw [bindingPaths_withBody, Names.mem_removeAll, Names.mem_pushAll, Names.mem_removeAll,
    Names.mem_pushAll]

/-- A pass repeats no binding path. -/
theorem nodup_bindingPaths_withBody (hnd : state.record.bindingPaths.Nodup) :
    (state.withBody body).record.bindingPaths.Nodup := by
  rw [bindingPaths_withBody]
  refine Names.nodup_removeAll (Names.nodup_pushAll (Names.nodup_removeAll ?_ _) _) _
  exact Names.nodup_pushAll hnd _

/-! ## Dependencies -/

/-- The dependencies after a pass: variables leave them alone. -/
theorem dependencies_withBody :
    (state.withBody body).record.dependencies =
      (state.record.dependencies.pushBodyAll ((state.addedFunctions body).map (·.name))).filterBody
        (· ∉ state.missingFunctions body) := rfl

/-- The list of the body after a pass: new functions come last, and removed ones go. -/
theorem dependencyBody_withBody :
    (state.withBody body).record.dependencies.body =
      Names.removeAll
        (Names.pushAll state.record.dependencies.body ((state.addedFunctions body).map (·.name)))
        (state.missingFunctions body) := by
  rw [dependencies_withBody, DependencyMap.body_filterBody, DependencyMap.body_pushBodyAll]
  rfl

/-- The dependencies of the entity body after a pass. -/
theorem mem_dependencyBody_withBody (name : String) :
    name ∈ (state.withBody body).record.dependencies.body ↔
      (name ∈ state.record.dependencies.body ∨
          name ∈ (state.addedFunctions body).map (·.name)) ∧
        name ∉ state.missingFunctions body := by
  rw [dependencyBody_withBody, Names.mem_removeAll, Names.mem_pushAll]

/-- A pass repeats no dependency of the body. -/
theorem nodup_dependencyBody_withBody (hnd : state.record.dependencies.body.Nodup) :
    (state.withBody body).record.dependencies.body.Nodup := by
  rw [dependencyBody_withBody]
  exact Names.nodup_removeAll (Names.nodup_pushAll hnd _) _

/-- Lists of names other than that of the entity body are left alone, with their order. -/
theorem agreeWhere_dependencies_withBody :
    (state.withBody body).record.dependencies.AgreeWhere (· ≠ DependencyMap.bodyKey)
      state.record.dependencies := by
  rw [dependencies_withBody]
  exact (DependencyMap.agreeWhere_filterBody _ _).trans (DependencyMap.agreeWhere_pushBodyAll _ _)

/-! ## Members -/

/-- The members after a pass: those of the functions first, then those of the variables. -/
theorem members_withBody :
    (state.withBody body).members =
      ((state.withFunctions body).members.setValues (body.vars.filter state.setsValue)).eraseAll
        (state.droppedVariables body) := rfl

/-- Where the body has no function none is left. -/
theorem get?_members_withFunctions_of_notMem {name : String} (hname : name ∉ body.functionNames) :
    (state.withFunctions body).members.get? name =
      if name ∈ state.record.functions.keys then none else state.members.get? name := by
  have hsources : ∀ decl ∈ body.functions.filter state.setsSource, decl.name ≠ name := by
    rintro decl hdecl rfl
    exact hname (List.mem_map_of_mem (List.mem_filter.mp hdecl).1)
  have hmissing : name ∈ state.missingFunctions body ↔ name ∈ state.record.functions.keys := by
    rw [mem_missingFunctions]
    exact and_iff_left hname
  rw [withFunctions, OrderedMap.get?_eraseAll, MemberTree.get?_setSources_of_notMem _ hsources]
  simp only [hmissing]

variable {body}

/-- The member of a function after its source is taken in. -/
theorem get?_members_withFunctions_of_mem (h : body.WellNamed) {decl : FunctionDecl}
    (hdecl : decl ∈ body.functions) :
    (state.withFunctions body).members.get? decl.name =
      some (.function decl.source ((state.members.data? decl.name).getD emptyData)) := by
  have hmissing : decl.name ∉ state.missingFunctions body := by
    rw [mem_missingFunctions]
    exact fun hmem => hmem.2 (List.mem_map_of_mem hdecl)
  rw [withFunctions, OrderedMap.get?_eraseAll, if_neg hmissing]
  by_cases hsets : state.setsSource decl = true
  · have hnd : ((body.functions.filter state.setsSource).map (·.name)).Nodup :=
      h.nodup_functionNames.sublist ((List.filter_sublist).map _)
    exact MemberTree.get?_setSources_of_mem _ hnd (List.mem_filter.mpr ⟨hdecl, hsets⟩)
  -- an unchanged function has the declared source already
  · have hsource : state.members.source? decl.name = some decl.source := by
      simp only [setsSource, Bool.or_eq_true, not_or] at hsets
      simpa using hsets.2
    have hother : ∀ other ∈ body.functions.filter state.setsSource, other.name ≠ decl.name := by
      intro other hother heq
      obtain ⟨hmem, hset⟩ := List.mem_filter.mp hother
      have hsame : other = decl := List.inj_on_of_nodup_map h.nodup_functionNames hmem hdecl heq
      exact hsets (hsame ▸ hset)
    rw [MemberTree.get?_setSources_of_notMem _ hother]
    obtain ⟨data, hget⟩ := (MemberTree.source?_eq_some_iff _ _ _).mp hsource
    have hdata := (MemberTree.data?_eq_some_iff _ _ _).mpr ⟨_, hget⟩
    rw [hget, hdata, Option.getD_some]

/-- The member of a function of the body after a pass. -/
theorem get?_members_withBody_function (h : body.WellNamed) {decl : FunctionDecl}
    (hdecl : decl ∈ body.functions) :
    (state.withBody body).members.get? decl.name =
      some (.function decl.source ((state.members.data? decl.name).getD emptyData)) := by
  have hname : decl.name ∈ body.functionNames := List.mem_map_of_mem hdecl
  have hdropped : decl.name ∉ state.droppedVariables body := by
    rw [mem_droppedVariables]
    exact fun hmem => hmem.2 hname
  have hvalues : ∀ other ∈ body.vars.filter state.setsValue, other.name ≠ decl.name := by
    intro other hother heq
    have hvar : other.name ∈ body.variableNames :=
      List.mem_map_of_mem (List.mem_filter.mp hother).1
    exact h.disjoint hname (heq ▸ hvar)
  rw [members_withBody, OrderedMap.get?_eraseAll, if_neg hdropped,
    MemberTree.get?_setValues_of_notMem _ hvalues, get?_members_withFunctions_of_mem state h hdecl]

/-- The member of a variable of the body after a pass: its value if it is new or has changed, and
what was there otherwise, unless it was dropped as a function. -/
theorem get?_members_withBody_variable (h : body.WellNamed) {decl : VariableDecl}
    (hdecl : decl ∈ body.vars) :
    (state.withBody body).members.get? decl.name =
      if state.setsValue decl then some (.var decl.value)
      else if decl.name ∈ state.record.functions.keys then none
      else state.members.get? decl.name := by
  have hname : decl.name ∈ body.variableNames := List.mem_map_of_mem hdecl
  have hfunction : decl.name ∉ body.functionNames := fun hmem => h.disjoint hmem hname
  have hdropped : decl.name ∉ state.droppedVariables body := by
    rw [mem_droppedVariables]
    exact fun hmem => hmem.1.2 hname
  rw [members_withBody, OrderedMap.get?_eraseAll, if_neg hdropped]
  by_cases hsets : state.setsValue decl = true
  · have hnd : ((body.vars.filter state.setsValue).map (·.name)).Nodup :=
      h.nodup_variableNames.sublist ((List.filter_sublist).map _)
    rw [if_pos hsets,
      MemberTree.get?_setValues_of_mem _ hnd (List.mem_filter.mpr ⟨hdecl, hsets⟩)]
  · have hother : ∀ other ∈ body.vars.filter state.setsValue, other.name ≠ decl.name := by
      intro other hother heq
      obtain ⟨hmem, hset⟩ := List.mem_filter.mp hother
      have hsame : other = decl := List.inj_on_of_nodup_map h.nodup_variableNames hmem hdecl heq
      exact hsets (hsame ▸ hset)
    rw [if_neg hsets, MemberTree.get?_setValues_of_notMem _ hother,
      get?_members_withFunctions_of_notMem state body hfunction]

/-- The value of a variable is left exactly if the record has the variable and its value counts as
unchanged. -/
theorem not_setsValue_iff (decl : VariableDecl) :
    ¬ state.setsValue decl = true ↔ state.record.hasVariable decl.name = true ∧
      Json.changed (state.members.value? decl.name) decl.value = false := by
  simp [setsValue, addsVariable]

/-- Unless a name of the record is function and variable at once, a variable of the body has a
value after a pass.  It is the declared one or counts as unchanged against it, and in the second
case it is true in a condition. -/
theorem value_withBody (hdisjoint : state.record.IsDisjoint) (hbody : body.WellNamed)
    {decl : VariableDecl} (hdecl : decl ∈ body.vars) :
    ∃ value, (state.withBody body).members.get? decl.name = some (.var value) ∧
      Json.changed (some value) decl.value = !value.truthy ∧
      (value.truthy = false → value = decl.value) := by
  have hget := get?_members_withBody_variable state hbody hdecl
  by_cases hsets : state.setsValue decl = true
  -- the declared value is set
  · rw [if_pos hsets] at hget
    exact ⟨decl.value, hget, Json.changed_self decl.value, fun _ => rfl⟩
  -- the value before is left, so it is true in a condition
  · rw [if_neg hsets] at hget
    obtain ⟨hvar, hchanged⟩ := (not_setsValue_iff state decl).mp hsets
    obtain ⟨value, hvalue, htruthy⟩ := Json.truthy_of_not_changed hchanged
    have hfunction : decl.name ∉ state.record.functions.keys := by
      intro hmem
      have hnot := hdisjoint decl.name ((Record.hasFunction_iff _ _).mpr hmem)
      rw [hvar] at hnot
      cases hnot
    have hmember := (MemberTree.value?_eq_some_iff _ _ _).mp hvalue
    rw [if_neg hfunction, hmember] at hget
    refine ⟨value, hget, ?_, ?_⟩
    · rw [← hvalue, hchanged, htruthy]
      rfl
    · intro hfalse
      rw [htruthy] at hfalse
      cases hfalse

/-- A name that the body does not declare has a member after a pass only if it had one that the
record did not declare either. -/
theorem get?_members_withBody_of_notMem {name : String} (hfunction : name ∉ body.functionNames)
    (hvariable : name ∉ body.variableNames) :
    (state.withBody body).members.get? name =
      if name ∈ state.record.functions.keys ∨ name ∈ state.record.vars then none
      else state.members.get? name := by
  have hvalues : ∀ decl ∈ body.vars.filter state.setsValue, decl.name ≠ name := by
    rintro decl hdecl rfl
    exact hvariable (List.mem_map_of_mem (List.mem_filter.mp hdecl).1)
  have hdropped : name ∈ state.droppedVariables body ↔ name ∈ state.record.vars := by
    rw [mem_droppedVariables, and_iff_left hfunction, and_iff_left hvariable]
  rw [members_withBody, OrderedMap.get?_eraseAll, MemberTree.get?_setValues_of_notMem _ hvalues,
    get?_members_withFunctions_of_notMem state body hfunction]
  simp only [hdropped]
  by_cases hvar : name ∈ state.record.vars <;> simp [hvar]

end EntityState

end ScriptStore
