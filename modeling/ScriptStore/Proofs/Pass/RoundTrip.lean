import ScriptStore.Proofs.Pass.Idempotence
import ScriptStore.Proofs.Pass.Rebuild

/-!
# Members that come and go

An entity that is in line with a body may take in a larger body, collect results for the functions
that are new, and go back to the body before.  Afterwards it is exactly the entity that it was: the
members that came have left every table, and no other entry has moved or changed.

Two facts carry this.  What the larger body adds is all that it does: what it writes over other
members is there already (`EntityState.eraseAll_members_withBody`).  And going back is a removal of
what the body lacks and nothing else, as the entity covers the body (`EntityState.Covers.withBody`).
-/

namespace ScriptStore

/-! ## Larger bodies -/

/-- A body has every function of another one with its source and every variable with its value.  As
the names of a valid body are distinct, its other members have names that the other body lacks. -/
structure Body.Extends (larger body : Body) : Prop where
  functions : ∀ decl ∈ body.functions, ∃ other ∈ larger.functions,
    other.name = decl.name ∧ other.source = decl.source
  vars : ∀ decl ∈ body.vars, decl ∈ larger.vars

namespace Body.Extends

variable {larger body : Body}

theorem mem_functionNames (h : larger.Extends body) {name : String}
    (hname : name ∈ body.functionNames) : name ∈ larger.functionNames := by
  obtain ⟨decl, hdecl, rfl⟩ := List.mem_map.mp hname
  obtain ⟨other, hother, heq, -⟩ := h.functions decl hdecl
  exact heq ▸ List.mem_map_of_mem hother

theorem mem_variableNames (h : larger.Extends body) {name : String}
    (hname : name ∈ body.variableNames) : name ∈ larger.variableNames := by
  obtain ⟨decl, hdecl, rfl⟩ := List.mem_map.mp hname
  exact List.mem_map_of_mem (h.vars decl hdecl)

end Body.Extends

/-! ## Removals that undo insertions -/

/-- Sources do not show once the members are removed. -/
theorem MemberTree.eraseAll_setSources (members : MemberTree) {dropped : List String}
    {decls : List FunctionDecl} (h : ∀ decl ∈ decls, decl.name ∈ dropped) :
    (members.setSources decls).eraseAll dropped = members.eraseAll dropped := by
  induction decls generalizing members with
  | nil => rfl
  | cons decl rest ih =>
    rw [List.forall_mem_cons] at h
    rw [setSources_cons, ih _ h.2]
    exact OrderedMap.ext (Entries.eraseAll_insert_of_mem h.1 _ members.entries)

namespace EntityState

variable {state : EntityState}

/-! ## Fresh names -/

/-- A name that an entity does not have and that a new member may get. -/
structure Fresh (state : EntityState) (name : String) : Prop where
  segment : IsSegment name
  notFunction : name ∉ state.record.functions.keys
  notVariable : name ∉ state.record.vars

namespace Fresh

variable {name : String}

theorem notMem_bindingPaths (hname : state.Fresh name) (h : state.Aligned) :
    name ∉ state.record.bindingPaths := by
  rw [h.bindingPaths, not_or]
  exact ⟨hname.notFunction, hname.notVariable⟩

theorem notMem_dependencies (hname : state.Fresh name) (h : state.Aligned) :
    name ∉ state.record.dependencies.body := by
  rw [h.dependencies]
  exact hname.notFunction

theorem notMem_members (hname : state.Fresh name) (h : state.Aligned) :
    name ∉ state.members.keys := by
  rw [← OrderedMap.get?_eq_none_iff]
  exact h.get?_members_eq_none hname.notFunction hname.notVariable

theorem notMem_reactivePaths (hname : state.Fresh name) (h : state.Aligned) :
    name ∉ state.record.reactivePaths.keys := by
  intro hpath
  obtain ⟨kind, hkind⟩ := (OrderedMap.mem_keys_iff _ name).mp hpath
  rcases (h.reactivePaths name kind).mp hkind with ⟨hdeclared, -⟩ | ⟨⟨function, -, heq⟩, -⟩
  · exact hdeclared.elim hname.notFunction hname.notVariable
  · exact hname.segment.ne_dataPath function heq

/-- The data path of a fresh name is fresh too. -/
theorem dataPath_notMem_reactivePaths (hname : state.Fresh name) (h : state.Aligned) :
    dataPath name ∉ state.record.reactivePaths.keys := by
  intro hpath
  obtain ⟨kind, hkind⟩ := (OrderedMap.mem_keys_iff _ (dataPath name)).mp hpath
  rcases (h.reactivePaths (dataPath name) kind).mp hkind with
    ⟨hdeclared, -⟩ | ⟨⟨function, hfunction, heq⟩, -⟩
  · exact (h.segment _ hdeclared).ne_dataPath name rfl
  · rw [dataPath_inj] at heq
    exact hname.notFunction (heq ▸ hfunction)

end Fresh

/-! ## Declared and dropped again -/

section Tables

variable {decls : List FunctionDecl} {added functions vars : List String}

/-- The reactive paths of fresh members go as they came. -/
theorem Aligned.reactivePaths_drop_declare (h : state.Aligned)
    (hfunctions : ∀ name ∈ decls.map (·.name), name ∈ functions)
    (hvars : ∀ name ∈ added, name ∈ vars) (hfresh : ∀ name ∈ functions ++ vars, state.Fresh name) :
    (((state.record.reactivePaths.insertAll (Record.functionPaths (decls.map (·.name)))).insertAll
        (Record.variablePaths added)).eraseAll (functions ++ functions.map dataPath)).eraseAll
          vars = state.record.reactivePaths := by
  have hvariablePaths : ∀ entry ∈ Record.variablePaths added,
      entry.1 ∈ functions ++ functions.map dataPath ++ vars := by
    intro entry hentry
    obtain ⟨name, hname, rfl⟩ := List.mem_map.mp hentry
    exact List.mem_append_right _ (hvars name hname)
  have hfunctionPaths : ∀ entry ∈ Record.functionPaths (decls.map (·.name)),
      entry.1 ∈ functions ++ functions.map dataPath ++ vars := by
    intro entry hentry
    obtain ⟨name, hname, hpath⟩ := List.mem_flatMap.mp hentry
    have hdropped := hfunctions name hname
    refine List.mem_append_left _ ?_
    rcases List.mem_pair.mp hpath with rfl | rfl
    · exact List.mem_append_left _ hdropped
    · exact List.mem_append_right _ ((mem_map_dataPath name functions).mpr hdropped)
  have hkept : ∀ path ∈ state.record.reactivePaths.keys,
      path ∉ functions ++ functions.map dataPath ++ vars := by
    intro path hpath hdropped
    rcases List.mem_append.mp hdropped with hdropped | hvar
    · rcases List.mem_append.mp hdropped with hfunction | hdata
      · exact (hfresh path (List.mem_append_left _ hfunction)).notMem_reactivePaths h hpath
      · obtain ⟨name, hname, rfl⟩ := List.mem_map.mp hdata
        exact (hfresh name (List.mem_append_left _ hname)).dataPath_notMem_reactivePaths h hpath
    · exact (hfresh path (List.mem_append_right _ hvar)).notMem_reactivePaths h hpath
  rw [OrderedMap.eraseAll_eraseAll,
    OrderedMap.eraseAll_insertAll _ (fun entry hentry => Or.inl (hvariablePaths entry hentry)),
    OrderedMap.eraseAll_insertAll _ (fun entry hentry => Or.inl (hfunctionPaths entry hentry)),
    OrderedMap.eraseAll_of_disjoint hkept]

/-- The bindings of fresh members go as they came. -/
theorem Aligned.bindingPaths_drop_declare (h : state.Aligned)
    (hfunctions : ∀ name ∈ decls.map (·.name), name ∈ functions)
    (hvars : ∀ name ∈ added, name ∈ vars) (hfresh : ∀ name ∈ functions ++ vars, state.Fresh name) :
    Names.removeAll (Names.removeAll (Names.pushAll
        (Names.pushAll state.record.bindingPaths (decls.map (·.name))) added) functions) vars =
      state.record.bindingPaths := by
  have hadded : ∀ name ∈ added, name ∈ functions ++ vars :=
    fun name hname => List.mem_append_right _ (hvars name hname)
  have hnames : ∀ name ∈ decls.map (·.name), name ∈ functions ++ vars :=
    fun name hname => List.mem_append_left _ (hfunctions name hname)
  have hkept : ∀ name ∈ state.record.bindingPaths, name ∉ functions ++ vars :=
    fun name hname hdropped => (hfresh name hdropped).notMem_bindingPaths h hname
  rw [Names.removeAll_removeAll, Names.removeAll_pushAll _ hadded, Names.removeAll_pushAll _ hnames,
    Names.removeAll_of_disjoint hkept]

/-- The dependencies of fresh functions go as they came. -/
theorem Aligned.dependencies_drop_declare (h : state.Aligned)
    (hfunctions : ∀ name ∈ decls.map (·.name), name ∈ functions)
    (hfresh : ∀ name ∈ functions, state.Fresh name) :
    (state.record.dependencies.pushBodyAll (decls.map (·.name))).filterBody (· ∉ functions) =
      state.record.dependencies := by
  have hkey : DependencyMap.bodyKey ∈ state.record.dependencies.keys := by
    rw [h.dependencyKeys]
    exact List.mem_cons_self
  have hdropped : ∀ name ∈ decls.map (·.name), decide (name ∉ functions) = false := by
    intro name hname
    simpa using hfunctions name hname
  have hkept : ∀ name ∈ state.record.dependencies.body, decide (name ∉ functions) = true := by
    intro name hname
    rw [decide_eq_true_eq]
    exact fun hmem => (hfresh name hmem).notMem_dependencies h hname
  rw [DependencyMap.filterBody_pushBodyAll hkey hdropped, DependencyMap.filterBody_of_forall hkept]

/-- The metadata of fresh functions go as they came. -/
theorem functions_drop_declare (hfunctions : ∀ name ∈ decls.map (·.name), name ∈ functions)
    (hfresh : ∀ name ∈ functions, state.Fresh name) :
    (state.record.functions.insertAll
      (decls.map fun decl => (decl.name, FunctionMeta.declared decl.arguments))).eraseAll
        functions = state.record.functions := by
  have hadded : ∀ entry ∈ decls.map fun decl =>
      (decl.name, FunctionMeta.declared decl.arguments), entry.1 ∈ functions := by
    intro entry hentry
    obtain ⟨decl, hdecl, rfl⟩ := List.mem_map.mp hentry
    exact hfunctions decl.name (List.mem_map_of_mem hdecl)
  rw [OrderedMap.eraseAll_insertAll _ (fun entry hentry => Or.inl (hadded entry hentry)),
    OrderedMap.eraseAll_of_disjoint fun name hname hmem => (hfresh name hmem).notFunction hname]

/-- Fresh variables go as they came. -/
theorem vars_drop_declare (hvars : ∀ name ∈ added, name ∈ vars)
    (hfresh : ∀ name ∈ vars, state.Fresh name) :
    Names.removeAll (state.record.vars ++ added) vars = state.record.vars := by
  have hkept : ∀ name ∈ state.record.vars, name ∉ vars :=
    fun name hname hmem => (hfresh name hmem).notVariable hname
  have hgone : Names.removeAll added vars = [] := by
    rw [Names.removeAll, List.filter_eq_nil_iff]
    intro name hname
    simpa using hvars name hname
  rw [Names.removeAll, List.filter_append, ← Names.removeAll, ← Names.removeAll, hgone,
    Names.removeAll_of_disjoint hkept, List.append_nil]

/-- **Tables**: members that an aligned entity does not have can be declared and dropped again. -/
theorem Aligned.drop_declare (h : state.Aligned)
    (hfunctions : ∀ name ∈ decls.map (·.name), name ∈ functions)
    (hvars : ∀ name ∈ added, name ∈ vars) (hfresh : ∀ name ∈ functions ++ vars, state.Fresh name) :
    (((state.record.declareFunctions decls).declareVariables added).dropFunctions
      functions).dropVariables vars = state.record := by
  have hfreshFunctions : ∀ name ∈ functions, state.Fresh name :=
    fun name hname => hfresh name (List.mem_append_left _ hname)
  have hfreshVars : ∀ name ∈ vars, state.Fresh name :=
    fun name hname => hfresh name (List.mem_append_right _ hname)
  have hmeta := functions_drop_declare hfunctions hfreshFunctions
  -- none of the variables that go is a function, so their paths and bindings go too
  have hunowned : (((state.record.declareFunctions decls).declareVariables added).dropFunctions
      functions).unowned vars = vars := by
    rw [Record.unowned, List.filter_eq_self]
    intro name hname
    have hnone := (hfreshVars name hname).notFunction
    rw [Record.hasFunction_eq_decide, Bool.not_eq_true', decide_eq_false_iff_not]
    exact fun hmem => hnone (hmeta ▸ hmem)
  unfold Record.dropVariables
  rw [hunowned]
  show Record.mk _ _ _ _ _ _ = Record.mk _ _ _ _ _ _
  rw [Record.mk.injEq]
  exact ⟨rfl, vars_drop_declare hvars hfreshVars, hmeta,
    h.reactivePaths_drop_declare hfunctions hvars hfresh,
    h.bindingPaths_drop_declare hfunctions hvars hfresh,
    h.dependencies_drop_declare hfunctions hfreshFunctions⟩

end Tables

/-! ## Taking in a larger body -/

section Larger

variable {body larger : Body}

/-- An entity that is in line with a body drops nothing for a larger one. -/
theorem InLine.missing_of_extends (hin : state.InLine body) (hext : larger.Extends body) :
    state.missingFunctions larger = [] ∧ state.missingVariables larger = [] := by
  constructor
  · rw [EntityState.missingFunctions, List.filter_eq_nil_iff]
    intro name hname
    have hmem := hext.mem_functionNames ((hin.functions name).mp hname)
    simpa using hmem
  · rw [EntityState.missingVariables, List.filter_eq_nil_iff]
    intro name hname
    have hmem := hext.mem_variableNames ((hin.vars name).mp hname)
    simpa using hmem

/-- The tables after a larger body: what is new is declared, and nothing else is done. -/
theorem InLine.record_withBody_of_extends (hin : state.InLine body) (hext : larger.Extends body) :
    (state.withBody larger).record =
      (state.record.declareFunctions (state.addedFunctions larger)).declareVariables
        (state.addedVariables larger) := by
  obtain ⟨hfunctions, hvars⟩ := hin.missing_of_extends hext
  unfold EntityState.withBody withFunctions
  dsimp only
  rw [hfunctions, hvars, Record.dropFunctions_nil, Record.dropVariables_nil]

/-- The members after a larger body. -/
theorem InLine.members_withBody_of_extends (hin : state.InLine body) (hext : larger.Extends body) :
    (state.withBody larger).members =
      (state.members.setSources (larger.functions.filter state.setsSource)).setValues
        (larger.vars.filter state.setsValue) := by
  obtain ⟨hfunctions, hvars⟩ := hin.missing_of_extends hext
  unfold EntityState.withBody withFunctions
  dsimp only
  rw [hfunctions, hvars, Record.unowned_nil, OrderedMap.eraseAll_nil, OrderedMap.eraseAll_nil]

/-- The functions whose source is set are new: those of the body before have their source. -/
theorem InLine.mem_addedFunctions_of_setsSource (hin : state.InLine body)
    (hext : larger.Extends body) (hlarger : larger.WellNamed) {decl : FunctionDecl}
    (hdecl : decl ∈ larger.functions) (hsets : state.setsSource decl = true) :
    decl.name ∉ state.record.functions.keys := by
  intro hname
  obtain ⟨before, hbefore, heq⟩ := List.mem_map.mp ((hin.functions decl.name).mp hname)
  obtain ⟨other, hother, hotherName, hotherSource⟩ := hext.functions before hbefore
  have hsame : other = decl :=
    List.inj_on_of_nodup_map hlarger.nodup_functionNames hother hdecl (hotherName.trans heq)
  have hsource : state.members.source? decl.name = some decl.source := by
    rw [← hsame, hotherName, hotherSource]
    exact hin.source before hbefore
  rw [setsSource_of_mem state hname hsource] at hsets
  cases hsets

/-- The variables whose value is set are new or have this value: those of the body before are
declared with the same value. -/
theorem InLine.get?_of_setsValue_of_extends (hin : state.InLine body) (hext : larger.Extends body)
    (hlarger : larger.WellNamed) {decl : VariableDecl} (hdecl : decl ∈ larger.vars)
    (hsets : state.setsValue decl = true) :
    decl.name ∉ state.record.vars ∨ state.members.get? decl.name = some (.var decl.value) := by
  by_cases hname : decl.name ∈ state.record.vars
  · obtain ⟨before, hbefore, heq⟩ := List.mem_map.mp ((hin.vars decl.name).mp hname)
    have hsame : before = decl :=
      List.inj_on_of_nodup_map hlarger.nodup_variableNames (hext.vars before hbefore) hdecl heq
    exact Or.inr (hin.get?_of_setsValue (hsame ▸ hbefore) hsets)
  · exact Or.inl hname

/-- **What a larger body adds is all that it does**: without the members that are new, the members
are those before. -/
theorem eraseAll_members_withBody (hin : state.InLine body) (hext : larger.Extends body)
    (hlarger : larger.WellNamed) {dropped : List String}
    (hfunctions : ∀ name ∈ larger.functionNames, name ∉ state.record.functions.keys →
      name ∈ dropped)
    (hvars : ∀ name ∈ larger.variableNames, name ∉ state.record.vars → name ∈ dropped) :
    (state.withBody larger).members.eraseAll dropped = state.members.eraseAll dropped := by
  have hsources : ∀ decl ∈ larger.functions.filter state.setsSource, decl.name ∈ dropped := by
    intro decl hdecl
    obtain ⟨hmem, hsets⟩ := List.mem_filter.mp hdecl
    exact hfunctions decl.name (List.mem_map_of_mem hmem)
      (hin.mem_addedFunctions_of_setsSource hext hlarger hmem hsets)
  have hvalues : ∀ entry ∈ (larger.vars.filter state.setsValue).map
        fun decl => (decl.name, Member.var decl.value),
      entry.1 ∈ dropped ∨ (state.members.setSources
        (larger.functions.filter state.setsSource)).get? entry.1 = some entry.2 := by
    intro entry hentry
    obtain ⟨decl, hdecl, rfl⟩ := List.mem_map.mp hentry
    obtain ⟨hmem, hsets⟩ := List.mem_filter.mp hdecl
    have hname : decl.name ∈ larger.variableNames := List.mem_map_of_mem hmem
    rcases hin.get?_of_setsValue_of_extends hext hlarger hmem hsets with hnew | hsame
    · exact Or.inl (hvars decl.name hname hnew)
    · have hother : ∀ function ∈ larger.functions.filter state.setsSource,
          function.name ≠ decl.name := by
        intro function hfunction heq
        have hdeclared : function.name ∈ larger.functionNames :=
          List.mem_map_of_mem (List.mem_filter.mp hfunction).1
        exact hlarger.disjoint hdeclared (heq ▸ hname)
      right
      rw [MemberTree.get?_setSources_of_notMem _ hother]
      exact hsame
  rw [hin.members_withBody_of_extends hext, MemberTree.setValues,
    OrderedMap.eraseAll_insertAll _ hvalues, MemberTree.eraseAll_setSources _ hsources]

end Larger

/-! ## Results of new functions -/

/-- The events in which these functions get these data. -/
def Event.dataAll (results : List (String × Json)) : List Event :=
  results.map fun result => .data result.1 result.2

/-- A result leaves the record, and the members without the function that it is for. -/
theorem Aligned.after_data (h : state.Aligned) {function : String} (value : Json)
    {dropped : List String}
    (hdropped : function ∈ state.record.functions.keys → function ∈ dropped) :
    (state.after (.data function value)).record = state.record ∧
      (state.after (.data function value)).members.eraseAll dropped =
        state.members.eraseAll dropped := by
  rw [after]
  cases hset : state.members.setData? function value with
  | none => exact ⟨rfl, rfl⟩
  | some members =>
    obtain ⟨source, old, hmember, rfl⟩ := MemberTree.setData?_eq_some_iff.mp hset
    have hfunction := (h.functionMembers function).mp ⟨source, old, hmember⟩
    exact ⟨rfl, OrderedMap.ext
      (Entries.eraseAll_insert_of_mem (hdropped hfunction) _ state.members.entries)⟩

/-- The run: results leave the record, and the members without the functions that they are for. -/
theorem Aligned.afterAll_data (h : state.Aligned) {results : List (String × Json)}
    {dropped : List String} (hdropped : ∀ result ∈ results,
      result.1 ∈ state.record.functions.keys → result.1 ∈ dropped) :
    (state.afterAll (Event.dataAll results)).record = state.record ∧
      (state.afterAll (Event.dataAll results)).members.eraseAll dropped =
        state.members.eraseAll dropped := by
  induction results generalizing state with
  | nil => exact ⟨rfl, rfl⟩
  | cons result rest ih =>
    rw [List.forall_mem_cons] at hdropped
    obtain ⟨hrecord, hmembers⟩ := h.after_data result.2 hdropped.1
    have hnext := aligned_after h (.data result.1 result.2)
    have hrest := ih hnext (fun other hother => by
      rw [hrecord]
      exact hdropped.2 other hother)
    exact ⟨hrest.1.trans hrecord, hrest.2.trans hmembers⟩

/-! ## Going back -/

section Covers

variable {body : Body}

/-- An entity covers a body: it declares all that the body does, and what the body would set is
there already. -/
structure Covers (state : EntityState) (body : Body) : Prop where
  functions : ∀ name ∈ body.functionNames, name ∈ state.record.functions.keys
  vars : ∀ name ∈ body.variableNames, name ∈ state.record.vars
  source : ∀ decl ∈ body.functions, state.members.source? decl.name = some decl.source
  value : ∀ decl ∈ body.vars, state.setsValue decl = true →
    state.members.get? decl.name = some (.var decl.value)
  disjoint : ∀ name ∈ state.record.functions.keys, name ∉ state.record.vars

namespace Covers

theorem addedFunctions (h : state.Covers body) : state.addedFunctions body = [] := by
  rw [EntityState.addedFunctions, List.filter_eq_nil_iff]
  intro decl hdecl
  have hname := h.functions decl.name (List.mem_map_of_mem hdecl)
  rw [addsFunction_of_mem state hname]
  exact Bool.false_ne_true

theorem addedVariables (h : state.Covers body) : state.addedVariables body = [] := by
  rw [addedVariables_eq, List.filter_eq_nil_iff]
  intro name hname
  simpa using h.vars name hname

theorem setsSource (h : state.Covers body) : body.functions.filter state.setsSource = [] := by
  rw [List.filter_eq_nil_iff]
  intro decl hdecl
  have hname := h.functions decl.name (List.mem_map_of_mem hdecl)
  rw [setsSource_of_mem state hname (h.source decl hdecl)]
  exact Bool.false_ne_true

/-- **Going back** drops what the body lacks, and does nothing else. -/
theorem withBody (h : state.Covers body) :
    state.withBody body =
      ⟨(state.record.dropFunctions (state.missingFunctions body)).dropVariables
          (state.missingVariables body),
        state.members.eraseAll
          (state.missingFunctions body ++ state.missingVariables body)⟩ := by
  have hfunctions : state.withFunctions body =
      ⟨state.record.dropFunctions (state.missingFunctions body),
        state.members.eraseAll (state.missingFunctions body)⟩ := by
    rw [withFunctions, h.addedFunctions, h.setsSource, Record.declareFunctions_nil,
      MemberTree.setSources_nil]
  have hvalues : MemberTree.setValues (state.members.eraseAll (state.missingFunctions body))
      (body.vars.filter state.setsValue) =
      state.members.eraseAll (state.missingFunctions body) := by
    refine OrderedMap.insertAll_of_get? (fun entry hentry => ?_)
    obtain ⟨decl, hdecl, rfl⟩ := List.mem_map.mp hentry
    obtain ⟨hmem, hsets⟩ := List.mem_filter.mp hdecl
    have hvar := h.vars decl.name (List.mem_map_of_mem hmem)
    have hnone : decl.name ∉ state.missingFunctions body := by
      rw [mem_missingFunctions]
      exact fun hmissing => h.disjoint decl.name hmissing.1 hvar
    rw [OrderedMap.get?_eraseAll, if_neg hnone]
    exact h.value decl hmem hsets
  -- a variable that goes is no function, so its entries go with it
  have hunowned : (state.record.dropFunctions (state.missingFunctions body)).unowned
      (state.missingVariables body) = state.missingVariables body := by
    rw [Record.unowned, List.filter_eq_self]
    intro name hname
    have hvar := ((mem_missingVariables state body name).mp hname).1
    rw [Record.hasFunction_eq_decide, Bool.not_eq_true', decide_eq_false_iff_not]
    intro hmem
    exact h.disjoint name ((OrderedMap.mem_keys_eraseAll _ _ _).mp hmem).1 hvar
  unfold EntityState.withBody
  rw [hfunctions, h.addedVariables, Record.declareVariables_nil]
  dsimp only
  rw [hvalues, hunowned, OrderedMap.eraseAll_eraseAll]

end Covers

end Covers

/-! ## There and back -/

section RoundTrip

variable {body larger : Body} {results : List (String × Json)}

/-- What goes when an entity that took in a larger body goes back is fresh to the entity before. -/
theorem InLine.fresh_of_missing (hin : state.InLine body) (hext : larger.Extends body)
    (hlarger : larger.WellNamed) {name : String}
    (hname : name ∈ (state.withBody larger).missingFunctions body ++
      (state.withBody larger).missingVariables body) : state.Fresh name := by
  rcases List.mem_append.mp hname with hmissing | hmissing
  · rw [mem_missingFunctions, mem_functions_withBody] at hmissing
    obtain ⟨hfunction, hnone⟩ := hmissing
    refine ⟨hlarger.segment_function hfunction, mt (hin.functions name).mp hnone, fun hvar => ?_⟩
    exact hlarger.disjoint hfunction (hext.mem_variableNames ((hin.vars name).mp hvar))
  · rw [mem_missingVariables, mem_vars_withBody] at hmissing
    obtain ⟨hvar, hnone⟩ := hmissing
    refine ⟨hlarger.segment_variable hvar, fun hfunction => ?_, mt (hin.vars name).mp hnone⟩
    exact hlarger.disjoint (hext.mem_functionNames ((hin.functions name).mp hfunction)) hvar

/-- A state with the tables after the larger body and, but for what goes, the members before it
covers the body. -/
theorem InLine.covers_of_eraseAll (hin : state.InLine body) (hext : larger.Extends body)
    (hlarger : larger.WellNamed) {grown : EntityState}
    (hrecord : grown.record = (state.withBody larger).record)
    (hmembers : grown.members.eraseAll ((state.withBody larger).missingFunctions body ++
      (state.withBody larger).missingVariables body) = state.members) :
    grown.Covers body := by
  -- only fresh names go again, so all other members are those from before
  have hget : ∀ name, ¬ state.Fresh name → grown.members.get? name = state.members.get? name := by
    intro name hfresh
    have hnone := mt (hin.fresh_of_missing hext hlarger) hfresh
    rw [← hmembers, OrderedMap.get?_eraseAll, if_neg hnone]
  have hvars : ∀ name ∈ body.variableNames, name ∈ grown.record.vars := by
    intro name hname
    rw [hrecord, mem_vars_withBody]
    exact hext.mem_variableNames hname
  refine {
    functions := fun name hname => ?_
    vars := hvars
    source := fun decl hdecl => ?_
    value := fun decl hdecl hsets => ?_
    disjoint := fun name hfunction hvar => ?_ }
  · rw [hrecord, mem_functions_withBody]
    exact hext.mem_functionNames hname
  · have hname := (hin.functions decl.name).mpr (List.mem_map_of_mem hdecl)
    rw [MemberTree.source?, hget decl.name fun hfresh => hfresh.notFunction hname]
    exact hin.source decl hdecl
  · have hname := List.mem_map_of_mem (f := VariableDecl.name) hdecl
    have hmember := hget decl.name fun hfresh => hfresh.notVariable ((hin.vars decl.name).mpr hname)
    have hadds := addsVariable_of_mem grown (hvars decl.name hname)
    rw [setsValue, hadds, Bool.false_or, MemberTree.value?, hmember] at hsets
    have hbefore : state.setsValue decl = true := by
      rw [setsValue, Bool.or_eq_true]
      exact Or.inr hsets
    rw [hmember]
    exact hin.get?_of_setsValue hdecl hbefore
  · rw [hrecord, mem_functions_withBody] at hfunction
    rw [hrecord, mem_vars_withBody] at hvar
    exact hlarger.disjoint hfunction hvar

/-- A function that the larger body brings is missing in the body. -/
theorem InLine.mem_missingFunctions_of_new (hin : state.InLine body) {name : String}
    (hname : name ∈ larger.functionNames) (hnew : name ∉ state.record.functions.keys) :
    name ∈ (state.withBody larger).missingFunctions body := by
  rw [mem_missingFunctions, mem_functions_withBody]
  exact ⟨hname, mt (hin.functions name).mpr hnew⟩

/-- A variable that the larger body brings is missing in the body. -/
theorem InLine.mem_missingVariables_of_new (hin : state.InLine body) {name : String}
    (hname : name ∈ larger.variableNames) (hnew : name ∉ state.record.vars) :
    name ∈ (state.withBody larger).missingVariables body := by
  rw [mem_missingVariables, mem_vars_withBody]
  exact ⟨hname, mt (hin.vars name).mpr hnew⟩

/-- Without what goes on the way back, the members after the larger body are those before it. -/
theorem members_eraseAll_missing (h : state.Aligned) (hin : state.InLine body)
    (hext : larger.Extends body) (hlarger : larger.WellNamed) :
    (state.withBody larger).members.eraseAll ((state.withBody larger).missingFunctions body ++
      (state.withBody larger).missingVariables body) = state.members := by
  rw [eraseAll_members_withBody hin hext hlarger
    (fun _ hname hnew => List.mem_append_left _ (hin.mem_missingFunctions_of_new hname hnew))
    (fun _ hname hnew => List.mem_append_right _ (hin.mem_missingVariables_of_new hname hnew))]
  refine OrderedMap.eraseAll_of_disjoint fun name hname hmem => ?_
  exact (hin.fresh_of_missing hext hlarger hmem).notMem_members h hname

/-- Without what goes on the way back, the tables after the larger body are those before it. -/
theorem record_drop_missing (h : state.Aligned) (hin : state.InLine body)
    (hext : larger.Extends body) (hlarger : larger.WellNamed) :
    ((state.withBody larger).record.dropFunctions
      ((state.withBody larger).missingFunctions body)).dropVariables
        ((state.withBody larger).missingVariables body) = state.record := by
  have hdeclared : ∀ name ∈ (state.addedFunctions larger).map (·.name),
      name ∈ (state.withBody larger).missingFunctions body := by
    intro name hname
    obtain ⟨hmem, hnew⟩ := (mem_addedFunctionNames state larger name).mp hname
    exact hin.mem_missingFunctions_of_new hmem hnew
  have hgiven : ∀ name ∈ state.addedVariables larger,
      name ∈ (state.withBody larger).missingVariables body := by
    intro name hname
    obtain ⟨hmem, hnew⟩ := (mem_addedVariables state larger name).mp hname
    exact hin.mem_missingVariables_of_new hmem hnew
  have htables := h.drop_declare hdeclared hgiven
    fun name hname => hin.fresh_of_missing hext hlarger hname
  rwa [← hin.record_withBody_of_extends hext] at htables

/-- **The round trip**: an aligned entity that is in line with a body is again what it was after a
larger body, results of functions that the body lacks, and the body itself. -/
theorem withBody_after_extends (h : state.Aligned) (hin : state.InLine body)
    (hext : larger.Extends body) (hlarger : larger.WellNamed)
    (hresults : ∀ result ∈ results, result.1 ∉ body.functionNames) :
    ((state.withBody larger).afterAll (Event.dataAll results)).withBody body = state := by
  -- the results are of functions that go on the way back
  have hdropped : ∀ result ∈ results, result.1 ∈ (state.withBody larger).record.functions.keys →
      result.1 ∈ (state.withBody larger).missingFunctions body ++
        (state.withBody larger).missingVariables body := by
    intro result hresult hmem
    rw [List.mem_append, mem_missingFunctions]
    exact Or.inl ⟨hmem, hresults result hresult⟩
  obtain ⟨hrecord, hmembers⟩ := (h.withBody hlarger).afterAll_data hdropped
  rw [members_eraseAll_missing h hin hext hlarger] at hmembers
  have hcovers := hin.covers_of_eraseAll hext hlarger hrecord hmembers
  generalize (state.withBody larger).afterAll (Event.dataAll results) = grown at *
  have hmissingFunctions : grown.missingFunctions body =
      (state.withBody larger).missingFunctions body := by
    rw [missingFunctions, missingFunctions, hrecord]
  have hmissingVariables : grown.missingVariables body =
      (state.withBody larger).missingVariables body := by
    rw [missingVariables, missingVariables, hrecord]
  rw [hcovers.withBody, hmissingFunctions, hmissingVariables, hmembers, hrecord,
    record_drop_missing h hin hext hlarger]

end RoundTrip

/-! ## The main theorem -/

/-- **Members that come and go leave no trace.**  Let an entity have gone through any history, and
then take in a valid body, a valid larger body, and, after any results for functions that the first
body lacks, the first body again.  All three passes succeed, and the last one leaves exactly the
state that the first one left, the order of all entries and all data included. -/
theorem larger_body_leaves_no_trace (entity : String) (history : List Event) (body larger : Body)
    (hbody : body.validate = .ok ()) (hlarger : larger.validate = .ok ())
    (hext : larger.Extends body) (results : List (String × Json))
    (hresults : ∀ result ∈ results, result.1 ∉ body.functionNames) :
    ∃ base grown last,
      ((EntityState.new entity).afterAll history).synchronize body = .ok base ∧
      base.state.synchronize larger = .ok grown ∧
      (grown.state.afterAll (Event.dataAll results)).synchronize body = .ok last ∧
      last.state = base.state := by
  have hnamed : body.WellNamed := (Body.validate_eq_ok_iff body).mp hbody
  have hnamed' : larger.WellNamed := (Body.validate_eq_ok_iff larger).mp hlarger
  have herror := (Body.nameError?_eq_none_iff body).mpr hnamed
  have herror' := (Body.nameError?_eq_none_iff larger).mpr hnamed'
  have hstart := aligned_afterAll (Aligned.new entity) history
  refine ⟨_, _, _, synchronize_of_nameError? _ herror, synchronize_of_nameError? _ herror',
    synchronize_of_nameError? _ herror, ?_⟩
  exact withBody_after_extends (hstart.withBody hnamed) (inLine_withBody hstart.isDisjoint hnamed)
    hext hnamed' hresults

/-- A history that leaves data of a function. -/
def startedHistory : List Event :=
  [.pass ⟨[⟨"run", "() => 1", []⟩], []⟩, .data "run" (.str "done")]

/-- A body with an edited function, a variable that is false in a condition and one that is true. -/
def smallerBody : Body :=
  ⟨[⟨"run", "() => 2", []⟩], [⟨"label", .str ""⟩, ⟨"count", .bool true⟩]⟩

/-- The same members in another order, with a function before them and a variable between them. -/
def largerBody : Body :=
  ⟨[⟨"load", "id => 3", [⟨"id", none⟩]⟩, ⟨"run", "() => 2", []⟩],
    [⟨"count", .bool true⟩, ⟨"limit", .null⟩, ⟨"label", .str ""⟩]⟩

/-- The function that came has got its data, and after the smaller body no trace of it is left. -/
theorem largerBody_leaves_no_trace :
    smallerBody.validate = .ok () ∧ largerBody.validate = .ok () ∧
      largerBody.Extends smallerBody ∧ ∃ base grown last,
        ((EntityState.new "Page").afterAll startedHistory).synchronize smallerBody = .ok base ∧
        base.state.synchronize largerBody = .ok grown ∧
        (grown.state.afterAll (Event.dataAll [("load", .bool true)])).synchronize smallerBody =
          .ok last ∧
        (grown.state.afterAll (Event.dataAll [("load", .bool true)])).members.get? "load" =
          some (.function "id => 3" (.bool true)) ∧
        base.state.members.get? "run" = some (.function "() => 2" (.str "done")) ∧
        last.state = base.state := by
  have hsmaller : smallerBody.validate = .ok () := by decide
  have hlarger : largerBody.validate = .ok () := by decide
  have hext : largerBody.Extends smallerBody := ⟨by decide, by decide⟩
  obtain ⟨base, grown, last, hbase, hgrown, hlast, heq⟩ :=
    larger_body_leaves_no_trace "Page" startedHistory smallerBody largerBody hsmaller hlarger hext
      [("load", .bool true)] (by decide)
  have hbaseState : base.state =
      ((EntityState.new "Page").afterAll startedHistory).withBody smallerBody := by
    rw [synchronize_of_nameError? _ (by decide), Except.ok.injEq] at hbase
    rw [← hbase]
  have hgrownState : grown.state = base.state.withBody largerBody := by
    rw [synchronize_of_nameError? _ (by decide), Except.ok.injEq] at hgrown
    rw [← hgrown]
  refine ⟨hsmaller, hlarger, hext, base, grown, last, hbase, hgrown, hlast, ?_, ?_, heq⟩
  · rw [hgrownState, hbaseState]
    decide
  · rw [hbaseState]
    decide

end EntityState

end ScriptStore
