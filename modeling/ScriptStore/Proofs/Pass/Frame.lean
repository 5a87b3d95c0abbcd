import ScriptStore.Proofs.Consistency.Damage
import ScriptStore.Proofs.Pass.Changes
import ScriptStore.Proofs.Pass.Clearing

/-!
# What a pass leaves alone

A pass deletes paths by computed keys and filters whole lists, so it has to be shown that nothing
of anybody else goes with them.  The frame of a pass is a pair of tests, one for names and one for
paths: whatever members come and go, a record keeps all entries that pass the tests, in their order,
as long as no member that moves passes them (`EntityState.agreeUnder_withBody`).

Two frames are of interest.  Names that neither the record nor the body declares are foreign, and
their entries and members survive every pass.  Members that stay keep their entries in all tables,
provided that no name holds the separator of paths or is function and variable at once.
-/

namespace ScriptStore

/-! ## Frames -/

/-- Two records have the same entries, in the same order, under the names and under the paths that
pass a test. -/
structure Record.AgreeUnder (names paths : String → Bool) (next before : Record) : Prop where
  vars : next.vars.filter names = before.vars.filter names
  functions : next.functions.AgreeWhere names before.functions
  reactivePaths : next.reactivePaths.AgreeWhere paths before.reactivePaths
  bindingPaths : next.bindingPaths.filter names = before.bindingPaths.filter names
  dependencies : next.dependencies.body.filter names = before.dependencies.body.filter names

/-! ### Batches of members

Each batch of a pass leaves alone what passes the tests, if none of its members does. -/

namespace Record.AgreeUnder

variable {names paths : String → Bool} {next before : Record}

/-- Every record agrees with itself. -/
theorem refl (names paths : String → Bool) (record : Record) :
    record.AgreeUnder names paths record :=
  ⟨rfl, rfl, rfl, rfl, rfl⟩

/-- Functions that are declared elsewhere do not show. -/
protected theorem declareFunctions (h : next.AgreeUnder names paths before)
    {decls : List FunctionDecl} (hdecls : ∀ name ∈ decls.map (·.name),
      names name = false ∧ paths name = false ∧ paths (dataPath name) = false) :
    (next.declareFunctions decls).AgreeUnder names paths before where
  vars := h.vars
  functions := by
    refine h.functions.insertAll ?_
    rw [List.forall_mem_map]
    exact fun decl hdecl => (hdecls decl.name (List.mem_map_of_mem hdecl)).1
  reactivePaths := by
    refine h.reactivePaths.insertAll fun entry hentry => ?_
    obtain ⟨name, hname, hentry⟩ := List.mem_flatMap.mp hentry
    rw [List.mem_cons, List.mem_singleton] at hentry
    rcases hentry with rfl | rfl
    · exact (hdecls name hname).2.1
    · exact (hdecls name hname).2.2
  bindingPaths :=
    (Names.filter_pushAll (fun name hname => (hdecls name hname).1) _).trans h.bindingPaths
  dependencies := by
    show ((next.dependencies.pushBodyAll _).body).filter names = _
    rw [DependencyMap.body_pushBodyAll,
      Names.filter_pushAll (fun name hname => (hdecls name hname).1), h.dependencies]

/-- Functions that are dropped elsewhere do not show. -/
protected theorem dropFunctions (h : next.AgreeUnder names paths before) {dropped : List String}
    (hdropped : ∀ name ∈ dropped,
      names name = false ∧ paths name = false ∧ paths (dataPath name) = false) :
    (next.dropFunctions dropped).AgreeUnder names paths before where
  vars := h.vars
  functions := h.functions.eraseAll fun name hname => (hdropped name hname).1
  reactivePaths := by
    refine h.reactivePaths.eraseAll ?_
    rw [List.forall_mem_append, List.forall_mem_map]
    exact ⟨fun name hname => (hdropped name hname).2.1, fun name hname => (hdropped name hname).2.2⟩
  bindingPaths :=
    (Names.filter_removeAll (fun name hname => (hdropped name hname).1) _).trans h.bindingPaths
  dependencies := by
    show ((next.dependencies.filterBody _).body).filter names = _
    rw [DependencyMap.body_filterBody]
    exact (Names.filter_removeAll (fun name hname => (hdropped name hname).1) _).trans
      h.dependencies

/-- Variables that are declared elsewhere do not show. -/
protected theorem declareVariables (h : next.AgreeUnder names paths before) {added : List String}
    (hadded : ∀ name ∈ added, names name = false ∧ paths name = false) :
    (next.declareVariables added).AgreeUnder names paths before where
  vars := by
    have hnone : added.filter names = [] :=
      List.filter_eq_nil_iff.mpr fun name hname => by simp [(hadded name hname).1]
    show (next.vars ++ added).filter names = _
    rw [List.filter_append, hnone, List.append_nil, h.vars]
  functions := h.functions
  reactivePaths := by
    refine h.reactivePaths.insertAll ?_
    rw [variablePaths, List.forall_mem_map]
    exact fun name hname => (hadded name hname).2
  bindingPaths :=
    (Names.filter_pushAll (fun name hname => (hadded name hname).1) _).trans h.bindingPaths
  dependencies := h.dependencies

/-- Variables that are dropped elsewhere do not show. -/
protected theorem dropVariables (h : next.AgreeUnder names paths before) {dropped : List String}
    (hdropped : ∀ name ∈ dropped, names name = false ∧ paths name = false) :
    (next.dropVariables dropped).AgreeUnder names paths before := by
  have hunowned : ∀ name ∈ next.unowned dropped, names name = false ∧ paths name = false :=
    fun name hname => hdropped name ((mem_unowned _ _ _).mp hname).1
  exact {
    vars := (Names.filter_removeAll (fun name hname => (hdropped name hname).1) _).trans h.vars
    functions := h.functions
    reactivePaths := h.reactivePaths.eraseAll fun name hname => (hunowned name hname).2
    bindingPaths :=
      (Names.filter_removeAll (fun name hname => (hunowned name hname).1) _).trans h.bindingPaths
    dependencies := h.dependencies }

end Record.AgreeUnder

/-- Sources that are set do not show among the members that pass a test, unless theirs do. -/
theorem MemberTree.agreeWhere_setSources {test : String → Bool} (members : MemberTree)
    {decls : List FunctionDecl} (h : ∀ decl ∈ decls, test decl.name = false) :
    (members.setSources decls).AgreeWhere test members := by
  induction decls generalizing members with
  | nil => exact OrderedMap.AgreeWhere.refl test members
  | cons decl rest ih =>
    rw [List.forall_mem_cons] at h
    have hfirst : (members.setSource decl.name decl.source).AgreeWhere test members :=
      (OrderedMap.AgreeWhere.refl test members).insert h.1 _
    rw [setSources_cons]
    exact (ih _ h.2).trans hfirst

namespace EntityState

variable (state : EntityState) (body : Body)

/-- **The frame of a pass**: a record keeps its entries under all names and paths that pass the
tests, if no member that comes or goes does. -/
theorem agreeUnder_withBody {names paths : String → Bool}
    (hfunctions : ∀ name ∈ (state.classify body).movedFunctions,
      names name = false ∧ paths name = false ∧ paths (dataPath name) = false)
    (hvars : ∀ name ∈ (state.classify body).movedVariables,
      names name = false ∧ paths name = false) :
    (state.withBody body).record.AgreeUnder names paths state.record := by
  rw [movedFunctions_classify, List.forall_mem_append] at hfunctions
  rw [movedVariables_classify, List.forall_mem_append] at hvars
  have hwithFunctions : (state.withFunctions body).record.AgreeUnder names paths state.record :=
    ((Record.AgreeUnder.refl names paths state.record).declareFunctions hfunctions.1).dropFunctions
      hfunctions.2
  exact (hwithFunctions.declareVariables hvars.1).dropVariables hvars.2

/-- A pass in which no member comes or goes leaves the record as it is. -/
theorem record_withBody_of_unmoved (hfunctions : (state.classify body).movedFunctions = [])
    (hvars : (state.classify body).movedVariables = []) :
    (state.withBody body).record = state.record := by
  rw [movedFunctions_classify, List.append_eq_nil_iff, List.map_eq_nil_iff] at hfunctions
  rw [movedVariables_classify, List.append_eq_nil_iff] at hvars
  unfold withBody withFunctions
  dsimp only
  rw [hfunctions.1, hfunctions.2, hvars.1, hvars.2, Record.declareFunctions_nil,
    Record.dropFunctions_nil, Record.declareVariables_nil, Record.dropVariables_nil]

/-! ## Foreign names -/

/-- Whether neither the record nor the body declares a name. -/
def isForeign (name : String) : Bool :=
  !state.record.declares name && name ∉ body.functionNames && name ∉ body.variableNames

/-- A name is not foreign if the record or the body declares it. -/
theorem isForeign_eq_false_iff (name : String) :
    state.isForeign body name = false ↔
      (name ∈ state.record.functions.keys ∨ name ∈ state.record.vars) ∨
        name ∈ body.functionNames ∨ name ∈ body.variableNames := by
  rw [isForeign, Bool.and_eq_false_iff, Bool.and_eq_false_iff, Bool.not_eq_false',
    Record.declares_iff, decide_eq_false_iff_not, not_not, decide_eq_false_iff_not, not_not,
    or_assoc]

/-- Members under foreign names are left alone. -/
theorem agreeWhere_members_withBody :
    (state.withBody body).members.AgreeWhere (state.isForeign body) state.members := by
  have hsources : ∀ decl ∈ body.functions.filter state.setsSource,
      state.isForeign body decl.name = false := by
    intro decl hdecl
    rw [isForeign_eq_false_iff]
    exact Or.inr (Or.inl (List.mem_map_of_mem (List.mem_filter.mp hdecl).1))
  have hvalues : ∀ entry ∈ (body.vars.filter state.setsValue).map
      (fun decl => (decl.name, Member.var decl.value)), state.isForeign body entry.1 = false := by
    rw [List.forall_mem_map]
    intro decl hdecl
    rw [isForeign_eq_false_iff]
    exact Or.inr (Or.inr (List.mem_map_of_mem (List.mem_filter.mp hdecl).1))
  have hmissing : ∀ name ∈ state.missingFunctions body, state.isForeign body name = false := by
    intro name hname
    rw [isForeign_eq_false_iff]
    exact Or.inl (Or.inl ((mem_missingFunctions state body name).mp hname).1)
  have hdropped : ∀ name ∈ state.droppedVariables body, state.isForeign body name = false := by
    intro name hname
    rw [isForeign_eq_false_iff]
    exact Or.inl (Or.inr ((mem_droppedVariables state body name).mp hname).1.1)
  have hfunctions : (state.withFunctions body).members.AgreeWhere (state.isForeign body)
      state.members := (MemberTree.agreeWhere_setSources state.members hsources).eraseAll hmissing
  exact (hfunctions.insertAll hvalues).eraseAll hdropped

/-- Entries under foreign names are left alone, but for the data paths of functions that come or
go. -/
theorem agreeUnder_isForeign :
    (state.withBody body).record.AgreeUnder (state.isForeign body)
      (fun path => state.isForeign body path &&
        path ∉ (state.classify body).movedFunctions.map dataPath) state.record := by
  have hmoved : ∀ name ∈ (state.classify body).movedNames, state.isForeign body name = false := by
    intro name hname
    rw [isForeign_eq_false_iff]
    exact mem_movedNames_classify state body hname
  refine agreeUnder_withBody state body (fun name hname => ?_) (fun name hname => ?_)
  -- the data path of a function may well be foreign, so it is excepted by name
  · have hforeign := hmoved name (List.mem_append_left _ hname)
    have hdata : dataPath name ∈ (state.classify body).movedFunctions.map dataPath :=
      List.mem_map_of_mem hname
    refine ⟨hforeign, ?_, ?_⟩
    · rw [hforeign, Bool.false_and]
    · rw [decide_eq_false (not_not.mpr hdata), Bool.and_false]
  · have hforeign := hmoved name (List.mem_append_right _ hname)
    exact ⟨hforeign, by rw [hforeign, Bool.false_and]⟩

/-! ## Members that stay -/

section Kept

variable {state body} (hbody : body.WellNamed)

include hbody

/-- If no name is of both kinds, a member that stays neither comes nor goes. -/
theorem notMem_movedNames_of_kept (hdisjoint : state.record.IsDisjoint) {name : String}
    (h : name ∈ (state.classify body).keptNames) : name ∉ (state.classify body).movedNames := by
  have hkinds : name ∈ state.record.functions.keys → name ∉ state.record.vars := by
    rw [← Record.hasFunction_iff, ← Record.hasVariable_iff, Bool.not_eq_true]
    exact hdisjoint name
  rw [EntityDiff.movedNames, movedFunctions_classify, movedVariables_classify, List.mem_append,
    List.mem_append, List.mem_append, mem_addedFunctionNames, mem_missingFunctions,
    mem_addedVariables, mem_missingVariables]
  rcases List.mem_append.mp h with hfunction | hvariable
  · obtain ⟨hdeclared, hrecord⟩ := mem_keptFunctions_classify state body hfunction
    rintro ((⟨-, hnew⟩ | ⟨-, hmissing⟩) | ⟨hvariable, -⟩ | ⟨hvariable, -⟩)
    · exact hnew hrecord
    · exact hmissing hdeclared
    · exact hbody.disjoint hdeclared hvariable
    · exact hkinds hrecord hvariable
  · obtain ⟨hdeclared, hrecord⟩ := mem_keptVariables_classify state body hvariable
    rintro ((⟨hfunction, -⟩ | ⟨hfunction, -⟩) | ⟨-, hnew⟩ | ⟨-, hmissing⟩)
    · exact hbody.disjoint hfunction hdeclared
    · exact hkinds hfunction hrecord
    · exact hnew hrecord
    · exact hmissing hdeclared

/-- Without separators in the record no member is named like the data path of a function. -/
theorem ne_dataPath_of_declared (hundotted : state.record.IsUndotted) {name : String}
    (h : (name ∈ state.record.functions.keys ∨ name ∈ state.record.vars) ∨
      name ∈ body.functionNames ∨ name ∈ body.variableNames) (function : String) :
    name ≠ dataPath function := by
  refine ne_dataPath_of_notMem ?_ function
  rcases h with (hrecord | hrecord) | hdeclared | hdeclared
  · exact hundotted name (List.mem_append_left _ hrecord)
  · exact hundotted name (List.mem_append_right _ hrecord)
  · exact (hbody.segment_function hdeclared).2
  · exact (hbody.segment_variable hdeclared).2

/-- Members that stay keep their entries in all tables. -/
theorem agreeUnder_kept (hundotted : state.record.IsUndotted)
    (hdisjoint : state.record.IsDisjoint) :
    (state.withBody body).record.AgreeUnder (· ∈ (state.classify body).keptNames)
      (fun path => path ∈ (state.classify body).keptNames ∨
        path ∈ (state.classify body).keptFunctions.map dataPath) state.record := by
  have hmoved : ∀ name ∈ (state.classify body).movedNames,
      name ∉ (state.classify body).keptNames ∧
        name ∉ (state.classify body).keptFunctions.map dataPath := by
    intro name hname
    refine ⟨fun hkept => notMem_movedNames_of_kept hbody hdisjoint hkept hname, ?_⟩
    exact notMem_map_dataPath (ne_dataPath_of_declared hbody hundotted
      (mem_movedNames_classify state body hname)) _
  refine agreeUnder_withBody state body (fun name hname => ?_) (fun name hname => ?_)
  -- a data path holds a separator, so it is the name of no member that stays
  · obtain ⟨hnames, hpaths⟩ := hmoved name (List.mem_append_left _ hname)
    have hdata : dataPath name ∉ (state.classify body).keptNames := by
      intro hkept
      rcases List.mem_append.mp hkept with hfunction | hvariable
      · obtain ⟨hdeclared, -⟩ := mem_keptFunctions_classify state body hfunction
        exact (hbody.dataPath_notMem name).1 hdeclared
      · obtain ⟨hdeclared, -⟩ := mem_keptVariables_classify state body hvariable
        exact (hbody.dataPath_notMem name).2 hdeclared
    have hfunction : name ∉ (state.classify body).keptFunctions :=
      fun hkept => hnames (List.mem_append_left _ hkept)
    simp [hnames, hpaths, hdata, mem_map_dataPath, hfunction]
  · obtain ⟨hnames, hpaths⟩ := hmoved name (List.mem_append_right _ hname)
    simp [hnames, hpaths]

end Kept

end EntityState

/-! ## The main theorem -/

/-- What belongs to names that neither the record nor the body declares is left alone: members,
entries of the tables, paths other than the data paths of functions that come or go, and lists of
names other than that of the entity body.  Their order is left alone as well. -/
structure PassOutcome.SparesForeign (outcome : PassOutcome) (state : EntityState) (body : Body) :
    Prop where
  members : outcome.state.members.AgreeWhere (state.isForeign body) state.members
  record : outcome.state.record.AgreeUnder (state.isForeign body)
    (fun path => state.isForeign body path && path ∉ outcome.diff.movedFunctions.map dataPath)
    state.record
  dependencies : outcome.state.record.dependencies.AgreeWhere (· ≠ DependencyMap.bodyKey)
    state.record.dependencies

namespace EntityState

/-- A pass spares what is foreign to it. -/
theorem sparesForeign_withBody (state : EntityState) (body : Body) :
    PassOutcome.SparesForeign ⟨state.withBody body, state.classify body⟩ state body :=
  ⟨agreeWhere_members_withBody state body, agreeUnder_isForeign state body,
    agreeWhere_dependencies_withBody state body⟩

/-- **What a pass leaves alone.**  A pass of an accepted body over any state spares what belongs to
foreign names, and so does clearing.  If no name of the record holds the separator or is of both
kinds, the members that stay keep their entries in all tables, those of functions under their data
paths too.  A pass in which no member comes or goes returns the record as it was. -/
theorem pass_spares_unrelated_entries (state : EntityState) :
    (∀ body : Body, body.validate = .ok () →
      ∃ outcome, state.synchronize body = .ok outcome ∧
        outcome.SparesForeign state body ∧
        (state.record.IsUndotted → state.record.IsDisjoint →
          outcome.state.record.AgreeUnder (· ∈ outcome.diff.keptNames)
            (fun path => path ∈ outcome.diff.keptNames ∨
              path ∈ outcome.diff.keptFunctions.map dataPath) state.record) ∧
        ((∀ kind ∈ outcome.diff.kinds, kind ≠ .added ∧ kind ≠ .removed) →
          outcome.state.record = state.record)) ∧
    state.clear.SparesForeign state Body.empty := by
  refine ⟨fun body hvalid => ?_, ?_⟩
  · have hbody : body.WellNamed := (Body.validate_eq_ok_iff body).mp hvalid
    refine ⟨_, synchronize_of_nameError? state ((Body.nameError?_eq_none_iff body).mpr hbody),
      sparesForeign_withBody state body, agreeUnder_kept hbody, fun hkinds => ?_⟩
    obtain ⟨hfunctions, hvars⟩ := EntityDiff.moved_eq_nil fun kind hkind =>
      kind.moves_eq_false_iff.mpr (hkinds kind hkind)
    exact record_withBody_of_unmoved state body hfunctions hvars
  · have hempty : state.clear =
        ⟨state.withBody Body.empty, state.classify Body.empty⟩ := by
      rw [withBody_empty, classify_empty]
      rfl
    rw [hempty]
    exact sparesForeign_withBody state Body.empty

/-- An entity with entries that belong to no member, one of them where a function called "new" has
its data path. -/
def sharedState : EntityState :=
  let declared := (((EntityState.new "Page").addFunction "load" "() => 1" []).addVariable "x"
    .null).addFunction "run" "() => 2" []
  ⟨{ declared.record with
      reactivePaths :=
        (declared.record.reactivePaths.insert "other" .template).insert "new.data" .smart
      bindingPaths := "other" :: declared.record.bindingPaths
      dependencies := declared.record.dependencies.insert "modal" ["load"] },
    declared.members.insert "other" (.var (.str "mine"))⟩

/-- A body that keeps one function, with another source, and declares a new one. -/
def replacingBody : Body := ⟨[⟨"load", "() => 3", []⟩, ⟨"new", "() => 4", []⟩], []⟩

/-- A body with the members of the shared entity in another order and with other contents. -/
def rewritingBody : Body :=
  ⟨[⟨"run", "() => 5", []⟩, ⟨"load", "() => 6", []⟩], [⟨"x", .str "7"⟩]⟩

/-- While members come and go, entries that belong to no member and the paths of the function that
stays survive.  If no member does, the record is the same. -/
theorem sharedState_spares :
    replacingBody.validate = .ok () ∧ rewritingBody.validate = .ok () ∧
      (∃ outcome, sharedState.synchronize replacingBody = .ok outcome ∧
        outcome.state.members.get? "other" = some (.var (.str "mine")) ∧
        outcome.state.record.reactivePaths.get? "other" = some .template ∧
        outcome.state.record.dependencies.get? "modal" = some ["load"] ∧
        outcome.state.record.functions.get? "load" = some (.declared []) ∧
        outcome.state.record.reactivePaths.get? "load.data" = some .template) ∧
      ∃ outcome, sharedState.synchronize rewritingBody = .ok outcome ∧
        outcome.diff.kinds = [.modified, .modified, .modified] ∧
        outcome.state.record = sharedState.record := by
  have hreplacing : replacingBody.validate = .ok () := by decide
  have hrewriting : rewritingBody.validate = .ok () := by decide
  have hdisjoint : sharedState.record.IsDisjoint := by
    intro name hname
    have hall : ∀ function ∈ sharedState.record.functions.keys,
        sharedState.record.hasVariable function = false := by decide
    exact hall name ((Record.hasFunction_iff _ _).mp hname)
  have hpass := (pass_spares_unrelated_entries sharedState).1
  obtain ⟨first, hfirst, hspares, hkept, -⟩ := hpass replacingBody hreplacing
  obtain ⟨second, hsecond, -, -, hsame⟩ := hpass rewritingBody hrewriting
  have hstays := hkept (by decide) hdisjoint
  rw [synchronize_of_nameError? _ (by decide), Except.ok.injEq] at hfirst hsecond
  subst hfirst hsecond
  refine ⟨hreplacing, hrewriting, ⟨_, synchronize_of_nameError? _ (by decide), ?_, ?_, ?_, ?_, ?_⟩,
    _, synchronize_of_nameError? _ (by decide), by decide, hsame (by decide)⟩
  · rw [hspares.members.get? (by decide)]
    decide
  · rw [hspares.record.reactivePaths.get? (by decide)]
    decide
  · rw [hspares.dependencies.get? (by decide)]
    decide
  · rw [hstays.functions.get? (by decide)]
    decide
  · rw [hstays.reactivePaths.get? (by decide)]
    decide

end EntityState

end ScriptStore
