import ScriptStore.Proofs.Alignment
import ScriptStore.Proofs.Store.Passes

/-!
# Untracked entities

A reconciliation of an entity without a record declares every member of the body anew, so the
difference and the record are those of the first reconciliation in an empty store.  The members are
not: a store may keep members of an entity that has no record, and the pass starts from them.  It
adopts the data of functions that are declared again and leaves the members that are not declared
where they are, and these are what verification refuses (`Store.bootstrap_adopts_members`).

So the outcome is that of an empty store exactly if the members that are there are the first ones
that the body declares, and none of its functions has data.
-/

namespace ScriptStore

/-! ## Members that are there before the record -/

namespace MemberTree

/-- The members with all declarations of a body set: a function keeps the data of its name. -/
def adopt (members : MemberTree) (body : Body) : MemberTree :=
  (members.setSources body.functions).setValues body.vars

/-- The names of members that a body does not declare. -/
def strays (members : MemberTree) (body : Body) : List String :=
  members.keys.filter fun name => name ∉ body.functionNames ++ body.variableNames

variable (members : MemberTree) {body : Body}

/-- Sources are set in place where there is a member, and at the end otherwise. -/
theorem keys_setSources (decls : List FunctionDecl) :
    (members.setSources decls).keys = Names.pushAll members.keys (decls.map (·.name)) := by
  induction decls generalizing members with
  | nil => rfl
  | cons decl rest ih =>
    rw [setSources_cons, ih, List.map_cons, Names.pushAll_cons]
    congr 1
    exact OrderedMap.keys_insert members decl.name _

/-- The members that are there come first, in their order. -/
theorem keys_adopt (h : body.WellNamed) :
    (members.adopt body).keys = members.keys ++
      (body.functionNames ++ body.variableNames).filter (· ∉ members.keys) := by
  have hfunctions : (members.setSources body.functions).keys =
      members.keys ++ body.functionNames.filter (· ∉ members.keys) := by
    rw [keys_setSources]
    exact Names.pushAll_eq_append members.keys h.nodup_functionNames
  have hvars : Entries.keys (body.vars.map fun decl => (decl.name, Member.var decl.value)) =
      body.variableNames := by
    rw [Entries.keys, List.map_map]
    rfl
  rw [adopt, setValues, OrderedMap.keys_insertAll _ (hvars ▸ h.nodup_variableNames), hvars,
    hfunctions, List.filter_append, List.append_assoc]
  -- no function of the body bars a variable of the body
  congr 2
  refine List.filter_congr fun name hname => ?_
  have hnone : name ∉ body.functionNames := fun hmem => h.disjoint hmem hname
  simp [hnone]

theorem get?_adopt_function (h : body.WellNamed) {decl : FunctionDecl}
    (hdecl : decl ∈ body.functions) :
    (members.adopt body).get? decl.name =
      some (.function decl.source ((members.data? decl.name).getD emptyData)) := by
  have hother : ∀ other ∈ body.vars, other.name ≠ decl.name := by
    intro other hother heq
    exact h.disjoint (List.mem_map_of_mem hdecl) (heq ▸ List.mem_map_of_mem hother)
  rw [adopt, get?_setValues_of_notMem _ hother,
    get?_setSources_of_mem _ h.nodup_functionNames hdecl]

theorem get?_adopt_variable (h : body.WellNamed) {decl : VariableDecl} (hdecl : decl ∈ body.vars) :
    (members.adopt body).get? decl.name = some (.var decl.value) :=
  get?_setValues_of_mem _ h.nodup_variableNames hdecl

theorem get?_adopt_of_notMem {name : String}
    (hname : name ∉ body.functionNames ++ body.variableNames) :
    (members.adopt body).get? name = members.get? name := by
  rw [List.mem_append, not_or] at hname
  have hfunctions : ∀ decl ∈ body.functions, decl.name ≠ name := by
    rintro decl hdecl rfl
    exact hname.1 (List.mem_map_of_mem hdecl)
  have hvars : ∀ decl ∈ body.vars, decl.name ≠ name := by
    rintro decl hdecl rfl
    exact hname.2 (List.mem_map_of_mem hdecl)
  rw [adopt, get?_setValues_of_notMem _ hvars, get?_setSources_of_notMem _ hfunctions]

/-- Members without data that the body declares first, in its order, are not noticed. -/
def Foreshadows (members : MemberTree) (body : Body) : Prop :=
  members.keys <+: body.functionNames ++ body.variableNames ∧
    ∀ function ∈ body.functionNames, (members.data? function).getD emptyData = emptyData

theorem keys_adopt_empty (h : body.WellNamed) :
    (MemberTree.adopt ∅ body).keys = body.functionNames ++ body.variableNames := by
  rw [keys_adopt _ h]
  simp

/-- Members that foreshadow the body are followed by what the body declares after them. -/
theorem Foreshadows.keys_adopt {members : MemberTree} (hshadow : members.Foreshadows body)
    (h : body.WellNamed) :
    (members.adopt body).keys = body.functionNames ++ body.variableNames := by
  obtain ⟨rest, hrest⟩ := hshadow.1
  have hnd : (members.keys ++ rest).Nodup := hrest ▸ h.nodup
  have hold : members.keys.filter (· ∉ members.keys) = [] := by
    rw [List.filter_eq_nil_iff]
    intro name hname
    simpa using hname
  have hnew : rest.filter (· ∉ members.keys) = rest := by
    rw [List.filter_eq_self]
    intro name hname
    rw [decide_eq_true_eq]
    exact fun hmem => (List.nodup_append.mp hnd).2.2 name hmem name hname rfl
  rw [MemberTree.keys_adopt _ h, ← hrest, List.filter_append, hold, hnew, List.nil_append]

/-- Members that foreshadow the body are set to what the body declares. -/
theorem Foreshadows.get?_adopt {members : MemberTree} (hshadow : members.Foreshadows body)
    (h : body.WellNamed) (name : String) :
    (members.adopt body).get? name = (MemberTree.adopt ∅ body).get? name := by
  by_cases hname : name ∈ body.functionNames ++ body.variableNames
  · rcases List.mem_append.mp hname with hfunction | hvariable
    · obtain ⟨decl, hdecl, rfl⟩ := List.mem_map.mp hfunction
      rw [get?_adopt_function _ h hdecl, get?_adopt_function _ h hdecl, hshadow.2 _ hfunction]
      rfl
    · obtain ⟨decl, hdecl, rfl⟩ := List.mem_map.mp hvariable
      rw [get?_adopt_variable _ h hdecl, get?_adopt_variable _ h hdecl]
  · have hnone : name ∉ members.keys := fun hmem => hname (hshadow.1.subset hmem)
    rw [get?_adopt_of_notMem _ hname, get?_adopt_of_notMem _ hname,
      (OrderedMap.get?_eq_none_iff _ _).mpr hnone]
    rfl

/-- The members that are there do not show exactly if they foreshadow the body. -/
theorem adopt_eq_adopt_empty_iff (h : body.WellNamed) :
    members.adopt body = MemberTree.adopt ∅ body ↔ members.Foreshadows body := by
  constructor
  · intro heq
    constructor
    · rw [← keys_adopt_empty h, ← heq, keys_adopt _ h]
      exact List.prefix_append _ _
    · intro function hfunction
      obtain ⟨decl, hdecl, rfl⟩ := List.mem_map.mp hfunction
      have hget := get?_adopt_function members h hdecl
      rw [heq, get?_adopt_function ∅ h hdecl] at hget
      have hdata : MemberTree.data? ∅ decl.name = none := rfl
      simpa [hdata] using hget.symm
  · intro hshadow
    refine OrderedMap.ext_of_keys ?_ (hshadow.get?_adopt h)
    rw [hshadow.keys_adopt h, keys_adopt_empty h]

/-- Members that the body does not declare are the ones that are not declared afterwards. -/
theorem filter_keys_adopt (h : body.WellNamed) :
    ((members.adopt body).keys.filter fun name =>
      name ∉ body.functionNames ++ body.variableNames) = members.strays body := by
  have hdeclared : (((body.functionNames ++ body.variableNames).filter
      (· ∉ members.keys)).filter fun name => name ∉ body.functionNames ++ body.variableNames) =
      [] := by
    rw [List.filter_eq_nil_iff]
    intro name hname
    rw [decide_eq_true_eq, not_not]
    exact (List.mem_filter.mp hname).1
  rw [keys_adopt _ h, List.filter_append, hdeclared, List.append_nil, strays]

end MemberTree

/-! ## Passes over members without a record -/

/-- The difference that declares every member of a body. -/
def Body.additions (body : Body) (entity : String) : EntityDiff :=
  ⟨entity, body.functions.map fun decl => ⟨decl.name, .added, some decl.source, decl.arguments⟩,
    body.vars.map fun decl => ⟨decl.name, .added, some decl.value⟩⟩

namespace EntityState

variable (entity : String) (members : MemberTree) {body : Body}

/-- What is kept about an entity of which there are members but no record. -/
def unrecorded : EntityState := ⟨Record.new entity, members⟩

/-- Every member of the body is added, and nothing is removed. -/
theorem classify_unrecorded (body : Body) :
    (unrecorded entity members).classify body = body.additions entity := by
  have hfunctions : (unrecorded entity members).missingFunctions body = [] := rfl
  have hvars : (unrecorded entity members).missingVariables body = [] := rfl
  rw [classify, hfunctions, hvars, List.map_nil, List.map_nil, List.append_nil, List.append_nil]
  rfl

/-- The record is that of a new entity, and the members are adopted. -/
theorem withBody_unrecorded (body : Body) :
    (unrecorded entity members).withBody body =
      ⟨((new entity).withBody body).record, members.adopt body⟩ := by
  have hsources : body.functions.filter (unrecorded entity members).setsSource = body.functions :=
    List.filter_eq_self.mpr fun _ _ => rfl
  have hvalues : body.vars.filter (unrecorded entity members).setsValue = body.vars :=
    List.filter_eq_self.mpr fun _ _ => rfl
  rw [withBody, withFunctions, hsources, hvalues]
  show EntityState.mk _ (OrderedMap.eraseAll
    (MemberTree.setValues (OrderedMap.eraseAll _ []) body.vars) []) = _
  rw [OrderedMap.eraseAll_nil, OrderedMap.eraseAll_nil]
  rfl

/-- The violations of members are the members that are not declared. -/
theorem flatMap_memberViolations (state : EntityState) (names : List String) :
    names.flatMap state.memberViolations =
      (names.filter (!state.record.declares ·)).map .undeclaredMember := by
  induction names with
  | nil => rfl
  | cons name rest ih =>
    rw [List.flatMap_cons, ih, memberViolations, List.filter_cons]
    cases state.record.declares name <;> rfl

/-- With the record of a consistent entity, and members of the right kind for all that is declared,
only other members can be violations. -/
theorem violations_of_record {state other : EntityState} (hrecord : state.record = other.record)
    (hother : other.Consistent)
    (hfunctions : ∀ function ∈ other.record.functions.keys,
      ∃ source data, state.members.get? function = some (.function source data))
    (hvars : ∀ name ∈ other.record.vars, ∃ value, state.members.get? name = some (.var value)) :
    state.violations = state.members.keys.flatMap state.memberViolations := by
  obtain ⟨record, tree⟩ := state
  dsimp only at hrecord hfunctions hvars
  subst hrecord
  -- the first four checks look at the record and at the members that it declares
  have hpaths : other.record.reactivePaths.keys.flatMap
      (EntityState.mk other.record tree).pathViolations = [] :=
    List.flatMap_eq_nil_iff.mpr fun path hpath =>
      (pathViolations_eq_nil_iff _ path).mpr (hother.bound path hpath)
  have hrepeats : Names.repeats [] other.record.bindingPaths = [] :=
    (Names.repeats_eq_nil_iff [] _).mpr ⟨hother.nodup_bindingPaths, fun _ _ => List.not_mem_nil⟩
  have hfunctionList : other.record.functions.keys.flatMap
      (EntityState.mk other.record tree).functionViolations = [] :=
    List.flatMap_eq_nil_iff.mpr fun function hfunction =>
      (functionViolations_eq_nil_iff _ function).mpr
        { smart := (hother.functions function hfunction).smart
          template := (hother.functions function hfunction).template
          dependency := (hother.functions function hfunction).dependency
          member := hfunctions function hfunction }
  have hvariableList : (EntityState.mk other.record tree).variableListViolations []
      other.record.vars = [] :=
    (variableListViolations_eq_nil_iff _ [] _).mpr
      ⟨hother.nodup_vars, fun _ _ => List.not_mem_nil, fun name hname =>
        { notFunction := (hother.vars name hname).notFunction
          path := (hother.vars name hname).path
          member := hvars name hname }⟩
  unfold violations
  dsimp only
  rw [hpaths, hrepeats, hfunctionList, hvariableList, List.map_nil, List.append_nil,
    List.append_nil, List.append_nil, List.nil_append]

/-- After the pass only strays are violations. -/
theorem violations_unrecorded (h : body.WellNamed) :
    ((unrecorded entity members).withBody body).violations =
      (members.strays body).map .undeclaredMember := by
  have hfresh : ((new entity).withBody body).Consistent :=
    ((Aligned.new entity).withBody h).consistent
  have hdeclares : ∀ name, (!((new entity).withBody body).record.declares name) =
      decide (name ∉ body.functionNames ++ body.variableNames) := by
    intro name
    rw [Bool.eq_iff_iff, Bool.not_eq_true', ← Bool.not_eq_true, Record.declares_iff,
      mem_functions_withBody, mem_vars_withBody, decide_eq_true_eq, List.mem_append]
  have hrecord : (EntityState.mk ((new entity).withBody body).record (members.adopt body)).record =
      ((new entity).withBody body).record := rfl
  rw [withBody_unrecorded, violations_of_record hrecord hfresh, flatMap_memberViolations]
  · dsimp only
    simp only [hdeclares]
    rw [MemberTree.filter_keys_adopt _ h]
  · intro function hfunction
    rw [mem_functions_withBody] at hfunction
    obtain ⟨decl, hdecl, rfl⟩ := List.mem_map.mp hfunction
    exact ⟨_, _, MemberTree.get?_adopt_function members h hdecl⟩
  · intro name hname
    rw [mem_vars_withBody] at hname
    obtain ⟨decl, hdecl, rfl⟩ := List.mem_map.mp hname
    exact ⟨_, MemberTree.get?_adopt_variable members h hdecl⟩

end EntityState

/-! ## Reconciliation of an untracked entity -/

namespace Store

variable {store : Store} {entity : String} {body : Body}

/-- The stray that verification reports: the first one. -/
def refusedStray? (store : Store) (entity : String) (body : Body) : Option String :=
  if store.verify then ((store.members entity).strays body).head? else none

/-- **Reconciliation of an untracked entity in one equation.** -/
theorem reconcile_of_untracked (huntracked : store.record? entity = none)
    (hbody : body.WellNamed) :
    store.reconcile entity body =
      match store.refusedStray? entity body with
      | some name => .error (.inconsistent entity (.undeclaredMember name))
      | none => .ok (body.additions entity, store.put entity
          ⟨((EntityState.new entity).withBody body).record,
            (store.members entity).adopt body⟩) := by
  have hfiled : store.Filed entity := by
    intro record hrecord
    rw [huntracked] at hrecord
    cases hrecord
  have hstate : store.stateOf entity = EntityState.unrecorded entity (store.members entity) := by
    rw [stateOf, huntracked]
    rfl
  have hviolations := EntityState.violations_unrecorded entity (store.members entity) hbody
  rw [reconcile_of_filed hfiled, (Body.nameError?_eq_none_iff body).mpr hbody, hstate,
    EntityState.classify_unrecorded, ← EntityState.withBody_unrecorded]
  dsimp only
  cases hstray : store.refusedStray? entity body with
  | some name =>
    unfold refusedStray? at hstray
    split at hstray
    · rename_i hverify
      refine (commit_eq_error_iff _ _).mpr ⟨hverify, (EntityState.check_eq_error_iff _ _).mpr
        ⟨.undeclaredMember name, ?_, rfl⟩⟩
      rw [hviolations, List.head?_map, hstray]
      rfl
    · cases hstray
  | none =>
    refine commit_of_violations _ fun hverify => ?_
    rw [refusedStray?, if_pos hverify, List.head?_eq_none_iff] at hstray
    rw [hviolations, hstray, List.map_nil]

/-! ## The main theorem -/

/-- **Untracked entities.**  A valid body is taken in by an empty store, with verification or
without, with every member added and no data.  Another store without a record of the entity gives
the same difference and the same record, and adopts the members that are there: without verification
always, and with it exactly if the body declares them all; otherwise the first one that it does not
declare is reported.  The members are those of the empty store exactly if the ones that are there
foreshadow the body, as no members do. -/
theorem bootstrap_adopts_members (store : Store) (entity : String) (body : Body)
    (huntracked : store.record? entity = none) (hvalid : body.validate = .ok ()) :
    let fresh := (EntityState.new entity).withBody body
    let left := store.members entity
    (∀ verify, (empty verify).reconcile entity body =
      .ok (body.additions entity, (empty verify).put entity fresh)) ∧
    (∀ function ∈ body.functionNames, fresh.members.data? function = some emptyData) ∧
    (store.reconcile entity body =
      match store.refusedStray? entity body with
      | some name => .error (.inconsistent entity (.undeclaredMember name))
      | none => .ok (body.additions entity,
          store.put entity ⟨fresh.record, left.adopt body⟩)) ∧
    (left.adopt body = fresh.members ↔ left.Foreshadows body) ∧
    (store.tree? entity = none → left.Foreshadows body) := by
  have hbody : body.WellNamed := (Body.validate_eq_ok_iff body).mp hvalid
  have hmembers : ((EntityState.new entity).withBody body).members = MemberTree.adopt ∅ body :=
    congrArg EntityState.members (EntityState.withBody_unrecorded entity ∅ body)
  refine ⟨fun verify => ?_, fun function hfunction => ?_,
    reconcile_of_untracked huntracked hbody, ?_, fun htree => ?_⟩
  · have hstray : (empty verify).refusedStray? entity body = none := by
      cases verify <;> rfl
    have hempty : (empty verify).members entity = ∅ := rfl
    rw [reconcile_of_untracked rfl hbody, hstray, hempty, ← hmembers]
  · obtain ⟨decl, hdecl, rfl⟩ := List.mem_map.mp hfunction
    rw [hmembers, MemberTree.data?_eq_some_iff, MemberTree.get?_adopt_function _ hbody hdecl]
    exact ⟨_, rfl⟩
  · rw [hmembers]
    exact MemberTree.adopt_eq_adopt_empty_iff _ hbody
  · have hnone : store.members entity = ∅ := by
      rw [members, htree]
      rfl
    rw [hnone]
    exact ⟨List.nil_prefix, fun _ _ => rfl⟩

/-- A store with members of an entity that has no record. -/
def hauntedStore (verify : Bool) : Store :=
  { empty verify with
    trees := (∅ : Forest).insert "Ghost"
      (((∅ : MemberTree).insert "run" (.function "() => 0" (.bool true))).insert "x" (.var .null)) }

/-- The body with one function. -/
def hauntingBody : Body := ⟨[⟨"run", "() => 1", []⟩], []⟩

/-- Old members show: with verification the reconciliation is refused for the variable that is not
declared, and without it the function has data that it never gave. -/
theorem haunted_store_is_noticed :
    (∀ verify, (hauntedStore verify).record? "Ghost" = none) ∧ hauntingBody.validate = .ok () ∧
      (hauntedStore true).reconcile "Ghost" hauntingBody =
        .error (.inconsistent "Ghost" (.undeclaredMember "x")) ∧
      ∃ diff next, (hauntedStore false).reconcile "Ghost" hauntingBody = .ok (diff, next) ∧
        (next.members "Ghost").data? "run" = some (.bool true) ∧
        (next.members "Ghost").keys = ["run", "x"] :=
  ⟨fun _ => rfl, by decide, by decide, _, _, rfl, by decide, by decide⟩

/-- The haunted store adopts its members, and they do not foreshadow the body. -/
theorem hauntedStore_adopts_members :
    (hauntedStore false).record? "Ghost" = none ∧ hauntingBody.validate = .ok () ∧
      (hauntedStore false).reconcile "Ghost" hauntingBody =
        .ok (hauntingBody.additions "Ghost", (hauntedStore false).put "Ghost"
          ⟨((EntityState.new "Ghost").withBody hauntingBody).record,
            ((hauntedStore false).members "Ghost").adopt hauntingBody⟩) ∧
      ¬ ((hauntedStore false).members "Ghost").Foreshadows hauntingBody := by
  have hvalid : hauntingBody.validate = .ok () := by decide
  obtain ⟨-, -, hreconcile, hsame, -⟩ :=
    bootstrap_adopts_members (hauntedStore false) "Ghost" hauntingBody rfl hvalid
  refine ⟨rfl, hvalid, hreconcile, ?_⟩
  rw [← hsame]
  decide

end Store

end ScriptStore
