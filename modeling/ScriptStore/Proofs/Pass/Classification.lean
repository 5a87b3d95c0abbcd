import ScriptStore.Proofs.Coercion
import ScriptStore.Proofs.Pass.Changes

/-!
# The classification of members

A body has a difference exactly if its names are in order.  The difference names every member of the
body, in the order of the body, and behind them every member of the record that the body does not
declare, in the order of the record.  Each entry has the kind that the two sides ask for
(`ChangeKind.Fits`): whether the member is in the record and in the body, and, if it is in both,
whether the entity still has its source text or its value.

Names that are function on one side and variable on the other stand in both lists.  As a record may
list a variable more than once, such a name is removed as often as the record lists it
(`EntityState.diff_classifies_members`).
-/

namespace ScriptStore

/-! ## Kinds by name -/

/-- The kind of the change of a name fits what is recorded and declared, given whether a recorded
member that is declared is the same or differs. -/
structure ChangeKind.Fits (kind : ChangeKind) (name : String) (recorded declared : List String)
    (same differs : Prop) : Prop where
  added : kind = .added ↔ name ∉ recorded
  removed : kind = .removed ↔ name ∉ declared
  unchanged : kind = .unchanged ↔ name ∈ recorded ∧ name ∈ declared ∧ same
  modified : kind = .modified ↔ name ∈ recorded ∧ name ∈ declared ∧ differs

section Reading

variable {Decl Change : Type} {name : Change → String} {kind : Change → ChangeKind}
  {declName : Decl → String} {keeps : Decl → Prop} [DecidablePred keeps]
  {classify : Decl → Change} {removal : String → Change}
  {recorded missing : List String} {decls : List Decl}

/-- If every declaration has its kind, then every entry has: entries of declarations stand for the
only declaration of their name, and missing names are recorded and not declared. -/
theorem fits_of_mem (hnodup : (decls.map declName).Nodup)
    (hname : ∀ decl, name (classify decl) = declName decl)
    (hkind : ∀ decl, kind (classify decl) =
      if declName decl ∈ recorded then (if keeps decl then .unchanged else .modified) else .added)
    (hremoval : ∀ missing, kind (removal missing) = .removed)
    (hremovalName : ∀ missing, name (removal missing) = missing)
    (hmissing : ∀ name ∈ missing, name ∈ recorded ∧ name ∉ decls.map declName) {change : Change}
    (hchange : change ∈ decls.map classify ++ missing.map removal) :
    (kind change).Fits (name change) recorded (decls.map declName)
      (∃ decl ∈ decls, declName decl = name change ∧ keeps decl)
      (∃ decl ∈ decls, declName decl = name change ∧ ¬ keeps decl) := by
  rcases List.mem_append.mp hchange with hdeclared | hremoved
  · obtain ⟨decl, hdecl, rfl⟩ := List.mem_map.mp hdeclared
    have hmem : declName decl ∈ decls.map declName := List.mem_map_of_mem hdecl
    have honly (p : Decl → Prop) : (∃ other ∈ decls, declName other = declName decl ∧ p other) ↔
        p decl := by
      constructor
      · rintro ⟨other, hother, heq, hp⟩
        exact List.inj_on_of_nodup_map hnodup hother hdecl heq ▸ hp
      · intro hp
        exact ⟨decl, hdecl, rfl, hp⟩
    rw [hname, honly, honly, hkind]
    by_cases hrecorded : declName decl ∈ recorded
    · by_cases hkeeps : keeps decl
      · rw [if_pos hrecorded, if_pos hkeeps]
        constructor <;> simp [hrecorded, hkeeps, hmem]
      · rw [if_pos hrecorded, if_neg hkeeps]
        constructor <;> simp [hrecorded, hkeeps, hmem]
    · rw [if_neg hrecorded]
      constructor <;> simp [hrecorded, hmem]
  · obtain ⟨gone, hgone, rfl⟩ := List.mem_map.mp hremoved
    obtain ⟨hrecorded, hundeclared⟩ := hmissing gone hgone
    rw [hremovalName, hremoval]
    constructor <;> simp [hrecorded, hundeclared]

/-- The entries have the names of the declarations and then the missing names. -/
theorem names_of_entries (hname : ∀ decl, name (classify decl) = declName decl)
    (hremovalName : ∀ missing, name (removal missing) = missing) :
    (decls.map classify ++ missing.map removal).map name = decls.map declName ++ missing := by
  have hdeclared : name ∘ classify = declName := funext hname
  have hmissing : name ∘ removal = id := funext hremovalName
  rw [List.map_append, List.map_map, List.map_map, hdeclared, hmissing, List.map_id]

/-- Among declarations with different names only one has the name of a declaration. -/
theorem filter_name_eq_singleton (hnodup : (decls.map declName).Nodup) {decl : Decl}
    (hdecl : decl ∈ decls) : decls.filter (declName · = declName decl) = [decl] := by
  induction decls with
  | nil => cases hdecl
  | cons first rest ih =>
    obtain ⟨hfirst, hrest⟩ := List.nodup_cons.mp hnodup
    rcases List.mem_cons.mp hdecl with rfl | htail
    · have hnone : rest.filter (declName · = declName decl) = [] := by
        rw [List.filter_eq_nil_iff]
        rintro other hother heq
        exact hfirst (of_decide_eq_true heq ▸ List.mem_map_of_mem hother)
      rw [List.filter_cons_of_pos (by simp), hnone]
    · have hne : declName first ≠ declName decl :=
        fun heq => hfirst (heq ▸ List.mem_map_of_mem htail)
      rw [List.filter_cons_of_neg (by rwa [decide_eq_true_eq]), ih hrest htail]

/-- The entries of a name are those of the declarations of this name and as many removals as it is
missing. -/
theorem filter_entries (hname : ∀ decl, name (classify decl) = declName decl)
    (hremovalName : ∀ missing, name (removal missing) = missing) (wanted : String) :
    (decls.map classify ++ missing.map removal).filter (name · = wanted) =
      (decls.filter (declName · = wanted)).map classify ++
        List.replicate (missing.count wanted) (removal wanted) := by
  have hdeclared : (fun change => decide (name change = wanted)) ∘ classify =
      fun decl => decide (declName decl = wanted) := by
    funext decl
    rw [Function.comp_apply, hname]
  have hmissing : (fun change => decide (name change = wanted)) ∘ removal =
      fun missing => decide (missing = wanted) := by
    funext missing
    rw [Function.comp_apply, hremovalName]
  rw [List.filter_append, List.filter_map, List.filter_map, hdeclared, hmissing, List.filter_eq,
    List.map_replicate]

/-- A declared name that is not missing has one entry. -/
theorem kinds_of_declared (hnodup : (decls.map declName).Nodup)
    (hname : ∀ decl, name (classify decl) = declName decl)
    (hremovalName : ∀ missing, name (removal missing) = missing) {decl : Decl}
    (hdecl : decl ∈ decls) (hfresh : declName decl ∉ missing) :
    ((decls.map classify ++ missing.map removal).filter
      (name · = declName decl)).map kind = [kind (classify decl)] := by
  rw [filter_entries hname hremovalName, filter_name_eq_singleton hnodup hdecl,
    List.count_eq_zero_of_not_mem hfresh]
  rfl

/-- A name that is not declared is removed as often as it is missing. -/
theorem kinds_of_missing (hname : ∀ decl, name (classify decl) = declName decl)
    (hremoval : ∀ missing, kind (removal missing) = .removed)
    (hremovalName : ∀ missing, name (removal missing) = missing) {gone : String}
    (hgone : gone ∉ decls.map declName) :
    ((decls.map classify ++ missing.map removal).filter (name · = gone)).map kind =
      List.replicate (missing.count gone) .removed := by
  have hdeclared : decls.filter (declName · = gone) = [] := by
    rw [List.filter_eq_nil_iff]
    intro decl hdecl heq
    exact hgone (of_decide_eq_true heq ▸ List.mem_map_of_mem hdecl)
  rw [filter_entries hname hremovalName, hdeclared, List.map_nil, List.nil_append,
    List.map_replicate, hremoval]

end Reading

/-! ## What the entity still has -/

/-- Loose comparison tells a value that is true in a condition from a new one: the texts differ, or
the new value is false in a condition and not the empty text. -/
def Json.DiffersFrom (old new : Json) : Prop :=
  old.text ≠ new.text ∨ (new.truthy = false ∧ new ≠ .str "")

theorem Json.changed_some_iff (old new : Json) :
    changed (some old) new = true ↔ old.truthy = false ∨ old.DiffersFrom new := by
  cases htruthy : old.truthy with
  | false => simp [changed_of_not_truthy htruthy]
  | true =>
    rw [← Bool.not_eq_false, changed_some_eq_false_iff htruthy, not_and_or, not_or,
      Bool.not_eq_true, or_iff_right Bool.true_eq_false.mp]
    rfl

namespace EntityState

variable (state : EntityState) (body : Body)

/-- The member of this name is a function with the declared source text. -/
def HasSource (decl : FunctionDecl) : Prop :=
  ∃ data, state.members.get? decl.name = some (.function decl.source data)

/-- The member of this name is no variable, or has a value that is false in a condition, or one
that differs from the declared value. -/
def HasOtherValue (decl : VariableDecl) : Prop :=
  (∀ value, state.members.get? decl.name ≠ some (.var value)) ∨
    ∃ value, state.members.get? decl.name = some (.var value) ∧
      (value.truthy = false ∨ value.DiffersFrom decl.value)

theorem hasOtherValue_iff (decl : VariableDecl) :
    state.HasOtherValue decl ↔
      Json.changed (state.members.value? decl.name) decl.value = true := by
  unfold HasOtherValue MemberTree.value?
  rcases state.members.get? decl.name with _ | ⟨source, data⟩ | value
  · simp [Json.changed_none]
  · simp [Json.changed_none, Member.value?]
  · simp [Json.changed_some_iff, Member.value?]

/-! ## The kinds of declared members -/

theorem kind_classifyFunction (decl : FunctionDecl) :
    (state.classifyFunction decl).kind =
      if decl.name ∈ state.record.functions.keys then
        (if state.members.source? decl.name = some decl.source then .unchanged else .modified)
      else .added := by
  simp only [← Record.hasFunction_iff, classifyFunction]
  split
  · split <;> rfl
  · rfl

theorem kind_classifyVariable (decl : VariableDecl) :
    (state.classifyVariable decl).kind =
      if decl.name ∈ state.record.vars then
        (if Json.changed (state.members.value? decl.name) decl.value = false then .unchanged
          else .modified)
      else .added := by
  simp only [← Record.hasVariable_iff, classifyVariable]
  split
  · cases Json.changed (state.members.value? decl.name) decl.value <;> rfl
  · rfl

end EntityState

/-! ## Complete differences -/

namespace EntityDiff

/-- The kinds of the function entries of this name. -/
def functionKinds (diff : EntityDiff) (name : String) : List ChangeKind :=
  (diff.functions.filter (·.name = name)).map (·.kind)

/-- The kinds of the variable entries of this name. -/
def variableKinds (diff : EntityDiff) (name : String) : List ChangeKind :=
  (diff.vars.filter (·.name = name)).map (·.kind)

/-- The difference lists all members of the body and behind them those of the record that the body
does not declare, and each entry has the kind that both sides ask for. -/
structure Classifies (diff : EntityDiff) (state : EntityState) (body : Body) : Prop where
  functionNames : diff.functions.map (·.name) =
    body.functionNames ++ state.record.functions.keys.filter (· ∉ body.functionNames)
  functionsNodup : (diff.functions.map (·.name)).Nodup
  variableNames : diff.vars.map (·.name) =
    body.variableNames ++ state.record.vars.filter (· ∉ body.variableNames)
  functions : ∀ change ∈ diff.functions,
    change.kind.Fits change.name state.record.functions.keys body.functionNames
      (∃ decl ∈ body.functions, decl.name = change.name ∧ state.HasSource decl)
      (∃ decl ∈ body.functions, decl.name = change.name ∧ ¬ state.HasSource decl)
  vars : ∀ change ∈ diff.vars,
    change.kind.Fits change.name state.record.vars body.variableNames
      (∃ decl ∈ body.vars, decl.name = change.name ∧ ¬ state.HasOtherValue decl)
      (∃ decl ∈ body.vars, decl.name = change.name ∧ state.HasOtherValue decl)

end EntityDiff

namespace EntityState

variable {state : EntityState} {body : Body}

/-- A body has no difference exactly if it has an offending name. -/
theorem diff_eq_error_iff (error : SyncError) :
    state.diff body = .error error ↔
      ∃ fault, body.validate = .error fault ∧ error = .malformedBody state.record.name fault := by
  simp only [Body.validate_eq_error_iff]
  unfold diff
  cases body.nameError? <;> simp [eq_comm]

theorem diff_of_wellNamed (h : body.WellNamed) : state.diff body = .ok (state.classify body) := by
  rw [diff, (Body.nameError?_eq_none_iff body).mpr h]

/-- The functions of a difference have different names, as those of a record do. -/
theorem nodup_functionNames_classify (h : body.WellNamed) :
    (body.functionNames ++ state.missingFunctions body).Nodup := by
  refine List.Nodup.append h.nodup_functionNames (state.record.functions.nodup_keys.filter _) ?_
  intro name hdeclared hmissing
  exact ((mem_missingFunctions ..).mp hmissing).2 hdeclared

/-- The classification of a body with names in order is complete and exact. -/
theorem classifies_classify (h : body.WellNamed) :
    (state.classify body).Classifies state body := by
  have hnames : (state.classify body).functions.map (·.name) =
      body.functionNames ++ state.missingFunctions body :=
    names_of_entries state.name_classifyFunction fun _ => rfl
  constructor
  case functionNames => exact hnames
  case functionsNodup => exact hnames ▸ nodup_functionNames_classify h
  case variableNames => exact names_of_entries state.name_classifyVariable fun _ => rfl
  case functions =>
    intro change hchange
    have hfits := fits_of_mem h.nodup_functionNames state.name_classifyFunction
      state.kind_classifyFunction (fun _ => rfl) (fun _ => rfl)
      (fun name hname => (mem_missingFunctions ..).mp hname) hchange
    simp only [MemberTree.source?_eq_some_iff] at hfits
    exact hfits
  case vars =>
    intro change hchange
    have hfits := fits_of_mem h.nodup_variableNames state.name_classifyVariable
      state.kind_classifyVariable (fun _ => rfl) (fun _ => rfl)
      (fun name hname => (mem_missingVariables ..).mp hname) hchange
    simp only [← Bool.not_eq_true, ← hasOtherValue_iff, not_not] at hfits
    exact hfits

/-! ## Members that change sides -/

/-- A new function is added once. -/
theorem functionKinds_of_new (h : body.WellNamed) {name : String}
    (hbody : name ∈ body.functionNames) (hnew : name ∉ state.record.functions.keys) :
    (state.classify body).functionKinds name = [.added] := by
  obtain ⟨decl, hdecl, rfl⟩ := List.mem_map.mp hbody
  have hfresh : decl.name ∉ state.missingFunctions body :=
    fun hmissing => hnew ((mem_missingFunctions ..).mp hmissing).1
  have hkinds : (state.classify body).functionKinds decl.name =
      [(state.classifyFunction decl).kind] :=
    kinds_of_declared h.nodup_functionNames state.name_classifyFunction (fun _ => rfl) hdecl hfresh
  rw [hkinds, kind_classifyFunction, if_neg hnew]

/-- A function that the body does not declare is removed as often as the record lists it. -/
theorem functionKinds_of_gone {name : String} (hgone : name ∉ body.functionNames) :
    (state.classify body).functionKinds name =
      List.replicate (state.record.functions.keys.count name) .removed := by
  have hkinds : (state.classify body).functionKinds name =
      List.replicate ((state.missingFunctions body).count name) .removed :=
    kinds_of_missing state.name_classifyFunction (fun _ => rfl) (fun _ => rfl) hgone
  rw [hkinds, missingFunctions, List.count_filter (by simpa using hgone)]

/-- A declared variable has one entry. -/
theorem variableKinds_of_declared (h : body.WellNamed) {decl : VariableDecl}
    (hdecl : decl ∈ body.vars) :
    (state.classify body).variableKinds decl.name = [(state.classifyVariable decl).kind] := by
  have hfresh : decl.name ∉ state.missingVariables body :=
    fun hmissing => ((mem_missingVariables ..).mp hmissing).2 (List.mem_map_of_mem hdecl)
  exact kinds_of_declared h.nodup_variableNames state.name_classifyVariable (fun _ => rfl) hdecl
    hfresh

/-- A new variable is added once. -/
theorem variableKinds_of_new (h : body.WellNamed) {name : String}
    (hbody : name ∈ body.variableNames) (hnew : name ∉ state.record.vars) :
    (state.classify body).variableKinds name = [.added] := by
  obtain ⟨decl, hdecl, rfl⟩ := List.mem_map.mp hbody
  rw [variableKinds_of_declared h hdecl, kind_classifyVariable, if_neg hnew]

/-- A variable that the body does not declare is removed as often as the record lists it. -/
theorem variableKinds_of_gone {name : String} (hgone : name ∉ body.variableNames) :
    (state.classify body).variableKinds name =
      List.replicate (state.record.vars.count name) .removed := by
  have hkinds : (state.classify body).variableKinds name =
      List.replicate ((state.missingVariables body).count name) .removed :=
    kinds_of_missing state.name_classifyVariable (fun _ => rfl) (fun _ => rfl) hgone
  rw [hkinds, missingVariables, List.count_filter (by simpa using hgone)]

/-- The name is recorded as a function and declared as a variable. -/
def BecomesVariable (state : EntityState) (body : Body) (name : String) : Prop :=
  name ∈ state.record.functions.keys ∧ name ∈ body.variableNames

/-- The name is recorded as a variable and declared as a function. -/
def BecomesFunction (state : EntityState) (body : Body) (name : String) : Prop :=
  name ∈ state.record.vars ∧ name ∈ body.functionNames

/-- A difference has exactly those names in both lists that change sides. -/
theorem mem_both_iff {diff : EntityDiff} (hdiff : diff.Classifies state body) (h : body.WellNamed)
    (hdisjoint : ∀ name ∈ state.record.functions.keys, name ∉ state.record.vars) (name : String) :
    (name ∈ diff.functions.map (·.name) ∧ name ∈ diff.vars.map (·.name)) ↔
      state.BecomesVariable body name ∨ state.BecomesFunction body name := by
  rw [hdiff.functionNames, hdiff.variableNames, List.mem_append, List.mem_append, List.mem_filter,
    List.mem_filter, decide_eq_true_eq, decide_eq_true_eq]
  have hbody : name ∈ body.functionNames → name ∉ body.variableNames := h.disjoint
  have hrecord := hdisjoint name
  unfold BecomesVariable BecomesFunction
  tauto

/-- **Classification of members.**  A body has a difference exactly if its names are in order, and
the difference is complete and exact.  If no name of the record is function and variable, exactly
the names that change sides stand in both lists.  On its new side such a name is added once.  As a
function it is removed once, and as a variable as often as the record lists it. -/
theorem diff_classifies_members (state : EntityState) (body : Body) :
    (∀ error, state.diff body = .error error ↔
      ∃ fault, body.validate = .error fault ∧ error = .malformedBody state.record.name fault) ∧
    (body.validate = .ok () → ∃ diff, state.diff body = .ok diff ∧ diff.Classifies state body ∧
      ((∀ name ∈ state.record.functions.keys, name ∉ state.record.vars) → ∀ name,
        ((name ∈ diff.functions.map (·.name) ∧ name ∈ diff.vars.map (·.name)) ↔
          state.BecomesVariable body name ∨ state.BecomesFunction body name) ∧
        (state.BecomesVariable body name →
          diff.functionKinds name = [.removed] ∧ diff.variableKinds name = [.added]) ∧
        (state.BecomesFunction body name →
          diff.functionKinds name = [.added] ∧
            diff.variableKinds name =
              List.replicate (state.record.vars.count name) .removed))) := by
  refine ⟨diff_eq_error_iff, fun hvalid => ?_⟩
  have h : body.WellNamed := (Body.validate_eq_ok_iff body).mp hvalid
  have hdiff : (state.classify body).Classifies state body := classifies_classify h
  refine ⟨_, diff_of_wellNamed h, hdiff, fun hdisjoint name => ⟨?_, ?_, ?_⟩⟩
  · exact mem_both_iff hdiff h hdisjoint name
  · rintro ⟨hrecord, hbody⟩
    have hgone : name ∉ body.functionNames := fun hfunction => h.disjoint hfunction hbody
    have honce : state.record.functions.keys.count name = 1 :=
      List.count_eq_one_of_mem state.record.functions.nodup_keys hrecord
    rw [functionKinds_of_gone hgone, honce,
      variableKinds_of_new h hbody (hdisjoint name hrecord)]
    exact ⟨rfl, rfl⟩
  · rintro ⟨hrecord, hbody⟩
    have hnew : name ∉ state.record.functions.keys :=
      fun hfunction => hdisjoint name hfunction hrecord
    exact ⟨functionKinds_of_new h hbody hnew, variableKinds_of_gone (h.disjoint hbody)⟩

/-- A function and a variable. -/
def exchangedState : EntityState :=
  ((EntityState.new "Page").addFunction "load" "() => 1" []).addVariable "count" (.bool true)

/-- The function has become a variable and the variable a function. -/
def exchangingBody : Body := ⟨[⟨"count", "() => 2", []⟩], [⟨"load", .bool true⟩]⟩

/-- Both names stand in both lists, added on the new side and removed on the old one. -/
theorem exchangedState_is_classified :
    exchangingBody.validate = .ok () ∧
      (∀ name ∈ exchangedState.record.functions.keys, name ∉ exchangedState.record.vars) ∧
      exchangedState.BecomesVariable exchangingBody "load" ∧
      exchangedState.BecomesFunction exchangingBody "count" ∧
      ∃ diff, exchangedState.diff exchangingBody = .ok diff ∧
        diff.Classifies exchangedState exchangingBody ∧
        diff.functionKinds "load" = [.removed] ∧ diff.variableKinds "load" = [.added] ∧
        diff.functionKinds "count" = [.added] ∧ diff.variableKinds "count" = [.removed] := by
  have hvalid : exchangingBody.validate = .ok () := by decide
  have hdisjoint : ∀ name ∈ exchangedState.record.functions.keys,
      name ∉ exchangedState.record.vars := by decide
  have hvariable : exchangedState.BecomesVariable exchangingBody "load" := by
    constructor <;> decide
  have hfunction : exchangedState.BecomesFunction exchangingBody "count" := by
    constructor <;> decide
  obtain ⟨diff, hdiff, hclassifies, hkinds⟩ :=
    (diff_classifies_members exchangedState exchangingBody).2 hvalid
  obtain ⟨-, hload, -⟩ := hkinds hdisjoint "load"
  obtain ⟨-, -, hcount⟩ := hkinds hdisjoint "count"
  exact ⟨hvalid, hdisjoint, hvariable, hfunction, diff, hdiff, hclassifies, (hload hvariable).1,
    (hload hvariable).2, (hcount hfunction).1, (hcount hfunction).2⟩

/-- The record lists a variable twice. -/
def repeatedState : EntityState :=
  ⟨{ Record.new "Page" with vars := ["x", "x"] },
    (∅ : MemberTree).insert "x" (.var (.bool true))⟩

/-- The variable has become a function. -/
def repeatedBody : Body := ⟨[⟨"x", "() => 1", []⟩], []⟩

/-- A variable that becomes a function is not removed once but as often as it is listed. -/
theorem repeated_variable_is_removed_twice :
    repeatedBody.validate = .ok () ∧
      (∀ name ∈ repeatedState.record.functions.keys, name ∉ repeatedState.record.vars) ∧
      repeatedState.BecomesFunction repeatedBody "x" ∧
      ∃ diff, repeatedState.diff repeatedBody = .ok diff ∧
        diff.functionKinds "x" = [.added] ∧ diff.variableKinds "x" = [.removed, .removed] := by
  have hfunction : repeatedState.BecomesFunction repeatedBody "x" := by
    constructor <;> decide
  exact ⟨by decide, by decide, hfunction, _, rfl, by decide, by decide⟩

end EntityState

end ScriptStore
