import ScriptStore.Proofs.Pass.Tables

/-!
# Members that come, go and stay

A difference lists each member of the body and of the entity with a kind of change.  Here the kinds
are read by name.  A member that is added comes, a member that is removed goes, and every other one
stays, whether its source or value is set or not.  What comes and goes is what the batches of a pass
declare and drop (`EntityState.movedFunctions_classify`, `EntityState.movedVariables_classify`).
-/

namespace ScriptStore

/-! ## Kinds of changes -/

/-- Whether a change of this kind makes a member come or go. -/
def ChangeKind.moves : ChangeKind → Bool
  | .added => true
  | .modified => false
  | .unchanged => false
  | .removed => true

theorem ChangeKind.moves_eq_false_iff (kind : ChangeKind) :
    kind.moves = false ↔ kind ≠ .added ∧ kind ≠ .removed := by
  cases kind <;> simp [moves]

namespace EntityDiff

variable (diff : EntityDiff)

/-- The functions that come or go. -/
def movedFunctions : List String := (diff.functions.filter (·.kind.moves)).map (·.name)

/-- The variables that come or go. -/
def movedVariables : List String := (diff.vars.filter (·.kind.moves)).map (·.name)

/-- The functions that stay. -/
def keptFunctions : List String := (diff.functions.filter (!·.kind.moves)).map (·.name)

/-- The variables that stay. -/
def keptVariables : List String := (diff.vars.filter (!·.kind.moves)).map (·.name)

/-- The members that come or go. -/
def movedNames : List String := diff.movedFunctions ++ diff.movedVariables

/-- The members that stay. -/
def keptNames : List String := diff.keptFunctions ++ diff.keptVariables

/-- If no member comes or goes, there are neither functions nor variables that do. -/
theorem moved_eq_nil {diff : EntityDiff} (h : ∀ kind ∈ diff.kinds, kind.moves = false) :
    diff.movedFunctions = [] ∧ diff.movedVariables = [] := by
  unfold kinds at h
  rw [List.forall_mem_append, List.forall_mem_map, List.forall_mem_map] at h
  unfold movedFunctions movedVariables
  rw [List.map_eq_nil_iff, List.map_eq_nil_iff, List.filter_eq_nil_iff, List.filter_eq_nil_iff]
  exact ⟨fun change hchange => by simp [h.1 change hchange],
    fun change hchange => by simp [h.2 change hchange]⟩

end EntityDiff

/-! ## Reading changes by name

Functions and variables have changes of their own types.  Of both only the names and the kinds
matter here: the change of a declaration has its name and moves exactly if the declaration is added,
and the change of a missing name is its removal. -/

section Reading

variable {Decl Change : Type} {name : Change → String} {kind : Change → ChangeKind}
  {declName : Decl → String} {adds : Decl → Bool}
  {classify : Decl → Change} {removal : String → Change}
  (hname : ∀ decl, name (classify decl) = declName decl)
  (hmoves : ∀ decl, (kind (classify decl)).moves = adds decl)
  (hremoval : ∀ missing, kind (removal missing) = .removed)
  (decls : List Decl) (missing : List String)

include hname hmoves hremoval

/-- The members that come are those that are added, and those that go are the missing ones. -/
theorem names_of_moved (hremovalName : ∀ missing, name (removal missing) = missing) :
    ((decls.map classify ++ missing.map removal).filter
        fun change => (kind change).moves).map name =
      (decls.filter adds).map declName ++ missing := by
  have hadded : (fun change => (kind change).moves) ∘ classify = adds := funext hmoves
  have hall : missing.filter ((fun change => (kind change).moves) ∘ removal) = missing :=
    List.filter_eq_self.mpr fun name _ => congrArg ChangeKind.moves (hremoval name)
  have hdeclared : name ∘ classify = declName := funext hname
  have hmissing : name ∘ removal = id := funext hremovalName
  rw [List.filter_append, List.map_append, List.filter_map, List.filter_map, List.map_map,
    List.map_map, hadded, hall, hdeclared, hmissing, List.map_id]

/-- The members that stay are declared and not added. -/
theorem names_of_kept :
    ((decls.map classify ++ missing.map removal).filter
        fun change => !(kind change).moves).map name =
      (decls.filter fun decl => !adds decl).map declName := by
  have hkept : (fun change => !(kind change).moves) ∘ classify = fun decl => !adds decl :=
    funext fun decl => congrArg not (hmoves decl)
  have hnone : missing.filter ((fun change => !(kind change).moves) ∘ removal) = [] :=
    List.filter_eq_nil_iff.mpr fun name _ => by simp [hremoval name, ChangeKind.moves]
  have hdeclared : name ∘ classify = declName := funext hname
  rw [List.filter_append, List.map_append, List.filter_map, List.filter_map, List.map_map, hkept,
    hnone, hdeclared, List.map_nil, List.map_nil, List.append_nil]

end Reading

namespace EntityState

variable (state : EntityState) (body : Body)

/-! ## Declared members -/

theorem name_classifyFunction (decl : FunctionDecl) :
    (state.classifyFunction decl).name = decl.name := by
  unfold classifyFunction
  split
  · split <;> rfl
  · rfl

theorem moves_classifyFunction (decl : FunctionDecl) :
    (state.classifyFunction decl).kind.moves = state.addsFunction decl := by
  unfold classifyFunction addsFunction
  split
  · rename_i hold
    rw [hold]
    split <;> rfl
  · rename_i hnew
    rw [Bool.eq_false_iff.mpr hnew]
    rfl

theorem name_classifyVariable (decl : VariableDecl) :
    (state.classifyVariable decl).name = decl.name := by
  unfold classifyVariable
  split
  · split <;> rfl
  · rfl

theorem moves_classifyVariable (decl : VariableDecl) :
    (state.classifyVariable decl).kind.moves = state.addsVariable decl := by
  unfold classifyVariable addsVariable
  split
  · rename_i hold
    rw [hold]
    split <;> rfl
  · rename_i hnew
    rw [Bool.eq_false_iff.mpr hnew]
    rfl

/-- Only missing functions are removed. -/
theorem mem_missingFunctions_of_removed {change : FunctionChange}
    (hchange : change ∈ (state.classify body).functions) (hkind : change.kind = .removed) :
    change.name ∈ state.missingFunctions body := by
  rcases List.mem_append.mp hchange with hdeclared | hmissing
  · obtain ⟨decl, -, rfl⟩ := List.mem_map.mp hdeclared
    unfold classifyFunction at hkind
    split at hkind
    · split at hkind <;> cases hkind
    · cases hkind
  · obtain ⟨name, hname, rfl⟩ := List.mem_map.mp hmissing
    exact hname

/-! ## All members -/

/-- The functions that come are the new ones, and those that go the missing ones. -/
theorem movedFunctions_classify :
    (state.classify body).movedFunctions =
      (state.addedFunctions body).map (·.name) ++ state.missingFunctions body :=
  names_of_moved state.name_classifyFunction state.moves_classifyFunction (fun _ => rfl)
    body.functions (state.missingFunctions body) fun _ => rfl

/-- The variables that come are the new ones, and those that go the missing ones. -/
theorem movedVariables_classify :
    (state.classify body).movedVariables =
      state.addedVariables body ++ state.missingVariables body :=
  names_of_moved state.name_classifyVariable state.moves_classifyVariable (fun _ => rfl)
    body.vars (state.missingVariables body) fun _ => rfl

/-- The functions that stay are declared by both the body and the record. -/
theorem mem_keptFunctions_classify {name : String}
    (h : name ∈ (state.classify body).keptFunctions) :
    name ∈ body.functionNames ∧ name ∈ state.record.functions.keys := by
  have hkept : (state.classify body).keptFunctions =
      (body.functions.filter fun decl => !state.addsFunction decl).map (·.name) :=
    names_of_kept state.name_classifyFunction state.moves_classifyFunction (fun _ => rfl)
      body.functions (state.missingFunctions body)
  rw [hkept] at h
  obtain ⟨decl, hdecl, rfl⟩ := List.mem_map.mp h
  obtain ⟨hdecl, hold⟩ := List.mem_filter.mp hdecl
  rw [addsFunction, Bool.not_not, Record.hasFunction_iff] at hold
  exact ⟨List.mem_map_of_mem hdecl, hold⟩

/-- The variables that stay are declared by both the body and the record. -/
theorem mem_keptVariables_classify {name : String}
    (h : name ∈ (state.classify body).keptVariables) :
    name ∈ body.variableNames ∧ name ∈ state.record.vars := by
  have hkept : (state.classify body).keptVariables =
      (body.vars.filter fun decl => !state.addsVariable decl).map (·.name) :=
    names_of_kept state.name_classifyVariable state.moves_classifyVariable (fun _ => rfl)
      body.vars (state.missingVariables body)
  rw [hkept] at h
  obtain ⟨decl, hdecl, rfl⟩ := List.mem_map.mp h
  obtain ⟨hdecl, hold⟩ := List.mem_filter.mp hdecl
  rw [addsVariable, Bool.not_not, Record.hasVariable_iff] at hold
  exact ⟨List.mem_map_of_mem hdecl, hold⟩

/-- Members that come or go are declared by the record or by the body. -/
theorem mem_movedNames_classify {name : String} (h : name ∈ (state.classify body).movedNames) :
    (name ∈ state.record.functions.keys ∨ name ∈ state.record.vars) ∨
      name ∈ body.functionNames ∨ name ∈ body.variableNames := by
  rw [EntityDiff.movedNames, movedFunctions_classify, movedVariables_classify, List.mem_append,
    List.mem_append, List.mem_append, mem_addedFunctionNames, mem_missingFunctions,
    mem_addedVariables, mem_missingVariables] at h
  rcases h with (⟨hbody, -⟩ | ⟨hrecord, -⟩) | ⟨hbody, -⟩ | ⟨hrecord, -⟩
  · exact Or.inr (Or.inl hbody)
  · exact Or.inl (Or.inl hrecord)
  · exact Or.inr (Or.inr hbody)
  · exact Or.inl (Or.inr hrecord)

end EntityState

end ScriptStore
