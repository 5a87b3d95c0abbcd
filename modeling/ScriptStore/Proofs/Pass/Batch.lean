import ScriptStore.Pass
import ScriptStore.Proofs.Record

/-!
# A pass in four batches

Applying the difference between a body and an entity goes member by member, and each change sees
the state that the changes before it left.  The result is nevertheless that of four batches, read
off the state *before* the pass:

* the functions that are new are declared, and the functions whose source differs are set;
* the functions that the body lacks are dropped;
* the variables that are new are declared, and the variables that changed are set;
* the variables that the body lacks are dropped, unless a function owns their name by now.

The main statement is `EntityState.apply_classify`.  It holds for every state and every body,
valid or not, so everything that is known about a pass is read off the batches.
-/

namespace ScriptStore

/-! ## Members in batches -/

namespace MemberTree

/-- Sets the sources of functions one after the other. -/
def setSources (members : MemberTree) (decls : List FunctionDecl) : MemberTree :=
  decls.foldl (fun tree decl => tree.setSource decl.name decl.source) members

/-- Sets the values of variables one after the other. -/
def setValues (members : MemberTree) (decls : List VariableDecl) : MemberTree :=
  members.insertAll (decls.map fun decl => (decl.name, .var decl.value))

@[simp] theorem setSources_nil (members : MemberTree) : members.setSources [] = members := rfl

theorem setSources_cons (members : MemberTree) (decl : FunctionDecl) (decls : List FunctionDecl) :
    members.setSources (decl :: decls) =
      (members.setSource decl.name decl.source).setSources decls := rfl

@[simp] theorem setValues_nil (members : MemberTree) : members.setValues [] = members := rfl

end MemberTree

namespace EntityState

/-! ## What a pass does -/

/-- Whether a declared function is new. -/
def addsFunction (state : EntityState) (decl : FunctionDecl) : Bool :=
  !state.record.hasFunction decl.name

/-- Whether a declared function gets its source set: it is new or has another source. -/
def setsSource (state : EntityState) (decl : FunctionDecl) : Bool :=
  state.addsFunction decl || state.members.source? decl.name != some decl.source

/-- Whether a declared variable is new. -/
def addsVariable (state : EntityState) (decl : VariableDecl) : Bool :=
  !state.record.hasVariable decl.name

/-- Whether a declared variable gets its value set: it is new or has changed. -/
def setsValue (state : EntityState) (decl : VariableDecl) : Bool :=
  state.addsVariable decl || Json.changed (state.members.value? decl.name) decl.value

/-- The declared functions that are new. -/
def addedFunctions (state : EntityState) (body : Body) : List FunctionDecl :=
  body.functions.filter state.addsFunction

/-- The names of the declared variables that are new. -/
def addedVariables (state : EntityState) (body : Body) : List String :=
  (body.vars.filter state.addsVariable).map (·.name)

/-- The state after the functions of a body are taken in. -/
def withFunctions (state : EntityState) (body : Body) : EntityState :=
  { record :=
      (state.record.declareFunctions (state.addedFunctions body)).dropFunctions
        (state.missingFunctions body)
    members :=
      (state.members.setSources (body.functions.filter state.setsSource)).eraseAll
        (state.missingFunctions body) }

/-- The state after a whole body is taken in. -/
def withBody (state : EntityState) (body : Body) : EntityState :=
  let declared := (state.withFunctions body).record.declareVariables (state.addedVariables body)
  { record := declared.dropVariables (state.missingVariables body)
    members :=
      ((state.withFunctions body).members.setValues (body.vars.filter state.setsValue)).eraseAll
        (declared.unowned (state.missingVariables body)) }

/-! ## Functions -/

/-- The changes of the declared functions, applied in order. -/
theorem foldl_classifyFunction (state s : EntityState) (decls : List FunctionDecl) :
    (decls.map state.classifyFunction).foldl applyFunctionChange s =
      ⟨s.record.declareFunctions (decls.filter state.addsFunction),
        s.members.setSources (decls.filter state.setsSource)⟩ := by
  induction decls generalizing s with
  | nil => rfl
  | cons decl rest ih =>
    rw [List.map_cons, List.foldl_cons, ih]
    by_cases hfun : state.record.hasFunction decl.name = true
    · have hadds : ¬ state.addsFunction decl = true := by simp [addsFunction, hfun]
      rw [List.filter_cons_of_neg hadds]
      by_cases hsource : state.members.source? decl.name = some decl.source
      -- unchanged: neither batch has the function
      · have hsets : ¬ state.setsSource decl = true := by simp [setsSource, hadds, hsource]
        rw [List.filter_cons_of_neg hsets, classifyFunction, if_pos hfun, if_pos hsource]
        rfl
      -- modified: only the source is set
      · have hsets : state.setsSource decl = true := by simp [setsSource, hsource]
        rw [List.filter_cons_of_pos hsets, classifyFunction, if_pos hfun, if_neg hsource]
        rfl
    · have hadds : state.addsFunction decl = true := by simpa [addsFunction] using hfun
      have hsets : state.setsSource decl = true := by simp [setsSource, hadds]
      rw [List.filter_cons_of_pos hadds, List.filter_cons_of_pos hsets, classifyFunction,
        if_neg hfun]
      rfl

/-- Dropping one function and then others drops all of them. -/
theorem dropFunctions_removeFunction (s : EntityState) (name : String) (names : List String) :
    (s.removeFunction name).record.dropFunctions names =
      s.record.dropFunctions (name :: names) := by
  unfold removeFunction Record.dropFunctions
  simp only [Record.mk.injEq, true_and]
  refine ⟨?_, ?_, ?_, ?_⟩
  · rw [OrderedMap.erase, OrderedMap.eraseAll_eraseAll, List.singleton_append]
  · rw [OrderedMap.erase, OrderedMap.erase, OrderedMap.eraseAll_eraseAll,
      OrderedMap.eraseAll_eraseAll]
    refine OrderedMap.eraseAll_congr _ (fun path _ => ?_)
    simp only [List.mem_append, List.mem_cons, List.not_mem_nil, List.map_cons, or_false]
    rw [or_assoc, or_left_comm (b := path ∈ names)]
  · rw [Names.remove_eq_removeAll, Names.removeAll_removeAll, List.singleton_append]
  · rw [DependencyMap.removeBody, DependencyMap.filterBody_filterBody]
    congr 1
    funext other
    simp

/-- The removals of functions, applied in order. -/
theorem foldl_functionRemoval (s : EntityState) (names : List String) :
    (names.map FunctionChange.removal).foldl applyFunctionChange s =
      ⟨s.record.dropFunctions names, s.members.eraseAll names⟩ := by
  induction names generalizing s with
  | nil => rw [List.map_nil, List.foldl_nil, Record.dropFunctions_nil, OrderedMap.eraseAll_nil]
  | cons name rest ih =>
    rw [List.map_cons, List.foldl_cons, ih]
    show EntityState.mk ((s.removeFunction name).record.dropFunctions rest)
      ((s.members.erase name).eraseAll rest) = _
    rw [dropFunctions_removeFunction, OrderedMap.erase, OrderedMap.eraseAll_eraseAll,
      List.singleton_append]

/-! ## Variables -/

/-- The changes of the declared variables, applied in order. -/
theorem foldl_classifyVariable (state s : EntityState) (decls : List VariableDecl) :
    (decls.map state.classifyVariable).foldl applyVariableChange s =
      ⟨s.record.declareVariables ((decls.filter state.addsVariable).map (·.name)),
        s.members.setValues (decls.filter state.setsValue)⟩ := by
  induction decls generalizing s with
  | nil =>
    show s = ⟨s.record.declareVariables [], s.members.setValues []⟩
    rw [Record.declareVariables_nil, MemberTree.setValues_nil]
  | cons decl rest ih =>
    rw [List.map_cons, List.foldl_cons, ih]
    by_cases hvar : state.record.hasVariable decl.name = true
    · have hadds : ¬ state.addsVariable decl = true := by simp [addsVariable, hvar]
      rw [List.filter_cons_of_neg hadds]
      by_cases hchanged : Json.changed (state.members.value? decl.name) decl.value = true
      · have hsets : state.setsValue decl = true := by simp [setsValue, hchanged]
        rw [List.filter_cons_of_pos hsets, classifyVariable, if_pos hvar, if_pos hchanged]
        rfl
      · have hsets : ¬ state.setsValue decl = true := by simp [setsValue, hadds, hchanged]
        rw [List.filter_cons_of_neg hsets, classifyVariable, if_pos hvar, if_neg hchanged]
        rfl
    · have hadds : state.addsVariable decl = true := by simpa [addsVariable] using hvar
      have hsets : state.setsValue decl = true := by simp [setsValue, hadds]
      have happend : ∀ names : List String,
          (s.addVariable decl.name decl.value).record.declareVariables names =
            s.record.declareVariables (decl.name :: names) := by
        intro names
        unfold addVariable Record.declareVariables
        simp only [Record.mk.injEq, true_and, and_true]
        refine ⟨?_, rfl, rfl⟩
        rw [List.append_assoc, List.singleton_append]
      rw [List.filter_cons_of_pos hadds, List.filter_cons_of_pos hsets, classifyVariable,
        if_neg hvar, List.map_cons, ← happend]
      rfl

/-- Dropping one variable and then others drops all of them. -/
theorem dropVariables_removeVariable (s : EntityState) (name : String) (names : List String) :
    EntityState.mk ((s.removeVariable name).record.dropVariables names)
        ((s.removeVariable name).members.eraseAll (s.record.unowned names)) =
      ⟨s.record.dropVariables (name :: names),
        s.members.eraseAll (s.record.unowned (name :: names))⟩ := by
  have hvars : Names.removeAll (Names.remove s.record.vars name) names =
      Names.removeAll s.record.vars (name :: names) := by
    rw [Names.remove_eq_removeAll, Names.removeAll_removeAll, List.singleton_append]
  by_cases hfun : s.record.hasFunction name = true
  -- the function keeps paths, binding and member
  · have hunowned : s.record.unowned (name :: names) = s.record.unowned names := by
      unfold Record.unowned
      rw [List.filter_cons_of_neg (by simp [hfun])]
    unfold removeVariable Record.dropVariables
    rw [if_pos hfun, hunowned, ← hvars]
    rfl
  · have hunowned : s.record.unowned (name :: names) = name :: s.record.unowned names := by
      unfold Record.unowned
      rw [List.filter_cons_of_pos (by simpa using hfun)]
    unfold removeVariable Record.dropVariables
    rw [if_neg hfun, hunowned, ← hvars]
    simp only [EntityState.mk.injEq, Record.mk.injEq, true_and, and_true]
    refine ⟨⟨?_, ?_⟩, ?_⟩
    · rw [OrderedMap.erase, OrderedMap.eraseAll_eraseAll, List.singleton_append]
      rfl
    · rw [Names.remove_eq_removeAll, Names.removeAll_removeAll, List.singleton_append]
      rfl
    · rw [OrderedMap.erase, OrderedMap.eraseAll_eraseAll, List.singleton_append]

/-- The removals of variables, applied in order. -/
theorem foldl_variableRemoval (s : EntityState) (names : List String) :
    (names.map VariableChange.removal).foldl applyVariableChange s =
      ⟨s.record.dropVariables names, s.members.eraseAll (s.record.unowned names)⟩ := by
  induction names generalizing s with
  | nil =>
    rw [List.map_nil, List.foldl_nil, Record.dropVariables_nil, Record.unowned_nil,
      OrderedMap.eraseAll_nil]
  | cons name rest ih =>
    have hsame : (s.removeVariable name).record.unowned rest = s.record.unowned rest := by
      unfold removeVariable Record.unowned
      split <;> rfl
    rw [List.map_cons, List.foldl_cons, ih, ← dropVariables_removeVariable, ← hsame]
    rfl

/-! ## The whole pass -/

/-- **A pass in batches**: applying the difference member by member takes in the whole body. -/
theorem apply_classify (state : EntityState) (body : Body) :
    state.apply (state.classify body) = state.withBody body := by
  have hfunctions : (state.classify body).functions.foldl applyFunctionChange state =
      state.withFunctions body := by
    rw [classify, List.foldl_append, foldl_classifyFunction, foldl_functionRemoval]
    rfl
  rw [apply, hfunctions, classify, List.foldl_append, foldl_classifyVariable,
    foldl_variableRemoval]
  rfl

/-- A body that is accepted leads to the state that takes it in. -/
theorem synchronize_of_nameError? (state : EntityState) {body : Body}
    (h : body.nameError? = none) :
    state.synchronize body = .ok ⟨state.withBody body, state.classify body⟩ := by
  rw [synchronize, diff, h, ← apply_classify]
  rfl

/-- What a successful pass means. -/
theorem synchronize_eq_ok {state : EntityState} {body : Body} {outcome : PassOutcome}
    (h : state.synchronize body = .ok outcome) :
    body.nameError? = none ∧ outcome = ⟨state.withBody body, state.classify body⟩ := by
  cases hbody : body.nameError? with
  | some error =>
    rw [synchronize, diff, hbody] at h
    cases h
  | none =>
    rw [synchronize_of_nameError? state hbody, Except.ok.injEq] at h
    exact ⟨rfl, h.symm⟩

end EntityState

end ScriptStore
