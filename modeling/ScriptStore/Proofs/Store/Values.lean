import ScriptStore.Proofs.Document.Origins
import ScriptStore.Proofs.Pass.Tables
import ScriptStore.Proofs.Store.Passes

/-!
# New values of a pass

A pass takes values into a store only where its difference shows them: the values of variables that
are added or modified, and the default values of arguments of functions that are added.  All other
values are what the store carried before, apart from the empty data of new functions.  So a property
that the carried values have is kept exactly if the values of the difference have it
(`Store.reconcile_valuesSatisfy_iff`), and these are values of the body
(`EntityState.classify_valuesSatisfy`).
-/

namespace ScriptStore

/-- The new values of variables and the arguments of new functions have these properties. -/
structure EntityDiff.ValuesSatisfy (value argument : Json → Prop) (diff : EntityDiff) : Prop where
  vars : ∀ change ∈ diff.vars, ∀ new, change.value = some new → value new
  functions : ∀ change ∈ diff.functions, ∀ parameter ∈ change.arguments,
    parameter.ValuesSatisfy argument

variable {value argument : Json → Prop}

namespace EntityDiff.ValuesSatisfy

variable {diff : EntityDiff} {value' argument' : Json → Prop}

/-- The values have all weaker properties too. -/
theorem mono (h : diff.ValuesSatisfy value argument) (hvalue : ∀ new, value new → value' new)
    (hargument : ∀ new, argument new → argument' new) : diff.ValuesSatisfy value' argument' where
  vars change hchange new hnew := hvalue new (h.vars change hchange new hnew)
  functions change hchange parameter hparameter new hnew :=
    hargument new (h.functions change hchange parameter hparameter new hnew)

/-- Properties that the values have, they have together. -/
theorem and (h : diff.ValuesSatisfy value argument) (h' : diff.ValuesSatisfy value' argument') :
    diff.ValuesSatisfy (fun new => value new ∧ value' new)
      (fun new => argument new ∧ argument' new) where
  vars change hchange new hnew := ⟨h.vars change hchange new hnew, h'.vars change hchange new hnew⟩
  functions change hchange parameter hparameter new hnew :=
    ⟨h.functions change hchange parameter hparameter new hnew,
      h'.functions change hchange parameter hparameter new hnew⟩

end EntityDiff.ValuesSatisfy

namespace EntityState

variable {state : EntityState} {body : Body}

/-! ## Values of a difference -/

/-- The value of a variable is shown exactly if a pass sets it. -/
theorem value_classifyVariable (state : EntityState) (decl : VariableDecl) :
    (state.classifyVariable decl).value =
      if state.setsValue decl then some decl.value else none := by
  unfold classifyVariable setsValue addsVariable
  cases state.record.hasVariable decl.name with
  | false => rfl
  | true => cases Json.changed (state.members.value? decl.name) decl.value <;> rfl

/-- The arguments of a function are shown exactly if the function is new. -/
theorem arguments_classifyFunction (state : EntityState) (decl : FunctionDecl) :
    (state.classifyFunction decl).arguments =
      if decl.name ∈ state.record.functions.keys then [] else decl.arguments := by
  rw [classifyFunction, Record.hasFunction_eq_decide]
  by_cases hfunction : decl.name ∈ state.record.functions.keys
  · rw [if_pos (decide_eq_true hfunction), if_pos hfunction]
    split <;> rfl
  · rw [if_neg (by simpa using hfunction), if_neg hfunction]

/-- The values of a difference are those of the variables that are set and of the functions that are
new. -/
theorem classify_valuesSatisfy_iff (state : EntityState) (body : Body) :
    (state.classify body).ValuesSatisfy value argument ↔
      (∀ decl ∈ body.vars, state.setsValue decl = true → value decl.value) ∧
        ∀ decl ∈ body.functions, decl.name ∉ state.record.functions.keys →
          ∀ parameter ∈ decl.arguments, parameter.ValuesSatisfy argument := by
  constructor
  · rintro ⟨hvars, hfunctions⟩
    constructor
    · intro decl hdecl hsets
      refine hvars _ (List.mem_append_left _ (List.mem_map_of_mem hdecl)) decl.value ?_
      rw [value_classifyVariable, if_pos hsets]
    · intro decl hdecl hnew
      have h := hfunctions _ (List.mem_append_left _ (List.mem_map_of_mem hdecl))
      rw [arguments_classifyFunction, if_neg hnew] at h
      exact h
  · rintro ⟨hvars, hfunctions⟩
    constructor
    case vars =>
      intro change hchange new hnew
      rcases List.mem_append.mp hchange with hdeclared | hremoved
      · obtain ⟨decl, hdecl, rfl⟩ := List.mem_map.mp hdeclared
        rw [value_classifyVariable] at hnew
        split at hnew
        · exact Option.some.inj hnew ▸ hvars decl hdecl (by assumption)
        · cases hnew
      · obtain ⟨name, -, rfl⟩ := List.mem_map.mp hremoved
        cases hnew
    case functions =>
      intro change hchange parameter hparameter
      rcases List.mem_append.mp hchange with hdeclared | hremoved
      · obtain ⟨decl, hdecl, rfl⟩ := List.mem_map.mp hdeclared
        rw [arguments_classifyFunction] at hparameter
        split at hparameter
        · cases hparameter
        · exact hfunctions decl hdecl (by assumption) parameter hparameter
      · obtain ⟨name, -, rfl⟩ := List.mem_map.mp hremoved
        cases hparameter

/-- The values of a difference are values of the body. -/
theorem classify_valuesSatisfy (state : EntityState) (h : body.ValuesSatisfy value argument) :
    (state.classify body).ValuesSatisfy value argument :=
  (classify_valuesSatisfy_iff state body).mpr
    ⟨fun decl hdecl _ => h.vars decl hdecl, fun decl hdecl _ => h.functions decl hdecl⟩

/-! ## Values of a state -/

/-- The record after a pass carries the arguments that it carried, and those of new functions. -/
theorem record_withBody_valuesSatisfy_iff (hbody : body.WellNamed)
    (h : state.record.ValuesSatisfy argument) :
    (state.withBody body).record.ValuesSatisfy argument ↔
      ∀ decl ∈ body.functions, decl.name ∉ state.record.functions.keys →
        ∀ parameter ∈ decl.arguments, parameter.ValuesSatisfy argument := by
  constructor
  · intro hnext decl hdecl hnew
    exact hnext decl.name _ (get?_functions_withBody_of_notMem state hbody hdecl hnew)
  · intro hnew name data hdata
    have hname : name ∈ body.functionNames :=
      (mem_functions_withBody state body name).mp (OrderedMap.mem_keys_of_get? hdata)
    by_cases hold : name ∈ state.record.functions.keys
    · rw [get?_functions_withBody_of_mem state body hname hold] at hdata
      exact h name data hdata
    · obtain ⟨decl, hdecl, rfl⟩ := List.mem_map.mp hname
      rw [get?_functions_withBody_of_notMem state hbody hdecl hold] at hdata
      exact Option.some.inj hdata ▸ hnew decl hdecl hold

/-- The members after a pass carry what they carried, empty data, and the values that are set. -/
theorem members_withBody_valuesSatisfy_iff (hbody : body.WellNamed)
    (h : state.members.ValuesSatisfy value) (hempty : value emptyData) :
    (state.withBody body).members.ValuesSatisfy value ↔
      ∀ decl ∈ body.vars, state.setsValue decl = true → value decl.value := by
  constructor
  · intro hnext decl hdecl hsets
    refine hnext decl.name (.var decl.value) ?_
    rw [get?_members_withBody_variable state hbody hdecl, if_pos hsets]
  · intro hnew name member hmember
    -- functions keep their data, variables are set or left, and the rest is left or dropped
    by_cases hfunction : name ∈ body.functionNames
    · obtain ⟨decl, hdecl, rfl⟩ := List.mem_map.mp hfunction
      rw [get?_members_withBody_function state hbody hdecl] at hmember
      obtain rfl := Option.some.inj hmember
      cases hdata : state.members.data? decl.name with
      | none => exact hempty
      | some data =>
        obtain ⟨source, hget⟩ := (MemberTree.data?_eq_some_iff _ _ _).mp hdata
        exact h decl.name (.function source data) hget
    by_cases hvariable : name ∈ body.variableNames
    · obtain ⟨decl, hdecl, rfl⟩ := List.mem_map.mp hvariable
      rw [get?_members_withBody_variable state hbody hdecl] at hmember
      split at hmember
      · obtain rfl := Option.some.inj hmember
        exact hnew decl hdecl (by assumption)
      split at hmember
      · cases hmember
      · exact h decl.name member hmember
    · rw [get?_members_withBody_of_notMem state hfunction hvariable] at hmember
      split at hmember
      · cases hmember
      · exact h name member hmember

end EntityState

/-! ## Values of a store -/

namespace Store

variable {store : Store} {entity : String}

theorem valuesSatisfy_members (h : store.ValuesSatisfy value argument) :
    (store.members entity).ValuesSatisfy value := by
  cases htree : store.tree? entity with
  | none =>
    rw [members, htree]
    intro name member hmember
    cases hmember
  | some tree =>
    rw [members_of_tree? htree]
    exact h.trees entity tree htree

theorem valuesSatisfy_recordOf (h : store.ValuesSatisfy value argument) :
    (store.stateOf entity).record.ValuesSatisfy argument := by
  unfold stateOf
  cases hrecord : store.record? entity with
  | none =>
    intro name data hdata
    cases hdata
  | some record => exact h.records entity record hrecord

/-- Of a store whose values have the properties, only the new state has to be looked at. -/
theorem put_valuesSatisfy_iff (h : store.ValuesSatisfy value argument) (state : EntityState) :
    (store.put entity state).ValuesSatisfy value argument ↔
      state.members.ValuesSatisfy value ∧ state.record.ValuesSatisfy argument := by
  constructor
  · intro hput
    constructor
    · exact hput.trees entity state.members (by rw [tree?_put, if_pos rfl])
    · exact hput.records entity state.record (by rw [record?_put, if_pos rfl])
  · rintro ⟨hmembers, hrecord⟩
    constructor
    · intro other tree htree
      rw [tree?_put] at htree
      split at htree
      · exact Option.some.inj htree ▸ hmembers
      · exact h.trees other tree htree
    · intro other record hfound
      rw [record?_put] at hfound
      split at hfound
      · exact Option.some.inj hfound ▸ hrecord
      · exact h.records other record hfound

/-- The values of a difference are values of the body. -/
theorem reconcile_diff_valuesSatisfy {body : Body} {diff : EntityDiff} {next : Store}
    (hpass : store.reconcile entity body = .ok (diff, next))
    (hbody : body.ValuesSatisfy value argument) : diff.ValuesSatisfy value argument := by
  obtain ⟨-, -, -, rfl, -⟩ := reconcile_eq_ok hpass
  exact EntityState.classify_valuesSatisfy _ hbody

/-- **What a pass takes in**: the properties of carried values are kept exactly if the values of the
difference have them. -/
theorem reconcile_valuesSatisfy_iff {body : Body} {diff : EntityDiff} {next : Store}
    (hpass : store.reconcile entity body = .ok (diff, next))
    (h : store.ValuesSatisfy value argument) (hempty : value emptyData) :
    next.ValuesSatisfy value argument ↔ diff.ValuesSatisfy value argument := by
  obtain ⟨-, hnames, -, rfl, rfl⟩ := reconcile_eq_ok hpass
  have hbody := (Body.nameError?_eq_none_iff body).mp hnames
  rw [put_valuesSatisfy_iff h, EntityState.classify_valuesSatisfy_iff,
    EntityState.members_withBody_valuesSatisfy_iff hbody (valuesSatisfy_members h) hempty,
    EntityState.record_withBody_valuesSatisfy_iff hbody (valuesSatisfy_recordOf h)]

end Store

end ScriptStore
