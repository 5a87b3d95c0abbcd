import ScriptStore.Proofs.Names
import ScriptStore.Proofs.OrderedMap
import ScriptStore.Record

/-!
# Records under batches of declarations

The four things that a pass does to the tables of an entity, each for a whole list of members at
once: functions are declared, functions are dropped, variables are declared, variables are
dropped.  Every table is then one batch of insertions or removals, of which the modules on maps
and names give order and contents.
-/

namespace ScriptStore

/-! ## The dependencies of the entity body -/

namespace DependencyMap

/-- Registers names one after the other. -/
def pushBodyAll (dependencies : DependencyMap) (names : List String) : DependencyMap :=
  names.foldl pushBody dependencies

@[simp] theorem pushBodyAll_nil (dependencies : DependencyMap) :
    dependencies.pushBodyAll [] = dependencies := rfl

/-- The first name is pushed first. -/
theorem pushBodyAll_cons (dependencies : DependencyMap) (name : String) (names : List String) :
    dependencies.pushBodyAll (name :: names) = (dependencies.pushBody name).pushBodyAll names :=
  rfl

/-- Names pushed to the map are pushed to the list of the body. -/
theorem body_pushBodyAll (dependencies : DependencyMap) (names : List String) :
    (dependencies.pushBodyAll names).body = Names.pushAll dependencies.body names := by
  induction names generalizing dependencies with
  | nil => rfl
  | cons name rest ih => rw [pushBodyAll_cons, ih, body_pushBody, Names.pushAll_cons]

/-- A list that is there is filtered in its place. -/
theorem filterBody_of_get? {dependencies : DependencyMap} {names : List String}
    (h : dependencies.get? bodyKey = some names) (keep : String → Bool) :
    dependencies.filterBody keep = dependencies.insert bodyKey (names.filter keep) := by
  rw [filterBody, h]

@[simp] theorem keys_initial : initial.keys = [bodyKey] := rfl

@[simp] theorem body_initial : initial.body = [] := rfl

/-- A selection creates no list. -/
theorem keys_filterBody (dependencies : DependencyMap) (keep : String → Bool) :
    (dependencies.filterBody keep).keys = dependencies.keys := by
  cases h : dependencies.get? bodyKey with
  | none => rw [filterBody, h]
  | some names =>
    rw [filterBody_of_get? h, OrderedMap.keys_insert, if_pos (OrderedMap.mem_keys_of_get? h)]

/-- Registrations create no list when that of the entity body is there. -/
theorem keys_pushBodyAll {dependencies : DependencyMap} (h : bodyKey ∈ dependencies.keys)
    (names : List String) : (dependencies.pushBodyAll names).keys = dependencies.keys := by
  induction names generalizing dependencies with
  | nil => rfl
  | cons name rest ih =>
    have hkeys : (dependencies.pushBody name).keys = dependencies.keys := by
      rw [pushBody, OrderedMap.keys_insert, if_pos h]
    rw [pushBodyAll_cons, ih (hkeys ▸ h), hkeys]

/-- A selection after a selection keeps what passes both. -/
theorem filterBody_filterBody (dependencies : DependencyMap) (keep also : String → Bool) :
    (dependencies.filterBody keep).filterBody also =
      dependencies.filterBody fun name => keep name && also name := by
  cases h : dependencies.get? bodyKey with
  | none =>
    -- a missing list stays missing
    have hsame : ∀ test, dependencies.filterBody test = dependencies := by
      intro test
      rw [filterBody, h]
    rw [hsame, hsame, hsame]
  | some names =>
    have hnext : (dependencies.insert bodyKey (names.filter keep)).get? bodyKey =
        some (names.filter keep) := by
      rw [OrderedMap.get?_insert, if_pos rfl]
    rw [filterBody_of_get? h, filterBody_of_get? hnext, filterBody_of_get? h,
      OrderedMap.insert_insert, List.filter_filter]
    congr 2
    funext name
    rw [Bool.and_comm]

/-- Registrations do not touch the lists of other keys, nor their order. -/
theorem agreeWhere_pushBodyAll (dependencies : DependencyMap) (names : List String) :
    (dependencies.pushBodyAll names).AgreeWhere (· ≠ bodyKey) dependencies := by
  induction names generalizing dependencies with
  | nil => exact OrderedMap.AgreeWhere.refl _ _
  | cons name rest ih =>
    have hpush : (dependencies.pushBody name).AgreeWhere (· ≠ bodyKey) dependencies :=
      (OrderedMap.AgreeWhere.refl _ _).insert (by simp) _
    exact (ih _).trans hpush

/-- A selection does not touch the lists of other keys, nor their order. -/
theorem agreeWhere_filterBody (dependencies : DependencyMap) (keep : String → Bool) :
    (dependencies.filterBody keep).AgreeWhere (· ≠ bodyKey) dependencies := by
  cases h : dependencies.get? bodyKey with
  | none =>
    rw [filterBody, h]
    exact OrderedMap.AgreeWhere.refl _ _
  | some names =>
    rw [filterBody_of_get? h]
    exact (OrderedMap.AgreeWhere.refl _ _).insert (by simp) _

/-- A selection that every registered name passes changes nothing. -/
theorem filterBody_of_forall {dependencies : DependencyMap} {keep : String → Bool}
    (h : ∀ name ∈ dependencies.body, keep name = true) :
    dependencies.filterBody keep = dependencies := by
  cases hbody : dependencies.get? bodyKey with
  | none => rw [filterBody, hbody]
  | some names =>
    have hnames : dependencies.body = names := by rw [body, hbody, Option.getD_some]
    rw [hnames] at h
    rw [filterBody_of_get? hbody, List.filter_eq_self.mpr h]
    exact OrderedMap.insert_of_get? hbody

/-- Registrations do not show once none of them is selected. -/
theorem filterBody_pushBodyAll {dependencies : DependencyMap} (hkey : bodyKey ∈ dependencies.keys)
    {names : List String} {keep : String → Bool} (h : ∀ name ∈ names, keep name = false) :
    (dependencies.pushBodyAll names).filterBody keep = dependencies.filterBody keep := by
  induction names generalizing dependencies with
  | nil => rfl
  | cons name rest ih =>
    rw [List.forall_mem_cons] at h
    obtain ⟨listed, hlisted⟩ := (OrderedMap.mem_keys_iff _ _).mp hkey
    have hbody : dependencies.body = listed := by rw [body, hlisted, Option.getD_some]
    have hnext : (dependencies.pushBody name).get? bodyKey = some (Names.push listed name) := by
      rw [pushBody, OrderedMap.get?_insert, if_pos rfl, hbody]
    rw [pushBodyAll_cons, ih (OrderedMap.mem_keys_of_get? hnext) h.2, filterBody_of_get? hnext,
      filterBody_of_get? hlisted, Names.filter_push h.1, pushBody, OrderedMap.insert_insert]

end DependencyMap

namespace Record

/-! ## Declared names -/

/-- A function is there if its name is a key of the table. -/
theorem hasFunction_iff (record : Record) (name : String) :
    record.hasFunction name = true ↔ name ∈ record.functions.keys :=
  OrderedMap.contains_iff record.functions name

/-- So it is decided by the keys of the table. -/
theorem hasFunction_eq_decide (record : Record) (name : String) :
    record.hasFunction name = decide (name ∈ record.functions.keys) := by
  rw [Bool.eq_iff_iff, hasFunction_iff, decide_eq_true_eq]

/-- A variable is there if its name is listed. -/
theorem hasVariable_iff (record : Record) (name : String) :
    record.hasVariable name = true ↔ name ∈ record.vars := List.contains_iff_mem

/-! ## Members in batches -/

/-- The reactive paths of functions: their names and their data paths. -/
def functionPaths (names : List String) : List (String × Substitution) :=
  names.flatMap fun name => [(name, .smart), (dataPath name, .template)]

/-- The reactive paths of variables: their names. -/
def variablePaths (names : List String) : List (String × Substitution) :=
  names.map fun name => (name, .smart)

/-- Declares functions in all tables. -/
def declareFunctions (record : Record) (decls : List FunctionDecl) : Record :=
  let names := decls.map (·.name)
  { record with
    functions := record.functions.insertAll
      (decls.map fun decl => (decl.name, .declared decl.arguments))
    reactivePaths := record.reactivePaths.insertAll (functionPaths names)
    bindingPaths := Names.pushAll record.bindingPaths names
    dependencies := record.dependencies.pushBodyAll names }

/-- Drops functions from all tables. -/
def dropFunctions (record : Record) (names : List String) : Record :=
  { record with
    functions := record.functions.eraseAll names
    reactivePaths := record.reactivePaths.eraseAll (names ++ names.map dataPath)
    bindingPaths := Names.removeAll record.bindingPaths names
    dependencies := record.dependencies.filterBody (· ∉ names) }

/-- Declares variables in all tables. -/
def declareVariables (record : Record) (names : List String) : Record :=
  { record with
    vars := record.vars ++ names
    reactivePaths := record.reactivePaths.insertAll (variablePaths names)
    bindingPaths := Names.pushAll record.bindingPaths names }

/-- The names among these that no function owns. -/
def unowned (record : Record) (names : List String) : List String :=
  names.filter fun name => !record.hasFunction name

/-- Drops variables; what a function of the same name owns stays. -/
def dropVariables (record : Record) (names : List String) : Record :=
  { record with
    vars := Names.removeAll record.vars names
    reactivePaths := record.reactivePaths.eraseAll (record.unowned names)
    bindingPaths := Names.removeAll record.bindingPaths (record.unowned names) }

/-! ### Batches without members -/

@[simp] theorem declareFunctions_nil (record : Record) : record.declareFunctions [] = record := rfl

@[simp] theorem dropFunctions_nil (record : Record) : record.dropFunctions [] = record := by
  unfold dropFunctions
  have hdeps : record.dependencies.filterBody (· ∉ []) = record.dependencies :=
    DependencyMap.filterBody_of_forall (fun name _ => by simp)
  rw [hdeps, OrderedMap.eraseAll_nil, Names.removeAll_nil, List.map_nil, List.append_nil,
    OrderedMap.eraseAll_nil]

@[simp] theorem declareVariables_nil (record : Record) : record.declareVariables [] = record := by
  unfold declareVariables variablePaths
  rw [List.append_nil, List.map_nil, OrderedMap.insertAll_nil, Names.pushAll_nil]

@[simp] theorem unowned_nil (record : Record) : record.unowned [] = [] := rfl

@[simp] theorem dropVariables_nil (record : Record) : record.dropVariables [] = record := by
  unfold dropVariables
  rw [unowned_nil, Names.removeAll_nil, OrderedMap.eraseAll_nil, Names.removeAll_nil]

/-- The names without an owner are those that no function has. -/
theorem mem_unowned (record : Record) (names : List String) (name : String) :
    name ∈ record.unowned names ↔ name ∈ names ∧ name ∉ record.functions.keys := by
  rw [unowned, List.mem_filter, hasFunction_eq_decide, Bool.not_eq_true', decide_eq_false_iff_not]

end Record

end ScriptStore
