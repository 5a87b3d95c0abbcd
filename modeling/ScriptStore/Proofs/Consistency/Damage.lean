import ScriptStore.Proofs.Consistency
import ScriptStore.Proofs.Pass.Tables

/-!
# What the checks accept, and what damage they notice

The checks never look up the binding of a function or of a variable.  They look at the keys of
reactive paths, and a key depends on which functions there are.  Where no declared name holds the
separator, as after every pass, the two come to the same: the checks accept an entity exactly if its
tables agree name by name (`EntityState.TablesAgree`).

So every entry of an accepted entity that belongs to a member is needed once.  If one is dropped
from its table, or a variable, a binding or the dependency on a function is listed again, the
checks refuse the entity (`EntityState.checks_notice_damage`).
-/

namespace ScriptStore

/-! ## Agreement of the tables -/

/-- No declared name holds the separator of paths. -/
def Record.IsUndotted (record : Record) : Prop :=
  ∀ name ∈ record.functions.keys ++ record.vars, pathSeparator ∉ name.toList

instance (record : Record) : Decidable record.IsUndotted :=
  inferInstanceAs (Decidable (∀ name ∈ record.functions.keys ++ record.vars, _))

namespace EntityState

/-- The tables and the members of an entity agree, name by name. -/
structure TablesAgree (state : EntityState) : Prop where
  nodup_vars : state.record.vars.Nodup
  disjoint : ∀ name ∈ state.record.vars, name ∉ state.record.functions.keys
  members : ∀ name, name ∈ state.members.keys ↔
    name ∈ state.record.functions.keys ∨ name ∈ state.record.vars
  functionMember : ∀ function ∈ state.record.functions.keys,
    ∃ source data, state.members.get? function = some (.function source data)
  variableMember : ∀ name ∈ state.record.vars, ∃ value, state.members.get? name = some (.var value)
  nodup_bindingPaths : state.record.bindingPaths.Nodup
  functionBound : ∀ function ∈ state.record.functions.keys, function ∈ state.record.bindingPaths
  variableBound : ∀ name ∈ state.record.vars, name ∈ state.record.bindingPaths
  pathBound : ∀ path ∈ state.record.reactivePaths.keys,
    (∀ function ∈ state.record.functions.keys, dataPath function ≠ path) →
      path ∈ state.record.bindingPaths
  smart : ∀ function ∈ state.record.functions.keys,
    state.record.reactivePaths.get? function = some .smart
  template : ∀ function ∈ state.record.functions.keys,
    state.record.reactivePaths.get? (dataPath function) = some .template
  dependency : ∀ function ∈ state.record.functions.keys,
    state.record.dependencies.body.count function = 1
  variablePath : ∀ name ∈ state.record.vars, name ∈ state.record.reactivePaths.keys

variable {state : EntityState}

/-- Without separators, a declared name that is a path is bound under itself. -/
theorem Consistent.mem_bindingPaths_of_isUndotted (h : state.Consistent)
    (hundotted : state.record.IsUndotted) {name : String}
    (hname : name ∈ state.record.functions.keys ∨ name ∈ state.record.vars)
    (hpath : name ∈ state.record.reactivePaths.keys) : name ∈ state.record.bindingPaths := by
  have hkey : state.record.bindingKey name = name :=
    Record.bindingKey_of_forall_ne fun function _ heq =>
      ne_dataPath_of_notMem (hundotted name (List.mem_append.mpr hname)) function heq.symm
  exact hkey ▸ h.bound name hpath

/-- Consistency of an entity without separators is agreement of its tables. -/
theorem consistent_iff_tablesAgree (hundotted : state.record.IsUndotted) :
    state.Consistent ↔ state.TablesAgree := by
  constructor
  · intro h
    have hfunctions := h.functions
    have hvars := h.vars
    exact {
      nodup_vars := h.nodup_vars
      disjoint := fun name hname => (hvars name hname).notFunction
      members := by
        refine fun name => ⟨h.members name, ?_⟩
        rintro (hname | hname)
        · obtain ⟨source, data, hmember⟩ := (hfunctions name hname).member
          exact OrderedMap.mem_keys_of_get? hmember
        · obtain ⟨value, hmember⟩ := (hvars name hname).member
          exact OrderedMap.mem_keys_of_get? hmember
      functionMember := fun function hfunction => (hfunctions function hfunction).member
      variableMember := fun name hname => (hvars name hname).member
      nodup_bindingPaths := h.nodup_bindingPaths
      functionBound := fun function hfunction =>
        h.mem_bindingPaths_of_isUndotted hundotted (Or.inl hfunction)
          (OrderedMap.mem_keys_of_get? (hfunctions function hfunction).smart)
      variableBound := fun name hname =>
        h.mem_bindingPaths_of_isUndotted hundotted (Or.inr hname) (hvars name hname).path
      pathBound := fun path hpath hne => Record.bindingKey_of_forall_ne hne ▸ h.bound path hpath
      smart := fun function hfunction => (hfunctions function hfunction).smart
      template := fun function hfunction => (hfunctions function hfunction).template
      dependency := fun function hfunction => (hfunctions function hfunction).dependency
      variablePath := fun name hname => (hvars name hname).path }
  · intro h
    exact {
      bound := by
        intro path hpath
        -- a path is bound under the function that owns it, and under itself if none does
        by_cases howned : ∃ function ∈ state.record.functions.keys, dataPath function = path
        · obtain ⟨function, hfunction, rfl⟩ := howned
          rw [Record.bindingKey_dataPath hfunction]
          exact h.functionBound function hfunction
        · have hne : ∀ function ∈ state.record.functions.keys, dataPath function ≠ path :=
            fun function hfunction heq => howned ⟨function, hfunction, heq⟩
          rw [Record.bindingKey_of_forall_ne hne]
          exact h.pathBound path hpath hne
      nodup_bindingPaths := h.nodup_bindingPaths
      functions := fun function hfunction =>
        ⟨h.smart function hfunction, h.template function hfunction,
          h.dependency function hfunction, h.functionMember function hfunction⟩
      nodup_vars := h.nodup_vars
      vars := fun name hname =>
        ⟨h.disjoint name hname, h.variablePath name hname, h.variableMember name hname⟩
      members := fun name => (h.members name).mp }

end EntityState

/-! ## Damage -/

/-- Lists a name once more, at a position. -/
def Names.insertAt (names : List String) (position : Nat) (name : String) : List String :=
  names.take position ++ name :: names.drop position

/-- An inserted name occurs once more. -/
theorem Names.count_insertAt (names : List String) (position : Nat) (name : String) :
    (insertAt names position name).count name = names.count name + 1 := by
  have hsplit : names.count name =
      (names.take position).count name + (names.drop position).count name := by
    rw [← List.count_append, List.take_append_drop]
  rw [insertAt, List.count_append, List.count_cons_self, hsplit, Nat.add_assoc]

/-- A name that is inserted once more is repeated. -/
theorem Names.not_nodup_insertAt {names : List String} {name : String} (h : name ∈ names)
    (position : Nat) : ¬ (insertAt names position name).Nodup := by
  intro hnd
  have hone := List.nodup_iff_count_le_one.mp hnd name
  have hpos := List.count_pos_iff.mpr h
  rw [count_insertAt] at hone
  omega

/-- A change of one entry in one table of an entity. -/
inductive Damage where
  | dropFunction (name : String)
  | dropVariable (name : String)
  | dropMember (name : String)
  | dropBinding (key : String)
  | dropPath (path : String)
  | dropDependency (function : String)
  | repeatVariable (name : String) (position : Nat)
  | repeatBinding (key : String) (position : Nat)
  | repeatDependency (function : String) (position : Nat)
  deriving DecidableEq, Repr

namespace EntityState

/-- The entity after a change of one entry; everything else is left as it is. -/
def damaged (state : EntityState) : Damage → EntityState
  | .dropFunction name =>
    ⟨{ state.record with functions := state.record.functions.erase name }, state.members⟩
  | .dropVariable name =>
    ⟨{ state.record with vars := Names.remove state.record.vars name }, state.members⟩
  | .dropMember name => ⟨state.record, state.members.erase name⟩
  | .dropBinding key =>
    ⟨{ state.record with bindingPaths := Names.remove state.record.bindingPaths key },
      state.members⟩
  | .dropPath path =>
    ⟨{ state.record with reactivePaths := state.record.reactivePaths.erase path }, state.members⟩
  | .dropDependency function =>
    ⟨{ state.record with dependencies := state.record.dependencies.removeBody function },
      state.members⟩
  | .repeatVariable name position =>
    ⟨{ state.record with vars := Names.insertAt state.record.vars position name }, state.members⟩
  | .repeatBinding key position =>
    ⟨{ state.record with bindingPaths := Names.insertAt state.record.bindingPaths position key },
      state.members⟩
  | .repeatDependency function position =>
    ⟨{ state.record with
        dependencies := state.record.dependencies.insert DependencyMap.bodyKey
          (Names.insertAt state.record.dependencies.body position function) }, state.members⟩

end EntityState

namespace Damage

/-- Whether the entity has the entry and needs it: a binding must be of a function, of a variable or
of a reactive path that is no function's data, and a reactive path of a member.  Any binding may be
listed again. -/
def Hits (state : EntityState) : Damage → Prop
  | dropFunction name => name ∈ state.record.functions.keys
  | dropVariable name => name ∈ state.record.vars
  | dropMember name => name ∈ state.members.keys
  | dropBinding key => key ∈ state.record.functions.keys ∨ key ∈ state.record.vars ∨
      (key ∈ state.record.reactivePaths.keys ∧
        ∀ function ∈ state.record.functions.keys, dataPath function ≠ key)
  | dropPath path => path ∈ state.record.functions.keys ∨
      path ∈ state.record.functions.keys.map dataPath ∨ path ∈ state.record.vars
  | dropDependency function => function ∈ state.record.functions.keys
  | repeatVariable name _ => name ∈ state.record.vars
  | repeatBinding key _ => key ∈ state.record.bindingPaths
  | repeatDependency function _ => function ∈ state.record.functions.keys

instance (state : EntityState) : (damage : Damage) → Decidable (damage.Hits state)
  | dropFunction name => inferInstanceAs (Decidable (name ∈ state.record.functions.keys))
  | dropVariable name => inferInstanceAs (Decidable (name ∈ state.record.vars))
  | dropMember name => inferInstanceAs (Decidable (name ∈ state.members.keys))
  | dropBinding _ =>
    inferInstanceAs (Decidable (_ ∨ _ ∨ (_ ∧ ∀ _ ∈ state.record.functions.keys, _)))
  | dropPath _ => inferInstanceAs (Decidable (_ ∨ _ ∨ _))
  | dropDependency function => inferInstanceAs (Decidable (function ∈ state.record.functions.keys))
  | repeatVariable name _ => inferInstanceAs (Decidable (name ∈ state.record.vars))
  | repeatBinding key _ => inferInstanceAs (Decidable (key ∈ state.record.bindingPaths))
  | repeatDependency function _ =>
    inferInstanceAs (Decidable (function ∈ state.record.functions.keys))

end Damage

namespace EntityState

variable {state : EntityState}

/-! ### Dropped members -/

/-- A function that is dropped from its table leaves its member behind. -/
theorem not_consistent_dropFunction (h : state.TablesAgree) {name : String}
    (hname : name ∈ state.record.functions.keys) :
    ¬ (state.damaged (.dropFunction name)).Consistent := by
  intro hnext
  -- the member is still there, and no variable declares it
  have hmember : name ∈ state.members.keys := (h.members name).mpr (Or.inl hname)
  rcases hnext.members name hmember with hmem | hmem
  · exact ((OrderedMap.mem_keys_erase _ _ _).mp hmem).2 rfl
  · exact h.disjoint name hmem hname

/-- A variable that is dropped from the list leaves its member behind. -/
theorem not_consistent_dropVariable (h : state.TablesAgree) {name : String}
    (hname : name ∈ state.record.vars) : ¬ (state.damaged (.dropVariable name)).Consistent := by
  intro hnext
  have hmember : name ∈ state.members.keys := (h.members name).mpr (Or.inr hname)
  rcases hnext.members name hmember with hmem | hmem
  · exact h.disjoint name hname hmem
  · exact ((Names.mem_remove _ _ _).mp hmem).2 rfl

/-- A member that is dropped leaves a declaration behind. -/
theorem not_consistent_dropMember (h : state.TablesAgree) {name : String}
    (hname : name ∈ state.members.keys) : ¬ (state.damaged (.dropMember name)).Consistent := by
  intro hnext
  have hnone : name ∉ (state.members.erase name).keys :=
    fun hmem => ((OrderedMap.mem_keys_erase _ _ _).mp hmem).2 rfl
  rcases (h.members name).mp hname with hfunction | hvariable
  · obtain ⟨source, data, hmember⟩ := (hnext.functions name hfunction).member
    exact hnone (OrderedMap.mem_keys_of_get? hmember)
  · obtain ⟨value, hmember⟩ := (hnext.vars name hvariable).member
    exact hnone (OrderedMap.mem_keys_of_get? hmember)

/-! ### Dropped entries of members -/

/-- A binding that is dropped is missed by its function, its variable or its path. -/
theorem not_consistent_dropBinding (hundotted : state.record.IsUndotted) {key : String}
    (hkey : (Damage.dropBinding key).Hits state) :
    ¬ (state.damaged (.dropBinding key)).Consistent := by
  intro hnext
  have hnames : (state.damaged (.dropBinding key)).record.IsUndotted := hundotted
  have hagree := (consistent_iff_tablesAgree hnames).mp hnext
  have hmem : key ∈ Names.remove state.record.bindingPaths key := by
    rcases hkey with hfunction | hvariable | ⟨hpath, hne⟩
    · exact hagree.functionBound key hfunction
    · exact hagree.variableBound key hvariable
    · exact hagree.pathBound key hpath hne
  exact ((Names.mem_remove _ _ _).mp hmem).2 rfl

/-- A path that is dropped is missed by its function or its variable. -/
theorem not_consistent_dropPath {path : String} (hpath : (Damage.dropPath path).Hits state) :
    ¬ (state.damaged (.dropPath path)).Consistent := by
  intro hnext
  have hnone : path ∉ (state.record.reactivePaths.erase path).keys :=
    fun hmem => ((OrderedMap.mem_keys_erase _ _ _).mp hmem).2 rfl
  rcases hpath with hfunction | hdata | hvariable
  · exact hnone (OrderedMap.mem_keys_of_get? (hnext.functions path hfunction).smart)
  · obtain ⟨function, hfunction, rfl⟩ := List.mem_map.mp hdata
    exact hnone (OrderedMap.mem_keys_of_get? (hnext.functions function hfunction).template)
  · exact hnone (hnext.vars path hvariable).path

/-- A function that is dropped from the list of the body is missed there. -/
theorem not_consistent_dropDependency {function : String}
    (hfunction : function ∈ state.record.functions.keys) :
    ¬ (state.damaged (.dropDependency function)).Consistent := by
  intro hnext
  have hone : (state.record.dependencies.removeBody function).body.count function = 1 :=
    (hnext.functions function hfunction).dependency
  have hnone : function ∉ (state.record.dependencies.removeBody function).body := by
    rw [DependencyMap.removeBody, DependencyMap.body_filterBody, List.mem_filter]
    simp
  rw [List.count_eq_zero.mpr hnone] at hone
  exact absurd hone Nat.zero_ne_one

/-! ### Repeated entries -/

/-- A function that is repeated in the list of the body is there twice. -/
theorem not_consistent_repeatDependency (h : state.TablesAgree) {function : String}
    (hfunction : function ∈ state.record.functions.keys) (position : Nat) :
    ¬ (state.damaged (.repeatDependency function position)).Consistent := by
  intro hnext
  have hone : (state.damaged (.repeatDependency function position)).record.dependencies.body.count
      function = 1 := (hnext.functions function hfunction).dependency
  have hbody : (state.damaged (.repeatDependency function position)).record.dependencies.body =
      Names.insertAt state.record.dependencies.body position function := by
    rw [damaged, DependencyMap.body, OrderedMap.get?_insert, if_pos rfl, Option.getD_some]
  rw [hbody, Names.count_insertAt, h.dependency function hfunction] at hone
  exact absurd hone (by decide)

/-- Of an entity whose tables agree, every change of an entry of a member shows. -/
theorem not_consistent_damaged (hundotted : state.record.IsUndotted) (h : state.TablesAgree)
    {damage : Damage} (hhits : damage.Hits state) : ¬ (state.damaged damage).Consistent := by
  cases damage with
  | dropFunction name => exact not_consistent_dropFunction h hhits
  | dropVariable name => exact not_consistent_dropVariable h hhits
  | dropMember name => exact not_consistent_dropMember h hhits
  | dropBinding key => exact not_consistent_dropBinding hundotted hhits
  | dropPath path => exact not_consistent_dropPath hhits
  | dropDependency function => exact not_consistent_dropDependency hhits
  | repeatVariable name position =>
    exact fun hnext => Names.not_nodup_insertAt hhits position hnext.nodup_vars
  | repeatBinding key position =>
    exact fun hnext => Names.not_nodup_insertAt hhits position hnext.nodup_bindingPaths
  | repeatDependency function position => exact not_consistent_repeatDependency h hhits position

/-! ## The main theorem -/

/-- Passes of accepted bodies leave no declared name with a separator. -/
theorem isUndotted_of_synchronize {body : Body} {outcome : PassOutcome}
    (h : state.synchronize body = .ok outcome) : outcome.state.record.IsUndotted := by
  obtain ⟨hnames, rfl⟩ := synchronize_eq_ok h
  have hbody := (Body.nameError?_eq_none_iff body).mp hnames
  intro name hname
  rw [List.mem_append, mem_functions_withBody, mem_vars_withBody] at hname
  exact (hbody.segment name (List.mem_append.mpr hname)).2

/-- An inconsistent entity is refused for a violation, under the name of its record. -/
theorem exists_check_eq_error (h : ¬ state.Consistent) :
    ∃ violation, state.check = .error (.inconsistent state.record.name violation) := by
  rw [← violations_eq_nil_iff] at h
  obtain ⟨violation, rest, hcons⟩ := List.exists_cons_of_ne_nil h
  exact ⟨violation, (check_eq_error_iff _ _).mpr ⟨violation, by rw [hcons, List.head?_cons], rfl⟩⟩

/-- Damage does not touch the name of the record. -/
theorem name_damaged (state : EntityState) (damage : Damage) :
    (state.damaged damage).record.name = state.record.name := by
  cases damage <;> rfl

/-- **What the checks accept and what they notice.**  After a pass of an accepted body no declared
name holds the separator of paths.  Of an entity without such names, the checks accept exactly the
ones whose tables and members agree name by name.  If they accept it, they refuse what is left of
it once a function, a variable, a member, the binding or a reactive path of a member or the
dependency on a function is dropped, or once a variable, a binding or the dependency on a function
is listed again. -/
theorem checks_notice_damage :
    (∀ (state : EntityState) (body : Body) (outcome : PassOutcome),
      state.synchronize body = .ok outcome → outcome.state.record.IsUndotted) ∧
    ∀ state : EntityState, state.record.IsUndotted →
      (state.check = .ok () ↔ state.TablesAgree) ∧
      (state.check = .ok () → ∀ damage : Damage, damage.Hits state →
        ∃ violation, (state.damaged damage).check =
          .error (.inconsistent state.record.name violation)) := by
  refine ⟨fun state body outcome h => isUndotted_of_synchronize h, fun state hundotted => ?_⟩
  have haccepted : state.check = .ok () ↔ state.TablesAgree := by
    rw [check_eq_ok_iff, violations_eq_nil_iff, consistent_iff_tablesAgree hundotted]
  refine ⟨haccepted, fun hcheck damage hhits => ?_⟩
  have hnext := not_consistent_damaged hundotted (haccepted.mp hcheck) hhits
  rw [← name_damaged state damage]
  exact exists_check_eq_error hnext

/-- An entity with two functions and two variables, a foreign path with its binding and a stale
dependency. -/
def busyState : EntityState :=
  let declared := (((((EntityState.new "Page").addFunction "load" "() => 1" []).addVariable "x"
    .null).addFunction "run" "() => 2" []).addVariable "y" .null)
  ⟨{ declared.record with
      reactivePaths := declared.record.reactivePaths.insert "foreign" .template
      bindingPaths := declared.record.bindingPaths ++ ["foreign", "spare"]
      dependencies := declared.record.dependencies.pushBody "stale" }, declared.members⟩

/-- One change of each kind, and a second one where a table has entries of different kinds. -/
def busyDamages : List Damage :=
  [.dropFunction "load", .dropVariable "x", .dropMember "run", .dropMember "x", .dropBinding "y",
    .dropBinding "foreign", .dropPath "x", .dropPath "run.data", .dropDependency "run",
    .repeatVariable "y" 0, .repeatBinding "spare" 3, .repeatDependency "load" 1]

/-- The busy entity is accepted, its tables agree, and it is refused after each of these changes.
After a pass its names are without separators as before. -/
theorem busyState_damage_is_noticed :
    busyState.record.IsUndotted ∧ busyState.TablesAgree ∧
      (∀ damage ∈ busyDamages, damage.Hits busyState ∧ ∃ violation,
        (busyState.damaged damage).check = .error (.inconsistent "Page" violation)) ∧
      ∃ outcome, busyState.synchronize ⟨[⟨"x", "() => 3", []⟩], []⟩ = .ok outcome ∧
        outcome.state.record.IsUndotted := by
  have hundotted : busyState.record.IsUndotted := by decide
  have hcheck : busyState.check = .ok () := by decide
  have hhits : ∀ damage ∈ busyDamages, damage.Hits busyState := by decide
  obtain ⟨hpass, hchecks⟩ := checks_notice_damage
  obtain ⟨haccepted, hnoticed⟩ := hchecks busyState hundotted
  have hrun : ∃ outcome, busyState.synchronize ⟨[⟨"x", "() => 3", []⟩], []⟩ = .ok outcome :=
    ⟨_, rfl⟩
  obtain ⟨outcome, houtcome⟩ := hrun
  refine ⟨hundotted, haccepted.mp hcheck, fun damage hdamage => ?_, outcome, houtcome,
    hpass _ _ outcome houtcome⟩
  exact ⟨hhits damage hdamage, hnoticed hcheck damage (hhits damage hdamage)⟩

end EntityState

end ScriptStore
