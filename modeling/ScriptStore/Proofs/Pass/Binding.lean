import ScriptStore.Pass
import ScriptStore.Proofs.Consistency

/-!
# Differences keep the paths of an entity bound

That every reactive path is bound under its key is not kept by single changes: the key of a path is
another one once a function comes or goes whose data path it is.  It is kept together with a second
condition, that every declared function is bound, whether it has a path or not (`Record.Bound`).

This holds of every difference at all.  It need not come from a body: names may be repeated, unknown
or hold separators, members may be removed that are not there, and sources and values may be missing
(`EntityState.apply_keeps_bound`).
-/

namespace ScriptStore

/-! ## Bound records -/

namespace Record

/-- No path is bound twice, every function is bound, and every reactive path is bound under its key:
the function for the data path of a declared function, and the path itself otherwise. -/
structure Bound (record : Record) : Prop where
  nodup : record.bindingPaths.Nodup
  functions : ∀ function ∈ record.functions.keys, function ∈ record.bindingPaths
  paths : ∀ path ∈ record.reactivePaths.keys, record.bindingKey path ∈ record.bindingPaths

/-- Where every function is bound, data paths of functions are bound and other paths need themselves
to be. -/
theorem bindingKey_mem_iff {record : Record}
    (h : ∀ function ∈ record.functions.keys, function ∈ record.bindingPaths) (path : String) :
    record.bindingKey path ∈ record.bindingPaths ↔
      path ∈ record.bindingPaths ∨ path ∈ record.functions.keys.map dataPath := by
  by_cases howned : path ∈ record.functions.keys.map dataPath
  · obtain ⟨function, hfunction, rfl⟩ := List.mem_map.mp howned
    rw [bindingKey_dataPath hfunction]
    exact iff_of_true (h function hfunction) (Or.inr howned)
  · have hne : ∀ function ∈ record.functions.keys, dataPath function ≠ path :=
      fun function hfunction heq => howned (List.mem_map.mpr ⟨function, hfunction, heq⟩)
    rw [bindingKey_of_forall_ne hne, or_iff_left howned]

/-- Bound records without reference to keys. -/
theorem bound_iff (record : Record) :
    record.Bound ↔ record.bindingPaths.Nodup ∧
      (∀ function ∈ record.functions.keys, function ∈ record.bindingPaths) ∧
      ∀ path ∈ record.reactivePaths.keys,
        path ∈ record.bindingPaths ∨ path ∈ record.functions.keys.map dataPath := by
  constructor
  · rintro ⟨hnd, hfunctions, hpaths⟩
    exact ⟨hnd, hfunctions, fun path hpath =>
      (bindingKey_mem_iff hfunctions path).mp (hpaths path hpath)⟩
  · rintro ⟨hnd, hfunctions, hpaths⟩
    exact ⟨hnd, hfunctions, fun path hpath =>
      (bindingKey_mem_iff hfunctions path).mpr (hpaths path hpath)⟩

/-- A new record is bound. -/
theorem bound_new (name : String) : (new name).Bound where
  nodup := List.nodup_nil
  functions _ hfunction := absurd hfunction List.not_mem_nil
  paths _ hpath := absurd hpath List.not_mem_nil

namespace Bound

variable {record next : Record}

/-- A record stays bound when a name is bound and no path comes but that name and, if it is a
function then, its data path. -/
theorem push (h : record.Bound) (name : String)
    (hbinding : next.bindingPaths = Names.push record.bindingPaths name)
    (hfunctions : ∀ function ∈ record.functions.keys, function ∈ next.functions.keys)
    (hnew : ∀ function ∈ next.functions.keys, function ∈ record.functions.keys ∨ function = name)
    (hpaths : ∀ path ∈ next.reactivePaths.keys, path ∈ record.reactivePaths.keys ∨ path = name ∨
      (path = dataPath name ∧ name ∈ next.functions.keys)) : next.Bound := by
  obtain ⟨hnd, hbound, hkeys⟩ := record.bound_iff.mp h
  rw [bound_iff, hbinding]
  refine ⟨Names.nodup_push hnd name, fun function hfunction => ?_, fun path hpath => ?_⟩
  · rw [Names.mem_push]
    exact (hnew function hfunction).imp_left (hbound function)
  · rw [Names.mem_push]
    rcases hpaths path hpath with hold | rfl | ⟨rfl, hname⟩
    · rcases hkeys path hold with hmem | hmem
      · exact Or.inl (Or.inl hmem)
      · obtain ⟨function, hfunction, rfl⟩ := List.mem_map.mp hmem
        exact Or.inr (List.mem_map_of_mem (hfunctions function hfunction))
    · exact Or.inl (Or.inr rfl)
    · exact Or.inr (List.mem_map_of_mem hname)

/-- A record stays bound when a name is unbound that is no function then and no path any more, as
long as the data path goes with a function. -/
theorem remove (h : record.Bound) (name : String)
    (hbinding : next.bindingPaths = Names.remove record.bindingPaths name)
    (hfunctions : ∀ function, function ∈ next.functions.keys ↔
      function ∈ record.functions.keys ∧ function ≠ name)
    (hpaths : ∀ path ∈ next.reactivePaths.keys, path ∈ record.reactivePaths.keys ∧ path ≠ name ∧
      (name ∈ record.functions.keys → path ≠ dataPath name)) : next.Bound := by
  obtain ⟨hnd, hbound, hkeys⟩ := record.bound_iff.mp h
  rw [bound_iff, hbinding]
  refine ⟨Names.nodup_remove hnd name, fun function hfunction => ?_, fun path hpath => ?_⟩
  · obtain ⟨hold, hne⟩ := (hfunctions function).mp hfunction
    exact (Names.mem_remove _ _ _).mpr ⟨hbound function hold, hne⟩
  · obtain ⟨hold, hne, hdata⟩ := hpaths path hpath
    rcases hkeys path hold with hmem | hmem
    · exact Or.inl ((Names.mem_remove _ _ _).mpr ⟨hmem, hne⟩)
    -- the function that owns the path stays, or the path would have gone with it
    · obtain ⟨function, hfunction, rfl⟩ := List.mem_map.mp hmem
      have hother : function ≠ name := by
        rintro rfl
        exact hdata hfunction rfl
      exact Or.inr (List.mem_map_of_mem ((hfunctions function).mpr ⟨hfunction, hother⟩))

end Bound

end Record

/-! ## Violations about bindings -/

/-- Whether a violation is about the binding paths. -/
def Violation.aboutBindings : Violation → Bool
  | .unboundPath _ _ => true
  | .repeatedBinding _ => true
  | _ => false

/-! ## Single changes -/

namespace EntityState

variable {state : EntityState}

/-- A function comes with its path and its binding. -/
theorem bound_addFunction (h : state.record.Bound) (name source : String)
    (arguments : List Argument) : (state.addFunction name source arguments).record.Bound := by
  refine h.push name rfl ?_ ?_ ?_
  · exact fun function hfunction => (OrderedMap.mem_keys_insert _ _ _ _).mpr (Or.inl hfunction)
  · exact fun function hfunction => (OrderedMap.mem_keys_insert _ _ _ _).mp hfunction
  · intro path hpath
    have hname : name ∈ (state.addFunction name source arguments).record.functions.keys :=
      (OrderedMap.mem_keys_insert _ _ _ _).mpr (Or.inr rfl)
    rcases (OrderedMap.mem_keys_insert _ _ _ _).mp hpath with hpath | rfl
    · exact ((OrderedMap.mem_keys_insert _ _ _ _).mp hpath).imp_right Or.inl
    · exact Or.inr (Or.inr ⟨rfl, hname⟩)

/-- A function goes with its paths and its binding. -/
theorem bound_removeFunction (h : state.record.Bound) (name : String) :
    (state.removeFunction name).record.Bound := by
  refine h.remove name rfl (OrderedMap.mem_keys_erase _ _) fun path hpath => ?_
  obtain ⟨hpath, hdata⟩ := (OrderedMap.mem_keys_erase _ _ _).mp hpath
  obtain ⟨hold, hne⟩ := (OrderedMap.mem_keys_erase _ _ _).mp hpath
  exact ⟨hold, hne, fun _ => hdata⟩

/-- A variable comes with its path and its binding. -/
theorem bound_addVariable (h : state.record.Bound) (name : String) (value : Json) :
    (state.addVariable name value).record.Bound := by
  refine h.push name rfl (fun _ => id) (fun _ => Or.inl) fun path hpath => ?_
  exact ((OrderedMap.mem_keys_insert _ _ _ _).mp hpath).imp_right Or.inl

/-- A variable goes with its path and its binding, unless a function has its name. -/
theorem bound_removeVariable (h : state.record.Bound) (name : String) :
    (state.removeVariable name).record.Bound := by
  unfold removeVariable
  split
  -- a function keeps the path and the binding of its name
  · exact ⟨h.nodup, h.functions, h.paths⟩
  · rename_i hfunction
    rw [Record.hasFunction_iff] at hfunction
    refine Record.Bound.remove h name rfl (fun function => ?_) fun path hpath => ?_
    · constructor
      · exact fun hmem => ⟨hmem, fun heq => hfunction (heq ▸ hmem)⟩
      · exact And.left
    · obtain ⟨hold, hne⟩ := (OrderedMap.mem_keys_erase _ _ _).mp hpath
      exact ⟨hold, hne, fun hmem => absurd hmem hfunction⟩

/-- No change of a function breaks a binding. -/
theorem bound_applyFunctionChange (h : state.record.Bound) (change : FunctionChange) :
    (state.applyFunctionChange change).record.Bound := by
  unfold applyFunctionChange
  split
  · exact bound_addFunction h _ _ _
  · exact h
  · exact bound_removeFunction h _
  · exact h

/-- No change of a variable breaks a binding. -/
theorem bound_applyVariableChange (h : state.record.Bound) (change : VariableChange) :
    (state.applyVariableChange change).record.Bound := by
  unfold applyVariableChange
  split
  · exact bound_addVariable h _ _
  · exact h
  · exact bound_removeVariable h _
  · exact h

/-! ## Differences -/

/-- Whatever the changes of a difference are, a record that is bound stays so. -/
theorem bound_apply (h : state.record.Bound) (diff : EntityDiff) :
    (state.apply diff).record.Bound := by
  have hfunctions : (diff.functions.foldl applyFunctionChange state).record.Bound :=
    List.foldlRecOn (motive := fun s => s.record.Bound) diff.functions applyFunctionChange h
      fun _ hbound change _ => bound_applyFunctionChange hbound change
  exact List.foldlRecOn (motive := fun s => s.record.Bound) diff.vars applyVariableChange hfunctions
    fun _ hbound change _ => bound_applyVariableChange hbound change

/-- A function that is not bound spoils the next difference: its data path is bound under itself
when it comes, and has to be bound under the function. -/
example :
    let state : EntityState :=
      ⟨{ Record.new "Page" with functions := OrderedMap.ofList [("run", .declared [])] }, ∅⟩
    let next := state.apply ⟨"Page", [], [⟨"run.data", .added, some .null⟩]⟩
    state.record.reactivePaths.keys.flatMap state.pathViolations = [] ∧
      next.record.reactivePaths.keys.flatMap next.pathViolations =
        [.unboundPath "run.data" "run"] := by decide

/-- The records to which differences lead from an empty one, whatever the members are each time. -/
inductive ReachedByDiffs (name : String) : Record → Prop where
  | new : ReachedByDiffs name (Record.new name)
  | apply (state : EntityState) (diff : EntityDiff) :
    ReachedByDiffs name state.record → ReachedByDiffs name (state.apply diff).record

/-- Whatever differences are applied, the record stays bound. -/
theorem bound_of_reachedByDiffs {name : String} {record : Record} (h : ReachedByDiffs name record) :
    record.Bound := by
  induction h with
  | new => exact Record.bound_new name
  | apply state diff _ ih => exact bound_apply ih diff

/-! ## Reports about bindings -/

/-- No violation of a function is about the binding paths. -/
theorem aboutBindings_of_mem_functionViolations {function : String} {violation : Violation}
    (h : violation ∈ state.functionViolations function) : violation.aboutBindings = false := by
  unfold functionViolations dependencyViolations functionMemberViolations at h
  rw [List.mem_append, List.mem_append, List.mem_append] at h
  rcases h with ((h | h) | h) | h
  · rw [Violation.eq_of_mem_unless h]
    rfl
  · rw [Violation.eq_of_mem_unless h]
    rfl
  · split at h
    · rw [List.mem_singleton.mp h]
      rfl
    · cases h
    · rw [List.mem_singleton.mp h]
      rfl
  · split at h
    · cases h
    · rw [List.mem_singleton.mp h]
      rfl
    · rw [List.mem_singleton.mp h]
      rfl

/-- No violation of a variable is about the binding paths. -/
theorem aboutBindings_of_mem_variableViolations {before : List String} {name : String}
    {violation : Violation} (h : violation ∈ state.variableViolations before name) :
    violation.aboutBindings = false := by
  unfold variableViolations variableMemberViolations at h
  rw [List.mem_append, List.mem_append, List.mem_append] at h
  rcases h with ((h | h) | h) | h
  · rw [Violation.eq_of_mem_unless h]
    rfl
  · rw [Violation.eq_of_mem_unless h]
    rfl
  · rw [Violation.eq_of_mem_unless h]
    rfl
  · split at h
    · cases h
    · rw [List.mem_singleton.mp h]
      rfl
    · rw [List.mem_singleton.mp h]
      rfl

/-- Nothing that is found about variables is about bindings. -/
theorem aboutBindings_of_mem_variableListViolations {before names : List String}
    {violation : Violation} (h : violation ∈ state.variableListViolations before names) :
    violation.aboutBindings = false := by
  induction names generalizing before with
  | nil => cases h
  | cons name rest ih =>
    rcases List.mem_append.mp h with h | h
    · exact aboutBindings_of_mem_variableViolations h
    · exact ih h

/-- Of a bound record the checks report neither an unbound path nor a repeated binding. -/
theorem aboutBindings_of_bound (hbound : state.record.Bound) {violation : Violation}
    (h : violation ∈ state.violations) : violation.aboutBindings = false := by
  have hpaths : state.record.reactivePaths.keys.flatMap state.pathViolations = [] :=
    List.flatMap_eq_nil_iff.mpr fun path hpath =>
      (pathViolations_eq_nil_iff state path).mpr (hbound.paths path hpath)
  have hrepeats : Names.repeats [] state.record.bindingPaths = [] :=
    (Names.repeats_eq_nil_iff _ _).mpr ⟨hbound.nodup, fun _ _ => List.not_mem_nil⟩
  unfold violations at h
  rw [hpaths, hrepeats, List.map_nil, List.append_nil, List.nil_append, List.mem_append,
    List.mem_append] at h
  rcases h with (h | h) | h
  · obtain ⟨function, -, hfunction⟩ := List.mem_flatMap.mp h
    exact aboutBindings_of_mem_functionViolations hfunction
  · exact aboutBindings_of_mem_variableListViolations h
  · obtain ⟨name, -, hname⟩ := List.mem_flatMap.mp h
    rw [Violation.eq_of_mem_unless hname]
    rfl

/-! ## The main theorem -/

/-- **Differences keep what is bound.**  Whatever the members, applying any difference to a bound
record gives a bound record.  So whichever differences are applied one after the other to an empty
record, all of its reactive paths are bound under their keys, and the checks report neither a path
nor a binding. -/
theorem apply_keeps_bound :
    (∀ (state : EntityState) (diff : EntityDiff), state.record.Bound →
      (state.apply diff).record.Bound) ∧
    ∀ (name : String) (record : Record), ReachedByDiffs name record →
      record.Bound ∧ ∀ members : MemberTree,
        ∀ violation ∈ (EntityState.mk record members).violations,
          violation.aboutBindings = false := by
  refine ⟨fun state diff h => bound_apply h diff, fun name record h => ?_⟩
  have hbound := bound_of_reachedByDiffs h
  exact ⟨hbound, fun members violation hviolation => aboutBindings_of_bound hbound hviolation⟩

/-- A difference of another entity that contradicts itself: names with separators, a function that
is also removed, a variable that takes its name twice, members that are not there, and additions
without source or value. -/
def contradictoryDiff : EntityDiff where
  entity := "Elsewhere"
  functions := [⟨"run.data", .added, some "() => 1", []⟩, ⟨"run", .added, some "() => 2", []⟩,
    ⟨"run.data", .removed, none, []⟩, ⟨"ghost", .removed, some "() => 3", []⟩,
    ⟨"load", .added, none, [⟨"id", none⟩]⟩, ⟨"run", .unchanged, some "() => 4", []⟩]
  vars := [⟨"run", .added, some .null⟩, ⟨"run", .added, some (.str "again")⟩,
    ⟨"run.data.data", .added, some .null⟩, ⟨"ghost", .removed, none⟩, ⟨"x", .added, none⟩,
    ⟨"y", .modified, some .null⟩, ⟨"run", .removed, none⟩]

/-- Applied twice to an empty record, the difference leaves it bound, though not consistent. -/
theorem contradictoryDiff_keeps_bound :
    let once := (EntityState.new "Page").apply contradictoryDiff
    let twice : EntityState := ⟨(once.apply contradictoryDiff).record, ∅⟩
    once.record.Bound ∧ ReachedByDiffs "Page" twice.record ∧ twice.record.Bound ∧
      .functionWithoutMember "run" ∈ twice.violations ∧
      ∀ violation ∈ twice.violations, violation.aboutBindings = false := by
  intro once twice
  obtain ⟨hstep, hrun⟩ := apply_keeps_bound
  have honce : once.record.Bound := hstep _ contradictoryDiff (Record.bound_new "Page")
  have hreached : ReachedByDiffs "Page" twice.record :=
    .apply once contradictoryDiff (.apply (EntityState.new "Page") contradictoryDiff .new)
  obtain ⟨htwice, hreport⟩ := hrun "Page" twice.record hreached
  exact ⟨honce, hreached, htwice, by decide, hreport ∅⟩

end EntityState

end ScriptStore
