import ScriptStore.Proofs.Store.Verification

/-!
# Clearing the entities of a clean store

Clearing filters a whole set of names out of every table.  Among the paths that stay, each is still
bound: the key of a path can only change from a function to the path itself, and then the path goes
with the function.  So an entity that the checks accept can always be cleared, whatever its names
and its other entries are, and what is left is accepted again
(`EntityState.Consistent.withoutMembers`).

A store is clean if its reports list no violation.  Clearing a tracked entity leaves a clean store
clean, so all of its entities can be cleared, in any order and any number of times
(`Store.Clean.run_clear`).
-/

namespace ScriptStore

namespace EntityState

/-! ## What clearing leaves -/

/-- An entity that declares nothing and has no member. -/
structure IsBare (state : EntityState) : Prop where
  functions : state.record.functions = ∅
  vars : state.record.vars = []
  members : state.members = ∅

/-- What is left of an entity that has lost its members: every table keeps the entries that belong
to none of them, in their order. -/
structure Emptied (next before : EntityState) : Prop extends IsBare next where
  name : next.record.name = before.record.name
  reactivePaths : next.record.reactivePaths.entries =
    before.record.reactivePaths.entries.filter fun entry =>
      entry.1 ∉ before.record.functions.keys ∧ entry.1 ∉ before.record.vars ∧
        entry.1 ∉ before.record.functions.keys.map dataPath
  bindingPaths : next.record.bindingPaths = before.record.bindingPaths.filter fun key =>
    key ∉ before.record.functions.keys ∧ key ∉ before.record.vars
  dependencies : next.record.dependencies.body =
    before.record.dependencies.body.filter (· ∉ before.record.functions.keys)
  otherDependencies : next.record.dependencies.AgreeWhere (· ≠ DependencyMap.bodyKey)
    before.record.dependencies

namespace Consistent

variable {state : EntityState}

/-- **Clearing keeps consistency**: the empty body asks nothing of the entity. -/
theorem withoutMembers (h : state.Consistent) : state.withoutMembers.Consistent := by
  rw [← withBody_empty, consistent_withBody_iff h Body.wellNamed_empty]
  exact List.forall_mem_nil _

/-- Clearing leaves only what belongs to no member. -/
theorem emptied_withoutMembers (h : state.Consistent) :
    state.withoutMembers.Emptied state where
  functions := rfl
  vars := rfl
  members := by
    refine OrderedMap.eraseAll_of_keys_subset _ fun name hname => ?_
    rw [List.mem_append]
    exact h.members name hname
  name := rfl
  reactivePaths := by
    refine List.filter_congr fun entry _ => ?_
    rw [decide_eq_decide, List.mem_append, List.mem_append, not_or, not_or]
    exact ⟨fun hnone => ⟨hnone.2.1, hnone.2.2, hnone.1⟩,
      fun hnone => ⟨hnone.2.2, hnone.1, hnone.2.1⟩⟩
  bindingPaths := by
    refine List.filter_congr fun key _ => ?_
    rw [decide_eq_decide, List.mem_append, not_or]
  dependencies := DependencyMap.body_filterBody _ _
  otherDependencies := DependencyMap.agreeWhere_filterBody _ _

end Consistent

end EntityState

/-! ## Clean stores -/

namespace Store

variable {store : Store} {entity : String}

/-- The reports of the store list no violation. -/
def Clean (store : Store) : Prop := ∀ report ∈ store.inspectAll, report.violations = []

/-- A store is clean if all tracked entities are found consistent and every tree has a record. -/
theorem clean_iff :
    store.Clean ↔ (∀ entity ∈ store.configs.keys, store.ConsistentOn entity) ∧
      store.orphans = [] := by
  unfold Clean inspectAll
  rw [List.forall_mem_append, List.forall_mem_map]
  refine and_congr ?_ ?_
  · constructor
    · intro h entity hentity
      obtain ⟨record, hrecord⟩ := (OrderedMap.mem_keys_iff _ _).mp hentity
      have hreport : store.inspect entity = some _ := congrArg (Option.map _) hrecord
      exact ⟨_, hreport, h _ (List.mem_filterMap.mpr ⟨entity, hentity, hreport⟩)⟩
    · intro h report hreport
      obtain ⟨entity, hentity, hinspect⟩ := List.mem_filterMap.mp hreport
      obtain ⟨found, hfound, hclean⟩ := h entity hentity
      rw [hinspect, Option.some.injEq] at hfound
      rw [hfound, hclean]
  · rw [List.eq_nil_iff_forall_not_mem]
    refine forall_congr' fun entity => ?_
    simp [orphanReport]

/-- A tree in the place of a tracked entity is no orphan. -/
theorem orphans_put (hentity : entity ∈ store.configs.keys) (state : EntityState) :
    (store.put entity state).orphans = store.orphans := by
  have htracked : ∀ name, (store.put entity state).configs.contains name =
      store.configs.contains name := by
    intro name
    rw [Bool.eq_iff_iff, OrderedMap.contains_iff, OrderedMap.contains_iff]
    show name ∈ (store.configs.insert entity state.record).keys ↔ _
    rw [OrderedMap.keys_insert, if_pos hentity]
  have hknown : store.configs.contains entity = true := (OrderedMap.contains_iff _ _).mpr hentity
  unfold orphans
  simp only [htracked]
  show (store.trees.insert entity state.members).keys.filter _ = _
  rw [OrderedMap.keys_insert]
  split
  · rfl
  · rw [List.filter_append, List.filter_cons_of_neg (by simp [hknown]), List.filter_nil,
      List.append_nil]

namespace Clean

/-- A consistent state may be put in the place of a tracked entity. -/
theorem put (h : store.Clean) (hentity : entity ∈ store.configs.keys) {state : EntityState}
    (hname : state.record.name = entity) (hstate : state.Consistent) :
    (store.put entity state).Clean := by
  rw [clean_iff] at h ⊢
  obtain ⟨hconsistent, horphans⟩ := h
  refine ⟨fun other hother => ?_, (orphans_put hentity state).trans horphans⟩
  have hkeys : other ∈ (store.configs.insert entity state.record).keys := hother
  rw [OrderedMap.keys_insert, if_pos hentity] at hkeys
  -- the other entities are as they were
  by_cases heq : entity = other
  · subst heq
    exact consistentOn_put hname ((EntityState.violations_eq_nil_iff state).mpr hstate)
  · exact (AgreeOn.put_of_ne heq store state).consistentOn (hconsistent other hkeys)

/-- The step: a tracked entity of a clean store can be cleared, with or without verification. -/
theorem clear (h : store.Clean) (hentity : entity ∈ store.configs.keys) :
    ∃ diff next, store.clear entity = .ok (some diff, next) ∧ next.Clean ∧
      next.configs.keys = store.configs.keys ∧
      (next.stateOf entity).Emptied (store.stateOf entity) ∧
      ∀ other, other ≠ entity → AgreeOn other store next := by
  obtain ⟨record, hrecord, hname, hstate⟩ :=
    consistentOn_iff.mp ((clean_iff.mp h).1 entity hentity)
  let state : EntityState := ⟨record, store.members entity⟩
  have hstateOf : store.stateOf entity = state := by
    rw [stateOf, hrecord]
    rfl
  have hcommit : store.commit entity state.clear =
      .ok (state.clearingDiff, store.put entity state.withoutMembers) :=
    commit_of_violations state.clear fun _ =>
      (EntityState.violations_eq_nil_iff _).mpr hstate.withoutMembers
  refine ⟨state.clearingDiff, store.put entity state.withoutMembers, ?_,
    h.put hentity hname hstate.withoutMembers, ?_, ?_, ?_⟩
  · rw [clear_of_filed (filed_of_record? hrecord hname), hrecord]
    dsimp only
    rw [hcommit]
    rfl
  · show (store.configs.insert entity _).keys = _
    rw [OrderedMap.keys_insert, if_pos hentity]
  · rw [stateOf_put, hstateOf]
    exact hstate.emptied_withoutMembers
  · exact fun other hne => AgreeOn.put_of_ne (Ne.symm hne) store _

/-- The run: tracked entities of a clean store can be cleared in any order. -/
theorem run_clear (h : store.Clean) {entities : List String}
    (htracked : ∀ entity ∈ entities, entity ∈ store.configs.keys) :
    ∃ diffs : List EntityDiff, ∃ last,
      store.run (entities.map .clear) = (diffs.map fun diff => .cleared (some diff), last) ∧
      last.Clean ∧ last.configs.keys = store.configs.keys ∧
      ∀ entity, (entity ∈ entities ∨ (store.stateOf entity).IsBare) →
        (last.stateOf entity).IsBare := by
  induction entities generalizing store with
  | nil =>
    refine ⟨[], store, rfl, h, rfl, ?_⟩
    rintro entity (hmem | hbare)
    · cases hmem
    · exact hbare
  | cons first rest ih =>
    rw [List.forall_mem_cons] at htracked
    obtain ⟨diff, next, hclear, hclean, hkeys, hemptied, hothers⟩ := h.clear htracked.1
    obtain ⟨diffs, last, hrun, hlast, hlastKeys, hbare⟩ := ih hclean (hkeys ▸ htracked.2)
    refine ⟨diff :: diffs, last, ?_, hlast, hlastKeys.trans hkeys, fun entity hentity => ?_⟩
    · have hperform := store.perform_clear first
      rw [hclear, settle] at hperform
      rw [List.map_cons, run_cons, hperform, hrun, List.map_cons]
    -- an entity is bare once its turn has come, and stays so
    · by_cases heq : entity = first
      · subst heq
        exact hbare entity (Or.inr hemptied.toIsBare)
      · refine hbare entity ?_
        rw [← (hothers entity heq).stateOf]
        exact hentity.imp_left fun hmem => (List.mem_cons.mp hmem).resolve_left heq

end Clean

end Store

end ScriptStore
