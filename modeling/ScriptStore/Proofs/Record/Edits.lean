import ScriptStore.Proofs.Names.Histories
import ScriptStore.Proofs.Record

/-!
# Edits of the name lists of a record

The binding paths and the dependencies of the entity body are sets in order of insertion.  An edit
pushes a name onto one of the two lists or selects the names of one that stay, and touches nothing
else of the record.  What a run of edits leaves of a list is thus told by the history of the list:
pushes of the names that it has at the start, and then the edits that are about it
(`Record.name_lists_are_ordered_sets`).
-/

namespace ScriptStore

/-- The lists of names that a record keeps without repetition. -/
inductive NameList where
  | bindings
  | dependencies
  deriving DecidableEq

namespace Record

/-- The names on a list. -/
def listed (record : Record) : NameList → List String
  | .bindings => record.bindingPaths
  | .dependencies => record.dependencies.body

namespace Edit

/-- The push of a name onto a list. -/
def push : NameList → String → Edit
  | .bindings, key => .pushBinding key
  | .dependencies, name => .pushDependency name

/-- The removal of a name from a list. -/
def remove : NameList → String → Edit
  | .bindings, key => .removeBinding key
  | .dependencies, name => .removeDependency name

/-- The change that an edit makes of a list, if it is about this one. -/
def change? : NameList → Edit → Option Names.Change
  | .bindings, .pushBinding key => some (.push key)
  | .bindings, .removeBinding key => some (.select (· ≠ key))
  | .dependencies, .pushDependency name => some (.push name)
  | .dependencies, .removeDependency name => some (.select (· ≠ name))
  | .dependencies, .filterDependencies keep => some (.select keep)
  | _, _ => none

end Edit

/-! ## Lists under edits -/

/-- An edit changes the list that it is about and leaves the other one as it is. -/
theorem listed_edit (record : Record) (edit : Edit) (list : NameList) :
    (record.edit edit).listed list =
      Names.changedBy (record.listed list) (Edit.change? list edit).toList := by
  cases list with
  | bindings => cases edit <;> rfl
  | dependencies =>
    cases edit with
    | pushBinding key => rfl
    | removeBinding key => rfl
    | pushDependency name => exact DependencyMap.body_pushBody record.dependencies name
    | removeDependency name => exact DependencyMap.body_filterBody record.dependencies _
    | filterDependencies keep => exact DependencyMap.body_filterBody record.dependencies keep

/-- The record after edits one after the other. -/
def editAll (record : Record) (edits : List Edit) : Record := edits.foldl edit record

/-- A run of edits makes of a list what the changes of this list make of it. -/
theorem listed_editAll (record : Record) (edits : List Edit) (list : NameList) :
    (record.editAll edits).listed list =
      Names.changedBy (record.listed list) (edits.filterMap (Edit.change? list)) := by
  induction edits generalizing record with
  | nil => rfl
  | cons first rest ih =>
    have hnext : ((record.edit first).editAll rest).listed list =
        Names.changedBy (record.listed list)
          ((Edit.change? list first).toList ++ rest.filterMap (Edit.change? list)) := by
      rw [ih, listed_edit, Names.changedBy_append]
    rw [editAll, List.foldl_cons, ← editAll, hnext]
    cases hchange : Edit.change? list first with
    | none => rw [List.filterMap_cons_none hchange, Option.toList_none, List.nil_append]
    | some change =>
      rw [List.filterMap_cons_some hchange, Option.toList_some, List.singleton_append]

/-- An edit lists no name twice that was not listed as often before. -/
theorem count_listed_edit_le (record : Record) (edit : Edit) (list : NameList) (name : String) :
    ((record.edit edit).listed list).count name ≤ max 1 ((record.listed list).count name) := by
  rw [listed_edit]
  cases Edit.change? list edit with
  | none => exact Nat.le_max_right _ _
  | some change => exact change.count_apply_le (record.listed list) name

theorem listed_edit_push (record : Record) (list : NameList) (name : String) :
    (record.edit (.push list name)).listed list = Names.push (record.listed list) name := by
  rw [listed_edit]
  cases list <;> rfl

theorem listed_edit_remove (record : Record) (list : NameList) (name : String) :
    (record.edit (.remove list name)).listed list = (record.listed list).filter (· ≠ name) := by
  rw [listed_edit]
  cases list <;> rfl

/-! ## Answers -/

/-- A push answers whether the name is new. -/
theorem editAnswer_push (record : Record) (list : NameList) (name : String) :
    record.editAnswer (.push list name) = some (decide (name ∉ record.listed list)) := by
  cases list with
  | bindings =>
    rw [Edit.push, editAnswer, hasBindingPath, List.contains_eq_mem, ← decide_not]
    rfl
  | dependencies =>
    rw [Edit.push, editAnswer, List.contains_eq_mem, ← decide_not]
    rfl

/-- The list of the entity body becomes shorter exactly if the removed name was on it. -/
theorem editAnswer_removeDependency (record : Record) (name : String) :
    record.editAnswer (.removeDependency name) =
      some (decide (name ∈ record.dependencies.body)) := by
  have hlength : (record.dependencies.body.filter (· ≠ name)).length =
      record.dependencies.body.length ↔ name ∉ record.dependencies.body := by
    rw [List.length_filter_eq_length_iff]
    constructor
    · intro h hname
      simpa using h name hname
    · rintro h other hother
      exact decide_eq_true fun heq => h (heq ▸ hother)
  rw [editAnswer, DependencyMap.removeBody, DependencyMap.body_filterBody, Option.some.injEq,
    Bool.eq_iff_iff, bne_iff_ne, decide_eq_true_eq, Ne, hlength, not_not]

/-! ## Everything else -/

/-- The records differ in their name lists only.  The lists of other dependencies are the same, in
the same order, and the list of the entity body is there if it was before or has been created. -/
structure DiffersInLists (record next : Record) (created : Prop) : Prop where
  rest : next =
    { record with bindingPaths := next.bindingPaths, dependencies := next.dependencies }
  otherLists : next.dependencies.AgreeWhere (· ≠ DependencyMap.bodyKey) record.dependencies
  bodyList : DependencyMap.bodyKey ∈ next.dependencies.keys ↔
    DependencyMap.bodyKey ∈ record.dependencies.keys ∨ created

theorem DiffersInLists.trans {record next last : Record} {created createdLater : Prop}
    (h : DiffersInLists record next created) (hlater : DiffersInLists next last createdLater) :
    DiffersInLists record last (created ∨ createdLater) where
  rest := by
    rw [hlater.rest, h.rest]
  otherLists := hlater.otherLists.trans h.otherLists
  bodyList := by rw [hlater.bodyList, h.bodyList, or_assoc]

theorem differsInLists_edit (record : Record) (edit : Edit) :
    DiffersInLists record (record.edit edit) (∃ name, edit = .pushDependency name) := by
  -- a removal is a selection too
  have hselect (keep : String → Bool) (selection : Edit)
      (hselection : ∀ name, selection ≠ .pushDependency name) :
      DiffersInLists record { record with dependencies := record.dependencies.filterBody keep }
        (∃ name, selection = .pushDependency name) :=
    ⟨rfl, DependencyMap.agreeWhere_filterBody record.dependencies keep, by
      simp [DependencyMap.keys_filterBody, hselection]⟩
  cases edit with
  | pushBinding key =>
    exact ⟨rfl, OrderedMap.AgreeWhere.refl _ _, by simp [edit, pushBindingPath]⟩
  | removeBinding key =>
    exact ⟨rfl, OrderedMap.AgreeWhere.refl _ _, by simp [edit, removeBindingPath]⟩
  | pushDependency name =>
    refine ⟨rfl, DependencyMap.agreeWhere_pushBodyAll record.dependencies [name], ?_⟩
    refine iff_of_true ?_ (Or.inr ⟨name, rfl⟩)
    exact (OrderedMap.mem_keys_insert ..).mpr (Or.inr rfl)
  | removeDependency name => exact hselect _ _ (by simp)
  | filterDependencies keep => exact hselect keep _ (by simp)

theorem differsInLists_editAll (record : Record) (edits : List Edit) :
    DiffersInLists record (record.editAll edits) (∃ name, .pushDependency name ∈ edits) := by
  induction edits generalizing record with
  | nil => exact ⟨rfl, OrderedMap.AgreeWhere.refl _ _, by simp [editAll]⟩
  | cons first rest ih =>
    have hcreated : (∃ name, .pushDependency name ∈ first :: rest) ↔
        (∃ name, first = .pushDependency name) ∨ ∃ name, .pushDependency name ∈ rest := by
      simp only [List.mem_cons, exists_or, eq_comm]
    rw [hcreated]
    exact (differsInLists_edit record first).trans (ih (record.edit first))

/-! ## Ordered sets -/

/-- The edits of the record are those of sets in order of insertion: a push answers whether the name
is new and appends it if it is, a removal drops every occurrence of a name, and what stays keeps its
order.  No edit repeats a name or touches anything but its list. -/
structure EditsOrderedSets (record : Record) : Prop where
  pushAnswer : ∀ list name,
    record.editAnswer (.push list name) = some (decide (name ∉ record.listed list))
  push : ∀ list name, (record.edit (.push list name)).listed list =
    if name ∈ record.listed list then record.listed list else record.listed list ++ [name]
  removeAnswer : ∀ name, record.editAnswer (.removeDependency name) =
    some (decide (name ∈ record.listed .dependencies))
  remove : ∀ list name,
    (record.edit (.remove list name)).listed list = (record.listed list).filter (· ≠ name)
  select : ∀ keep, (record.edit (.filterDependencies keep)).listed .dependencies =
    (record.listed .dependencies).filter keep
  otherList : ∀ edit list, Edit.change? list edit = none →
    (record.edit edit).listed list = record.listed list
  noRepeats : ∀ edit list name,
    ((record.edit edit).listed list).count name ≤ max 1 ((record.listed list).count name)
  rest : ∀ edit, DiffersInLists record (record.edit edit) (∃ name, edit = .pushDependency name)

theorem editsOrderedSets (record : Record) : record.EditsOrderedSets where
  pushAnswer := record.editAnswer_push
  push := record.listed_edit_push
  removeAnswer := record.editAnswer_removeDependency
  remove := record.listed_edit_remove
  select keep := record.listed_edit (.filterDependencies keep) .dependencies
  otherList edit list h := by rw [listed_edit, h, Option.toList_none]; rfl
  noRepeats := record.count_listed_edit_le
  rest := record.differsInLists_edit

/-- The history of a list under edits: the names at the start are pushed first, in their order. -/
def history (record : Record) (list : NameList) (edits : List Edit) : List Names.Change :=
  (record.listed list).map .push ++ edits.filterMap (Edit.change? list)

/-- **The name lists are ordered sets.**  Whatever record a run of edits starts from, every edit of
the run takes both lists as sets in order of insertion, the run touches nothing else, and the list
of the entity body is created only by a push onto it.  A list without repetition at the start ends
up with exactly the names that were pushed and not dropped after their last push, in the order of
the pushes that inserted them. -/
theorem name_lists_are_ordered_sets (record : Record) (edits : List Edit) :
    (record.editAll edits).EditsOrderedSets ∧
      DiffersInLists record (record.editAll edits) (∃ name, .pushDependency name ∈ edits) ∧
      ∀ list, (record.listed list).Nodup →
        Names.Reflects (record.history list edits) ((record.editAll edits).listed list) := by
  refine ⟨editsOrderedSets _, record.differsInLists_editAll edits, fun list hnodup => ?_⟩
  rw [listed_editAll]
  exact Names.reflects_changedBy hnodup _

/-- A record with two bound paths and no list of dependencies. -/
def unregisteredRecord : Record :=
  { Record.new "Page" with bindingPaths := ["load", "count"], dependencies := ∅ }

/-- Names that are dropped and come back, on either list. -/
def shufflingEdits : List Edit :=
  [.pushBinding "load", .removeBinding "load", .pushBinding "save", .pushBinding "load",
    .removeDependency "load", .pushDependency "load", .pushDependency "save",
    .keepDependencies ["save"], .pushDependency "load", .pushDependency "save"]

/-- A name that was dropped comes back last, and one that was not dropped keeps its place. -/
theorem unregisteredRecord_shuffles :
    unregisteredRecord.bindingPaths.Nodup ∧ unregisteredRecord.dependencies.body.Nodup ∧
      DependencyMap.bodyKey ∉ unregisteredRecord.dependencies.keys ∧
      DependencyMap.bodyKey ∈ (unregisteredRecord.editAll shufflingEdits).dependencies.keys ∧
      Names.Reflects (unregisteredRecord.history .bindings shufflingEdits)
        ["count", "save", "load"] ∧
      Names.Reflects (unregisteredRecord.history .dependencies shufflingEdits)
        ["save", "load"] := by
  have hbindings : (unregisteredRecord.listed .bindings).Nodup := by decide
  have hdependencies : (unregisteredRecord.listed .dependencies).Nodup := by decide
  obtain ⟨-, hdiffers, hlists⟩ := name_lists_are_ordered_sets unregisteredRecord shufflingEdits
  have hpushed : ∃ name, Edit.pushDependency name ∈ shufflingEdits :=
    ⟨"load", by simp [shufflingEdits]⟩
  exact ⟨hbindings, hdependencies, by decide, hdiffers.bodyList.mpr (Or.inr hpushed),
    hlists .bindings hbindings, hlists .dependencies hdependencies⟩

end Record

end ScriptStore
