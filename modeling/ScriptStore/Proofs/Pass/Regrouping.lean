import ScriptStore.Proofs.Json.Values
import ScriptStore.Proofs.Pass.Classification

/-!
# Arrays and their leaves

What loose comparison sees of an array is the list of its leaves: nested arrays are replaced by
their own leaves, and an empty one by `null`.  The text of an array is that of the flat array of its
leaves (`Json.text_leavesOfItems`), so a variable whose array is grouped in another way counts as
unchanged.

At the top an empty array has no leaf at all.  Inside another array it has one, as the place that it
takes up shows in the text.
-/

namespace ScriptStore

namespace Json

/-! ## Leaves -/

mutual
/-- The leaves that a value has inside an array: those of its items for an array that has items,
`null` for an empty one, and the value itself otherwise. -/
def leaves : Json → List Json
  | .arr [] => [.null]
  | .arr (item :: rest) => leaves item ++ leavesOfItems rest
  | .null => [.null]
  | .bool value => [.bool value]
  | .num value => [.num value]
  | .str value => [.str value]
  | .obj fields => [.obj fields]

/-- The leaves of the array of these items. -/
def leavesOfItems : List Json → List Json
  | [] => []
  | item :: rest => leaves item ++ leavesOfItems rest
end

/-- The leaves of an array are those of its items. -/
theorem leaves_arr_of_ne_nil {items : List Json} (h : items ≠ []) :
    leaves (.arr items) = leavesOfItems items := by
  cases items with
  | nil => exact absurd rfl h
  | cons item rest => rw [leaves, leavesOfItems]

/-- A leaf of items is a leaf of one of them. -/
theorem mem_leavesOfItems (items : List Json) (leaf : Json) :
    leaf ∈ leavesOfItems items ↔ ∃ item ∈ items, leaf ∈ item.leaves := by
  induction items with
  | nil => simp [leavesOfItems]
  | cons first rest ih => rw [leavesOfItems, List.mem_append, ih, List.exists_mem_cons_iff]

/-- Every value has leaves, as an empty array is one. -/
theorem leaves_ne_nil (value : Json) : value.leaves ≠ [] := by
  induction value using inductionOn with
  | arr items ih =>
    cases items with
    | nil => exact List.cons_ne_nil _ _
    | cons first rest =>
      rw [leaves]
      exact List.append_ne_nil_of_left_ne_nil (ih first List.mem_cons_self) _
  | _ => exact List.cons_ne_nil _ _

theorem leavesOfItems_cons_ne_nil (first : Json) (rest : List Json) :
    leavesOfItems (first :: rest) ≠ [] := by
  rw [leavesOfItems]
  exact List.append_ne_nil_of_left_ne_nil first.leaves_ne_nil _

/-- A leaf is not an array. -/
theorem ne_arr_of_mem_leaves {value leaf : Json} (h : leaf ∈ value.leaves) (items : List Json) :
    leaf ≠ .arr items := by
  induction value using inductionOn with
  | arr inner ih =>
    cases inner with
    | nil =>
      rw [List.mem_singleton.mp h]
      exact Json.noConfusion
    | cons first rest =>
      rw [leaves_arr_of_ne_nil (List.cons_ne_nil first rest), mem_leavesOfItems] at h
      obtain ⟨item, hitem, hleaf⟩ := h
      exact ih item hitem hleaf
  | _ =>
    rw [List.mem_singleton.mp h]
    exact Json.noConfusion

/-- No leaf of items is an array with items. -/
theorem ne_arr_of_mem_leavesOfItems {items : List Json} {leaf : Json}
    (h : leaf ∈ leavesOfItems items) (inner : List Json) : leaf ≠ .arr inner := by
  obtain ⟨item, -, hleaf⟩ := (mem_leavesOfItems items leaf).mp h
  exact ne_arr_of_mem_leaves hleaf inner

/-! ## Texts of arrays -/

/-- The text of a value inside an array. -/
def itemText (item : Json) : String := if item.isNull then "" else item.text

/-- Items are written one by one. -/
theorem itemTexts_eq_map (items : List Json) : itemTexts items = items.map itemText := by
  induction items with
  | nil => rfl
  | cons first rest ih => rw [itemTexts, ih, List.map_cons, itemText]

/-- An array is written as its items, with commas between them. -/
theorem text_arr (items : List Json) :
    text (.arr items) = String.intercalate "," (items.map itemText) := by
  rw [text, itemTexts_eq_map]

/-- If each item has the text of its leaves, joined with commas, then so has the array. -/
theorem intercalate_leavesOfItems {items : List Json}
    (h : ∀ item ∈ items, String.intercalate "," (item.leaves.map itemText) = item.itemText) :
    String.intercalate "," ((leavesOfItems items).map itemText) =
      String.intercalate "," (items.map itemText) := by
  induction items with
  | nil => rfl
  | cons first rest ih =>
    obtain ⟨hfirst, hrest⟩ := List.forall_mem_cons.mp h
    rw [leavesOfItems, List.map_append, List.map_cons]
    cases rest with
    | nil =>
      rw [leavesOfItems, List.map_nil, List.append_nil, hfirst]
      exact String.intercalate_singleton.symm
    | cons second others =>
      -- both parts have leaves, so exactly one comma stands between their texts
      have hleft : first.leaves.map itemText ≠ [] := mt List.map_eq_nil_iff.mp first.leaves_ne_nil
      have hright : (leavesOfItems (second :: others)).map itemText ≠ [] :=
        mt List.map_eq_nil_iff.mp (leavesOfItems_cons_ne_nil second others)
      have hitems : (second :: others).map itemText ≠ [] :=
        mt List.map_eq_nil_iff.mp (List.cons_ne_nil second others)
      rw [String.intercalate_append_of_ne_nil hleft hright, hfirst, ih hrest,
        String.intercalate_cons_of_ne_nil hitems]

/-- A value is written as its leaves are, with commas between them. -/
theorem intercalate_leaves (value : Json) :
    String.intercalate "," (value.leaves.map itemText) = value.itemText := by
  induction value using inductionOn with
  | arr items ih =>
    have htext : itemText (.arr items) = String.intercalate "," (items.map itemText) :=
      text_arr items
    cases items with
    | nil => rfl
    | cons first rest =>
      rw [leaves_arr_of_ne_nil (List.cons_ne_nil first rest), intercalate_leavesOfItems ih, htext]
  | _ => exact String.intercalate_singleton

/-- The flat array of the leaves has the text of the array. -/
theorem text_leavesOfItems (items : List Json) :
    text (.arr (leavesOfItems items)) = text (.arr items) := by
  rw [text_arr, text_arr]
  exact intercalate_leavesOfItems fun item _ => item.intercalate_leaves

/-- Arrays with the same leaves are the same under loose comparison. -/
theorem changed_of_leavesOfItems_eq {old new : List Json}
    (h : leavesOfItems old = leavesOfItems new) : changed (some (.arr old)) (.arr new) = false := by
  have hold : truthy (.arr old) = true := rfl
  have hnew : truthy (.arr new) = true := rfl
  rw [changed_eq_false_iff_text_eq hold hnew, ← text_leavesOfItems old, h, text_leavesOfItems]

/-! ## Empty texts -/

/-- Inside an array only `null`, the empty text and other arrays can have an empty text. -/
theorem itemText_eq_empty_iff {value : Json} (h : ∀ items, value ≠ .arr items) :
    value.itemText = "" ↔ value = .null ∨ value = .str "" := by
  constructor
  · intro hempty
    cases htruthy : value.truthy with
    | true =>
      have htext : value.itemText = value.text := by
        cases value with
        | null => cases htruthy
        | _ => rfl
      obtain ⟨items, hitems⟩ := exists_items_of_text_eq_empty htruthy (htext ▸ hempty)
      exact absurd hitems (h items)
    | false =>
      cases value with
      | null => exact Or.inl rfl
      | bool value =>
        obtain rfl : value = false := htruthy
        exact absurd hempty (by decide)
      | num value => exact absurd hempty (numberText_ne_empty value)
      | str value =>
        obtain rfl : value = "" := hempty
        exact Or.inr rfl
      | arr items => cases htruthy
      | obj fields => cases htruthy
  · rintro (rfl | rfl)
    · rfl
    · rfl

/-- The text of an array is empty exactly if it has no leaf, or only one, and that without text. -/
theorem text_arr_eq_empty_iff (items : List Json) :
    text (.arr items) = "" ↔ leavesOfItems items = [] ∨
      leavesOfItems items = [.null] ∨ leavesOfItems items = [.str ""] := by
  have hflat : ∀ leaf ∈ leavesOfItems items, ∀ inner, leaf ≠ .arr inner :=
    fun leaf hleaf inner => ne_arr_of_mem_leavesOfItems hleaf inner
  rw [← text_leavesOfItems, text_arr]
  generalize leavesOfItems items = found at hflat
  rcases found with _ | ⟨first, _ | ⟨second, rest⟩⟩
  · simp
  · rw [List.map_singleton, String.intercalate_singleton,
      itemText_eq_empty_iff (hflat first List.mem_cons_self)]
    simp
  · -- the comma between the first two leaves shows
    simp [String.append_eq_empty_iff]

end Json

namespace EntityState

open Json (leavesOfItems)

variable {state : EntityState} {body : Body}

/-! ## Regrouped variables -/

/-- A variable that is regrouped is unchanged, or added if it was not declared. -/
theorem kind_classifyVariable_of_leavesOfItems_eq {name : String} {old new : List Json}
    (hold : state.members.get? name = some (.var (.arr old)))
    (hleaves : leavesOfItems old = leavesOfItems new) :
    (state.classifyVariable ⟨name, .arr new⟩).kind =
      if name ∈ state.record.vars then .unchanged else .added := by
  have hvalue : state.members.value? name = some (.arr old) :=
    (MemberTree.value?_eq_some_iff ..).mpr hold
  rw [kind_classifyVariable, hvalue, if_pos (Json.changed_of_leavesOfItems_eq hleaves)]

/-- **Arrays count by their leaves.**  The text of an array is that of the flat array of its leaves,
and it is empty exactly if there is no leaf or a single one that is `null` or the empty text.  Hence
arrays with the same leaves are the same under loose comparison, and in no difference the variable
is modified whose array is grouped in another way: it is unchanged if the record lists it. -/
theorem arrays_count_by_leaves :
    (∀ items, Json.text (.arr items) = Json.text (.arr (leavesOfItems items)) ∧
      (∀ leaf ∈ leavesOfItems items, ∀ inner, leaf ≠ .arr inner) ∧
      (Json.text (.arr items) = "" ↔ leavesOfItems items = [] ∨
        leavesOfItems items = [.null] ∨ leavesOfItems items = [.str ""])) ∧
    ∀ old new, leavesOfItems old = leavesOfItems new →
      Json.changed (some (.arr old)) (.arr new) = false ∧
      ∀ (state : EntityState) (body : Body) (name : String), body.validate = .ok () →
        state.members.get? name = some (.var (.arr old)) → ⟨name, .arr new⟩ ∈ body.vars →
        ∃ diff, state.diff body = .ok diff ∧ .modified ∉ diff.variableKinds name ∧
          (name ∈ state.record.vars → diff.variableKinds name = [.unchanged]) := by
  constructor
  · intro items
    exact ⟨(Json.text_leavesOfItems items).symm,
      fun leaf hleaf inner => Json.ne_arr_of_mem_leavesOfItems hleaf inner,
      Json.text_arr_eq_empty_iff items⟩
  · intro old new hleaves
    refine ⟨Json.changed_of_leavesOfItems_eq hleaves, ?_⟩
    intro state body name hvalid hold hnew
    have h : body.WellNamed := (Body.validate_eq_ok_iff body).mp hvalid
    have hkinds : (state.classify body).variableKinds name =
        [if name ∈ state.record.vars then .unchanged else .added] := by
      rw [variableKinds_of_declared h hnew, kind_classifyVariable_of_leavesOfItems_eq hold hleaves]
    refine ⟨_, diff_of_wellNamed h, ?_, fun hrecorded => ?_⟩
    · rw [hkinds, List.mem_singleton]
      split <;> decide
    · rw [hkinds, if_pos hrecorded]

/-- Items with the leaves `true`, `null`, `null` and `"a"`. -/
def groupedItems : List Json := [.arr [.bool true, .arr []], .arr [.arr [.null], .str "a"]]

/-- The same leaves in other groups. -/
def regroupedItems : List Json := [.arr [.arr [.arr [.bool true]]], .arr [], .arr [.null, .str "a"]]

/-- An entity with a variable in groups. -/
def groupedState : EntityState :=
  (EntityState.new "Page").addVariable "rows" (.arr groupedItems)

/-- The variable in other groups. -/
def regroupedBody : Body := ⟨[], [⟨"rows", .arr regroupedItems⟩]⟩

/-- The variable in other groups is unchanged, and its text shows nothing but the leaves. -/
theorem groupedState_ignores_groups :
    regroupedBody.validate = .ok () ∧ groupedItems ≠ regroupedItems ∧
      leavesOfItems groupedItems = leavesOfItems regroupedItems ∧
      Json.text (.arr regroupedItems) = "true,,,a" ∧
      ∃ diff, groupedState.diff regroupedBody = .ok diff ∧
        diff.variableKinds "rows" = [.unchanged] := by
  obtain ⟨htexts, hgroups⟩ := arrays_count_by_leaves
  have hvalid : regroupedBody.validate = .ok () := by decide
  have hleaves : leavesOfItems groupedItems = leavesOfItems regroupedItems := by decide
  obtain ⟨-, hdiff⟩ := hgroups _ _ hleaves
  obtain ⟨diff, hok, -, hunchanged⟩ :=
    hdiff groupedState regroupedBody "rows" hvalid rfl List.mem_cons_self
  refine ⟨hvalid, by decide, hleaves, ?_, diff, hok, hunchanged (by decide)⟩
  rw [(htexts regroupedItems).1]
  decide

end EntityState

end ScriptStore
