import ScriptStore.Proofs.OrderedMap
import ScriptStore.Json.Basic

/-!
# Values by their parts

Induction over values, the numbers of a value, and the two things that a reader guarantees of the
values it gives: no object repeats a key, and arrays and objects are nested only so deep
(`Json.Fits`).
-/

namespace ScriptStore

namespace Json

/-! ## Induction -/

/-- A property holds of all values if arrays have it with their items and objects with their
fields. -/
@[elab_as_elim]
theorem inductionOn {motive : Json → Prop} (value : Json) (null : motive .null)
    (bool : ∀ value, motive (.bool value)) (num : ∀ value, motive (.num value))
    (str : ∀ value, motive (.str value))
    (arr : ∀ items, (∀ item ∈ items, motive item) → motive (.arr items))
    (obj : ∀ fields, (∀ field ∈ fields, motive field.2) → motive (.obj fields)) :
    motive value :=
  @Json.rec motive (fun items => ∀ item ∈ items, motive item)
    (fun fields => ∀ field ∈ fields, motive field.2) (fun field => motive field.2)
    null bool num str arr obj
    nofun (fun _ _ hfirst hrest => List.forall_mem_cons.mpr ⟨hfirst, hrest⟩)
    nofun (fun _ _ hfirst hrest => List.forall_mem_cons.mpr ⟨hfirst, hrest⟩)
    (fun _ _ hvalue => hvalue) value

/-! ## Numbers -/

mutual
/-- The numbers of a value, in order. -/
def numbers : Json → List Number
  | .num value => [value]
  | .arr items => numbersOfItems items
  | .obj fields => numbersOfFields fields
  | _ => []

/-- The numbers of items. -/
def numbersOfItems : List Json → List Number
  | [] => []
  | item :: rest => numbers item ++ numbersOfItems rest

/-- The numbers of field values. -/
def numbersOfFields : List (String × Json) → List Number
  | [] => []
  | (_, value) :: rest => numbers value ++ numbersOfFields rest
end

/-- The numbers of an item are numbers of the array. -/
theorem numbers_subset_of_mem_items {item : Json} {items : List Json} (h : item ∈ items) :
    item.numbers ⊆ numbersOfItems items := by
  induction items with
  | nil => cases h
  | cons first rest ih =>
    rw [numbersOfItems]
    rcases List.mem_cons.mp h with rfl | hrest
    · exact List.subset_append_left _ _
    · exact List.Subset.trans (ih hrest) (List.subset_append_right _ _)

/-- The numbers of a field are numbers of the object. -/
theorem numbers_subset_of_mem_fields {field : String × Json} {fields : List (String × Json)}
    (h : field ∈ fields) : field.2.numbers ⊆ numbersOfFields fields := by
  induction fields with
  | nil => cases h
  | cons first rest ih =>
    obtain ⟨key, value⟩ := first
    rw [numbersOfFields]
    rcases List.mem_cons.mp h with rfl | hrest
    · exact List.subset_append_left _ _
    · exact List.Subset.trans (ih hrest) (List.subset_append_right _ _)

/-! ## Nesting -/

/-- Items are no deeper than the room if each of them is not. -/
theorem depthItems_le_iff (items : List Json) (room : Nat) :
    depthItems items ≤ room ↔ ∀ item ∈ items, item.depth ≤ room := by
  induction items with
  | nil => simp [depthItems]
  | cons first rest ih => rw [depthItems, Nat.max_le, ih, List.forall_mem_cons]

/-- Fields are no deeper than the room if each of their values is not. -/
theorem depthFields_le_iff (fields : List (String × Json)) (room : Nat) :
    depthFields fields ≤ room ↔ ∀ field ∈ fields, field.2.depth ≤ room := by
  induction fields with
  | nil => simp [depthFields]
  | cons first rest ih =>
    obtain ⟨key, value⟩ := first
    rw [depthFields, Nat.max_le, ih, List.forall_mem_cons]

/-! ## Keys -/

/-- No object of the value repeats a key. -/
inductive DistinctKeys : Json → Prop
  | null : DistinctKeys .null
  | bool (value : Bool) : DistinctKeys (.bool value)
  | num (value : Number) : DistinctKeys (.num value)
  | str (value : String) : DistinctKeys (.str value)
  | arr {items : List Json} (h : ∀ item ∈ items, DistinctKeys item) : DistinctKeys (.arr items)
  | obj {fields : List (String × Json)} (hnd : (Entries.keys fields).Nodup)
    (h : ∀ field ∈ fields, DistinctKeys field.2) : DistinctKeys (.obj fields)

/-- Keys are distinct in an array if they are in its items. -/
theorem distinctKeys_arr_iff (items : List Json) :
    DistinctKeys (.arr items) ↔ ∀ item ∈ items, DistinctKeys item := by
  constructor
  · rintro (_ | h)
    assumption
  · exact .arr

/-- Keys are distinct in an object if its own are and those in its fields. -/
theorem distinctKeys_obj_iff (fields : List (String × Json)) :
    DistinctKeys (.obj fields) ↔
      (Entries.keys fields).Nodup ∧ ∀ field ∈ fields, DistinctKeys field.2 := by
  constructor
  · intro h
    cases h with
    | obj hnd h => exact ⟨hnd, h⟩
  · rintro ⟨hnd, h⟩
    exact .obj hnd h

/-! ## Values that fit -/

/-- No object repeats a key, and arrays and objects are nested at most this deep. -/
def Fits (room : Nat) (value : Json) : Prop := value.DistinctKeys ∧ value.depth ≤ room

variable {room : Nat}

/-- What fits into some room fits into more. -/
theorem Fits.mono {value : Json} (h : value.Fits room) {more : Nat} (hmore : room ≤ more) :
    value.Fits more := ⟨h.1, Nat.le_trans h.2 hmore⟩

/-- Of values without repeated keys, those fit that are not too deep. -/
theorem DistinctKeys.fits_iff {value : Json} (h : value.DistinctKeys) :
    value.Fits room ↔ value.depth ≤ room := and_iff_right h

@[simp] theorem fits_null : Fits room .null := ⟨.null, Nat.zero_le _⟩

@[simp] theorem fits_bool (value : Bool) : Fits room (.bool value) := ⟨.bool value, Nat.zero_le _⟩

@[simp] theorem fits_num (value : Number) : Fits room (.num value) := ⟨.num value, Nat.zero_le _⟩

@[simp] theorem fits_str (value : String) : Fits room (.str value) := ⟨.str value, Nat.zero_le _⟩

/-- An array takes one level, and its items have the others. -/
theorem fits_arr_iff (items : List Json) :
    Fits (room + 1) (.arr items) ↔ ∀ item ∈ items, Fits room item := by
  rw [Fits, distinctKeys_arr_iff, depth, Nat.add_le_add_iff_right, depthItems_le_iff]
  constructor
  · rintro ⟨hkeys, hdepth⟩ item hitem
    exact ⟨hkeys item hitem, hdepth item hitem⟩
  · intro h
    exact ⟨fun item hitem => (h item hitem).1, fun item hitem => (h item hitem).2⟩

/-- An object takes one level, and its fields have the others. -/
theorem fits_obj_iff (fields : List (String × Json)) :
    Fits (room + 1) (.obj fields) ↔
      (Entries.keys fields).Nodup ∧ ∀ field ∈ fields, Fits room field.2 := by
  rw [Fits, distinctKeys_obj_iff, depth, Nat.add_le_add_iff_right, depthFields_le_iff, and_assoc]
  refine and_congr_right fun _ => ?_
  constructor
  · rintro ⟨hkeys, hdepth⟩ field hfield
    exact ⟨hkeys field hfield, hdepth field hfield⟩
  · intro h
    exact ⟨fun field hfield => (h field hfield).1, fun field hfield => (h field hfield).2⟩

/-- A value in an array or object needs room. -/
theorem Fits.pos_of_arr {items : List Json} (h : Fits room (.arr items)) : 0 < room :=
  Nat.lt_of_lt_of_le (Nat.succ_pos _) h.2

/-- An object takes up a level. -/
theorem Fits.pos_of_obj {fields : List (String × Json)} (h : Fits room (.obj fields)) : 0 < room :=
  Nat.lt_of_lt_of_le (Nat.succ_pos _) h.2

end Json

end ScriptStore
