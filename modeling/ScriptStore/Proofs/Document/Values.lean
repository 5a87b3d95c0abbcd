import ScriptStore.Document.Encode
import ScriptStore.Proofs.Json.Values

/-!
# The values that a store carries

The user values in a store are the data of functions, the values of variables and the default values
of arguments.  They are all that a document of the store can be deep with: it has members at the
fourth level and arguments at the seventh (`Store.fits_toJson_iff`).
-/

namespace ScriptStore

/-- What holds of all lookups holds of all entries. -/
theorem OrderedMap.forall_entries_iff {α : Type} (m : OrderedMap α) (p : α → Prop) :
    (∀ entry ∈ m.entries, p entry.2) ↔ ∀ key value, m.get? key = some value → p value := by
  constructor
  · intro h key value hget
    exact h (key, value) ((Entries.mem_iff_get? m.nodup_keys key value).mpr hget)
  · rintro h ⟨key, value⟩ hentry
    exact h key value ((Entries.mem_iff_get? m.nodup_keys key value).mp hentry)

/-! ## Carried values -/

/-- The default value of an argument, if there is one, has the property. -/
def Argument.ValuesSatisfy (p : Json → Prop) (argument : Argument) : Prop :=
  ∀ value, argument.value = some value → p value

/-- The default values of all functions have the property. -/
def Record.ValuesSatisfy (p : Json → Prop) (record : Record) : Prop :=
  ∀ name data, record.functions.get? name = some data →
    ∀ argument ∈ data.arguments, argument.ValuesSatisfy p

/-- The data of a function or the value of a variable. -/
def Member.payload : Member → Json
  | .function _ data => data
  | .var value => value

/-- The data and values of all members have the property. -/
def MemberTree.ValuesSatisfy (p : Json → Prop) (members : MemberTree) : Prop :=
  ∀ name member, members.get? name = some member → p member.payload

/-- The members and the arguments of all entities have these properties. -/
structure Store.ValuesSatisfy (member argument : Json → Prop) (store : Store) : Prop where
  trees : ∀ entity tree, store.tree? entity = some tree → tree.ValuesSatisfy member
  records : ∀ entity record, store.record? entity = some record → record.ValuesSatisfy argument

/-- What is carried has all weaker properties too. -/
theorem Store.ValuesSatisfy.mono {member argument member' argument' : Json → Prop} {store : Store}
    (h : store.ValuesSatisfy member argument) (hmember : ∀ value, member value → member' value)
    (hargument : ∀ value, argument value → argument' value) :
    store.ValuesSatisfy member' argument' where
  trees entity tree htree name m hm := hmember _ (h.trees entity tree htree name m hm)
  records entity record hrecord name data hdata argument hargument' value hvalue :=
    hargument _ (h.records entity record hrecord name data hdata argument hargument' value hvalue)

/-! ## Documents that fit -/

section Fits

open Json

variable {room : Nat}

/-- Empty data takes one level. -/
theorem fits_emptyData : Fits (room + 1) emptyData :=
  (fits_obj_iff []).mpr ⟨List.nodup_nil, List.forall_mem_nil _⟩

/-- A map takes up one level more than its values. -/
theorem fits_ofMap_iff {α : Type} (write : α → Json) (m : OrderedMap α) :
    Fits (room + 1) (ofMap write m) ↔ ∀ entry ∈ m.entries, Fits room (write entry.2) := by
  rw [ofMap, fits_obj_iff, Entries.keys_mapValues, and_iff_right m.nodup_keys, Entries.mapValues,
    List.forall_mem_map]

/-- A list takes up one level more than its items. -/
theorem fits_arr_map_iff {α : Type} (write : α → Json) (items : List α) :
    Fits (room + 1) (.arr (items.map write)) ↔ ∀ item ∈ items, Fits room (write item) := by
  rw [fits_arr_iff, List.forall_mem_map]

/-- An object whose field names are given differs from its fields by one level. -/
theorem fits_fields_iff {fields : List (String × Json)} (h : (Entries.keys fields).Nodup) :
    Fits (room + 1) (.obj fields) ↔ ∀ field ∈ fields, Fits room field.2 := by
  rw [fits_obj_iff, and_iff_right h]

/-- A list of texts takes up one level. -/
theorem fits_ofStrings (strings : List String) : Fits (room + 1) (ofStrings strings) :=
  (fits_arr_map_iff _ _).mpr fun text _ => fits_str text

/-- An argument takes up one level more than its default value. -/
theorem Argument.fits_toJson_iff (argument : Argument) :
    Fits (room + 1) argument.toJson ↔ argument.ValuesSatisfy (Fits room) := by
  obtain ⟨name, value⟩ := argument
  cases value with
  | none =>
    rw [toJson, optionalField, fits_fields_iff (by simp)]
    simp [ValuesSatisfy]
  | some value =>
    rw [toJson, optionalField, fits_fields_iff (by simp)]
    simp [ValuesSatisfy]

/-- Metadata take up three levels more than the default values. -/
theorem FunctionMeta.fits_toJson_iff (data : FunctionMeta) :
    Fits (room + 3) data.toJson ↔
      ∀ argument ∈ data.arguments, argument.ValuesSatisfy (Fits room) := by
  rw [toJson, fits_fields_iff (by simp), argumentsToJson]
  simp [fits_arr_map_iff, Argument.fits_toJson_iff]

theorem DependencyMap.fits_toJson (dependencies : DependencyMap) :
    Fits (room + 2) dependencies.toJson :=
  (fits_ofMap_iff _ _).mpr fun entry _ => fits_ofStrings entry.2

theorem fits_bindingPathToJson (key : String) : Fits (room + 1) (bindingPathToJson key) := by
  rw [bindingPathToJson, fits_fields_iff (by simp)]
  simp

/-- The arguments of a record lie at the fifth level below it. -/
theorem Record.fits_toJson_iff (record : Record) :
    Fits (room + 5) record.toJson ↔ record.ValuesSatisfy (Fits room) := by
  have hpaths : Fits (room + 4) (ofMap Substitution.toJson record.reactivePaths) :=
    (fits_ofMap_iff _ _).mpr fun entry _ => fits_str _
  have hbindings : Fits (room + 4) (.arr (record.bindingPaths.map bindingPathToJson)) :=
    (fits_arr_map_iff _ _).mpr fun key _ => fits_bindingPathToJson key
  have hvars : Fits (room + 4) (ofStrings record.vars) := fits_ofStrings _
  have hdependencies : Fits (room + 4) record.dependencies.toJson := DependencyMap.fits_toJson _
  rw [toJson, fits_fields_iff (by simp)]
  simp only [List.forall_mem_cons, List.not_mem_nil, false_implies, implies_true, fits_str, hpaths,
    hbindings, hvars, hdependencies, fits_ofMap_iff, true_and, and_true,
    FunctionMeta.fits_toJson_iff]
  exact OrderedMap.forall_entries_iff record.functions fun data =>
    ∀ argument ∈ data.arguments, argument.ValuesSatisfy (Fits room)

/-- A member takes up one level more than its value or its data. -/
theorem Member.fits_toJson_iff (member : Member) :
    Fits (room + 1) member.toJson ↔ Fits room member.payload := by
  cases member with
  | function source data =>
    rw [toJson, fits_fields_iff (by simp)]
    simp [payload]
  | var value =>
    rw [toJson, fits_fields_iff (by simp)]
    simp [payload]

/-- A subtree takes up two levels more than its values and data. -/
theorem MemberTree.fits_toJson_iff (members : MemberTree) :
    Fits (room + 2) members.toJson ↔ members.ValuesSatisfy (Fits room) := by
  rw [toJson, fits_ofMap_iff]
  simp only [Member.fits_toJson_iff]
  exact OrderedMap.forall_entries_iff members fun member => Fits room member.payload

/-- **Documents fit** into seven levels more than the arguments and four more than the members. -/
theorem Store.fits_toJson_iff (store : Store) :
    Fits (room + 7) store.toJson ↔ store.ValuesSatisfy (Fits (room + 3)) (Fits room) := by
  rw [toJson, fits_fields_iff (by simp), Forest.toJson]
  simp only [List.forall_mem_cons, List.not_mem_nil, false_implies, implies_true, and_true,
    fits_ofMap_iff, Record.fits_toJson_iff, MemberTree.fits_toJson_iff]
  constructor
  · rintro ⟨hrecords, htrees⟩
    exact ⟨(OrderedMap.forall_entries_iff store.trees _).mp htrees,
      (OrderedMap.forall_entries_iff store.configs _).mp hrecords⟩
  · rintro ⟨htrees, hrecords⟩
    exact ⟨(OrderedMap.forall_entries_iff store.configs _).mpr hrecords,
      (OrderedMap.forall_entries_iff store.trees _).mpr htrees⟩

end Fits

end ScriptStore
