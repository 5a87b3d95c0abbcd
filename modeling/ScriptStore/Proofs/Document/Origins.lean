import ScriptStore.Body.Reader
import ScriptStore.Document.Decode
import ScriptStore.Proofs.Document.Values
import ScriptStore.Proofs.Fallible
import ScriptStore.Proofs.Json.Limits

/-!
# Where the values of decoded documents stand

Decoding copies user values and makes none up, apart from the null and the empty object that stand
for missing ones, and it drops a default value that is null.  The same value stands at different
levels of the two documents: the value of a variable three levels below a body and four below a
store, the default value of an argument five levels below a body and seven below a store
(`Body.origins_of_ofJson`, `Store.origins_of_ofJson?`).
-/

namespace ScriptStore

/-! ## Levels of a document -/

namespace Json

/-- The items of an array or the field values of an object. -/
def parts : Json → List Json
  | .arr items => items
  | .obj fields => fields.map Prod.snd
  | _ => []

/-- The values that stand this many levels below a value. -/
def partsAt : Nat → Json → List Json
  | 0, value => [value]
  | level + 1, value => value.parts.flatMap (partsAt level)

variable {value part deep : Json}

/-- The parts of a value stand one level below it. -/
theorem mem_partsAt_one (h : part ∈ value.parts) : part ∈ value.partsAt 1 :=
  List.mem_flatMap.mpr ⟨part, h, List.mem_singleton_self part⟩

/-- What stands below a part stands one level deeper below the whole. -/
theorem mem_partsAt_succ {level : Nat} (hpart : part ∈ value.parts)
    (hdeep : deep ∈ part.partsAt level) : deep ∈ value.partsAt (level + 1) :=
  List.mem_flatMap.mpr ⟨part, hpart, hdeep⟩

/-- A part fits into the room with one level less. -/
theorem Fits.of_mem_parts {room : Nat} (h : value.Fits room) (hpart : part ∈ value.parts) :
    part.Fits (room - 1) := by
  cases value with
  | arr items =>
    obtain ⟨left, rfl⟩ := Nat.exists_eq_succ_of_ne_zero h.pos_of_arr.ne'
    exact (fits_arr_iff items).mp h part hpart
  | obj fields =>
    obtain ⟨left, rfl⟩ := Nat.exists_eq_succ_of_ne_zero h.pos_of_obj.ne'
    obtain ⟨field, hfield, rfl⟩ := List.mem_map.mp hpart
    exact ((fits_obj_iff fields).mp h).2 field hfield
  | _ => cases hpart

/-- What stands some levels below a value fits into what is left of the room. -/
theorem Fits.of_mem_partsAt {room level : Nat} (h : value.Fits room)
    (hdeep : deep ∈ value.partsAt level) : deep.Fits (room - level) := by
  induction level generalizing value room with
  | zero => exact List.mem_singleton.mp hdeep ▸ h
  | succ level ih =>
    obtain ⟨part, hpart, hdeep⟩ := List.mem_flatMap.mp hdeep
    have hfits := ih (h.of_mem_parts hpart) hdeep
    rwa [Nat.sub_sub, Nat.add_comm 1 level] at hfits

/-! ## Forms -/

/-- The field of a value is one of its parts, whether the value is an object or an array. -/
theorem mem_parts_of_get? {names : List String} {fields : List (String × Json)} {key : String}
    (hfields : value.namedFields? names = some fields) (h : Entries.get? key fields = some part) :
    part ∈ value.parts := by
  have hmem := Entries.mem_of_get? h
  cases value with
  | obj entries =>
    obtain rfl := Option.some.inj hfields
    exact List.mem_map_of_mem (f := Prod.snd) hmem
  | arr items =>
    rw [namedFields?] at hfields
    split at hfields
    · obtain rfl := Option.some.inj hfields
      exact (List.of_mem_zip hmem).2
    · cases hfields
  | _ => cases hfields

/-- The field of an object is one of its parts. -/
theorem mem_parts_of_field? {key : String}
    (h : value.field? key = some part) : part ∈ value.parts := by
  cases value with
  | obj fields => exact List.mem_map_of_mem (f := Prod.snd) (Entries.mem_of_get? h)
  | _ => cases h

section Reading

variable {α : Type} {read : Json → Option α} {item : α}

/-- A required field is read from a part of the value. -/
theorem origin_of_require? {names : List String} {fields : List (String × Json)} {key : String}
    (hfields : value.namedFields? names = some fields) (h : require? read key fields = some item) :
    ∃ part ∈ value.parts, read part = some item := by
  obtain ⟨part, hget, hread⟩ := Option.bind_eq_some_iff.mp h
  exact ⟨part, mem_parts_of_get? hfields hget, hread⟩

/-- A field with a default is the default or read from a part of the value. -/
theorem origin_of_requireOr? {default : α} {names : List String} {fields : List (String × Json)}
    {key : String} (hfields : value.namedFields? names = some fields)
    (h : requireOr? default read key fields = some item) :
    item = default ∨ ∃ part ∈ value.parts, read part = some item := by
  unfold requireOr? at h
  split at h
  · rename_i part hget
    exact Or.inr ⟨part, mem_parts_of_get? hfields hget, h⟩
  · exact Or.inl (Option.some.inj h).symm

/-- Each item of a list is read from a part of the value. -/
theorem origin_of_toList? {items : List α} (h : value.toList? read = some items)
    (hitem : item ∈ items) : ∃ part ∈ value.parts, read part = some item := by
  cases value with
  | arr inputs => exact exists_of_mem_mapM h hitem
  | _ => cases h

/-- Each value of a map is read from a part of the value. -/
theorem origin_of_toMap? {m : OrderedMap α} {key : String} (h : value.toMap? read = some m)
    (hitem : m.get? key = some item) : ∃ part ∈ value.parts, read part = some item := by
  cases value with
  | obj fields =>
    obtain ⟨entries, hentries, rfl⟩ := Option.map_eq_some_iff.mp h
    have hmem := OrderedMap.mem_entries_ofList (Entries.mem_of_get? hitem)
    obtain ⟨field, hfield, hread⟩ := exists_of_mem_mapM hentries hmem
    obtain ⟨value, hvalue, heq⟩ := Option.map_eq_some_iff.mp hread
    obtain ⟨-, rfl⟩ := Prod.mk.inj heq
    exact ⟨field.2, List.mem_map_of_mem (f := Prod.snd) hfield, hvalue⟩
  | _ => cases h

end Reading

end Json

/-! ## Stores -/

section Stores

variable {document : Json}

/-- The default value of an argument is a part of its document, and it is not null. -/
theorem Argument.origins_of_ofJson? {argument : Argument} (h : ofJson? document = some argument) :
    argument.ValuesSatisfy fun value => value ≠ .null ∧ value ∈ document.partsAt 1 := by
  obtain ⟨fields, hfields, h⟩ := Option.bind_eq_some_iff.mp h
  obtain ⟨name, -, h⟩ := Option.bind_eq_some_iff.mp h
  obtain rfl := Option.some.inj h
  intro value hvalue
  obtain ⟨hget, hnull⟩ := Option.filter_eq_some_iff.mp hvalue
  refine ⟨?_, Json.mem_partsAt_one (Json.mem_parts_of_get? hfields hget)⟩
  rintro rfl
  cases hnull

/-- The default values of arguments stand three levels below metadata, and none is null. -/
theorem FunctionMeta.origins_of_ofJson? {data : FunctionMeta} (h : ofJson? document = some data) :
    ∀ argument ∈ data.arguments,
      argument.ValuesSatisfy fun value => value ≠ .null ∧ value ∈ document.partsAt 3 := by
  obtain ⟨fields, hfields, h⟩ := Option.bind_eq_some_iff.mp h
  obtain ⟨arguments, harguments, h⟩ := Option.bind_eq_some_iff.mp h
  obtain ⟨isAsync, -, h⟩ := Option.bind_eq_some_iff.mp h
  obtain ⟨confirm, -, h⟩ := Option.bind_eq_some_iff.mp h
  obtain rfl := Option.some.inj h
  intro argument hargument value hvalue
  obtain ⟨items, hitems, hread⟩ := Json.origin_of_require? hfields harguments
  obtain ⟨part, hpart, hread⟩ := Json.origin_of_toList? hread hargument
  obtain ⟨hnull, hmem⟩ := Argument.origins_of_ofJson? hread value hvalue
  exact ⟨hnull, Json.mem_partsAt_succ hitems (Json.mem_partsAt_succ hpart hmem)⟩

/-- The default values of arguments stand five levels below a record, and none is null. -/
theorem Record.origins_of_ofJson? {record : Record} (h : ofJson? document = some record) :
    record.ValuesSatisfy fun value => value ≠ .null ∧ value ∈ document.partsAt 5 := by
  obtain ⟨fields, hfields, h⟩ := Option.bind_eq_some_iff.mp h
  obtain ⟨name, -, h⟩ := Option.bind_eq_some_iff.mp h
  obtain ⟨vars, -, h⟩ := Option.bind_eq_some_iff.mp h
  obtain ⟨functions, hfunctions, h⟩ := Option.bind_eq_some_iff.mp h
  obtain ⟨paths, -, h⟩ := Option.bind_eq_some_iff.mp h
  obtain ⟨bindings, -, h⟩ := Option.bind_eq_some_iff.mp h
  obtain ⟨dependencies, -, h⟩ := Option.bind_eq_some_iff.mp h
  obtain rfl := Option.some.inj h
  intro function data hdata argument hargument value hvalue
  rcases Json.origin_of_requireOr? hfields hfunctions with rfl | ⟨items, hitems, hread⟩
  · cases hdata
  · obtain ⟨part, hpart, hread⟩ := Json.origin_of_toMap? hread hdata
    obtain ⟨hnull, hmem⟩ :=
      FunctionMeta.origins_of_ofJson? hread argument hargument value hvalue
    exact ⟨hnull, Json.mem_partsAt_succ hitems (Json.mem_partsAt_succ hpart hmem)⟩

/-- The value of a member is a part of its document, or stands for a missing one. -/
theorem Member.origins_of_ofKind? {kind : String} {member : Member}
    (h : ofKind? kind document = some member) :
    member.payload = .null ∨ member.payload = emptyData ∨ member.payload ∈ document.parts := by
  unfold ofKind? at h
  split at h
  · obtain ⟨fields, hfields, h⟩ := Option.bind_eq_some_iff.mp h
    obtain ⟨source, -, h⟩ := Option.bind_eq_some_iff.mp h
    obtain rfl := Option.some.inj h
    cases hget : Entries.get? "data" fields with
    | none => exact Or.inr (Or.inl rfl)
    | some data => exact Or.inr (Or.inr (Json.mem_parts_of_get? hfields hget))
  split at h
  · obtain ⟨fields, hfields, h⟩ := Option.bind_eq_some_iff.mp h
    obtain rfl := Option.some.inj h
    cases hget : Entries.get? "value" fields with
    | none => exact Or.inl rfl
    | some value => exact Or.inr (Or.inr (Json.mem_parts_of_get? hfields hget))
  · cases h

/-- So it is in whatever position the kind of the member stands. -/
theorem Member.origins_of_ofJson? {member : Member} (h : ofJson? document = some member) :
    member.payload = .null ∨ member.payload = emptyData ∨ member.payload ∈ document.parts := by
  unfold ofJson? at h
  split at h
  · obtain ⟨kind, -, h⟩ := Option.bind_eq_some_iff.mp h
    exact origins_of_ofKind? h
  · exact (origins_of_ofKind? h).imp_right (·.imp_right (List.mem_cons_of_mem _))
  · cases h

/-- **Stores** have members four levels and arguments seven levels below their documents. -/
theorem Store.origins_of_ofJson? {verify : Bool} {store : Store}
    (h : ofJson? verify document = some store) :
    store.ValuesSatisfy
      (fun value => value = .null ∨ value = emptyData ∨ value ∈ document.partsAt 4)
      (fun value => value ≠ .null ∧ value ∈ document.partsAt 7) := by
  obtain ⟨fields, hfields, h⟩ := Option.bind_eq_some_iff.mp h
  obtain ⟨configs, hconfigs, h⟩ := Option.bind_eq_some_iff.mp h
  obtain ⟨trees, htrees, h⟩ := Option.bind_eq_some_iff.mp h
  obtain rfl := Option.some.inj h
  constructor
  case trees =>
    intro entity tree htree name member hmember
    rcases Json.origin_of_requireOr? hfields htrees with rfl | ⟨forest, hforest, hread⟩
    · cases htree
    · obtain ⟨members, hmembers, hread⟩ := Json.origin_of_toMap? hread htree
      obtain ⟨part, hpart, hread⟩ := Json.origin_of_toMap? hread hmember
      refine (Member.origins_of_ofJson? hread).imp_right (·.imp_right fun hmem => ?_)
      exact Json.mem_partsAt_succ hforest
        (Json.mem_partsAt_succ hmembers (Json.mem_partsAt_succ hpart (Json.mem_partsAt_one hmem)))
  case records =>
    intro entity record hrecord function data hdata argument hargument value hvalue
    rcases Json.origin_of_requireOr? hfields hconfigs with rfl | ⟨items, hitems, hread⟩
    · cases hrecord
    · obtain ⟨part, hpart, hread⟩ := Json.origin_of_toMap? hread hrecord
      obtain ⟨hnull, hmem⟩ :=
        Record.origins_of_ofJson? hread function data hdata argument hargument value hvalue
      exact ⟨hnull, Json.mem_partsAt_succ hitems (Json.mem_partsAt_succ hpart hmem)⟩

end Stores

/-! ## Bodies -/

/-- The values of the variables and the default values of the arguments have these properties. -/
structure Body.ValuesSatisfy (value argument : Json → Prop) (body : Body) : Prop where
  vars : ∀ decl ∈ body.vars, value decl.value
  functions : ∀ decl ∈ body.functions, ∀ parameter ∈ decl.arguments,
    parameter.ValuesSatisfy argument

namespace Body

variable {document : Json}

section Lists

variable {α : Type} {read : FieldPath → Json → Except BodyError α} {item : α} {items : List α}

/-- Each item that is read has an input that it is read from. -/
theorem exists_of_mem_readEach {path : FieldPath} {position : Nat} {inputs : List Json}
    (h : readEach read path position inputs = .ok items) (hitem : item ∈ items) :
    ∃ input ∈ inputs, ∃ place, read place input = .ok item := by
  induction inputs generalizing position items with
  | nil =>
    obtain rfl := Except.ok.inj h
    cases hitem
  | cons first rest ih =>
    obtain ⟨head, hhead, h⟩ := bind_eq_ok_iff.mp h
    obtain ⟨tail, htail, h⟩ := bind_eq_ok_iff.mp h
    obtain rfl := Except.ok.inj h
    rcases List.mem_cons.mp hitem with rfl | hmem
    · exact ⟨first, List.mem_cons_self, _, hhead⟩
    · obtain ⟨input, hinput, hread⟩ := ih htail hmem
      exact ⟨input, List.mem_cons_of_mem _ hinput, hread⟩

/-- The items of a list stand two levels below the value that has the list. -/
theorem exists_of_mem_readList {path : FieldPath} {key : String}
    (h : readList read path key document = .ok items) (hitem : item ∈ items) :
    ∃ list ∈ document.parts, ∃ input ∈ list.parts, ∃ place, read place input = .ok item := by
  obtain ⟨inputs, hinputs, h⟩ := bind_eq_ok_iff.mp h
  obtain ⟨input, hinput, hread⟩ := exists_of_mem_readEach h hitem
  unfold readItems at hinputs
  split at hinputs
  · obtain rfl := Except.ok.inj hinputs
    cases hinput
  · obtain rfl := Except.ok.inj hinputs
    cases hinput
  · rename_i found hfield
    obtain rfl := Except.ok.inj hinputs
    exact ⟨_, Json.mem_parts_of_field? hfield, input, hinput, hread⟩
  · cases hinputs

end Lists

/-- The default value of an argument is a part of the declaration, and it is not null. -/
theorem origins_of_readArgument {path : FieldPath} {argument : Argument}
    (h : readArgument path document = .ok argument) :
    argument.ValuesSatisfy fun value => value ≠ .null ∧ value ∈ document.partsAt 1 := by
  obtain ⟨-, -, h⟩ := bind_eq_ok_iff.mp h
  obtain ⟨name, -, h⟩ := bind_eq_ok_iff.mp h
  obtain rfl := Except.ok.inj h
  intro value hvalue
  obtain ⟨hget, hnull⟩ := Option.filter_eq_some_iff.mp hvalue
  refine ⟨?_, Json.mem_partsAt_one (Json.mem_parts_of_field? hget)⟩
  rintro rfl
  cases hnull

/-- The default values of arguments stand three levels below a function, and none is null. -/
theorem origins_of_readFunction {path : FieldPath} {decl : FunctionDecl}
    (h : readFunction path document = .ok decl) : ∀ argument ∈ decl.arguments,
      argument.ValuesSatisfy fun value => value ≠ .null ∧ value ∈ document.partsAt 3 := by
  obtain ⟨-, -, h⟩ := bind_eq_ok_iff.mp h
  obtain ⟨name, -, h⟩ := bind_eq_ok_iff.mp h
  obtain ⟨source, -, h⟩ := bind_eq_ok_iff.mp h
  obtain ⟨arguments, harguments, h⟩ := bind_eq_ok_iff.mp h
  obtain rfl := Except.ok.inj h
  intro argument hargument value hvalue
  obtain ⟨list, hlist, part, hpart, place, hread⟩ := exists_of_mem_readList harguments hargument
  obtain ⟨hnull, hmem⟩ := origins_of_readArgument hread value hvalue
  exact ⟨hnull, Json.mem_partsAt_succ hlist (Json.mem_partsAt_succ hpart hmem)⟩

/-- The value of a variable is a part of the declaration, or null if it is missing. -/
theorem origins_of_readVariable {path : FieldPath} {decl : VariableDecl}
    (h : readVariable path document = .ok decl) :
    decl.value = .null ∨ decl.value ∈ document.parts := by
  obtain ⟨-, -, h⟩ := bind_eq_ok_iff.mp h
  obtain ⟨name, -, h⟩ := bind_eq_ok_iff.mp h
  obtain rfl := Except.ok.inj h
  cases hget : document.field? "value" with
  | none => exact Or.inl rfl
  | some value => exact Or.inr (Json.mem_parts_of_field? hget)

/-- **Bodies** have variables three levels and arguments five levels below their documents. -/
theorem origins_of_ofJson {body : Body} (h : ofJson document = .ok body) :
    body.ValuesSatisfy (fun value => value = .null ∨ value ∈ document.partsAt 3)
      (fun value => value ≠ .null ∧ value ∈ document.partsAt 5) := by
  obtain ⟨read, hread, h⟩ := bind_eq_ok_iff.mp h
  obtain ⟨-, -, h⟩ := bind_eq_ok_iff.mp h
  obtain rfl := Except.ok.inj h
  obtain ⟨-, -, hread⟩ := bind_eq_ok_iff.mp hread
  obtain ⟨functions, hfunctions, hread⟩ := bind_eq_ok_iff.mp hread
  obtain ⟨vars, hvars, hread⟩ := bind_eq_ok_iff.mp hread
  obtain rfl := Except.ok.inj hread
  constructor
  case vars =>
    intro decl hdecl
    obtain ⟨list, hlist, part, hpart, place, hdecl⟩ := exists_of_mem_readList hvars hdecl
    refine (origins_of_readVariable hdecl).imp_right fun hmem => ?_
    exact Json.mem_partsAt_succ hlist (Json.mem_partsAt_succ hpart (Json.mem_partsAt_one hmem))
  case functions =>
    intro decl hdecl argument hargument value hvalue
    obtain ⟨list, hlist, part, hpart, place, hdecl⟩ := exists_of_mem_readList hfunctions hdecl
    obtain ⟨hnull, hmem⟩ := origins_of_readFunction hdecl argument hargument value hvalue
    exact ⟨hnull, Json.mem_partsAt_succ hlist (Json.mem_partsAt_succ hpart hmem)⟩

end Body

end ScriptStore
