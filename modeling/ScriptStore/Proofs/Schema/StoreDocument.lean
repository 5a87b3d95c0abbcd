import ScriptStore.Document.Encode
import ScriptStore.Proofs.Document.Origins
import ScriptStore.Proofs.Schema.Keywords
import ScriptStore.Proofs.Store.EmptyNames
import ScriptStore.Schema.StoreDocument

/-!
# The schema of store documents and the stores that are read from them

The schema and the readers are two accounts of one format.  They are compared form by form, from the
pieces up: what a form accepts is read, as a value with a property (`Schema.ReadBy`), and of the
values that are written, it accepts those with the property (`Schema.WrittenBy`).  For documents of
stores the property is that no record has empty names (`readBy_storeDocument`,
`writtenBy_storeDocument`).
-/

namespace ScriptStore

/-! ## Forms and readers -/

/-- What the form accepts is read, as values with the property. -/
def Schema.ReadBy {α : Type} (form : Schema) (read : Json → Option α) (p : α → Prop) : Prop :=
  ∀ document, form.accepts document = true → ∃ value, read document = some value ∧ p value

/-- Of the values that are written, the form accepts those with the property. -/
def Schema.WrittenBy {α : Type} (form : Schema) (write : α → Json) (p : α → Prop) : Prop :=
  ∀ value, form.accepts (write value) = true ↔ p value

namespace Schema

section Reading

variable {α : Type} {form : Schema} {read : Json → Option α} {p : α → Prop}

/-- The items of an accepted array are read one by one. -/
theorem ReadBy.array (h : form.ReadBy read p) :
    (Schema.array form).ReadBy (Json.toList? read) fun values => ∀ value ∈ values, p value := by
  intro document haccepts
  obtain ⟨items, rfl, hitems⟩ := accepts_array_iff.mp haccepts
  exact exists_mapM fun item hitem => h item (hitems item hitem)

/-- A map accepts objects all of whose values have its form. -/
theorem accepts_mapOf_iff {document : Json} :
    (mapOf form).accepts document = true ↔
      ∃ fields, document = .obj fields ∧ ∀ field ∈ fields, form.accepts field.2 = true := by
  have hothers : ∀ fields, otherFields [] fields = fields := fun fields =>
    List.filter_eq_self.mpr (by simp)
  rw [mapOf, accepts_object_iff]
  refine exists_congr fun fields => and_congr_right fun _ => ?_
  constructor
  · intro h field hfield
    obtain ⟨other, hother, haccepts⟩ := h.others field (by rwa [hothers])
    exact Option.some.inj hother ▸ haccepts
  · intro h
    refine ⟨List.forall_mem_nil _, List.forall_mem_nil _, fun field hfield => ?_⟩
    rw [hothers] at hfield
    exact ⟨form, rfl, h field hfield⟩

/-- The values of an accepted map are read one by one. -/
theorem ReadBy.mapOf (h : form.ReadBy read p) :
    (Schema.mapOf form).ReadBy (Json.toMap? read)
      fun m => ∀ key value, m.get? key = some value → p value := by
  intro document haccepts
  obtain ⟨fields, rfl, hfields⟩ := accepts_mapOf_iff.mp haccepts
  obtain ⟨entries, hentries, hp⟩ :
      ∃ entries, fields.mapM (Json.readField? read) = some entries ∧
        ∀ entry ∈ entries, p entry.2 := by
    refine exists_mapM fun field hfield => ?_
    obtain ⟨value, hvalue, hp⟩ := h field.2 (hfields field hfield)
    exact ⟨(field.1, value), by rw [Json.readField?, hvalue]; rfl, hp⟩
  refine ⟨OrderedMap.ofList entries, by rw [Json.toMap?, hentries]; rfl, fun key value hget => ?_⟩
  exact hp (key, value) (OrderedMap.mem_entries_ofList (Entries.mem_of_get? hget))

section Fields

variable {required : List String} {properties : List (String × Schema)} {rest : Option Schema}
  {fields : List (String × Json)} (key : String)

/-- A required field is there with its form. -/
theorem AcceptsFields.get? (h : AcceptsFields required properties rest fields)
    (hkey : key ∈ required) (hform : (key, form) ∈ properties) :
    ∃ value, Entries.get? key fields = some value ∧ form.accepts value = true := by
  obtain ⟨value, hvalue⟩ :=
    Option.isSome_iff_exists.mp ((Entries.isSome_get? key fields).mpr (h.required key hkey))
  exact ⟨value, hvalue, h.declared _ hform value hvalue⟩

/-- A required label is one of those that are allowed. -/
theorem AcceptsFields.label (allowed : List String)
    (h : AcceptsFields required properties rest fields) (hkey : key ∈ required)
    (hform : (key, .label allowed) ∈ properties) :
    ∃ label ∈ allowed, Entries.get? key fields = some (.str label) := by
  obtain ⟨value, hget, haccepts⟩ := h.get? key hkey hform
  obtain ⟨label, hlabel, rfl⟩ := accepts_label_iff.mp haccepts
  exact ⟨label, hlabel, hget⟩

/-- A required field is read. -/
theorem AcceptsFields.require? (h : AcceptsFields required properties rest fields)
    (hread : form.ReadBy read p) (hkey : key ∈ required) (hform : (key, form) ∈ properties) :
    ∃ value, Json.require? read key fields = some value ∧ p value := by
  obtain ⟨value, hget, haccepts⟩ := h.get? key hkey hform
  obtain ⟨result, hresult, hp⟩ := hread value haccepts
  exact ⟨result, by rw [Json.require?, hget]; exact hresult, hp⟩

/-- A field with a default is read. -/
theorem AcceptsFields.requireOr? (default : α) (h : AcceptsFields required properties rest fields)
    (hread : form.ReadBy read p) (hform : (key, form) ∈ properties) (hdefault : p default) :
    ∃ value, Json.requireOr? default read key fields = some value ∧ p value := by
  unfold Json.requireOr?
  cases hget : Entries.get? key fields with
  | none => exact ⟨default, rfl, hdefault⟩
  | some value => exact hread value (h.declared _ hform value hget)

end Fields

/-- Every text is read. -/
theorem readBy_text : text.ReadBy Json.toText? fun _ => True := by
  intro document haccepts
  obtain ⟨s, rfl, -⟩ := accepts_string_iff.mp haccepts
  exact ⟨s, rfl, trivial⟩

/-- A name is read as a text that is not empty. -/
theorem readBy_name : name.ReadBy Json.toText? (· ≠ "") := by
  intro document haccepts
  obtain ⟨s, rfl, hs⟩ := accepts_string_iff.mp haccepts
  exact ⟨s, rfl, hs rfl⟩

/-- Every truth value is read. -/
theorem readBy_boolean : boolean.ReadBy Json.toBool? fun _ => True := by
  intro document haccepts
  obtain ⟨b, rfl⟩ := accepts_boolean_iff.mp haccepts
  exact ⟨b, rfl, trivial⟩

/-- Accepted arguments are read, with a name. -/
theorem readBy_argument : argument.ReadBy Argument.ofJson? (·.name ≠ "") := by
  intro document haccepts
  obtain ⟨fields, rfl, hfields⟩ := accepts_object_iff.mp haccepts
  obtain ⟨name, hname, hp⟩ := hfields.require? "name" readBy_name (by decide) (by simp)
  exact ⟨⟨name, _⟩, Option.bind_eq_some_iff.mpr ⟨name, hname, rfl⟩, hp⟩

/-- Accepted metadata are read, with named arguments. -/
theorem readBy_functionMeta :
    functionMeta.ReadBy FunctionMeta.ofJson? fun data =>
      ∀ argument ∈ data.arguments, argument.name ≠ "" := by
  intro document haccepts
  obtain ⟨fields, rfl, hfields⟩ := accepts_object_iff.mp haccepts
  obtain ⟨arguments, harguments, hp⟩ :=
    hfields.require? "arguments" readBy_argument.array (by decide) (by simp)
  obtain ⟨isAsync, hasync, -⟩ := hfields.require? "isAsync" readBy_boolean (by decide) (by simp)
  obtain ⟨confirm, hconfirm, -⟩ :=
    hfields.require? "confirmBeforeExecute" readBy_boolean (by decide) (by simp)
  refine ⟨⟨arguments, isAsync, confirm⟩, ?_, hp⟩
  refine Option.bind_eq_some_iff.mpr ⟨arguments, harguments, ?_⟩
  refine Option.bind_eq_some_iff.mpr ⟨isAsync, hasync, ?_⟩
  exact Option.bind_eq_some_iff.mpr ⟨confirm, hconfirm, rfl⟩

/-- Both labels of substitutions are read. -/
theorem readBy_substitution : substitution.ReadBy Substitution.ofJson? fun _ => True := by
  intro document haccepts
  obtain ⟨label, hlabel, rfl⟩ := accepts_label_iff.mp haccepts
  have hfound : ∀ label ∈ ["SMART_SUBSTITUTE", "TEMPLATE"],
      (Substitution.ofLabel? label).isSome = true := by decide
  obtain ⟨value, hvalue⟩ := Option.isSome_iff_exists.mp (hfound label hlabel)
  exact ⟨value, hvalue, trivial⟩

/-- An accepted binding path is read from its key. -/
theorem readBy_bindingPath : bindingPath.ReadBy bindingPathOfJson? fun _ => True := by
  intro document haccepts
  obtain ⟨fields, rfl, hfields⟩ := accepts_object_iff.mp haccepts
  exact hfields.require? "key" readBy_text (by decide) (by simp)

/-- Accepted records are read, and none of their names is empty. -/
theorem readBy_record : record.ReadBy Record.ofJson? Record.NoEmptyNames := by
  intro document haccepts
  obtain ⟨fields, rfl, hfields⟩ := accepts_object_iff.mp haccepts
  obtain ⟨name, hname, hnonempty⟩ := hfields.require? "name" readBy_name (by decide) (by simp)
  obtain ⟨vars, hvars, hvarNames⟩ :=
    hfields.requireOr? "variables" [] readBy_name.array (by simp) (List.forall_mem_nil _)
  obtain ⟨functions, hfunctions, harguments⟩ :=
    hfields.requireOr? "functions" ∅ readBy_functionMeta.mapOf (by simp)
      (by rintro key value ⟨⟩)
  obtain ⟨paths, hpaths, -⟩ :=
    hfields.requireOr? "reactivePaths" ∅ readBy_substitution.mapOf (by simp)
      (by rintro key value ⟨⟩)
  obtain ⟨bindings, hbindings, -⟩ :=
    hfields.requireOr? "dynamicBindingPathList" [] readBy_bindingPath.array (by simp)
      (List.forall_mem_nil _)
  obtain ⟨dependencies, hdependencies, -⟩ :=
    hfields.requireOr? "dependencyMap" DependencyMap.initial readBy_text.array.mapOf (by simp)
      (fun _ _ _ _ _ => trivial)
  refine ⟨⟨name, vars, functions, paths, bindings, dependencies⟩, ?_, hnonempty, hvarNames,
    harguments⟩
  refine Option.bind_eq_some_iff.mpr ⟨name, hname, ?_⟩
  refine Option.bind_eq_some_iff.mpr ⟨vars, hvars, ?_⟩
  refine Option.bind_eq_some_iff.mpr ⟨functions, hfunctions, ?_⟩
  refine Option.bind_eq_some_iff.mpr ⟨paths, hpaths, ?_⟩
  refine Option.bind_eq_some_iff.mpr ⟨bindings, hbindings, ?_⟩
  exact Option.bind_eq_some_iff.mpr ⟨dependencies, hdependencies, rfl⟩

/-- An accepted function is read, with its data or without. -/
theorem readBy_functionMember : functionMember.ReadBy Member.ofJson? fun _ => True := by
  intro document haccepts
  obtain ⟨fields, rfl, hfields⟩ := accepts_object_iff.mp haccepts
  obtain ⟨kind, hkind, hget⟩ := hfields.label "kind" ["function"] (by decide) (by simp)
  obtain rfl := List.mem_singleton.mp hkind
  obtain ⟨source, hsource, -⟩ := hfields.require? "body" readBy_text (by decide) (by simp)
  refine ⟨.function source ((Entries.get? "data" fields).getD emptyData), ?_, trivial⟩
  have hkind : Json.require? Json.toText? "kind" fields = some "function" := by
    rw [Json.require?, hget]
    rfl
  refine Option.bind_eq_some_iff.mpr ⟨"function", hkind, ?_⟩
  exact Option.bind_eq_some_iff.mpr ⟨source, hsource, rfl⟩

/-- An accepted variable is read, with its value or without. -/
theorem readBy_variableMember : variableMember.ReadBy Member.ofJson? fun _ => True := by
  intro document haccepts
  obtain ⟨fields, rfl, hfields⟩ := accepts_object_iff.mp haccepts
  obtain ⟨kind, hkind, hget⟩ := hfields.label "kind" ["variable"] (by decide) (by simp)
  obtain rfl := List.mem_singleton.mp hkind
  refine ⟨.var ((Entries.get? "value" fields).getD .null), ?_, trivial⟩
  have hkind : Json.require? Json.toText? "kind" fields = some "variable" := by
    rw [Json.require?, hget]
    rfl
  exact Option.bind_eq_some_iff.mpr ⟨"variable", hkind, rfl⟩

/-- An accepted member is read as a function or as a variable. -/
theorem readBy_member : member.ReadBy Member.ofJson? fun _ => True := by
  intro document haccepts
  -- a member that has exactly one of the forms has one of them
  have hcount := accepts_exactlyOne_iff.mp haccepts
  obtain ⟨form, hform, hone⟩ := List.countP_pos_iff.mp (hcount ▸ Nat.one_pos)
  rcases List.mem_pair.mp hform with rfl | rfl
  · exact readBy_functionMember document hone
  · exact readBy_variableMember document hone

/-- **What the schema accepts is read**, as a store without empty names. -/
theorem readBy_storeDocument (verify : Bool) :
    storeDocument.ReadBy (Store.ofJson? verify) Store.NoEmptyNames := by
  intro document haccepts
  obtain ⟨fields, rfl, hfields⟩ := accepts_object_iff.mp haccepts
  obtain ⟨configs, hconfigs, hnames⟩ :=
    hfields.requireOr? "configs" ∅ readBy_record.mapOf (by simp) (by rintro key value ⟨⟩)
  obtain ⟨trees, htrees, -⟩ :=
    hfields.requireOr? "tree" ∅ readBy_member.mapOf.mapOf (by simp) (by rintro key value ⟨⟩)
  refine ⟨⟨configs, trees, verify⟩, ?_, hnames⟩
  refine Option.bind_eq_some_iff.mpr ⟨configs, hconfigs, ?_⟩
  exact Option.bind_eq_some_iff.mpr ⟨trees, htrees, rfl⟩

end Reading

section Writing

variable {α : Type} {form : Schema} {write : α → Json} {p : α → Prop}

/-- A written array is accepted if its items have the property. -/
theorem WrittenBy.array (h : form.WrittenBy write p) :
    (Schema.array form).WrittenBy (fun items : List α => .arr (items.map write))
      fun items => ∀ item ∈ items, p item := by
  intro items
  rw [accepts_array_iff]
  simp [h _]

/-- A written map is accepted if its values have the property. -/
theorem WrittenBy.mapOf (h : form.WrittenBy write p) :
    (Schema.mapOf form).WrittenBy (Json.ofMap write)
      fun m => ∀ key value, m.get? key = some value → p value := by
  intro m
  refine Iff.trans ?_ (OrderedMap.forall_entries_iff m p)
  rw [accepts_mapOf_iff]
  simp [Json.ofMap, Entries.mapValues, h _]

/-- Every written text is accepted. -/
theorem writtenBy_text : text.WrittenBy .str fun _ => True := by
  intro s
  rw [text, accepts_string_iff]
  simp

/-- A written name is accepted unless it is empty. -/
theorem writtenBy_name : name.WrittenBy .str (· ≠ "") := by
  intro s
  rw [name, accepts_string_iff]
  simp

/-- An object all of whose fields are declared is accepted if each of them has its form. -/
theorem accepts_obj_iff {required : List String} {properties : List (String × Schema)}
    {rest : Option Schema} (written : List (String × Schema × Json))
    (hforms : (Entries.keys properties).Nodup) (hnd : (written.map Prod.fst).Nodup)
    (hdeclared : written.map (fun field => (field.1, field.2.1)) ⊆ properties)
    (hrequired : required ⊆ written.map Prod.fst) :
    (object required properties rest).accepts
        (.obj (written.map fun field => (field.1, field.2.2))) = true ↔
      ∀ field ∈ written, field.2.1.accepts field.2.2 = true := by
  have hform : ∀ field ∈ written, (field.1, field.2.1) ∈ properties := fun field hfield =>
    hdeclared (List.mem_map_of_mem hfield)
  have hget : ∀ field ∈ written, Entries.get? field.1
      (written.map fun field => (field.1, field.2.2)) = some field.2.2 := fun field hfield =>
    Entries.get?_map_of_nodup Prod.fst (fun field => field.2.2) hnd hfield
  rw [accepts_object_iff]
  constructor
  · rintro ⟨_, ⟨⟩, h⟩ field hfield
    exact h.declared _ (hform field hfield) _ (hget field hfield)
  · intro h
    refine ⟨_, rfl, ?required, ?declared, ?others⟩
    case required =>
      intro key hkey
      rw [Entries.keys, List.map_map]
      exact hrequired hkey
    case declared =>
      -- the written field of this name was declared with this form, as no name is declared twice
      rintro ⟨key, form⟩ hproperty value hvalue
      obtain ⟨field, hfield, heq⟩ := List.mem_map.mp (Entries.mem_of_get? hvalue)
      obtain ⟨rfl, rfl⟩ := Prod.mk.inj heq
      have hsame := (Entries.mem_iff_get? hforms _ _).mp (hform field hfield)
      rw [(Entries.mem_iff_get? hforms _ _).mp hproperty] at hsame
      obtain rfl := Option.some.inj hsame
      exact h field hfield
    case others =>
      intro other hother
      obtain ⟨hmem, hundeclared⟩ := List.mem_filter.mp hother
      obtain ⟨field, hfield, rfl⟩ := List.mem_map.mp hmem
      exact absurd (List.mem_map_of_mem (f := Prod.fst) (hform field hfield))
        (of_decide_eq_true hundeclared)

/-- A written argument is accepted if it has a name, whatever its default value. -/
theorem writtenBy_argument : argument.WrittenBy Argument.toJson (·.name ≠ "") := by
  rintro ⟨text, value⟩
  cases value with
  | none =>
    refine (accepts_obj_iff [("name", name, .str text)] (by decide) (by simp) (by simp)
      (by simp)).trans ?_
    simp [writtenBy_name text]
  | some value =>
    refine (accepts_obj_iff [("name", name, .str text), ("value", .any, value)] (by decide)
      (by simp) (by simp) (by simp)).trans ?_
    simp [writtenBy_name text]

/-- Written metadata are accepted if the arguments have names. -/
theorem writtenBy_functionMeta : functionMeta.WrittenBy FunctionMeta.toJson fun data =>
    ∀ argument ∈ data.arguments, argument.name ≠ "" := by
  intro data
  refine (accepts_obj_iff [("arguments", .array argument, argumentsToJson data.arguments),
    ("isAsync", .boolean, .bool data.isAsync),
    ("confirmBeforeExecute", .boolean, .bool data.confirmBeforeExecute)] (by simp) (by simp)
    (List.Subset.refl _) (List.Subset.refl _)).trans ?_
  have harguments := writtenBy_argument.array data.arguments
  simpa [accepts_boolean_iff, argumentsToJson] using harguments

theorem writtenBy_substitution : substitution.WrittenBy Substitution.toJson fun _ => True := by
  intro value
  refine iff_of_true (accepts_label_iff.mpr ⟨value.label, ?_, rfl⟩) trivial
  cases value <;> decide

theorem writtenBy_bindingPath : bindingPath.WrittenBy bindingPathToJson fun _ => True := by
  intro key
  refine (accepts_obj_iff [("key", text, .str key)] (by simp) (by simp) (List.Subset.refl _)
    (List.Subset.refl _)).trans ?_
  simp [writtenBy_text key]

/-- A written record is accepted if none of its names is empty. -/
theorem writtenBy_record : record.WrittenBy Record.toJson Record.NoEmptyNames := by
  intro value
  have hvars := writtenBy_name.array value.vars
  have hfunctions := writtenBy_functionMeta.mapOf value.functions
  have hpaths := writtenBy_substitution.mapOf value.reactivePaths
  have hbindings := writtenBy_bindingPath.array value.bindingPaths
  have hdependencies := writtenBy_text.array.mapOf value.dependencies
  refine (accepts_obj_iff [("name", name, .str value.name),
    ("variables", .array name, Json.ofStrings value.vars),
    ("functions", mapOf functionMeta, Json.ofMap FunctionMeta.toJson value.functions),
    ("reactivePaths", mapOf substitution, Json.ofMap Substitution.toJson value.reactivePaths),
    ("dynamicBindingPathList", .array bindingPath, .arr (value.bindingPaths.map bindingPathToJson)),
    ("dependencyMap", mapOf (.array text), value.dependencies.toJson)] (by simp) (by simp)
    (List.Subset.refl _) (by simp)).trans ?_
  constructor
  · intro h
    simp only [List.forall_mem_cons] at h
    obtain ⟨hname, hvarNames, hmetas, -⟩ := h
    exact ⟨(writtenBy_name value.name).mp hname, hvars.mp hvarNames, hfunctions.mp hmetas⟩
  · rintro ⟨hname, hnames⟩
    simp only [List.forall_mem_cons]
    exact ⟨(writtenBy_name value.name).mpr hname, hvars.mpr hnames.vars,
      hfunctions.mpr hnames.arguments, hpaths.mpr fun _ _ _ => trivial,
      hbindings.mpr fun _ _ => trivial, hdependencies.mpr fun _ _ _ _ _ => trivial,
      List.forall_mem_nil _⟩

/-- An object that starts with its kind is accepted only with an allowed kind. -/
theorem kind_mem_of_accepts {required allowed : List String}
    {properties : List (String × Schema)} {rest : Option Schema} {kind : String}
    {fields : List (String × Json)} (hkey : "kind" ∈ required)
    (hform : ("kind", .label allowed) ∈ properties)
    (h : (object required properties rest).accepts (.obj (("kind", .str kind) :: fields)) = true) :
    kind ∈ allowed := by
  obtain ⟨_, ⟨⟩, hfields⟩ := accepts_object_iff.mp h
  obtain ⟨label, hlabel, hget⟩ := hfields.label "kind" allowed hkey hform
  obtain ⟨⟩ := Option.some.inj hget
  exact hlabel

/-- A member that is written has exactly one of the two forms, that of its kind. -/
theorem writtenBy_member : member.WrittenBy Member.toJson fun _ => True := by
  intro value
  refine iff_of_true (accepts_exactlyOne_iff.mpr ?_) trivial
  cases value with
  | function source data =>
    have hfunction : functionMember.accepts (Member.function source data).toJson = true := by
      refine (accepts_obj_iff [("kind", .label ["function"], .str "function"),
        ("body", text, .str source), ("data", .any, data)] (by simp) (by simp)
        (List.Subset.refl _) (by simp)).mpr ?_
      simp [writtenBy_text source, accepts_label_iff]
    have hvariable : variableMember.accepts (Member.function source data).toJson ≠ true := fun h =>
      absurd (kind_mem_of_accepts (by decide) List.mem_cons_self h) (by decide)
    simp [hfunction, hvariable]
  | var payload =>
    have hvariable : variableMember.accepts (Member.var payload).toJson = true := by
      refine (accepts_obj_iff [("kind", .label ["variable"], .str "variable"),
        ("value", .any, payload)] (by simp) (by simp) (List.Subset.refl _) (by simp)).mpr ?_
      simp [accepts_label_iff]
    have hfunction : functionMember.accepts (Member.var payload).toJson ≠ true := fun h =>
      absurd (kind_mem_of_accepts (by decide) List.mem_cons_self h) (by decide)
    simp [hfunction, hvariable]

/-- **Of the documents that are written**, the schema accepts those of stores without empty names.
-/
theorem writtenBy_storeDocument : storeDocument.WrittenBy Store.toJson Store.NoEmptyNames := by
  intro store
  have hconfigs := writtenBy_record.mapOf store.configs
  have htrees := writtenBy_member.mapOf.mapOf store.trees
  refine (accepts_obj_iff [("configs", mapOf record, Json.ofMap Record.toJson store.configs),
    ("tree", mapOf (mapOf member), Forest.toJson store.trees)] (by simp) (by simp)
    (List.Subset.refl _) (by simp)).trans ?_
  simp only [List.forall_mem_cons]
  constructor
  · exact fun h => hconfigs.mp h.1
  · exact fun h => ⟨hconfigs.mpr h, htrees.mpr fun _ _ _ _ _ _ => trivial, List.forall_mem_nil _⟩

end Writing

end Schema

end ScriptStore
