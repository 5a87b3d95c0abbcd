import ScriptStore.Schema.Basic

/-!
# What schemas accept

A value has a form or not wherever it stands (`Schema.placeless`): its place shows in the
faults only.  So each kind of schema accepts a value as its keywords say, by its parts
(`accepts_array_iff`, `accepts_object_iff`, `accepts_exactlyOne_iff`).
-/

namespace ScriptStore

namespace Schema

/-! ## Induction -/

/-- A property holds of all schemas if it passes from the forms of the items, fields and
alternatives to the whole. -/
@[elab_as_elim]
theorem inductionOn {motive : Schema → Prop} (schema : Schema) (any : motive .any)
    (boolean : motive .boolean) (string : ∀ nonEmpty, motive (.string nonEmpty))
    (label : ∀ allowed, motive (.label allowed))
    (array : ∀ items, motive items → motive (.array items))
    (object : ∀ required properties rest, (∀ property ∈ properties, motive property.2) →
      (∀ form ∈ rest, motive form) → motive (.object required properties rest))
    (exactlyOne : ∀ alternatives, (∀ form ∈ alternatives, motive form) →
      motive (.exactlyOne alternatives)) :
    motive schema :=
  -- the other motives are for the lists, the option and the pairs inside a schema
  @Schema.rec motive (fun properties => ∀ property ∈ properties, motive property.2)
    (fun rest => ∀ form ∈ rest, motive form) (fun forms => ∀ form ∈ forms, motive form)
    (fun property => motive property.2)
    any boolean string label array object exactlyOne
    (List.forall_mem_nil _)
    (fun _ _ hfirst hrest => List.forall_mem_cons.mpr ⟨hfirst, hrest⟩)
    (by rintro form ⟨⟩)
    (by rintro form hform _ ⟨⟩; exact hform)
    (List.forall_mem_nil _)
    (fun _ _ hfirst hrest => List.forall_mem_cons.mpr ⟨hfirst, hrest⟩)
    (fun _ _ hform => hform) schema

/-! ## Checking in equations -/

section Equations

variable (path : FieldPath) (value : Json) (fields : List (String × Json))

/-- Nothing is asked of a value. -/
theorem faults_any : any.faults path value = [] := rfl

/-- A text is asked for, which may have to be nonempty. -/
theorem faults_string (nonEmpty : Bool) :
    (string nonEmpty).faults path value = textFaults path nonEmpty value := rfl

/-- One of the labels is asked for. -/
theorem faults_label (allowed : List String) :
    (label allowed).faults path value = labelFaults path allowed value := rfl

/-- One form is asked for; a second one is as bad as none. -/
theorem faults_exactlyOne (alternatives : List Schema) :
    (exactlyOne alternatives).faults path value =
      if countForms alternatives path value = 1 then [] else [⟨path, .noSingleForm⟩] := rfl

theorem propertyFaults_nil : propertyFaults [] path fields = [] := rfl

/-- A declared field is looked at only if it is there. -/
theorem propertyFaults_cons (key : String) (form : Schema) (others : List (String × Schema)) :
    propertyFaults ((key, form) :: others) path fields =
      (match Entries.get? key fields with
        | some value => form.faults (path ++ [.key key]) value
        | none => []) ++ propertyFaults others path fields := rfl

/-- Without a form for the other fields there may be none. -/
theorem restFaults_none : restFaults none path fields =
    if fields.isEmpty then [] else [⟨path, .undeclaredFields⟩] := rfl

/-- All other fields are asked for the same form. -/
theorem restFaults_some (form : Schema) : restFaults (some form) path fields =
    fieldFaults (fun place value => form.faults place value) path fields := rfl

theorem countForms_nil : countForms [] path value = 0 := rfl

/-- Each form without a fault counts once. -/
theorem countForms_cons (form : Schema) (others : List Schema) :
    countForms (form :: others) path value =
      (if (form.faults path value).isEmpty then 1 else 0) + countForms others path value := rfl

end Equations

/-! ## Places -/

variable {schema items : Schema} {required : List String} {properties : List (String × Schema)}
  {rest : Option Schema} {alternatives : List Schema}

/-- A value is accepted if there is no fault in it. -/
theorem accepts_iff {value : Json} :
    schema.accepts value = true ↔ schema.faults [] value = [] := List.isEmpty_iff

/-- Whether a value has the form does not depend on its place. -/
def Placeless (schema : Schema) : Prop :=
  ∀ path value, schema.faults path value = [] ↔ schema.accepts value = true

/-- The items have no faults if each of them is accepted, as their positions do not matter. -/
theorem itemFaults_eq_nil_iff (h : items.Placeless) (path : FieldPath) (values : List Json) :
    itemFaults (fun place item => items.faults place item) path values = [] ↔
      ∀ item ∈ values, items.accepts item = true := by
  have hvalues : values.zipIdx.map Prod.fst = values := List.zipIdx_map_fst 0 values
  calc itemFaults (fun place item => items.faults place item) path values = []
      ↔ ∀ item ∈ values.zipIdx, items.faults (path ++ [.index item.2]) item.1 = [] := by
        rw [itemFaults, List.flatMap_eq_nil_iff]
    _ ↔ ∀ item ∈ values.zipIdx, items.accepts item.1 = true :=
        forall₂_congr fun item _ => h _ item.1
    _ ↔ ∀ item ∈ values.zipIdx.map Prod.fst, items.accepts item = true := by
        rw [List.forall_mem_map]
    _ ↔ ∀ item ∈ values, items.accepts item = true := by rw [hvalues]

/-- The declared fields have no faults if those that are there are accepted. -/
theorem propertyFaults_eq_nil_iff (h : ∀ property ∈ properties, property.2.Placeless)
    (path : FieldPath) (fields : List (String × Json)) :
    propertyFaults properties path fields = [] ↔ ∀ property ∈ properties, ∀ value,
      Entries.get? property.1 fields = some value → property.2.accepts value = true := by
  induction properties with
  | nil =>
    rw [propertyFaults_nil]
    exact iff_of_true rfl (List.forall_mem_nil _)
  | cons first others ih =>
    obtain ⟨key, form⟩ := first
    rw [List.forall_mem_cons] at h
    rw [propertyFaults_cons, List.append_eq_nil_iff, ih h.2, List.forall_mem_cons]
    refine and_congr_left fun _ => ?_
    cases hget : Entries.get? key fields with
    | none => simp
    | some value => simp [h.1 _ value]

/-- The other fields have no faults if there is a form for them that accepts each. -/
theorem restFaults_eq_nil_iff (h : ∀ form ∈ rest, form.Placeless) (path : FieldPath)
    (fields : List (String × Json)) :
    restFaults rest path fields = [] ↔
      ∀ field ∈ fields, ∃ form ∈ rest, form.accepts field.2 = true := by
  cases rest with
  | none =>
    rw [restFaults_none]
    cases fields with
    | nil => simp
    | cons first others =>
      refine iff_of_false (List.cons_ne_nil _ _) fun hforms => ?_
      obtain ⟨form, hform, -⟩ := hforms first List.mem_cons_self
      cases hform
  | some form =>
    rw [restFaults_some, fieldFaults, List.flatMap_eq_nil_iff]
    refine forall₂_congr fun field _ => ?_
    rw [h form rfl]
    simp

/-- The forms that a value has are those that accept it, wherever it stands. -/
theorem countForms_eq_countP (h : ∀ form ∈ alternatives, form.Placeless) (path : FieldPath)
    (value : Json) :
    countForms alternatives path value = alternatives.countP (·.accepts value) := by
  induction alternatives with
  | nil => rw [countForms_nil, List.countP_nil]
  | cons first others ih =>
    rw [List.forall_mem_cons] at h
    have hfirst : (first.faults path value).isEmpty = first.accepts value := by
      rw [Bool.eq_iff_iff, List.isEmpty_iff]
      exact h.1 path value
    rw [countForms_cons, ih h.2, List.countP_cons, hfirst, Nat.add_comm]

/-! ## Kinds of schemas -/

/-- The fields of an object are as the keywords for objects say: required fields are there, declared
fields have their forms, and all others have a form too. -/
structure AcceptsFields (required : List String) (properties : List (String × Schema))
    (rest : Option Schema) (fields : List (String × Json)) : Prop where
  required : ∀ key ∈ required, key ∈ Entries.keys fields
  declared : ∀ property ∈ properties, ∀ value, Entries.get? property.1 fields = some value →
    property.2.accepts value = true
  others : ∀ field ∈ otherFields properties fields, ∃ form ∈ rest, form.accepts field.2 = true

/-- No required field is missing if all of them are there. -/
theorem missingFields_eq_nil_iff (path : FieldPath) (fields : List (String × Json)) :
    missingFields path required fields = [] ↔ ∀ key ∈ required, key ∈ Entries.keys fields := by
  rw [missingFields, List.map_eq_nil_iff, List.filter_eq_nil_iff]
  simp

/-- The truth values are those without faults. -/
theorem faults_boolean_eq_nil_iff (path : FieldPath) (value : Json) :
    boolean.faults path value = [] ↔ ∃ b, value = .bool b := by
  cases value with
  | bool b => exact iff_of_true rfl ⟨b, rfl⟩
  | _ => exact iff_of_false (List.cons_ne_nil _ _) (by rintro ⟨_, ⟨⟩⟩)

/-- The values without faults are the arrays of accepted items. -/
theorem faults_array_eq_nil_iff (h : items.Placeless) (path : FieldPath) (value : Json) :
    (array items).faults path value = [] ↔
      ∃ values, value = .arr values ∧ ∀ item ∈ values, items.accepts item = true := by
  cases value with
  | arr values =>
    show itemFaults (fun place item => items.faults place item) path values = [] ↔ _
    rw [itemFaults_eq_nil_iff h]
    simp
  | _ => exact iff_of_false (List.cons_ne_nil _ _) (by rintro ⟨_, ⟨⟩, -⟩)

/-- The values without faults are the objects with accepted fields. -/
theorem faults_object_eq_nil_iff (hproperties : ∀ property ∈ properties, property.2.Placeless)
    (hrest : ∀ form ∈ rest, form.Placeless) (path : FieldPath) (value : Json) :
    (object required properties rest).faults path value = [] ↔
      ∃ fields, value = .obj fields ∧ AcceptsFields required properties rest fields := by
  cases value with
  | obj fields =>
    show missingFields path required fields ++ propertyFaults properties path fields ++
      restFaults rest path (otherFields properties fields) = [] ↔ _
    rw [List.append_eq_nil_iff, List.append_eq_nil_iff, missingFields_eq_nil_iff,
      propertyFaults_eq_nil_iff hproperties, restFaults_eq_nil_iff hrest]
    constructor
    · rintro ⟨⟨hrequired, hdeclared⟩, hothers⟩
      exact ⟨fields, rfl, hrequired, hdeclared, hothers⟩
    · rintro ⟨_, ⟨⟩, hfields⟩
      exact ⟨⟨hfields.required, hfields.declared⟩, hfields.others⟩
  | _ => exact iff_of_false (List.cons_ne_nil _ _) (by rintro ⟨_, ⟨⟩, -⟩)

/-- The values without faults are those that one alternative accepts and no other. -/
theorem faults_exactlyOne_eq_nil_iff (h : ∀ form ∈ alternatives, form.Placeless)
    (path : FieldPath) (value : Json) :
    (exactlyOne alternatives).faults path value = [] ↔
      alternatives.countP (·.accepts value) = 1 := by
  rw [faults_exactlyOne, countForms_eq_countP h]
  split <;> simp [*]

/-- **The place of a value does not matter** for whether it has the form. -/
theorem placeless (schema : Schema) : schema.Placeless := by
  induction schema using inductionOn with
  | any =>
    intro path value
    rw [accepts_iff, faults_any, faults_any]
  | boolean =>
    intro path value
    rw [accepts_iff, faults_boolean_eq_nil_iff, faults_boolean_eq_nil_iff]
  | string nonEmpty =>
    intro path value
    rw [accepts_iff, faults_string, faults_string]
    cases value with
    | str s =>
      rw [textFaults, textFaults]
      split <;> simp
    | _ => simp [textFaults]
  | label allowed =>
    intro path value
    rw [accepts_iff, faults_label, faults_label]
    cases value with
    | str s =>
      rw [labelFaults, labelFaults]
      split <;> simp
    | _ => simp [labelFaults]
  | array items ih =>
    intro path value
    rw [accepts_iff, faults_array_eq_nil_iff ih, faults_array_eq_nil_iff ih]
  | object required properties rest hproperties hrest =>
    intro path value
    rw [accepts_iff, faults_object_eq_nil_iff hproperties hrest,
      faults_object_eq_nil_iff hproperties hrest]
  | exactlyOne alternatives ih =>
    intro path value
    rw [accepts_iff, faults_exactlyOne_eq_nil_iff ih, faults_exactlyOne_eq_nil_iff ih]

section Keywords

variable {value : Json}

/-- Everything is accepted if nothing is asked for. -/
@[simp] theorem accepts_any (value : Json) : any.accepts value = true := by
  rw [accepts_iff, faults_any]

/-- **Truth values** are accepted as such. -/
theorem accepts_boolean_iff : boolean.accepts value = true ↔ ∃ b, value = .bool b := by
  rw [accepts_iff, faults_boolean_eq_nil_iff]

/-- **Texts** are accepted, the empty one only if it may be. -/
theorem accepts_string_iff {nonEmpty : Bool} :
    (string nonEmpty).accepts value = true ↔
      ∃ s, value = .str s ∧ (nonEmpty = true → s ≠ "") := by
  rw [accepts_iff, faults_string]
  cases value with
  | str s => cases nonEmpty <;> simp [textFaults]
  | _ => simp [textFaults]

/-- **Labels** are accepted if they are listed. -/
theorem accepts_label_iff {allowed : List String} :
    (label allowed).accepts value = true ↔ ∃ s ∈ allowed, value = .str s := by
  rw [accepts_iff, faults_label]
  cases value with
  | str s =>
    by_cases hmem : s ∈ allowed <;> simp [labelFaults, hmem]
  | _ => simp [labelFaults]

/-- **Arrays** are accepted if their items are. -/
theorem accepts_array_iff :
    (array items).accepts value = true ↔
      ∃ values, value = .arr values ∧ ∀ item ∈ values, items.accepts item = true :=
  accepts_iff.trans (faults_array_eq_nil_iff (placeless items) [] value)

/-- **Objects** are accepted if their fields are as the keywords say. -/
theorem accepts_object_iff :
    (object required properties rest).accepts value = true ↔
      ∃ fields, value = .obj fields ∧ AcceptsFields required properties rest fields :=
  accepts_iff.trans (faults_object_eq_nil_iff (fun property _ => placeless property.2)
    (fun form _ => placeless form) [] value)

/-- **Alternatives** accept a value if exactly one of them does. -/
theorem accepts_exactlyOne_iff :
    (exactlyOne alternatives).accepts value = true ↔
      alternatives.countP (·.accepts value) = 1 :=
  accepts_iff.trans
    (faults_exactlyOne_eq_nil_iff (fun form _ => placeless form) [] value)

end Keywords

end Schema

end ScriptStore
