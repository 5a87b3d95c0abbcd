import ScriptStore.Proofs.Body.Validity
import ScriptStore.Proofs.Document.RoundTrip

/-!
# Two readers of bodies

A body comes from a parser, and is then read field by field with a place for every fault, or from a
document, and is then decoded as all stored types are.  The two differ in what they take for a
missing list (a parser may write null) and for an object (a document may write an array).

Where neither plays a part they agree: the parser's reader reads exactly the documents of objects
that are decoded once null lists are left out, and gives the same body
(`Body.readStructure_eq_ok_iff`).  After that the names decide (`Body.readers_agree`).
-/

namespace ScriptStore

/-! ## Notations of bodies -/

namespace Json

/-- Whether a value is an object. -/
def isObject : Json → Bool
  | .obj _ => true
  | _ => false

/-- The items of the list in a field; none if the field is absent or holds something else. -/
def itemsOf (key : String) (value : Json) : List Json :=
  match value.field? key with
  | some (.arr items) => items
  | _ => []

/-- Leaves out a field if it is null, and changes each item if it holds a list. -/
def withoutNullList (key : String) (f : Json → Json) : Json → Json
  | .obj fields =>
    match Entries.get? key fields with
    | some .null => .obj (Entries.eraseAll [key] fields)
    | some (.arr items) => .obj (Entries.insert key (.arr (items.map f)) fields)
    | _ => .obj fields
  | value => value

end Json

/-- A function and its arguments are objects. -/
def FunctionDecl.InFields (value : Json) : Prop :=
  value.isObject = true ∧ ∀ argument ∈ value.itemsOf "arguments", argument.isObject = true

instance (value : Json) : Decidable (FunctionDecl.InFields value) :=
  inferInstanceAs (Decidable (_ ∧ ∀ argument ∈ value.itemsOf "arguments", _))

/-- A body, its functions with their arguments and its variables are objects. -/
def Body.InFields (value : Json) : Prop :=
  value.isObject = true ∧ (∀ action ∈ value.itemsOf "actions", FunctionDecl.InFields action) ∧
    ∀ decl ∈ value.itemsOf "variables", decl.isObject = true

instance (value : Json) : Decidable (Body.InFields value) :=
  inferInstanceAs (Decidable (_ ∧ (∀ action ∈ value.itemsOf "actions", _) ∧
    ∀ decl ∈ value.itemsOf "variables", _))

/-- The document of a function without its arguments if they are null. -/
def FunctionDecl.withoutNullLists (value : Json) : Json := value.withoutNullList "arguments" id

/-- The document of a body without its functions, its variables and the arguments of each function
if they are null. -/
def Body.withoutNullLists (value : Json) : Json :=
  (value.withoutNullList "actions" FunctionDecl.withoutNullLists).withoutNullList "variables" id

/-! ## Fields -/

namespace Json

variable {key other : String} {value : Json} {f : Json → Json}

theorem isObject_iff : value.isObject = true ↔ ∃ fields, value = .obj fields := by
  cases value <;> simp [isObject]

/-- The items are those of the list that is there. -/
theorem itemsOf_of_field? {items : List Json} (h : value.field? key = some (.arr items)) :
    value.itemsOf key = items := by
  rw [itemsOf, h]

/-- A list that is missing or null has no items. -/
theorem itemsOf_of_missing (h : value.field? key = none ∨ value.field? key = some .null) :
    value.itemsOf key = [] := by
  unfold itemsOf
  rcases h with h | h <;> rw [h]

theorem isObject_withoutNullList : (value.withoutNullList key f).isObject = value.isObject := by
  unfold withoutNullList
  split
  · split <;> rfl
  · rfl

/-- A null list is left out. -/
theorem field?_withoutNullList_of_null (h : value.field? key = some .null) :
    (value.withoutNullList key f).field? key = none := by
  cases value with
  | obj fields =>
    have hget : Entries.get? key fields = some .null := h
    rw [withoutNullList, hget]
    show Entries.get? key (Entries.eraseAll [key] fields) = none
    rw [Entries.get?_eraseAll, if_pos (List.mem_singleton_self key)]
  | _ => cases h

/-- The items of a list are changed. -/
theorem field?_withoutNullList_of_arr {items : List Json}
    (h : value.field? key = some (.arr items)) :
    (value.withoutNullList key f).field? key = some (.arr (items.map f)) := by
  cases value with
  | obj fields =>
    have hget : Entries.get? key fields = some (.arr items) := h
    rw [withoutNullList, hget]
    show Entries.get? key (Entries.insert key _ fields) = _
    rw [Entries.get?_insert, if_pos rfl]
  | _ => cases h

/-- Anything else is left as it is. -/
theorem withoutNullList_of_ne (hnull : value.field? key ≠ some .null)
    (harr : ∀ items, value.field? key ≠ some (.arr items)) :
    value.withoutNullList key f = value := by
  unfold withoutNullList
  split
  · split
    · rename_i fields hget
      exact absurd hget hnull
    · rename_i fields items hget
      exact absurd hget (harr items)
    · rfl
  · rfl

/-- A list whose items do not change is left as it is. -/
theorem withoutNullList_of_arr {items : List Json} (h : value.field? key = some (.arr items))
    (hitems : items.map f = items) : value.withoutNullList key f = value := by
  cases value with
  | obj fields =>
    have hget : Entries.get? key fields = some (.arr items) := h
    rw [withoutNullList, hget]
    show obj (Entries.insert key (.arr (items.map f)) fields) = _
    rw [hitems, Entries.insert_of_get? hget]
  | _ => rfl

/-- The other fields are as before. -/
theorem field?_withoutNullList_of_ne (h : other ≠ key) :
    (value.withoutNullList key f).field? other = value.field? other := by
  unfold withoutNullList
  split
  · split
    · show Entries.get? other (Entries.eraseAll _ _) = _
      rw [Entries.get?_eraseAll, if_neg (by simpa using h)]
      rfl
    · show Entries.get? other (Entries.insert _ _ _) = _
      rw [Entries.get?_insert, if_neg (Ne.symm h)]
      rfl
    · rfl
  · rfl

/-- What becomes of a field depends on what it holds. -/
theorem field?_withoutNullList_congr {another : Json} (h : value.field? key = another.field? key) :
    (value.withoutNullList key f).field? key = (another.withoutNullList key f).field? key := by
  by_cases hnull : another.field? key = some .null
  · rw [field?_withoutNullList_of_null (h.trans hnull), field?_withoutNullList_of_null hnull]
  · by_cases harr : ∃ items, another.field? key = some (.arr items)
    · obtain ⟨items, harr⟩ := harr
      rw [field?_withoutNullList_of_arr (h.trans harr), field?_withoutNullList_of_arr harr]
    · have hne : ∀ items, another.field? key ≠ some (.arr items) := not_exists.mp harr
      rw [withoutNullList_of_ne hnull hne, withoutNullList_of_ne (h ▸ hnull) (h ▸ hne), h]

end Json

namespace Body

/-! ## Reading of fields -/

/-- A required text is read exactly if it is decoded. -/
theorem readText_eq_ok_iff {path : FieldPath} {key : String} {value : Json}
    {fields : List (String × Json)} (hfield : Entries.get? key fields = value.field? key)
    {text : String} : readText path key value = .ok text ↔
      Json.require? Json.toText? key fields = some text := by
  unfold readText Json.require?
  rw [hfield]
  cases value.field? key with
  | none => simp
  | some found => cases found <;> simp [Json.toText?]

section Lists

variable {α : Type} {read : FieldPath → Json → Except BodyError α} {decode : Json → Option α}
  {admits : Json → Prop} {f : Json → Json}

/-- Items are read one after the other exactly if each is. -/
theorem readEach_eq_ok_iff (h : ∀ path item result, read path item = .ok result ↔
      admits item ∧ decode (f item) = some result)
    {path : FieldPath} {position : Nat} {items : List Json} {results : List α} :
    readEach read path position items = .ok results ↔
      (∀ item ∈ items, admits item) ∧ (items.map f).mapM decode = some results := by
  induction items generalizing position results with
  | nil =>
    show Except.ok [] = Except.ok results ↔ _ ∧ some [] = some results
    simp
  | cons item rest ih =>
    show (read (path ++ [.index position]) item >>= fun first =>
      readEach read path (position + 1) rest >>= fun others => .ok (first :: others)) =
        .ok results ↔ _
    have hrest (first : α) :
        (readEach read path (position + 1) rest >>= fun others => .ok (first :: others)) =
          .ok results ↔ (∀ item ∈ rest, admits item) ∧
            ((rest.map f).mapM decode >>= fun others => some (first :: others)) = some results := by
      have hdone (others : List α) : (Except.ok (first :: others) : Except BodyError (List α)) =
          .ok results ↔ True ∧ some (first :: others) = some results := by simp
      rw [bind_eq_ok_iff_and (fun others => ih) hdone, and_true]
    rw [List.map_cons, List.mapM_cons, List.forall_mem_cons]
    exact bind_eq_ok_iff_and (fun first => h _ _ first) hrest

/-- A list that is missing or null is read as empty. -/
theorem readList_of_missing {path : FieldPath} {key : String} {value : Json}
    (h : value.field? key = none ∨ value.field? key = some .null) :
    readList read path key value = .ok [] := by
  unfold readList readItems
  rcases h with h | h <;> rw [h] <;> rfl

/-- A list that is there is read item by item. -/
theorem readList_of_arr {path : FieldPath} {key : String} {value : Json} {items : List Json}
    (h : value.field? key = some (.arr items)) :
    readList read path key value = readEach read (path ++ [.key key]) 0 items := by
  unfold readList readItems
  rw [h]
  rfl

/-- An optional list is read exactly if it is decoded once it is left out when it is null. -/
theorem readList_eq_ok_iff (h : ∀ path item result, read path item = .ok result ↔
      admits item ∧ decode (f item) = some result)
    {path : FieldPath} {key : String} {value : Json} {fields : List (String × Json)}
    (hfield : Entries.get? key fields = (value.withoutNullList key f).field? key)
    {results : List α} :
    readList read path key value = .ok results ↔
      (∀ item ∈ value.itemsOf key, admits item) ∧
        Json.requireOr? [] (Json.toList? decode) key fields = some results := by
  have hmissing (hget : value.field? key = none ∨ value.field? key = some .null)
      (hnone : Entries.get? key fields = none) : readList read path key value = .ok results ↔
        (∀ item ∈ value.itemsOf key, admits item) ∧
          Json.requireOr? [] (Json.toList? decode) key fields = some results := by
    rw [readList_of_missing hget, Json.itemsOf_of_missing hget, Json.requireOr?, hnone]
    simp
  cases hget : value.field? key with
  | none =>
    have hsame : value.withoutNullList key f = value := Json.withoutNullList_of_ne
      (by simp [hget]) (by simp [hget])
    refine hmissing (Or.inl hget) ?_
    rw [hfield, hsame, hget]
  | some found =>
    cases found with
    | null => exact hmissing (Or.inr hget) (hfield.trans (Json.field?_withoutNullList_of_null hget))
    | arr items =>
      rw [readList_of_arr hget, readEach_eq_ok_iff h, Json.itemsOf_of_field? hget, Json.requireOr?,
        hfield, Json.field?_withoutNullList_of_arr hget]
      rfl
    | _ =>
      have hsame : value.withoutNullList key f = value := Json.withoutNullList_of_ne
        (by simp [hget]) (by simp [hget])
      rw [Json.requireOr?, hfield, hsame, hget]
      unfold readList readItems
      rw [hget]
      constructor
      · rintro ⟨⟩
      · rintro ⟨-, ⟨⟩⟩

end Lists

/-! ## Reading of declarations -/

section Declarations

variable {path : FieldPath} {value : Json}

/-- The text of a field that is decoded from these fields, followed by other steps. -/
theorem readText_bind_eq_ok_iff {α : Type} {key : String} {fields : List (String × Json)}
    {next : String → Except BodyError α} {more : String → Option α} {q : Prop} {result : α}
    (hfield : Entries.get? key fields = value.field? key)
    (hnext : ∀ text, next text = .ok result ↔ q ∧ more text = some result) :
    readText path key value >>= next = .ok result ↔
      q ∧ Json.require? Json.toText? key fields >>= more = some result := by
  have hfirst : ∀ text, readText path key value = .ok text ↔
      True ∧ Json.require? Json.toText? key fields = some text := fun text => by
    rw [readText_eq_ok_iff hfield, true_and]
  rw [bind_eq_ok_iff_and hfirst hnext, true_and]

/-- Arguments are read from objects, as they are decoded. -/
theorem readArgument_eq_ok_iff {argument : Argument} :
    readArgument path value = .ok argument ↔
      value.isObject = true ∧ Argument.ofJson? value = some argument := by
  cases value with
  | obj fields =>
    show (readText path "name" (.obj fields) >>= fun name => .ok (Argument.mk name _)) = _ ↔
      _ ∧ (Json.require? Json.toText? "name" fields >>= fun name => some (Argument.mk name _)) = _
    exact readText_bind_eq_ok_iff rfl fun name => by simp [Json.isObject, Json.field?]
  | _ => simp [readArgument, readObject, Json.isObject, bind, Except.bind]

/-- Variables are read from objects, as they are decoded. -/
theorem readVariable_eq_ok_iff {decl : VariableDecl} :
    readVariable path value = .ok decl ↔
      value.isObject = true ∧ VariableDecl.ofJson? value = some decl := by
  cases value with
  | obj fields =>
    show (readText path "name" (.obj fields) >>= fun name => .ok (VariableDecl.mk name _)) = _ ↔
      _ ∧ (Json.require? Json.toText? "name" fields >>= fun name =>
        some (VariableDecl.mk name _)) = _
    exact readText_bind_eq_ok_iff rfl fun name => by simp [Json.isObject, Json.field?]
  | _ => simp [readVariable, readObject, Json.isObject, bind, Except.bind]

/-- A function is read exactly if it is decoded once null arguments are left out. -/
theorem readFunction_eq_ok_iff {decl : FunctionDecl} :
    readFunction path value = .ok decl ↔ FunctionDecl.InFields value ∧
      FunctionDecl.ofJson? (FunctionDecl.withoutNullLists value) = some decl := by
  cases value with
  | obj fields =>
    obtain ⟨kept, hkept⟩ : ∃ kept, FunctionDecl.withoutNullLists (.obj fields) = .obj kept :=
      Json.isObject_iff.mp Json.isObject_withoutNullList
    have hother : ∀ key, key ≠ "arguments" →
        Entries.get? key kept = (Json.obj fields).field? key := by
      intro key hkey
      rw [← Json.field?_withoutNullList_of_ne (f := id) hkey]
      exact (congrArg (Json.field? key) hkept).symm
    have harguments : Entries.get? "arguments" kept =
        ((Json.obj fields).withoutNullList "arguments" id).field? "arguments" :=
      (congrArg (Json.field? "arguments") hkept).symm
    rw [hkept]
    show (readText path "name" (.obj fields) >>= fun name =>
      readText path "body" (.obj fields) >>= fun source =>
      readList readArgument path "arguments" (.obj fields) >>= fun arguments =>
        .ok (FunctionDecl.mk name source arguments)) = _ ↔ _ ∧
      (Json.require? Json.toText? "name" kept >>= fun name =>
      Json.require? Json.toText? "body" kept >>= fun source =>
      Json.requireOr? [] argumentsOfJson? "arguments" kept >>= fun arguments =>
        some (FunctionDecl.mk name source arguments)) = _
    refine readText_bind_eq_ok_iff (hother "name" (by decide)) fun name => ?_
    refine readText_bind_eq_ok_iff (hother "body" (by decide)) fun source => ?_
    have hread : ∀ path item result, readArgument path item = .ok result ↔
        item.isObject = true ∧ Argument.ofJson? (id item) = some result :=
      fun _ _ _ => readArgument_eq_ok_iff
    rw [FunctionDecl.InFields, and_comm (a := Json.isObject _ = true)]
    exact bind_eq_ok_iff_and (fun arguments => readList_eq_ok_iff hread harguments)
      fun arguments => by simp [Json.isObject]
  | _ => simp [readFunction, readObject, Json.isObject, bind, Except.bind, FunctionDecl.InFields]

/-- A body is read, before its names are looked at, exactly if it is decoded once null lists are
left out. -/
theorem readStructure_eq_ok_iff {body : Body} :
    readStructure value = .ok body ↔
      InFields value ∧ ofDocument? (withoutNullLists value) = some body := by
  cases value with
  | obj fields =>
    have hobject : (withoutNullLists (.obj fields)).isObject = true := by
      rw [withoutNullLists, Json.isObject_withoutNullList, Json.isObject_withoutNullList]
      rfl
    -- the two lists stay under their keys, whichever of them is left out
    obtain ⟨kept, hkept⟩ := Json.isObject_iff.mp hobject
    have hactions : Entries.get? "actions" kept = ((Json.obj fields).withoutNullList "actions"
        FunctionDecl.withoutNullLists).field? "actions" := by
      rw [← Json.field?_withoutNullList_of_ne (f := id) (by decide : "actions" ≠ "variables")]
      exact (congrArg (Json.field? "actions") hkept).symm
    have hvariables : Entries.get? "variables" kept =
        ((Json.obj fields).withoutNullList "variables" id).field? "variables" := by
      refine (congrArg (Json.field? "variables") hkept).symm.trans ?_
      exact Json.field?_withoutNullList_congr (Json.field?_withoutNullList_of_ne (by decide))
    have hfunction : ∀ path item result, readFunction path item = .ok result ↔
        FunctionDecl.InFields item ∧
          FunctionDecl.ofJson? (FunctionDecl.withoutNullLists item) = some result :=
      fun _ _ _ => readFunction_eq_ok_iff
    have hvariable : ∀ path item result, readVariable path item = .ok result ↔
        item.isObject = true ∧ VariableDecl.ofJson? (id item) = some result :=
      fun _ _ _ => readVariable_eq_ok_iff
    rw [hkept]
    show (readList readFunction [] "actions" (.obj fields) >>= fun functions =>
      readList readVariable [] "variables" (.obj fields) >>= fun vars =>
        .ok (Body.mk functions vars)) = _ ↔ _ ∧
      (Json.requireOr? [] (Json.toList? FunctionDecl.ofJson?) "actions" kept >>= fun functions =>
      Json.requireOr? [] (Json.toList? VariableDecl.ofJson?) "variables" kept >>= fun vars =>
        some (Body.mk functions vars)) = _
    have hadmitted : InFields (.obj fields) ↔
        (∀ action ∈ (Json.obj fields).itemsOf "actions", FunctionDecl.InFields action) ∧
          (∀ decl ∈ (Json.obj fields).itemsOf "variables", decl.isObject = true) ∧
            (Json.obj fields).isObject = true := by
      rw [InFields, and_comm, and_assoc]
    rw [hadmitted]
    exact bind_eq_ok_iff_and (fun functions => readList_eq_ok_iff hfunction hactions)
      fun functions => bind_eq_ok_iff_and (fun vars => readList_eq_ok_iff hvariable hvariables)
        fun vars => by simp [Json.isObject]
  | _ => simp [readStructure, readObject, Json.isObject, bind, Except.bind, InFields]

end Declarations

end Body

/-! ## Decoded documents have no null lists -/

namespace Json

variable {α : Type} {decode : Json → Option α} {key : String} {f : Json → Json}

/-- A list that is decoded is not null. -/
theorem withoutNullList_of_requireOr? {fields : List (String × Json)} {results : List α}
    (hf : ∀ item result, decode item = some result → f item = item)
    (h : requireOr? [] (toList? decode) key fields = some results) :
    (Json.obj fields).withoutNullList key f = .obj fields := by
  rw [requireOr?] at h
  cases hget : Entries.get? key fields with
  | none => exact withoutNullList_of_ne (by simp [field?, hget]) (by simp [field?, hget])
  | some found =>
    rw [hget] at h
    cases found with
    | arr items => exact withoutNullList_of_arr hget (map_eq_self_of_mapM hf h)
    | _ => cases h

end Json

/-- A function that is decoded has no null list. -/
theorem FunctionDecl.withoutNullLists_of_ofJson? {value : Json} {decl : FunctionDecl}
    (h : ofJson? value = some decl) : withoutNullLists value = value := by
  cases value with
  | obj fields =>
    obtain ⟨_, _, h⟩ := Option.bind_eq_some_iff.mp h
    obtain ⟨_, _, h⟩ := Option.bind_eq_some_iff.mp h
    obtain ⟨arguments, harguments, _⟩ := Option.bind_eq_some_iff.mp h
    exact Json.withoutNullList_of_requireOr? (fun _ _ _ => rfl) harguments
  | _ => rfl

namespace Body

/-- A document that is decoded has no null lists to leave out. -/
theorem withoutNullLists_of_ofDocument? {value : Json} {body : Body}
    (h : ofDocument? value = some body) : withoutNullLists value = value := by
  cases value with
  | obj fields =>
    obtain ⟨functions, hfunctions, h⟩ := Option.bind_eq_some_iff.mp h
    obtain ⟨vars, hvars, _⟩ := Option.bind_eq_some_iff.mp h
    rw [withoutNullLists, Json.withoutNullList_of_requireOr?
      (fun _ _ => FunctionDecl.withoutNullLists_of_ofJson?) hfunctions]
    exact Json.withoutNullList_of_requireOr? (fun _ _ _ => rfl) hvars
  | _ => rfl

/-! ## Written bodies -/

/-- A body without explicit nulls for default values. -/
def normal (body : Body) : Body :=
  { body with functions := body.functions.map fun decl =>
      { decl with arguments := decl.arguments.map Argument.normal } }

/-- No argument of the body has an explicit null for a default value. -/
def NoNullDefaults (body : Body) : Prop :=
  ∀ decl ∈ body.functions, ∀ argument ∈ decl.arguments, argument.ValuesSatisfy (· ≠ .null)

/-- A body without null default values is normal. -/
theorem normal_eq_self {body : Body} (h : body.NoNullDefaults) : body.normal = body := by
  have hfunctions : body.functions.map (fun decl =>
      { decl with arguments := decl.arguments.map Argument.normal }) = body.functions := by
    refine (List.map_congr_left fun decl hdecl => ?_).trans (List.map_id' _)
    rw [List.map_congr_left fun argument hargument =>
      Argument.normal_eq_self_iff.mpr (h decl hdecl argument hargument), List.map_id']
  rw [normal, hfunctions]

/-- A body is decoded from its document to its normal form. -/
theorem ofDocument?_toJson (body : Body) : ofDocument? body.toJson = some body.normal := by
  have hfunction (decl : FunctionDecl) : FunctionDecl.ofJson? decl.toJson =
      some { decl with arguments := decl.arguments.map Argument.normal } := by
    have harguments : argumentsOfJson? (argumentsToJson decl.arguments) = _ :=
      Json.toList?_map Argument.ofJson?_toJson decl.arguments
    show (argumentsOfJson? (argumentsToJson decl.arguments) >>= _) = _
    rw [harguments]
    rfl
  have hfunctions := Json.toList?_map hfunction body.functions
  have hvars := Json.toList?_map_self (fun decl : VariableDecl =>
    (rfl : VariableDecl.ofJson? decl.toJson = some decl)) body.vars
  show (Json.toList? FunctionDecl.ofJson? (.arr (body.functions.map FunctionDecl.toJson)) >>= _) = _
  rw [hfunctions]
  show (Json.toList? VariableDecl.ofJson? (.arr (body.vars.map VariableDecl.toJson)) >>= _) = _
  rw [hvars]
  rfl

/-- Bodies are written with the names of their fields. -/
theorem inFields_toJson (body : Body) : InFields body.toJson := by
  refine ⟨rfl, fun action haction => ?_, fun decl hdecl => ?_⟩
  · obtain ⟨decl, -, rfl⟩ := List.mem_map.mp haction
    refine ⟨rfl, fun argument hargument => ?_⟩
    obtain ⟨_, -, rfl⟩ := List.mem_map.mp hargument
    rfl
  · obtain ⟨_, -, rfl⟩ := List.mem_map.mp hdecl
    rfl

/-! ## The two readers -/

/-- A body if its names are valid, and the first offence otherwise. -/
def checked (body : Body) : Except BodyError Body :=
  match body.validate with
  | .ok () => .ok body
  | .error error => .error error

/-- A body is checked and not changed. -/
theorem checked_eq_ok_iff {body result : Body} :
    body.checked = .ok result ↔ body = result ∧ body.validate = .ok () := by
  unfold checked
  split
  · rename_i hvalid
    simp [hvalid]
  · rename_i error hinvalid
    simp [hinvalid]

/-- Only the names of a body that is read are looked at. -/
theorem ofJson_of_readStructure {value : Json} {body : Body} (h : readStructure value = .ok body) :
    ofJson value = body.checked := by
  show (readStructure value >>= fun body => body.validate >>= fun _ => .ok body) = _
  rw [h]
  show (body.validate >>= fun _ => .ok body) = _
  unfold checked
  cases body.validate <;> rfl

/-- A body that is decoded is read, if it is valid. -/
theorem ofJson_of_ofDocument? {value : Json} {body : Body} (hfields : InFields value)
    (hread : ofDocument? value = some body) : ofJson value = body.checked := by
  refine ofJson_of_readStructure (readStructure_eq_ok_iff.mpr ⟨hfields, ?_⟩)
  rw [withoutNullLists_of_ofDocument? hread, hread]

/-- A body is read if it is decoded without its null lists and valid. -/
theorem ofJson_eq_ok_iff {value : Json} {body : Body} :
    ofJson value = .ok body ↔ InFields value ∧
      ofDocument? (withoutNullLists value) = some body ∧ body.validate = .ok () := by
  constructor
  · intro h
    obtain ⟨read, hread, -⟩ := bind_eq_ok_iff.mp h
    rw [ofJson_of_readStructure hread, checked_eq_ok_iff] at h
    obtain ⟨rfl, hvalid⟩ := h
    obtain ⟨hfields, hdecode⟩ := readStructure_eq_ok_iff.mp hread
    exact ⟨hfields, hdecode, hvalid⟩
  · rintro ⟨hfields, hdecode, hvalid⟩
    rw [ofJson_of_readStructure (readStructure_eq_ok_iff.mpr ⟨hfields, hdecode⟩)]
    exact checked_eq_ok_iff.mpr ⟨rfl, hvalid⟩

/-- **The readers agree.**  A document that is written with objects and is decoded to a body gives
the parser's reader the same body, or what is wrong with its names.  The parser's reader gives a
body exactly for the documents that are written with objects, are decoded to this body once null
lists are left out, and have valid names.  In particular every body without explicit nulls comes
back from its own document, or what is wrong with its names. -/
theorem readers_agree :
    (∀ value body, InFields value → ofDocument? value = some body → ofJson value = body.checked) ∧
    (∀ value body, ofJson value = .ok body ↔ InFields value ∧
      ofDocument? (withoutNullLists value) = some body ∧ body.validate = .ok ()) ∧
    ∀ body : Body, body.NoNullDefaults → ofJson body.toJson = body.checked := by
  refine ⟨fun value body => ofJson_of_ofDocument?, fun value body => ofJson_eq_ok_iff,
    fun body hnull => ofJson_of_ofDocument? body.inFields_toJson ?_⟩
  rw [ofDocument?_toJson, normal_eq_self hnull]

/-- A document with fields that nothing reads, an argument with a null and no variables. -/
def looseDocument : Json :=
  .obj [("colour", .str "red"), ("actions", .arr [.obj [("line", .bool true), ("body", .str "1"),
    ("name", .str "load"), ("arguments", .arr [.obj [("name", .str "id"), ("value", .null)]])]])]

/-- A document with null lists, which is not decoded as it is. -/
def nullDocument : Json :=
  .obj [("actions", .arr [.obj [("name", .str "load"), ("body", .str "1"), ("arguments", .null)]]),
    ("variables", .null)]

/-- A body whose variable has the name of its function. -/
def ambiguousBody : Body := ⟨[⟨"x", "1", [⟨"id", some (.str "0")⟩]⟩], [⟨"x", .null⟩]⟩

/-- The documents are read, and so is the document of the body but for the name of the variable. -/
theorem loose_documents_are_read :
    ofJson looseDocument = .ok ⟨[⟨"load", "1", [⟨"id", none⟩]⟩], []⟩ ∧
    ofDocument? nullDocument = none ∧ ofJson nullDocument = .ok ⟨[⟨"load", "1", []⟩], []⟩ ∧
    ofJson ambiguousBody.toJson = .error ⟨namePath "variables" 0, .duplicate "x"⟩ := by
  obtain ⟨hdecoded, hread, hwritten⟩ := readers_agree
  have hloose : ofDocument? looseDocument = some ⟨[⟨"load", "1", [⟨"id", none⟩]⟩], []⟩ := by decide
  refine ⟨hdecoded looseDocument _ (by decide) hloose, by decide, ?_, ?_⟩
  · exact (hread nullDocument _).mpr ⟨by decide, by decide, by decide⟩
  · refine hwritten ambiguousBody fun decl hdecl argument hargument => ?_
    obtain rfl := List.mem_singleton.mp hdecl
    obtain rfl := List.mem_singleton.mp hargument
    rintro value ⟨⟩ ⟨⟩

end Body

end ScriptStore
