import ScriptStore.Document.Decode
import ScriptStore.Proofs.Document.Origins

/-!
# Documents are decoded to what they were written from

Every stored type is decoded from its own JSON form to itself, with one exception: an argument whose
default value is an explicit null reads as an argument without a default value.  So a store is
decoded from its document to its normal form, without such nulls (`Store.ofJson?_toJson`), and it is
its own normal form exactly if it has none (`Store.normal_eq_self_iff`).

No document is decoded to a store with an explicit null.  So a document of any notation has one
normal form, that of the store that is decoded from it (`Store.documents_round_trip`).
-/

namespace ScriptStore

/-! ## Lists and maps -/

namespace Json

section Forms

variable {α : Type} {f : α → α} {read : Json → Option α} {write : α → Json}

/-- Reading what was written changes the items of a list as it changes each item. -/
theorem toList?_map (h : ∀ item, read (write item) = some (f item)) (items : List α) :
    toList? read (.arr (items.map write)) = some (items.map f) :=
  mapM_map_of_forall fun item _ => h item

/-- Reading what was written changes the values of a map as it changes each value. -/
theorem toMap?_ofMap (h : ∀ item, read (write item) = some (f item)) (m : OrderedMap α) :
    toMap? read (ofMap write m) = some (m.map f) := by
  have hentries : (Entries.mapValues write m.entries).mapM (readField? read) =
      some (m.map f).entries := by
    refine mapM_map_of_forall fun entry _ => ?_
    rw [readField?, h entry.2]
    rfl
  rw [ofMap, toMap?, hentries, Option.map_some, OrderedMap.ofList_entries]

/-- A list is read as it was written if its items are. -/
theorem toList?_map_self (h : ∀ item, read (write item) = some item) (items : List α) :
    toList? read (.arr (items.map write)) = some items := by
  rw [toList?_map (f := id) h, List.map_id]

/-- A map is read as it was written if its values are. -/
theorem toMap?_ofMap_self (h : ∀ item, read (write item) = some item) (m : OrderedMap α) :
    toMap? read (ofMap write m) = some m := by
  rw [toMap?_ofMap (f := id) h, OrderedMap.map_eq_self_iff.mpr fun _ _ => rfl]

end Forms

end Json

/-! ## Normal forms -/

/-- An argument without its default value if that is an explicit null. -/
def Argument.normal (argument : Argument) : Argument :=
  ⟨argument.name, argument.value.filter (!·.isNull)⟩

/-- The metadata of a function without explicit nulls. -/
def FunctionMeta.normal (data : FunctionMeta) : FunctionMeta :=
  { data with arguments := data.arguments.map Argument.normal }

/-- A record without explicit nulls. -/
def Record.normal (record : Record) : Record :=
  { record with functions := record.functions.map FunctionMeta.normal }

/-- A store without explicit nulls. -/
def Store.normal (store : Store) : Store :=
  { store with configs := store.configs.map Record.normal }

/-- No argument of the store has an explicit null for a default value. -/
def Store.NoNullDefaults (store : Store) : Prop :=
  ∀ entity record, store.record? entity = some record → record.ValuesSatisfy (· ≠ .null)

/-- An argument is normal unless its default value is null. -/
theorem Argument.normal_eq_self_iff {argument : Argument} :
    argument.normal = argument ↔ argument.ValuesSatisfy (· ≠ .null) := by
  obtain ⟨name, value⟩ := argument
  cases value with
  | none => simp [normal, ValuesSatisfy]
  | some value => cases value <;> simp [normal, ValuesSatisfy, Json.isNull]

/-- Metadata are normal if no default value is null. -/
theorem FunctionMeta.normal_eq_self_iff {data : FunctionMeta} :
    data.normal = data ↔ ∀ argument ∈ data.arguments, argument.ValuesSatisfy (· ≠ .null) := by
  have harguments : data.normal = data ↔
      data.arguments.map Argument.normal = data.arguments.map id := by
    rw [List.map_id]
    exact ⟨congrArg arguments, fun h => by rw [normal, h]⟩
  rw [harguments, List.map_inj_left]
  exact forall₂_congr fun argument _ => Argument.normal_eq_self_iff

/-- A record is normal if no default value is null. -/
theorem Record.normal_eq_self_iff {record : Record} :
    record.normal = record ↔ record.ValuesSatisfy (· ≠ .null) := by
  have hfunctions : record.normal = record ↔
      record.functions.map FunctionMeta.normal = record.functions :=
    ⟨congrArg functions, fun h => by rw [normal, h]⟩
  rw [hfunctions, OrderedMap.map_eq_self_iff]
  exact (OrderedMap.forall_entries_iff record.functions fun data => data.normal = data).trans
    (forall₃_congr fun name data _ => FunctionMeta.normal_eq_self_iff)

/-- A store is its own normal form exactly if it has no explicit nulls. -/
theorem Store.normal_eq_self_iff {store : Store} :
    store.normal = store ↔ store.NoNullDefaults := by
  have hconfigs : store.normal = store ↔ store.configs.map Record.normal = store.configs :=
    ⟨congrArg configs, fun h => by rw [normal, h]⟩
  rw [hconfigs, OrderedMap.map_eq_self_iff]
  exact (OrderedMap.forall_entries_iff store.configs fun record => record.normal = record).trans
    (forall₃_congr fun entity record _ => Record.normal_eq_self_iff)

/-! ## Records -/

theorem stringsOfJson?_ofStrings (strings : List String) :
    stringsOfJson? (Json.ofStrings strings) = some strings := by
  have htext : ∀ text, Json.toText? (.str text) = some text := fun _ => rfl
  exact Json.toList?_map_self htext strings

theorem bindingPathOfJson?_toJson (key : String) :
    bindingPathOfJson? (bindingPathToJson key) = some key := rfl

/-- A substitution is read from its label. -/
theorem Substitution.ofJson?_toJson (substitution : Substitution) :
    ofJson? substitution.toJson = some substitution := by
  cases substitution <;> rfl

/-- A null default value is read as none. -/
theorem Argument.ofJson?_toJson (argument : Argument) :
    ofJson? argument.toJson = some argument.normal := by
  obtain ⟨name, value⟩ := argument
  cases value <;> rfl

/-- Metadata are read up to null default values. -/
theorem FunctionMeta.ofJson?_toJson (data : FunctionMeta) :
    ofJson? data.toJson = some data.normal := by
  have harguments : argumentsOfJson? (argumentsToJson data.arguments) =
      some (data.arguments.map Argument.normal) :=
    Json.toList?_map Argument.ofJson?_toJson data.arguments
  show (argumentsOfJson? (argumentsToJson data.arguments) >>= _) = _
  rw [harguments]
  rfl

/-- A record is read up to null default values. -/
theorem Record.ofJson?_toJson (record : Record) : ofJson? record.toJson = some record.normal := by
  have hvars := stringsOfJson?_ofStrings record.vars
  have hfunctions := Json.toMap?_ofMap FunctionMeta.ofJson?_toJson record.functions
  have hpaths := Json.toMap?_ofMap_self Substitution.ofJson?_toJson record.reactivePaths
  have hbindings := Json.toList?_map_self bindingPathOfJson?_toJson record.bindingPaths
  have hdependencies : Json.toMap? stringsOfJson? record.dependencies.toJson =
      some record.dependencies :=
    Json.toMap?_ofMap_self stringsOfJson?_ofStrings record.dependencies
  show (stringsOfJson? (Json.ofStrings record.vars) >>= _) = _
  rw [hvars]
  show (Json.toMap? FunctionMeta.ofJson?
    (Json.ofMap FunctionMeta.toJson record.functions) >>= _) = _
  rw [hfunctions]
  show (Json.toMap? Substitution.ofJson?
    (Json.ofMap Substitution.toJson record.reactivePaths) >>= _) = _
  rw [hpaths]
  show (Json.toList? bindingPathOfJson?
    (.arr (record.bindingPaths.map bindingPathToJson)) >>= _) = _
  rw [hbindings]
  show (Json.toMap? stringsOfJson? record.dependencies.toJson >>= _) = _
  rw [hdependencies]
  rfl

/-! ## Members and stores -/

/-- A member is read as it was written, null or not. -/
theorem Member.ofJson?_toJson (member : Member) : ofJson? member.toJson = some member := by
  cases member <;> rfl

/-- So is the subtree of an entity. -/
theorem MemberTree.ofJson?_toJson (members : MemberTree) :
    ofJson? members.toJson = some members :=
  Json.toMap?_ofMap_self Member.ofJson?_toJson members

/-- So is the whole forest. -/
theorem Forest.ofJson?_toJson (forest : Forest) : ofJson? forest.toJson = some forest :=
  Json.toMap?_ofMap_self MemberTree.ofJson?_toJson forest

/-- **The round trip**: a store is decoded from its document to its normal form, up to the
verification, which documents do not keep. -/
theorem Store.ofJson?_toJson (store : Store) (verify : Bool) :
    ofJson? verify store.toJson = some { store.normal with verify := verify } := by
  have hconfigs := Json.toMap?_ofMap Record.ofJson?_toJson store.configs
  show (Json.toMap? Record.ofJson? (Json.ofMap Record.toJson store.configs) >>= _) = _
  rw [hconfigs]
  show (Forest.ofJson? store.trees.toJson >>= _) = _
  rw [Forest.ofJson?_toJson]
  rfl

/-! ## Normal documents -/

/-- A store comes back from its document exactly if it has no explicit nulls. -/
theorem Store.ofJson?_toJson_eq_self_iff {store : Store} {verify : Bool} :
    ofJson? verify store.toJson = some { store with verify := verify } ↔ store.NoNullDefaults := by
  rw [ofJson?_toJson, Option.some.injEq, ← normal_eq_self_iff]
  constructor
  · intro h
    have hconfigs : store.configs.map Record.normal = store.configs := congrArg configs h
    rw [normal, hconfigs]
  · intro h
    rw [h]

/-- No document is decoded to a store with explicit nulls. -/
theorem Store.noNullDefaults_of_ofJson? {document : Json} {verify : Bool} {store : Store}
    (h : ofJson? verify document = some store) : store.NoNullDefaults :=
  ((origins_of_ofJson? h).mono (fun _ _ => trivial) fun _ hvalue => hvalue.1).records

/-- **Documents of stores round trip.**  A store comes back from its document, with all of its
orders and whatever the verification, exactly if none of its arguments has an explicit null for a
default value.  No document is decoded to a store that has one.  So whatever the notation of a
document is, the store that is decoded from it comes back from the document that it is written to,
which is the same document again. -/
theorem Store.documents_round_trip :
    (∀ (store : Store) (verify : Bool),
      ofJson? verify store.toJson = some { store with verify := verify } ↔
        store.NoNullDefaults) ∧
    ∀ (document : Json) (verify : Bool) (store : Store), ofJson? verify document = some store →
      store.NoNullDefaults ∧ ∀ again, ∃ next, ofJson? again store.toJson = some next ∧
        next.configs = store.configs ∧ next.trees = store.trees ∧ next.toJson = store.toJson := by
  refine ⟨fun store verify => ofJson?_toJson_eq_self_iff, fun document verify store h => ?_⟩
  have hnull := noNullDefaults_of_ofJson? h
  exact ⟨hnull, fun again =>
    ⟨{ store with verify := again }, ofJson?_toJson_eq_self_iff.mpr hnull, rfl, rfl, rfl⟩⟩

/-- A document in the other notations: the store, its record, a function, its argument and a member
are arrays, the kind of the other member comes last, a substitution is an object, and there are an
argument with a null, fields that are missing, and one that is unknown. -/
def motleyDocument : Json :=
  .arr [.obj [("Page", .arr [.str "Page", .arr [.str "b", .str "a"],
      .obj [("load", .arr [.arr [.arr [.str "id", .null]], .bool true, .bool false])],
      .obj [("load", .obj [("TEMPLATE", .null)])]])],
    .obj [("Page", .obj [("load", .arr [.str "function", .str "() => 1"]),
      ("b", .obj [("colour", .str "red"), ("kind", .str "variable")])])]]

/-- The store of the document. -/
def motleyStore : Store where
  configs := OrderedMap.ofList [("Page", ⟨"Page", ["b", "a"],
    OrderedMap.ofList [("load", ⟨[⟨"id", none⟩], true, false⟩)],
    OrderedMap.ofList [("load", .template)], [], DependencyMap.initial⟩)]
  trees := OrderedMap.ofList [("Page", OrderedMap.ofList
    [("load", .function "() => 1" emptyData), ("b", .var .null)])]
  verify := false

/-- The store comes back from its own document, which is another one. -/
theorem motley_document_round_trips :
    Store.ofJson? false motleyDocument = some motleyStore ∧ motleyStore.toJson ≠ motleyDocument ∧
      ∃ next, Store.ofJson? true motleyStore.toJson = some next ∧
        next.configs = motleyStore.configs ∧ next.trees = motleyStore.trees ∧
        next.toJson = motleyStore.toJson := by
  have hread : Store.ofJson? false motleyDocument = some motleyStore := by decide
  have hother : motleyStore.toJson ≠ motleyDocument := by rintro ⟨⟩
  obtain ⟨-, hback⟩ := Store.documents_round_trip.2 motleyDocument false motleyStore hread
  exact ⟨hread, hother, hback true⟩

end ScriptStore
