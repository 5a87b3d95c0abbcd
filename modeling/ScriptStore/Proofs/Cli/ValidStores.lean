import ScriptStore.Proofs.Cli.SavedStores
import ScriptStore.Proofs.Schema.StoreDocument

/-!
# Valid documents are documents of stores, and stay valid

What `validate` accepts is read as a store, so no command complains that it is none.  A command that
takes in a body or clears an entity leaves a valid document again, with one exception: a
synchronization accepts the empty name for an entity, and the schema does not
(`valid_documents_stay_valid`).
-/

namespace ScriptStore

open Json (maxOpen)

/-- The empty body has no values. -/
theorem Body.valuesSatisfy_empty {value argument : Json → Prop} :
    Body.empty.ValuesSatisfy value argument where
  vars := List.forall_mem_nil _
  functions := List.forall_mem_nil _

namespace Cli

variable {files : Files} {path : String} {settings : Settings} {disk : Disk}

/-! ## Complaints about the store -/

/-- Whether a document is a store does not matter when it is read. -/
theorem readJson_ne_notStore {file detail : String} :
    readJson files path ≠ .error (.notStore file detail) := by
  intro h
  unfold readJson at h
  split at h
  · cases h
  split at h
  · cases h
  · cases h

theorem readBody_ne_notStore {file detail : String} :
    readBody files path ≠ .error (.notStore file detail) := by
  intro h
  rcases bind_eq_error_iff.mp h with h | ⟨document, -, h⟩
  · exact readJson_ne_notStore h
  split at h
  · cases h
  · cases h

/-- A refusal is no complaint about the store. -/
theorem orRefused_ne_notStore {α : Type} {purpose : Purpose} {result : Except SyncError α}
    {file detail : String} : orRefused purpose result ≠ .error (.notStore file detail) := by
  cases result with
  | error error => rintro ⟨⟩
  | ok value => rintro ⟨⟩

/-- Only the file of the store can turn out to hold none. -/
theorem readStore_of_notStore {command : Command} {file detail : String}
    (h : command.find? files = .error (.notStore file detail)) :
    ∃ verify, readStore files verify command.store = .error (.notStore file detail) := by
  cases command with
  | diff store body entity =>
    rcases bind_eq_error_iff.mp h with h | ⟨kept, -, h⟩
    · exact ⟨false, h⟩
    rcases bind_eq_error_iff.mp h with h | ⟨parsed, -, h⟩
    · exact absurd h readBody_ne_notStore
    rcases bind_eq_error_iff.mp h with h | ⟨diff, -, h⟩
    · exact absurd h orRefused_ne_notStore
    · cases h
  | sync store body entity out verify =>
    rcases bind_eq_error_iff.mp h with h | ⟨kept, -, h⟩
    · exact ⟨verify, h⟩
    rcases bind_eq_error_iff.mp h with h | ⟨parsed, -, h⟩
    · exact absurd h readBody_ne_notStore
    rcases bind_eq_error_iff.mp h with h | ⟨outcome, -, h⟩
    · exact absurd h orRefused_ne_notStore
    · cases h
  | clear store entity out =>
    rcases bind_eq_error_iff.mp h with h | ⟨kept, -, h⟩
    · exact ⟨true, h⟩
    rcases bind_eq_error_iff.mp h with h | ⟨⟨answer, next⟩, -, h⟩
    · exact absurd h orRefused_ne_notStore
    cases answer with
    | none => cases h
    | some diff => cases h
  | check store =>
    rcases bind_eq_error_iff.mp h with h | ⟨kept, -, h⟩
    · exact ⟨false, h⟩
    · cases h
  | validate store =>
    rcases bind_eq_error_iff.mp h with h | ⟨document, -, h⟩
    · exact absurd h readJson_ne_notStore
    split at h
    · cases h
    · cases h

/-! ## Valid files -/

/-- The file holds a document that the schema accepts. -/
def Valid (files : Files) (path : String) : Prop :=
  ∃ document, readJson files path = .ok document ∧
    Schema.storeDocument.accepts document = true

/-- Validation exits with zero for valid files only. -/
theorem exitCode_validate_eq_zero_iff :
    ((Command.validate path).run settings disk).1.exitCode = 0 ↔ Valid disk.files path := by
  constructor
  · intro hexit
    have hfound := find?_of_succeeds (exitCode_run_eq_zero_iff.mp hexit).1
    exact (findValidate_eq_ok_iff.mp hfound).2
  · intro hvalid
    have hfound : (Command.validate path).find? disk.files = .ok .valid :=
      findValidate_eq_ok_iff.mpr ⟨rfl, hvalid⟩
    rw [run_of_find? hfound (by rintro _ _ ⟨⟩)]
    rfl

/-- A valid file is read as a store without empty names. -/
theorem Valid.exists_readStore (h : Valid files path) (verify : Bool) :
    ∃ store, readStore files verify path = .ok store ∧ store.NoEmptyNames := by
  obtain ⟨document, hdocument, haccepts⟩ := h
  obtain ⟨store, hstore, hnames⟩ := Schema.readBy_storeDocument verify document haccepts
  exact ⟨store, readStore_eq_ok_iff.mpr ⟨document, hdocument, hstore⟩, hnames⟩

/-- The store of a valid file has no empty names. -/
theorem Valid.noEmptyNames (h : Valid files path) {verify : Bool} {store : Store}
    (hstore : readStore files verify path = .ok store) : store.NoEmptyNames := by
  obtain ⟨found, hfound, hnames⟩ := h.exists_readStore verify
  exact Except.ok.inj (hfound.symm.trans hstore) ▸ hnames

/-- No command complains that a valid file holds no store. -/
theorem Valid.complaint_ne_notStore {command : Command} (h : Valid disk.files command.store)
    {file detail : String} :
    (command.run settings disk).1.complaint ≠ some (.notStore file detail) := by
  intro hcomplaint
  rcases complaint_run_eq_some hcomplaint with hfind | ⟨path, detail, ⟨⟩⟩
  obtain ⟨verify, herror⟩ := readStore_of_notStore hfind
  obtain ⟨store, hstore, -⟩ := h.exists_readStore verify
  rw [hstore] at herror
  cases herror

/-- The text of a store can be read and then is valid if its document is. -/
theorem valid_iff_of_storeText {store : Store} (hkeys : store.toJson.DistinctKeys)
    (hnumbers : ∀ n ∈ store.toJson.numbers, n.ReadsBack) (hdepth : store.toJson.depth ≤ maxOpen)
    (hfile : files path = .ok (Finding.storeText store)) :
    Valid files path ↔ Schema.storeDocument.accepts store.toJson = true := by
  have hparse := Json.ofString?_pretty hkeys hnumbers
  rw [if_pos hdepth] at hparse
  have hread := readJson_of_some hfile hparse
  constructor
  · rintro ⟨document, hdocument, haccepts⟩
    obtain rfl := Except.ok.inj (hread.symm.trans hdocument)
    exact haccepts
  · exact fun haccepts => ⟨store.toJson, hread, haccepts⟩

/-- So it is with the text of a store that has been computed from a file, if the new values are not
too deep. -/
theorem valid_iff_of_reconcile {keptFiles : Files} {keptPath entity : String} {verify : Bool}
    {kept next : Store} {parsed : Body} {diff : EntityDiff}
    (hkept : readStore keptFiles verify keptPath = .ok kept)
    (hbody : parsed.ValuesSatisfy (Json.Fits (maxOpen - 3))
      (fun value => value ≠ .null ∧ value.Fits (maxOpen - 5)))
    (hpass : kept.reconcile entity parsed = .ok (diff, next)) (hstorable : diff.Storable)
    (hnumbers : ∀ n ∈ next.toJson.numbers, n.ReadsBack)
    (hfile : files path = .ok (Finding.storeText next)) :
    Valid files path ↔ Schema.storeDocument.accepts next.toJson = true := by
  obtain ⟨document, hdocument, hdecoded⟩ := readStore_eq_ok hkept
  have hstore := Store.fits_of_ofJson? hdocument hdecoded
  obtain ⟨hkeys, -, hdepth⟩ := Store.document_of_reconcile hpass hstore hbody
  exact valid_iff_of_storeText hkeys hnumbers (hdepth.mpr hstorable) hfile

/-! ## The main theorem -/

/-- **Valid documents are documents of stores, and stay valid.**  What the schema accepts is read as
a store.  So where `validate` ends well, no command on the file complains that it holds no store.
Clearing an entity leaves a valid document, and a synchronization leaves one exactly if the entity
has a name.  So it is with the files that hold the text of what is left, where this can be read:
numbers are read as they were written, and the values of the difference are not too deep. -/
theorem valid_documents_stay_valid :
    (∀ document, Schema.storeDocument.accepts document = true → ∀ verify,
      ∃ store, Store.ofJson? verify document = some store) ∧
    ∀ (settings : Settings) (disk : Disk) (path : String),
      ((Command.validate path).run settings disk).1.exitCode = 0 →
      (∀ (command : Command) (other : Settings), command.store = path → ∀ file detail,
        (command.run other disk).1.complaint ≠ some (.notStore file detail)) ∧
      (∀ (entity : String) (out : Option String) (other : Settings),
        ((Command.clear path entity out).run other disk).1.exitCode = 0 →
        ∃ kept diff next, readStore disk.files true path = .ok kept ∧
          kept.clear entity = .ok (some diff, next) ∧
          emitted out ((Command.clear path entity out).run other disk) =
            some (Finding.storeText next) ∧
          Schema.storeDocument.accepts next.toJson = true ∧
          ((∀ n ∈ next.toJson.numbers, n.ReadsBack) → ∀ (files : Files) (file : String),
            files file = .ok (Finding.storeText next) → Valid files file)) ∧
      ∀ (body entity : String) (out : Option String) (verify : Bool) (other : Settings),
        ((Command.sync path body entity out verify).run other disk).1.exitCode = 0 →
        ∃ kept parsed diff next, readStore disk.files verify path = .ok kept ∧
          readBody disk.files body = .ok parsed ∧
          kept.reconcile entity parsed = .ok (diff, next) ∧
          emitted out ((Command.sync path body entity out verify).run other disk) =
            some (Finding.storeText next) ∧
          (Schema.storeDocument.accepts next.toJson = true ↔ entity ≠ "") ∧
          ((∀ n ∈ next.toJson.numbers, n.ReadsBack) → diff.Storable →
            ∀ (files : Files) (file : String), files file = .ok (Finding.storeText next) →
              (Valid files file ↔ entity ≠ "")) := by
  constructor
  · intro document haccepts verify
    obtain ⟨store, hstore, -⟩ := Schema.readBy_storeDocument verify document haccepts
    exact ⟨store, hstore⟩
  intro settings disk path hexit
  have hvalid := exitCode_validate_eq_zero_iff.mp hexit
  refine ⟨?_, ?_, ?_⟩
  · rintro command other rfl file detail
    exact hvalid.complaint_ne_notStore
  · intro entity out other hcleared
    obtain ⟨kept, diff, next, hkept, hclear, hemitted⟩ := run_clear_eq_ok hcleared
    have hnames := hvalid.noEmptyNames hkept
    have haccepts := (Schema.writtenBy_storeDocument next).mpr
      (Store.noEmptyNames_of_clear hnames hclear)
    refine ⟨kept, diff, next, hkept, hclear, hemitted, haccepts, ?_⟩
    intro hnumbers files file hfile
    -- clearing is a pass of the empty body, which brings in no values
    have hpass := Store.reconcile_of_clear hclear
    have hstorable : diff.Storable :=
      Store.reconcile_diff_valuesSatisfy hpass Body.valuesSatisfy_empty
    exact (valid_iff_of_reconcile hkept Body.valuesSatisfy_empty hpass hstorable hnumbers hfile).mpr
      haccepts
  · intro body entity out verify other hsynced
    obtain ⟨kept, parsed, diff, next, hkept, hparsed, hpass, hemitted⟩ := run_sync_eq_ok hsynced
    have hnames := hvalid.noEmptyNames hkept
    have haccepts := (Schema.writtenBy_storeDocument next).trans
      (Store.noEmptyNames_of_reconcile_iff hnames hpass)
    refine ⟨kept, parsed, diff, next, hkept, hparsed, hpass, hemitted, haccepts, ?_⟩
    intro hnumbers hstorable files file hfile
    obtain ⟨document, hdocument, hdecoded⟩ := readBody_eq_ok hparsed
    have hbody := Body.fits_of_ofJson hdocument hdecoded
    exact (valid_iff_of_reconcile hkept hbody hpass hstorable hnumbers hfile).trans haccepts

/-- A store with one variable, which the schema accepts, and a body that declares another one. -/
def namedDisk : Disk where
  files path :=
    if path = "store.json" then
      .ok "\x7b\"configs\":\x7b\"P\":\x7b\"name\":\"P\",\"variables\":[\"x\"]\x7d\x7d\x7d"
    else if path = "body.json" then .ok "\x7b\"variables\":[\x7b\"name\":\"y\"\x7d]\x7d"
    else .error "not found"
  refusal? _ := none

/-- Clearing the entity leaves a valid document, and so does taking in the body for it, but not
taking in the body for an entity without a name. -/
theorem nameless_entity_is_invalid :
    let settings : Settings := ⟨.text, false, false⟩
    let synchronize := fun entity => Command.sync "store.json" "body.json" entity none true
    let leaves := fun command (next : Store) =>
      (command.run settings namedDisk).1.exitCode = 0 ∧
        emitted none (command.run settings namedDisk) = some (Finding.storeText next)
    ((Command.validate "store.json").run settings namedDisk).1.exitCode = 0 ∧
      (∃ next, leaves (.clear "store.json" "P" none) next ∧
        Schema.storeDocument.accepts next.toJson = true) ∧
      (∃ next, leaves (synchronize "P") next ∧
        Schema.storeDocument.accepts next.toJson = true) ∧
      ∃ next, leaves (synchronize "") next ∧
        Schema.storeDocument.accepts next.toJson ≠ true := by
  have hends : ∀ command : Command, (command.find namedDisk.files).succeeds = true →
      (command.run ⟨.text, false, false⟩ namedDisk).1.exitCode = 0 := fun command hsucceeds =>
    exitCode_run_eq_zero_iff.mpr ⟨hsucceeds, fun _ _ _ => rfl⟩
  have hvalid := hends (.validate "store.json") (by decide +kernel)
  have hclear := hends (.clear "store.json" "P" none) (by decide +kernel)
  have hnamed := hends (.sync "store.json" "body.json" "P" none true) (by decide +kernel)
  have hnameless := hends (.sync "store.json" "body.json" "" none true) (by decide +kernel)
  obtain ⟨-, hclears, hsyncs⟩ := valid_documents_stay_valid.2 ⟨.text, false, false⟩ namedDisk
    "store.json" hvalid
  obtain ⟨-, -, cleared, -, -, hcleared, haccepted, -⟩ := hclears _ _ _ hclear
  obtain ⟨-, -, -, named, -, -, -, hleft, haccepts, -⟩ := hsyncs _ _ _ _ _ hnamed
  obtain ⟨-, -, -, nameless, -, -, -, hrest, hrefuses, -⟩ := hsyncs _ _ _ _ _ hnameless
  exact ⟨hvalid, ⟨cleared, ⟨hclear, hcleared⟩, haccepted⟩,
    ⟨named, ⟨hnamed, hleft⟩, haccepts.mpr (by decide)⟩,
    ⟨nameless, ⟨hnameless, hrest⟩, fun h => hrefuses.mp h rfl⟩⟩

end Cli

end ScriptStore
