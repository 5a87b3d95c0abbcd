import ScriptStore.Proofs.Cli.Outcomes
import ScriptStore.Proofs.Document.RoundTrip
import ScriptStore.Proofs.Store.Values

/-!
# Stores that are saved can be read again, unless they are nested too deep

A text is read only up to a depth, and nothing bounds the depth of what is written.  In a document
of a store the values of members stand one level deeper than the values of variables in a body, and
the default values of arguments two levels deeper than there.  So a body may bring in values that
can be saved, but not read again.  The main statement is `Cli.sync_output_reads_back`: what a
synchronization leaves is read as the store that it has computed exactly if the values that its
difference shows leave room for these levels (`EntityDiff.Storable`).
-/

namespace ScriptStore

open Json (maxOpen)

/-! ## Stores that can be read again -/

/-- The new values are not nested too deep for a document of a store. -/
def EntityDiff.Storable (diff : EntityDiff) : Prop :=
  diff.ValuesSatisfy (·.depth ≤ maxOpen - 4) (·.depth ≤ maxOpen - 7)

namespace Store

/-- A document that is read gives values that may be read in a document of a store. -/
theorem fits_of_ofJson? {verify : Bool} {document : Json} {store : Store}
    (hdocument : document.Fits maxOpen) (h : ofJson? verify document = some store) :
    store.ValuesSatisfy (Json.Fits (maxOpen - 4))
      (fun value => value ≠ .null ∧ value.Fits (maxOpen - 7)) := by
  refine (origins_of_ofJson? h).mono ?_ ?_
  · rintro value (rfl | rfl | hmem)
    · exact Json.fits_null
    · exact fits_emptyData
    · exact Json.Fits.of_mem_partsAt hdocument hmem
  · rintro value ⟨hnull, hmem⟩
    exact ⟨hnull, Json.Fits.of_mem_partsAt hdocument hmem⟩

end Store

/-- A document that is read gives values one and two levels deeper than documents of stores have
room for. -/
theorem Body.fits_of_ofJson {document : Json} {body : Body} (hdocument : document.Fits maxOpen)
    (h : ofJson document = .ok body) :
    body.ValuesSatisfy (Json.Fits (maxOpen - 3))
      (fun value => value ≠ .null ∧ value.Fits (maxOpen - 5)) := by
  have horigins := origins_of_ofJson h
  constructor
  case vars =>
    intro decl hdecl
    rcases horigins.vars decl hdecl with hnull | hmem
    · exact hnull ▸ Json.fits_null
    · exact Json.Fits.of_mem_partsAt hdocument hmem
  case functions =>
    intro decl hdecl argument hargument value hvalue
    obtain ⟨hnull, hmem⟩ := horigins.functions decl hdecl argument hargument value hvalue
    exact ⟨hnull, Json.Fits.of_mem_partsAt hdocument hmem⟩

/-! ## Documents after a pass -/

namespace Store

variable {store next : Store} {entity : String} {body : Body} {diff : EntityDiff}

/-- The document after a pass is not too deep exactly if the values of the difference are not. -/
theorem depth_toJson_le_iff (hpass : store.reconcile entity body = .ok (diff, next))
    (hstore : store.ValuesSatisfy (Json.Fits (maxOpen - 4)) (Json.Fits (maxOpen - 7)))
    (hdiff : diff.ValuesSatisfy Json.DistinctKeys Json.DistinctKeys)
    (hkeys : next.toJson.DistinctKeys) : next.toJson.depth ≤ maxOpen ↔ diff.Storable := by
  have hempty : emptyData.Fits (maxOpen - 4) := fits_emptyData
  calc next.toJson.depth ≤ maxOpen
      ↔ next.toJson.Fits maxOpen := hkeys.fits_iff.symm
    _ ↔ next.ValuesSatisfy (Json.Fits (maxOpen - 4)) (Json.Fits (maxOpen - 7)) :=
        fits_toJson_iff next
    _ ↔ diff.ValuesSatisfy (Json.Fits (maxOpen - 4)) (Json.Fits (maxOpen - 7)) :=
        reconcile_valuesSatisfy_iff hpass hstore hempty
    _ ↔ diff.Storable :=
        ⟨fun h => h.mono (fun _ h => h.2) fun _ h => h.2,
          fun h => (hdiff.and h).mono (fun _ h => h) fun _ h => h⟩

/-- A pass over what has been read gives a store with distinct keys and without a null as a default
value, so its document can only be too deep, and it is too deep exactly if the values of the
difference are. -/
theorem document_of_reconcile (hpass : store.reconcile entity body = .ok (diff, next))
    (hstore : store.ValuesSatisfy (Json.Fits (maxOpen - 4))
      (fun value => value ≠ .null ∧ value.Fits (maxOpen - 7)))
    (hbody : body.ValuesSatisfy (Json.Fits (maxOpen - 3))
      (fun value => value ≠ .null ∧ value.Fits (maxOpen - 5))) :
    next.toJson.DistinctKeys ∧ next.NoNullDefaults ∧
      (next.toJson.depth ≤ maxOpen ↔ diff.Storable) := by
  -- the room of the values of the body is enough for all values
  have hempty : emptyData.Fits (maxOpen - 5 + 3) := fits_emptyData
  have hkept : store.ValuesSatisfy (Json.Fits (maxOpen - 5 + 3))
      (fun value => value ≠ .null ∧ value.Fits (maxOpen - 5)) :=
    hstore.mono (fun _ h => h.mono (by decide)) (fun _ h => ⟨h.1, h.2.mono (by decide)⟩)
  have hdiff : diff.ValuesSatisfy (Json.Fits (maxOpen - 5 + 3))
      (fun value => value ≠ .null ∧ value.Fits (maxOpen - 5)) :=
    (reconcile_diff_valuesSatisfy hpass hbody).mono (fun _ h => h.mono (by decide)) fun _ h => h
  have hnext := (reconcile_valuesSatisfy_iff hpass hkept hempty).mpr hdiff
  have hkeys : next.toJson.DistinctKeys :=
    ((fits_toJson_iff next).mpr (hnext.mono (fun _ h => h) fun _ h => h.2)).1
  refine ⟨hkeys, (hnext.mono (fun _ _ => trivial) fun _ h => h.1).records, ?_⟩
  exact depth_toJson_le_iff hpass (hstore.mono (fun _ h => h) fun _ h => h.2)
    (hdiff.mono (fun _ h => h.1) fun _ h => h.2.1) hkeys

end Store

namespace Cli

/-! ## Reading files -/

variable {files : Files} {path : String}

/-- A document that is read fits into the limit of the reader. -/
theorem readJson_eq_ok {document : Json} (h : readJson files path = .ok document) :
    document.Fits maxOpen := by
  unfold readJson at h
  split at h
  · cases h
  split at h
  · rename_i text _ value hvalue
    exact Except.ok.inj h ▸ Json.fits_of_ofString? hvalue
  · cases h

/-- A store that is read comes from a document that fits. -/
theorem readStore_eq_ok {verify : Bool} {store : Store}
    (h : readStore files verify path = .ok store) :
    ∃ document, document.Fits maxOpen ∧ Store.ofJson? verify document = some store := by
  obtain ⟨document, hdocument, hstore⟩ := readStore_eq_ok_iff.mp h
  exact ⟨document, readJson_eq_ok hdocument, hstore⟩

/-- A body that is read comes from a document that fits. -/
theorem readBody_eq_ok {body : Body} (h : readBody files path = .ok body) :
    ∃ document, document.Fits maxOpen ∧ Body.ofJson document = .ok body := by
  obtain ⟨document, hdocument, hbody⟩ := readBody_eq_ok_iff.mp h
  exact ⟨document, readJson_eq_ok hdocument, hbody⟩

/-- A file with a document is read as the document. -/
theorem readJson_of_some {text : String} {document : Json} (hfile : files path = .ok text)
    (h : Json.ofString? text = some document) : readJson files path = .ok document := by
  unfold readJson
  rw [hfile]
  dsimp only
  rw [h]

/-- A file without one is complained about. -/
theorem readJson_of_none {text : String} (hfile : files path = .ok text)
    (h : Json.ofString? text = none) :
    readJson files path = .error (.malformed path "not a JSON text") := by
  unfold readJson
  rw [hfile]
  dsimp only
  rw [h]

/-- The text of a store is read again if its document is not too deep, and refused otherwise. -/
theorem readStore_storeText {store : Store} (hkeys : store.toJson.DistinctKeys)
    (hnull : store.NoNullDefaults)
    (hnumbers : ∀ n ∈ store.toJson.numbers, n.ReadsBack)
    (hfile : files path = .ok (Finding.storeText store)) (verify : Bool) :
    readStore files verify path =
      if store.toJson.depth ≤ maxOpen then .ok { store with verify := verify }
      else .error (.malformed path "not a JSON text") := by
  have hparse := Json.ofString?_pretty hkeys hnumbers
  by_cases hdepth : store.toJson.depth ≤ maxOpen
  · rw [if_pos hdepth] at hparse ⊢
    refine bind_eq_ok_iff.mpr ⟨store.toJson, readJson_of_some hfile hparse, ?_⟩
    rw [Store.ofJson?_toJson_eq_self_iff.mpr hnull]
    rfl
  · rw [if_neg hdepth] at hparse ⊢
    rw [readStore, readJson_of_none hfile hparse]
    rfl

/-! ## What a synchronization leaves -/

/-- The document that a command leaves: the file that it was to save, or what it has shown. -/
def emitted (out : Option String) (ran : Outcome × Disk) : Option String :=
  match out with
  | some path => ran.2.text? path
  | none => some ran.1.shown

variable {settings : Settings} {disk : Disk}

/-- A command that ends well with a store leaves the store as its document. -/
theorem emitted_run {command : Command} {next : Store} {diff : EntityDiff} {out : Option String}
    (h : (command.run settings disk).1.exitCode = 0)
    (hfound : command.find disk.files = .updated next diff out) :
    emitted out (command.run settings disk) = some (Finding.storeText next) := by
  obtain ⟨-, hfree⟩ := exitCode_run_eq_zero_iff.mp h
  rw [hfound] at hfree
  rw [Command.run, hfound]
  cases out with
  | none => rfl
  | some path =>
    dsimp only [Finding.saved?]
    rw [hfree path _ rfl]
    show ((disk.write path (Finding.storeText next)).files path).toOption = _
    rw [Disk.files_write, if_pos rfl]
    rfl

/-- A synchronization that ends well has read a store and a body, and leaves the store that
reconciling them gives. -/
theorem run_sync_eq_ok {store body entity : String} {out : Option String} {verify : Bool}
    (h : ((Command.sync store body entity out verify).run settings disk).1.exitCode = 0) :
    ∃ kept parsed diff next, readStore disk.files verify store = .ok kept ∧
      readBody disk.files body = .ok parsed ∧ kept.reconcile entity parsed = .ok (diff, next) ∧
      emitted out ((Command.sync store body entity out verify).run settings disk) =
        some (Finding.storeText next) := by
  obtain ⟨kept, parsed, diff, next, hkept, hparsed, hpass, hfound⟩ :=
    findSync_eq_ok_iff.mp (find?_of_succeeds (exitCode_run_eq_zero_iff.mp h).1)
  exact ⟨kept, parsed, diff, next, hkept, hparsed, hpass, emitted_run h hfound⟩

/-- A clearing that ends well has read a store, and leaves the store in which the entity is
cleared. -/
theorem run_clear_eq_ok {store entity : String} {out : Option String}
    (h : ((Command.clear store entity out).run settings disk).1.exitCode = 0) :
    ∃ kept diff next, readStore disk.files true store = .ok kept ∧
      kept.clear entity = .ok (some diff, next) ∧
      emitted out ((Command.clear store entity out).run settings disk) =
        some (Finding.storeText next) := by
  obtain ⟨kept, diff, next, hkept, hclear, hfound⟩ :=
    findClear_eq_ok_iff.mp (find?_of_succeeds (exitCode_run_eq_zero_iff.mp h).1)
  exact ⟨kept, diff, next, hkept, hclear, emitted_run h hfound⟩

/-- What has been computed from files that were read is read again from its text, unless the values
of the difference are too deep. -/
theorem readStore_of_reconcile {keptFiles bodyFiles : Files} {store body entity : String}
    {verify : Bool} {kept next : Store} {parsed : Body} {diff : EntityDiff}
    (hkept : readStore keptFiles verify store = .ok kept)
    (hparsed : readBody bodyFiles body = .ok parsed)
    (hpass : kept.reconcile entity parsed = .ok (diff, next)) :
    diff.ValuesSatisfy (·.depth ≤ maxOpen - 3) (·.depth ≤ maxOpen - 5) ∧
      ((∀ n ∈ next.toJson.numbers, n.ReadsBack) →
        ∀ (files : Files) (path : String), files path = .ok (Finding.storeText next) →
          ∀ again : Bool,
            (diff.Storable → readStore files again path = .ok { next with verify := again }) ∧
              (¬ diff.Storable →
                readStore files again path = .error (.malformed path "not a JSON text"))) := by
  -- both documents were read, which bounds the values in them
  obtain ⟨document, hdocument, hdecoded⟩ := readStore_eq_ok hkept
  obtain ⟨bodyDocument, hbodyDocument, hbodyDecoded⟩ := readBody_eq_ok hparsed
  have hstore := Store.fits_of_ofJson? hdocument hdecoded
  have hbody := Body.fits_of_ofJson hbodyDocument hbodyDecoded
  have hdiff := Store.reconcile_diff_valuesSatisfy hpass hbody
  obtain ⟨hkeys, hnull, hdepth⟩ := Store.document_of_reconcile hpass hstore hbody
  refine ⟨hdiff.mono (fun _ h => h.2) fun _ h => h.2.2, fun hnumbers files path hfile again => ?_⟩
  rw [readStore_storeText hkeys hnull hnumbers hfile again]
  exact ⟨fun h => if_pos (hdepth.mpr h), fun h => if_neg fun hle => h (hdepth.mp hle)⟩

/-- **What a synchronization leaves can be read again exactly if it is not too deep.**  Whatever the
settings, the files and the entity are: a synchronization that ends well leaves the text of the
store that it has computed, as a file or as what it shows.  The values that its difference shows are
nested 124 and 122 levels at most.  Where they are nested 123 and 120 levels at most, every command
that reads the text gets the computed store from it, and otherwise it is refused as no JSON text. -/
theorem sync_output_reads_back (settings : Settings) (disk : Disk) (store body entity : String)
    (out : Option String) (verify : Bool)
    (h : ((Command.sync store body entity out verify).run settings disk).1.exitCode = 0) :
    ∃ kept parsed diff next, readStore disk.files verify store = .ok kept ∧
      readBody disk.files body = .ok parsed ∧ kept.reconcile entity parsed = .ok (diff, next) ∧
      emitted out ((Command.sync store body entity out verify).run settings disk) =
        some (Finding.storeText next) ∧
      diff.ValuesSatisfy (·.depth ≤ maxOpen - 3) (·.depth ≤ maxOpen - 5) ∧
      ((∀ n ∈ next.toJson.numbers, n.ReadsBack) →
        ∀ (files : Files) (path : String), files path = .ok (Finding.storeText next) →
          ∀ again : Bool,
            (diff.Storable → readStore files again path = .ok { next with verify := again }) ∧
              (¬ diff.Storable →
                readStore files again path = .error (.malformed path "not a JSON text"))) := by
  obtain ⟨kept, parsed, diff, next, hkept, hparsed, hpass, hemitted⟩ := run_sync_eq_ok h
  obtain ⟨hdiff, hread⟩ := readStore_of_reconcile hkept hparsed hpass
  exact ⟨kept, parsed, diff, next, hkept, hparsed, hpass, hemitted, hdiff, hread⟩

/-! ## A value at the limit -/

/-- The number one. -/
def one : Number := .int 1 (by decide)

/-- A number in arrays that are nested this deep. -/
def nested : Nat → Json
  | 0 => .num one
  | level + 1 => .arr [nested level]

theorem fits_nested (level : Nat) : (nested level).Fits level := by
  induction level with
  | zero => exact Json.fits_num _
  | succ level ih => exact (Json.fits_arr_iff _).mpr (List.forall_mem_singleton.mpr ih)

/-- It is as deep as it is said to be. -/
theorem depth_nested (level : Nat) : (nested level).depth = level := by
  induction level with
  | zero => rfl
  | succ level ih =>
    show max (nested level).depth 0 + 1 = level + 1
    rw [ih, Nat.max_zero]

theorem numbers_nested (level : Nat) : (nested level).numbers = [one] := by
  induction level with
  | zero => rfl
  | succ level ih =>
    show (nested level).numbers ++ [] = _
    rw [ih, List.append_nil]

/-- The document of a body with one variable whose value is nested this deep. -/
def deepBody (level : Nat) : Json :=
  .obj [("variables", .arr [.obj [("name", .str "deep"), ("value", nested level)]])]

/-- An empty store and a body with one deep value. -/
def deepDisk (level : Nat) : Disk where
  files path :=
    if path = "store.json" then .ok "\x7b\x7d"
    else if path = "body.json" then .ok ((deepBody level).pretty ++ "\n")
    else .error "not found"
  refusal? _ := none

/-- Saves the store in which the body with the deep value has been taken in. -/
def deepRun (level : Nat) : Outcome × Disk :=
  (Command.sync "store.json" "body.json" "Page" (some "next.json") true).run
    ⟨.text, false, false⟩ (deepDisk level)

/-- The store that is saved. -/
def deepStore (level : Nat) : Store :=
  (Store.empty true).put "Page"
    ⟨{ Record.new "Page" with
        vars := ["deep"], reactivePaths := (∅ : OrderedMap Substitution).insert "deep" .smart,
        bindingPaths := ["deep"] },
      (∅ : MemberTree).insert "deep" (.var (nested level))⟩

/-- The empty store is read. -/
theorem readStore_deepDisk (level : Nat) :
    readStore (deepDisk level).files true "store.json" = .ok (Store.empty true) := by
  rfl

/-- The variable is added with the value. -/
theorem reconcile_deep (level : Nat) :
    (Store.empty true).reconcile "Page" ⟨[], [⟨"deep", nested level⟩]⟩ =
      .ok (⟨"Page", [], [⟨"deep", .added, some (nested level)⟩]⟩, deepStore level) := by
  cbv

/-- The body declares one variable. -/
theorem ofJson_deepBody (level : Nat) :
    Body.ofJson (deepBody level) = .ok ⟨[], [⟨"deep", nested level⟩]⟩ := by
  cbv

theorem numbers_deepStore (level : Nat) : (deepStore level).toJson.numbers = [one] := by
  show (((((nested level).numbers ++ []) ++ []) ++ []) ++ []) = _
  simp only [List.append_nil, numbers_nested]

/-- The value can be stored up to four levels below the limit. -/
theorem storable_deep_iff (level : Nat) :
    EntityDiff.Storable ⟨"Page", [], [⟨"deep", .added, some (nested level)⟩]⟩ ↔
      level ≤ maxOpen - 4 := by
  constructor
  · intro h
    have hdepth := h.vars _ List.mem_cons_self (nested level) rfl
    rwa [depth_nested] at hdepth
  · intro h
    constructor
    case vars =>
      intro change hchange new hnew
      obtain rfl := List.mem_singleton.mp hchange
      obtain rfl := Option.some.inj hnew
      rwa [depth_nested]
    case functions => exact List.forall_mem_nil _

/-- The body is read if its value is nested 124 levels at most. -/
theorem readBody_deepDisk {level : Nat} (h : level ≤ maxOpen - 3) :
    readBody (deepDisk level).files "body.json" = .ok ⟨[], [⟨"deep", nested level⟩]⟩ := by
  have hfits : (deepBody level).Fits (level + 3) := by
    simp [deepBody, Json.fits_obj_iff, Json.fits_arr_iff, fits_nested, Entries.keys]
  have hnumbers : ∀ n ∈ (deepBody level).numbers, n.ReadsBack := by
    show ∀ n ∈ (((nested level).numbers ++ []) ++ []) ++ [], n.ReadsBack
    simp only [List.append_nil, numbers_nested]
    decide
  have hparse := Json.ofString?_pretty hfits.1 hnumbers
  rw [if_pos (Nat.le_trans hfits.2 (Nat.add_le_of_le_sub (by decide) h))] at hparse
  refine bind_eq_ok_iff.mpr ⟨deepBody level, readJson_of_some rfl hparse, ?_⟩
  rw [ofJson_deepBody]
  rfl

/-- A body that is read is taken in, and the store is saved. -/
theorem deepRun_eq {level : Nat} (h : level ≤ maxOpen - 3) :
    (deepRun level).1.exitCode = 0 ∧
      (deepRun level).2.files "next.json" = .ok (Finding.storeText (deepStore level)) := by
  have hfound : (Command.sync "store.json" "body.json" "Page" (some "next.json") true).find?
      (deepDisk level).files = .ok (.updated (deepStore level)
        ⟨"Page", [], [⟨"deep", .added, some (nested level)⟩]⟩ (some "next.json")) :=
    findSync_eq_ok_iff.mpr
      ⟨_, _, _, _, readStore_deepDisk level, readBody_deepDisk h, reconcile_deep level, rfl⟩
  rw [deepRun, run_of_find? hfound fun _ _ _ => rfl]
  exact ⟨rfl, rfl⟩

/-- **A value that is lost**: a synchronization ends well and saves a store with a value that is
nested 124 levels deep, and with no number but one, and no command reads what it has saved. -/
theorem deepStore_is_not_read_back :
    (deepRun 124).1.exitCode = 0 ∧
      (deepRun 124).2.files "next.json" = .ok (Finding.storeText (deepStore 124)) ∧
      (∀ n ∈ (deepStore 124).toJson.numbers, n.ReadsBack) ∧
      ∀ again, readStore (deepRun 124).2.files again "next.json" =
        .error (.malformed "next.json" "not a JSON text") := by
  obtain ⟨hexit, hsaved⟩ := deepRun_eq (show 124 ≤ maxOpen - 3 by decide)
  have hnumbers : ∀ n ∈ (deepStore 124).toJson.numbers, n.ReadsBack := by
    rw [numbers_deepStore]
    decide
  refine ⟨hexit, hsaved, hnumbers, fun again => ?_⟩
  have hread := (readStore_of_reconcile (readStore_deepDisk 124) (readBody_deepDisk (by decide))
    (reconcile_deep 124)).2 hnumbers _ _ hsaved again
  refine hread.2 fun h => ?_
  exact absurd ((storable_deep_iff 124).mp h) (by decide)

/-- At one level less the saved store is read. -/
theorem deepStore_reads_back :
    (deepRun 123).1.exitCode = 0 ∧
      readStore (deepRun 123).2.files false "next.json" =
        .ok { deepStore 123 with verify := false } := by
  have hexit := (deepRun_eq (show 123 ≤ maxOpen - 3 by decide)).1
  refine ⟨hexit, ?_⟩
  obtain ⟨kept, parsed, diff, next, hkept, hparsed, hpass, hemitted, -, hread⟩ :=
    sync_output_reads_back ⟨.text, false, false⟩ (deepDisk 123) "store.json" "body.json" "Page"
      (some "next.json") true hexit
  obtain rfl := Except.ok.inj ((readStore_deepDisk 123).symm.trans hkept)
  obtain rfl := Except.ok.inj ((readBody_deepDisk (by decide)).symm.trans hparsed)
  obtain ⟨rfl, rfl⟩ := Prod.mk.inj (Except.ok.inj ((reconcile_deep 123).symm.trans hpass))
  have hnumbers : ∀ n ∈ (deepStore 123).toJson.numbers, n.ReadsBack := by
    rw [numbers_deepStore]
    decide
  have hsaved := (deepRun_eq (show 123 ≤ maxOpen - 3 by decide)).2
  exact (hread hnumbers _ _ hsaved false).1 ((storable_deep_iff 123).mpr (by decide))

end Cli

end ScriptStore
