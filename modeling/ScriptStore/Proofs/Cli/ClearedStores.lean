import ScriptStore.Proofs.Cli.ValidStores
import ScriptStore.Proofs.Store.CleanStores

/-!
# Stores that check clean can be cleared

Where `check` ends well, `clear` ends well for every tracked entity, provided that its file can be
written, and `check` ends well on what it leaves.  The store that is left tracks the same entities,
so this goes on until all of them are cleared, in any order.
-/

namespace ScriptStore

namespace Cli

variable {files : Files} {path : String} {settings : Settings} {disk : Disk}

/-! ## Checks that end well -/

/-- A check ends well exactly if its file holds a clean store. -/
theorem exitCode_check_eq_zero_iff :
    ((Command.check path).run settings disk).1.exitCode = 0 ↔
      ∃ kept, readStore disk.files false path = .ok kept ∧ kept.Clean := by
  have hclean : ∀ kept : Store,
      (Finding.inspected kept.inspectAll).succeeds = true ↔ kept.Clean := by
    intro kept
    rw [Finding.succeeds, List.all_eq_true]
    exact forall₂_congr fun report _ => List.isEmpty_iff
  constructor
  · intro hexit
    have hsucceeds := (exitCode_run_eq_zero_iff.mp hexit).1
    obtain ⟨kept, hkept, hfound⟩ := bind_eq_ok_iff.mp (find?_of_succeeds hsucceeds)
    rw [← Except.ok.inj hfound, hclean] at hsucceeds
    exact ⟨kept, hkept, hsucceeds⟩
  · rintro ⟨kept, hkept, hkeptClean⟩
    have hfound : (Command.check path).find? disk.files = .ok (.inspected kept.inspectAll) :=
      bind_eq_ok_iff.mpr ⟨kept, hkept, rfl⟩
    refine exitCode_run_eq_zero_iff.mpr ?_
    rw [find_of_find? hfound]
    exact ⟨(hclean kept).mpr hkeptClean, by rintro _ _ ⟨⟩⟩

/-! ## What a clearing leaves -/

/-- A store that has been cleared after it was read is read again from its text. -/
theorem readStore_of_clear {keptPath entity : String} {kept next : Store} {diff : EntityDiff}
    (hkept : readStore disk.files true keptPath = .ok kept)
    (hclear : kept.clear entity = .ok (some diff, next))
    (hnumbers : ∀ n ∈ next.toJson.numbers, n.ReadsBack)
    (hfile : files path = .ok (Finding.storeText next)) (verify : Bool) :
    readStore files verify path = .ok { next with verify := verify } := by
  obtain ⟨document, hdocument, hdecoded⟩ := readStore_eq_ok hkept
  have hpass := Store.reconcile_of_clear hclear
  have hstorable : diff.Storable :=
    Store.reconcile_diff_valuesSatisfy hpass Body.valuesSatisfy_empty
  obtain ⟨hkeys, hnull, hdepth⟩ := Store.document_of_reconcile hpass
    (Store.fits_of_ofJson? hdocument hdecoded) Body.valuesSatisfy_empty
  rw [readStore_storeText hkeys hnull hnumbers hfile verify, if_pos (hdepth.mpr hstorable)]

/-- A clearing of a store that has been read ends well if its file can be written. -/
theorem exitCode_clear_of_clear {entity : String} {out : Option String} {kept next : Store}
    {diff : EntityDiff} (hkept : readStore disk.files true path = .ok kept)
    (hclear : kept.clear entity = .ok (some diff, next))
    (hfree : ∀ file, out = some file → disk.refusal? file = none) (settings : Settings) :
    ((Command.clear path entity out).run settings disk).1.exitCode = 0 ∧
      emitted out ((Command.clear path entity out).run settings disk) =
        some (Finding.storeText next) := by
  have hfound : (Command.clear path entity out).find? disk.files = .ok (.updated next diff out) :=
    findClear_eq_ok_iff.mpr ⟨kept, diff, next, hkept, hclear, rfl⟩
  have hexit : ((Command.clear path entity out).run settings disk).1.exitCode = 0 := by
    refine exitCode_run_eq_zero_iff.mpr ?_
    rw [find_of_find? hfound]
    refine ⟨rfl, fun file text hsaved => hfree file ?_⟩
    cases out with
    | none => cases hsaved
    | some other =>
      obtain ⟨rfl, -⟩ := Prod.mk.inj (Option.some.inj hsaved)
      rfl
  exact ⟨hexit, emitted_run hexit (find_of_find? hfound)⟩

/-! ## The main theorem -/

/-- **Clean stores can be cleared.**  Clearing an entity that the checks accept gives one that they
accept, without members and with exactly those entries, in their order, that belong to no member.
Where `check` ends well, `clear` ends well for every tracked entity if its file can be written, and
leaves a clean store with the same entities, on which `check` ends well again as far as its numbers
are read as they were written.  So all entities can be cleared in any order, with and without
verification. -/
theorem clean_stores_can_be_cleared :
    (∀ state : EntityState, state.check = .ok () →
      state.clear.state.check = .ok () ∧ state.clear.state.Emptied state) ∧
    ∀ (settings : Settings) (disk : Disk) (path : String),
      ((Command.check path).run settings disk).1.exitCode = 0 →
      ∃ kept, readStore disk.files false path = .ok kept ∧
        (∀ entity ∈ kept.configs.keys, ∀ (other : Settings) (out : Option String),
          (∀ file, out = some file → disk.refusal? file = none) →
          ((Command.clear path entity out).run other disk).1.exitCode = 0 ∧
          ∃ diff next, (kept.withVerify true).clear entity = .ok (some diff, next) ∧
            emitted out ((Command.clear path entity out).run other disk) =
              some (Finding.storeText next) ∧
            next.Clean ∧ next.configs.keys = kept.configs.keys ∧
            (next.stateOf entity).Emptied (kept.stateOf entity) ∧
            ((∀ n ∈ next.toJson.numbers, n.ReadsBack) → ∀ (left : Disk) (file : String),
              left.files file = .ok (Finding.storeText next) → ∀ again : Settings,
                ((Command.check file).run again left).1.exitCode = 0)) ∧
        ∀ (verify : Bool) (entities : List String),
          (∀ entity ∈ entities, entity ∈ kept.configs.keys) →
          ∃ diffs : List EntityDiff, ∃ last,
            (kept.withVerify verify).run (entities.map .clear) =
              (diffs.map fun diff => .cleared (some diff), last) ∧
            last.Clean ∧ ∀ entity ∈ entities, (last.stateOf entity).IsBare := by
  refine ⟨fun state hcheck => ?_, fun settings disk path hexit => ?_⟩
  · rw [EntityState.check_eq_ok_iff, EntityState.violations_eq_nil_iff] at hcheck ⊢
    exact ⟨hcheck.withoutMembers, hcheck.emptied_withoutMembers⟩
  obtain ⟨kept, hkept, hclean⟩ := exitCode_check_eq_zero_iff.mp hexit
  -- verification is not looked at by reports
  have hverified : ∀ verify, (kept.withVerify verify).Clean := fun _ => hclean
  refine ⟨kept, hkept, fun entity hentity other out hfree => ?_,
    fun verify entities hentities => ?_⟩
  · obtain ⟨diff, next, hclear, hnext, hkeys, hemptied, -⟩ := (hverified true).clear hentity
    have hread := readStore_verify hkept true
    obtain ⟨hcleared, hemitted⟩ := exitCode_clear_of_clear hread hclear hfree other
    refine ⟨hcleared, diff, next, hclear, hemitted, hnext, hkeys, hemptied,
      fun hnumbers left file hfile again => ?_⟩
    exact exitCode_check_eq_zero_iff.mpr
      ⟨next.withVerify false, readStore_of_clear hread hclear hnumbers hfile false, hnext⟩
  · obtain ⟨diffs, last, hrun, hlast, -, hbare⟩ := (hverified verify).run_clear hentities
    exact ⟨diffs, last, hrun, hlast, fun entity hentity => hbare entity (Or.inl hentity)⟩

/-- A store with an entity that has entries of its own besides those of its members, and another
one. -/
def crowdedStore : Store :=
  ((Store.empty false).put "Page" crowdedState).put "Chart"
    ((EntityState.new "Chart").addVariable "x" .null)

/-- The store in a file. -/
def crowdedDisk : Disk where
  files path :=
    if path = "store.json" then .ok (Finding.storeText crowdedStore) else .error "not found"
  refusal? _ := none

/-- The members of the crowded store have no values but null and empty data, and its functions have
no arguments. -/
theorem crowdedStore_valuesSatisfy :
    crowdedStore.ValuesSatisfy (· ∈ [.null, emptyData]) fun _ => False where
  trees := by
    have hmembers : ∀ tree ∈ crowdedStore.trees.entries, ∀ member ∈ tree.2.entries,
        member.2.payload ∈ [.null, emptyData] := by decide
    exact (OrderedMap.forall_entries_iff _ _).mp fun tree htree =>
      (OrderedMap.forall_entries_iff tree.2 _).mp (hmembers tree htree)
  records := by
    have harguments : ∀ record ∈ crowdedStore.configs.entries,
        ∀ data ∈ record.2.functions.entries, data.2.arguments = [] := by decide
    refine (OrderedMap.forall_entries_iff _ _).mp fun record hrecord =>
      (OrderedMap.forall_entries_iff record.2.functions _).mp
        fun data hdata argument hargument => ?_
    rw [harguments record hrecord data hdata] at hargument
    cases hargument

/-- So the file of the crowded store is read. -/
theorem readStore_crowdedDisk :
    readStore crowdedDisk.files false "store.json" = .ok crowdedStore := by
  have hfits : crowdedStore.toJson.Fits Json.maxOpen := by
    refine (@Store.fits_toJson_iff (Json.maxOpen - 7) crowdedStore).mpr ?_
    refine crowdedStore_valuesSatisfy.mono (fun value hvalue => ?_) (fun _ => False.elim)
    rcases List.mem_cons.mp hvalue with rfl | hvalue
    · exact Json.fits_null
    · exact List.mem_singleton.mp hvalue ▸ fits_emptyData
  have hnull : crowdedStore.NoNullDefaults :=
    (crowdedStore_valuesSatisfy.mono (fun _ _ => trivial) fun _ => False.elim).records
  have hfile : crowdedDisk.files "store.json" = .ok (Finding.storeText crowdedStore) := rfl
  rw [readStore_storeText hfits.1 hnull (by decide) hfile false, if_pos hfits.2]
  rfl

/-- The crowded entity is cleared and keeps its own entries.  From the command line it is cleared as
well, what is left checks clean, and both entities can be cleared one after the other. -/
theorem crowdedStore_can_be_cleared :
    crowdedState.check = .ok () ∧ crowdedState.clear.state.check = .ok () ∧
      crowdedState.clear.state.record.reactivePaths.entries = [("foreign", .template)] ∧
      crowdedState.clear.state.record.bindingPaths = ["foreign", "spare"] ∧
      crowdedState.clear.state.record.dependencies.body = ["run"] ∧
      ((Command.check "store.json").run ⟨.text, false, false⟩ crowdedDisk).1.exitCode = 0 ∧
      ((Command.clear "store.json" "Page" none).run ⟨.text, false, false⟩
        crowdedDisk).1.exitCode = 0 ∧
      (∃ next, emitted none ((Command.clear "store.json" "Page" none).run ⟨.text, false, false⟩
          crowdedDisk) = some (Finding.storeText next) ∧
        ((Command.check "next.json").run ⟨.text, false, false⟩
          ⟨fun _ => .ok (Finding.storeText next), fun _ => none⟩).1.exitCode = 0) ∧
      ∃ diffs : List EntityDiff, ∃ last,
        (crowdedStore.withVerify true).run [.clear "Chart", .clear "Page"] =
          (diffs.map fun diff => .cleared (some diff), last) ∧ last.Clean := by
  have hcheck : crowdedState.check = .ok () := by decide
  have hclean : crowdedStore.Clean := by
    show ∀ report ∈ crowdedStore.inspectAll, report.violations = []
    decide
  have hexit :
      ((Command.check "store.json").run ⟨.text, false, false⟩ crowdedDisk).1.exitCode = 0 :=
    exitCode_check_eq_zero_iff.mpr ⟨crowdedStore, readStore_crowdedDisk, hclean⟩
  obtain ⟨hstate, hstore⟩ := clean_stores_can_be_cleared
  obtain ⟨hcleared, hemptied⟩ := hstate crowdedState hcheck
  obtain ⟨kept, hkept, hclears, hruns⟩ := hstore ⟨.text, false, false⟩ crowdedDisk _ hexit
  obtain rfl := Except.ok.inj (readStore_crowdedDisk.symm.trans hkept)
  obtain ⟨hclear, diff, next, hpass, hemitted, -, -, -, hagain⟩ :=
    hclears "Page" (by decide) ⟨.text, false, false⟩ none (by rintro _ ⟨⟩)
  have hcomputed : (crowdedStore.withVerify true).clear "Page" =
      .ok (some crowdedState.clearingDiff,
        (crowdedStore.withVerify true).put "Page" crowdedState.withoutMembers) := by rfl
  obtain ⟨-, rfl⟩ := Prod.mk.inj (Except.ok.inj (hcomputed.symm.trans hpass))
  obtain ⟨diffs, last, hrun, hlast, -⟩ := hruns true ["Chart", "Page"] (by decide)
  exact ⟨hcheck, hcleared, hemptied.reactivePaths.trans (by decide),
    hemptied.bindingPaths.trans (by decide), hemptied.dependencies.trans (by decide), hexit, hclear,
    ⟨_, hemitted, hagain (by decide) _ _ rfl _⟩, diffs, last, hrun, hlast⟩

end Cli

end ScriptStore
