import ScriptStore.Proofs.Cli.Outcomes

/-!
# A comparison previews the synchronization

A comparison classifies a body against the state of an entity at once, while a synchronization goes
through the store: it refuses a record under a foreign name, starts an untracked entity, clears an
entity whose body is empty in bulk, and may verify the outcome.  Both show the same difference, and
the synchronization fails in more cases only for a foreign name, for an inconsistent outcome, or at
the file that it is to save (`comparison_previews_synchronization`).
-/

namespace ScriptStore

namespace Cli

variable {disk : Disk} {settings : Settings} {store body entity : String} {out : Option String}
  {verify : Bool}

/-! ## Comparisons -/

/-- A comparison whose documents are read shows the difference of a pass, and leaves the disk. -/
theorem run_diff_of_read (settings : Settings) (entity : String) {kept : Store} {parsed : Body}
    (hkept : readStore disk.files false store = .ok kept)
    (hparsed : readBody disk.files body = .ok parsed) :
    (Command.diff store body entity).run settings disk =
      (.ofFinding settings (.compared ((kept.stateOf entity).classify parsed)), disk) := by
  have hfound : (Command.diff store body entity).find? disk.files =
      .ok (.compared ((kept.stateOf entity).classify parsed)) :=
    findDiff_eq_ok_iff.mpr ⟨kept, parsed, hkept, hparsed, rfl⟩
  exact run_of_find? hfound fun path text hsaved => by cases hsaved

/-- A comparison ends well exactly if its documents are read. -/
theorem exitCode_diff_eq_zero_iff :
    ((Command.diff store body entity).run settings disk).1.exitCode = 0 ↔
      ∃ kept parsed, readStore disk.files false store = .ok kept ∧
        readBody disk.files body = .ok parsed := by
  constructor
  · intro hexit
    obtain ⟨kept, parsed, hkept, hparsed, -⟩ :=
      findDiff_eq_ok_iff.mp (find?_of_succeeds (exitCode_run_eq_zero_iff.mp hexit).1)
    exact ⟨kept, parsed, hkept, hparsed⟩
  · rintro ⟨kept, parsed, hkept, hparsed⟩
    rw [run_diff_of_read settings entity hkept hparsed]
    rfl

/-! ## Synchronizations -/

/-- The store and the difference of a pass that has read its documents, as they are to be shown or
saved. -/
def passed (kept : Store) (parsed : Body) (entity : String) (out : Option String) : Finding :=
  .updated (kept.put entity ((kept.stateOf entity).withBody parsed))
    ((kept.stateOf entity).classify parsed) out

/-- The documents are read, and the store takes in the body: the entity is filed under its own name,
and the outcome is consistent or not verified. -/
structure Reconciles (files : Files) (store body entity : String) (verify : Bool) (kept : Store)
    (parsed : Body) : Prop where
  readsStore : readStore files verify store = .ok kept
  readsBody : readBody files body = .ok parsed
  filed : kept.Filed entity
  consistent : verify = true → ((kept.stateOf entity).withBody parsed).violations = []

section Synchronizations

variable {kept : Store} {parsed : Body}

/-- Where a synchronization ends well, the comparison shows the same difference. -/
theorem Reconciles.run_diff (h : Reconciles disk.files store body entity verify kept parsed)
    (settings : Settings) :
    (Command.diff store body entity).run settings disk =
      (.ofFinding settings (.compared ((kept.stateOf entity).classify parsed)), disk) := by
  -- the comparison reads a store that does not verify, with the same state of the entity
  have hrun := run_diff_of_read settings entity (readStore_verify h.readsStore false) h.readsBody
  exact hrun

/-- How a synchronization ends that is not refused. -/
theorem Reconciles.run_sync (h : Reconciles disk.files store body entity verify kept parsed)
    (hfree : ∀ path, out = some path → disk.refusal? path = none) (settings : Settings) :
    (Command.sync store body entity out verify).run settings disk =
      (.ofFinding settings (passed kept parsed entity out),
        disk.saving (passed kept parsed entity out)) := by
  have hviolations : kept.verify = true →
      ((kept.stateOf entity).withBody parsed).violations = [] := by
    rw [verify_of_readStore h.readsStore]
    exact h.consistent
  have hpass :=
    Store.reconcile_of_violations h.filed (nameError?_of_readBody h.readsBody) hviolations
  have hfound : (Command.sync store body entity out verify).find? disk.files =
      .ok (passed kept parsed entity out) :=
    findSync_eq_ok_iff.mpr ⟨kept, parsed, _, _, h.readsStore, h.readsBody, hpass, rfl⟩
  refine run_of_find? hfound fun path text hsaved => ?_
  cases out with
  | none => cases hsaved
  | some other =>
    cases hsaved
    exact hfree path rfl

end Synchronizations

/-- **A synchronization ends well** exactly if the store takes in the body and the file, if there is
one, can be written. -/
theorem exitCode_sync_eq_zero_iff :
    ((Command.sync store body entity out verify).run settings disk).1.exitCode = 0 ↔
      (∃ kept parsed, Reconciles disk.files store body entity verify kept parsed) ∧
        ∀ path, out = some path → disk.refusal? path = none := by
  constructor
  · intro hexit
    obtain ⟨hsucceeds, hfree⟩ := exitCode_run_eq_zero_iff.mp hexit
    obtain ⟨kept, parsed, diff, next, hkept, hparsed, hpass, hfound⟩ :=
      findSync_eq_ok_iff.mp (find?_of_succeeds hsucceeds)
    obtain ⟨hfiled, -, hviolations, -, -⟩ := Store.reconcile_eq_ok hpass
    rw [verify_of_readStore hkept] at hviolations
    refine ⟨⟨kept, parsed, hkept, hparsed, hfiled, hviolations⟩, ?_⟩
    rintro path rfl
    rw [hfound] at hfree
    exact hfree path _ rfl
  · rintro ⟨⟨kept, parsed, h⟩, hfree⟩
    rw [h.run_sync hfree]
    rfl

/-! ## The main theorem -/

/-- **A comparison previews the synchronization** of the same documents.  A synchronization that
saves its store ends as the comparison does, with the same exit code and the same text.  Any
synchronization ends well exactly if the comparison does, the store takes in the body, and the file
can be written; so it fails wherever the comparison fails.  Whether it saves its store in a writable
file or shows it makes no difference: it ends with the same exit code and saves what it shows,
whatever the settings of both runs are. -/
theorem comparison_previews_synchronization (disk : Disk) (store body entity : String) :
    (∀ settings path verify,
      ((Command.sync store body entity (some path) verify).run settings disk).1.exitCode = 0 →
      ((Command.diff store body entity).run settings disk).1 =
        ((Command.sync store body entity (some path) verify).run settings disk).1) ∧
    (∀ settings other out verify,
      ((Command.sync store body entity out verify).run other disk).1.exitCode = 0 ↔
        ((Command.diff store body entity).run settings disk).1.exitCode = 0 ∧
          (∃ kept parsed, Reconciles disk.files store body entity verify kept parsed) ∧
          ∀ path, out = some path → disk.refusal? path = none) ∧
    ∀ settings other verify path, disk.refusal? path = none →
      ((Command.sync store body entity none verify).run settings disk).1.exitCode =
        ((Command.sync store body entity (some path) verify).run other disk).1.exitCode ∧
      (((Command.sync store body entity none verify).run settings disk).1.exitCode = 0 →
        ((Command.sync store body entity (some path) verify).run other disk).2.files path =
          .ok ((Command.sync store body entity none verify).run settings disk).1.shown) := by
  refine ⟨?_, ?_, ?_⟩
  · intro settings path verify hexit
    obtain ⟨⟨kept, parsed, h⟩, hfree⟩ := exitCode_sync_eq_zero_iff.mp hexit
    rw [h.run_diff, h.run_sync hfree]
    rfl
  · intro settings other out verify
    rw [exitCode_sync_eq_zero_iff]
    refine ⟨fun h => ⟨?_, h⟩, fun h => h.2⟩
    obtain ⟨⟨kept, parsed, h⟩, -⟩ := h
    exact exitCode_diff_eq_zero_iff.mpr
      ⟨_, parsed, readStore_verify h.readsStore false, h.readsBody⟩
  · intro settings other verify path hrefusal
    have hfree : ∀ file, some path = some file → disk.refusal? file = none := by
      rintro _ ⟨⟩
      exact hrefusal
    have hnone : ∀ file, none = some file → disk.refusal? file = none := by
      rintro _ ⟨⟩
    have hiff : ((Command.sync store body entity none verify).run settings disk).1.exitCode = 0 ↔
        ((Command.sync store body entity (some path) verify).run other disk).1.exitCode = 0 := by
      rw [exitCode_sync_eq_zero_iff, exitCode_sync_eq_zero_iff, and_iff_left hfree,
        and_iff_left hnone]
    have hshows := exitCode_run_le_one settings (.sync store body entity none verify) disk
    have hsaves := exitCode_run_le_one other (.sync store body entity (some path) verify) disk
    refine ⟨by omega, fun hexit => ?_⟩
    obtain ⟨⟨kept, parsed, h⟩, -⟩ := exitCode_sync_eq_zero_iff.mp hexit
    rw [h.run_sync hnone, h.run_sync hfree]
    show (disk.write path _).files path = _
    rw [Disk.files_write, if_pos rfl]
    rfl

/-- A store with members of an entity that it does not track, and a body that changes one of them
and declares another. -/
def orphanDisk : Disk where
  files path :=
    if path = "store.json" then
      .ok ("\x7b\"tree\":\x7b\"Ghost\":\x7b\"x\":\x7b" ++
        "\"kind\":\"variable\",\"value\":1\x7d\x7d\x7d\x7d")
    else if path = "body.json" then
      .ok ("\x7b\"actions\":[\x7b\"name\":\"run\",\"body\":\"1\"\x7d]," ++
        "\"variables\":[\x7b\"name\":\"x\",\"value\":2\x7d]\x7d")
    else .error "not found"
  refusal? _ := none

/-- The members of the untracked entity are compared, synchronized and shown alike. -/
theorem orphans_are_previewed :
    let synchronize := fun out => Command.sync "store.json" "body.json" "Ghost" out true
    let saved := (synchronize (some "next.json")).run ⟨.json, false, false⟩ orphanDisk
    let shown := (synchronize none).run ⟨.text, true, false⟩ orphanDisk
    saved.1.exitCode = 0 ∧ shown.1.exitCode = 0 ∧
      ((Command.diff "store.json" "body.json" "Ghost").run ⟨.json, false, false⟩ orphanDisk).1 =
        saved.1 ∧
      saved.2.files "next.json" = .ok shown.1.shown := by
  have hsaved : ((Command.sync "store.json" "body.json" "Ghost" (some "next.json") true).run
      ⟨.json, false, false⟩ orphanDisk).1.exitCode = 0 :=
    exitCode_run_eq_zero_iff.mpr ⟨by decide +kernel, fun _ _ _ => rfl⟩
  obtain ⟨hpreview, -, halike⟩ :=
    comparison_previews_synchronization orphanDisk "store.json" "body.json" "Ghost"
  obtain ⟨hcode, hbytes⟩ :=
    halike ⟨.text, true, false⟩ ⟨.json, false, false⟩ true "next.json" rfl
  have hshown := hcode.trans hsaved
  exact ⟨hsaved, hshown, hpreview _ _ _ hsaved, hbytes hshown⟩

end Cli

end ScriptStore
