import ScriptStore.Proofs.Cli.Programs

/-!
# Commands that fail leave nothing behind

A command that fails has shown nothing and has written nothing, wherever it fails: while it reads,
at a pass that is refused, or at the file that it was to save.  Only an inspection shows something
when it ends with an exit code other than zero, since its reports are what was asked for.  The
settings are no part of this: they choose the words only.  All this is said of the programs of the
commands, which read, print, complain and write step by step and may exit at each
(`failed_command_leaves_nothing`).
-/

namespace ScriptStore

namespace Cli

variable {files : Files} {finding : Finding} {command : Command} {disk : Disk}

/-! ## Kinds of findings -/

/-- Of the kinds of findings only reports can be a failure. -/
theorem Command.Gives.succeeds (h : command.Gives finding)
    (hcheck : ∀ store, command ≠ .check store) : finding.succeeds = true := by
  cases command with
  | diff store body entity =>
    obtain ⟨diff, rfl⟩ := h
    rfl
  | sync store body entity out verify =>
    obtain ⟨next, diff, rfl⟩ := h
    rfl
  | clear store entity out =>
    obtain ⟨next, diff, rfl⟩ := h
    rfl
  | check store => exact absurd rfl (hcheck store)
  | validate store =>
    obtain rfl := h
    rfl

/-- What is to be saved is a store, at the path of the command. -/
theorem Command.Gives.updated_of_out? (h : command.Gives finding) {path : String}
    (hout : command.out? = some path) :
    ∃ next diff, finding = .updated next diff (some path) := by
  cases command with
  | sync store body entity out verify =>
    obtain ⟨next, diff, rfl⟩ := h
    obtain rfl : out = some path := hout
    exact ⟨next, diff, rfl⟩
  | clear store entity out =>
    obtain ⟨next, diff, rfl⟩ := h
    obtain rfl : out = some path := hout
    exact ⟨next, diff, rfl⟩
  | diff store body entity => cases hout
  | check store => cases hout
  | validate store => cases hout

/-- Nothing is to be saved at any other path. -/
theorem Command.Gives.out?_of_saved? (h : command.Gives finding) {path text : String}
    (hsaved : finding.saved? = some (path, text)) : command.out? = some path := by
  cases command with
  | sync store body entity out verify =>
    obtain ⟨next, diff, rfl⟩ := h
    cases out with
    | none => cases hsaved
    | some other => exact congrArg (fun file => file.map Prod.fst) hsaved
  | clear store entity out =>
    obtain ⟨next, diff, rfl⟩ := h
    cases out with
    | none => cases hsaved
    | some other => exact congrArg (fun file => file.map Prod.fst) hsaved
  | diff store body entity =>
    obtain ⟨diff, rfl⟩ := h
    cases hsaved
  | check store =>
    obtain ⟨reports, rfl⟩ := h
    cases hsaved
  | validate store =>
    obtain rfl := h
    cases hsaved

/-! ## Findings that stay -/

/-- Only a success has something to save. -/
theorem Finding.succeeds_of_saved? {path text : String}
    (h : finding.saved? = some (path, text)) : finding.succeeds = true := by
  cases finding with
  | updated next diff out => rfl
  | compared diff => cases h
  | inspected reports => cases h
  | valid => cases h
  | failed complaint => cases h

/-- A command other than an inspection fails with a complaint. -/
theorem stays_of_not_succeeds (hcheck : ∀ store, command ≠ .check store)
    (h : (command.stays disk).succeeds ≠ true) :
    ∃ complaint, command.stays disk = .failed complaint := by
  rcases command.stays_cases disk with ⟨hstays, -⟩ | ⟨path, text, detail, -, -, hstays⟩
  · rcases find_cases command disk.files with ⟨complaint, hfailed⟩ | hgives
    · exact ⟨complaint, hstays.trans hfailed⟩
    · rw [hstays] at h
      exact absurd (hgives.succeeds hcheck) h
  · exact ⟨_, hstays⟩

/-- What is saved in the end is saved by a success, at the path of the command. -/
theorem of_saved?_stays {path text : String}
    (h : (command.stays disk).saved? = some (path, text)) :
    (command.stays disk).succeeds = true ∧ command.out? = some path := by
  have hsucceeds := Finding.succeeds_of_saved? h
  refine ⟨hsucceeds, ?_⟩
  rw [stays_of_succeeds hsucceeds] at h
  rcases find_cases command disk.files with ⟨complaint, hfailed⟩ | hgives
  · rw [hfailed] at h
    cases h
  · exact hgives.out?_of_saved? h

/-- A command that ends well and has a path has a store to save there. -/
theorem stays_of_out? {path : String} (hsucceeds : (command.stays disk).succeeds = true)
    (hout : command.out? = some path) :
    ∃ next diff, command.stays disk = .updated next diff (some path) := by
  have hstays := stays_of_succeeds hsucceeds
  rw [hstays] at hsucceeds ⊢
  rcases find_cases command disk.files with ⟨complaint, hfailed⟩ | hgives
  · rw [hfailed] at hsucceeds
    cases hsucceeds
  · exact hgives.updated_of_out? hout

/-- A file that differs after a finding has been saved is the one that it is saved in. -/
theorem saved?_of_files_ne {path : String}
    (h : (disk.saving finding).files path ≠ disk.files path) :
    ∃ text, finding.saved? = some (path, text) := by
  unfold Disk.saving at h
  cases hsaved : finding.saved? with
  | none =>
    rw [hsaved] at h
    exact absurd rfl h
  | some file =>
    obtain ⟨saved, text⟩ := file
    rw [hsaved] at h
    dsimp only at h
    rw [Disk.files_write] at h
    split at h
    · rename_i hpath
      exact ⟨text, by rw [hpath]⟩
    · exact absurd rfl h

/-! ## Commands that are carried out -/

section Execution

variable (settings : Settings) (command : Command) (disk : Disk)

/-- The exit code tells whether the finding that stays is a success. -/
theorem exitCode_execute :
    (command.execute settings disk).1 = if (command.stays disk).succeeds then 0 else 1 := by
  rw [(command.execute_eq_run settings disk).1, Command.run_eq]
  rfl

/-- The disk is left with what the finding that stays saves. -/
theorem disk_execute :
    (command.execute settings disk).2.disk = disk.saving (command.stays disk) := by
  rw [(command.execute_eq_run settings disk).2.2.2, Command.run_eq]

/-- The exit code is zero if the finding that stays is a success. -/
theorem exitCode_execute_eq_zero_iff :
    (command.execute settings disk).1 = 0 ↔ (command.stays disk).succeeds = true := by
  rw [exitCode_execute]
  cases (command.stays disk).succeeds <;> simp

/-- A failure prints and saves nothing, and it is put into words as the settings ask. -/
theorem execute_of_failed {complaint : Complaint} (h : command.stays disk = .failed complaint) :
    (command.execute settings disk).2.stdout = "" ∧
      (command.execute settings disk).2.disk = disk ∧
      (command.execute settings disk).2.stderr = complaint.render settings := by
  obtain ⟨-, hstdout, hstderr, -⟩ := command.execute_eq_run settings disk
  rw [hstdout, hstderr, disk_execute, Command.run_eq, h]
  exact ⟨rfl, rfl, rfl⟩

end Execution

/-! ## The main theorem -/

/-- **Commands are atomic, and settings are for show.**  For all commands, files and settings, when
the program of the command is carried out step by step: the exit code and the disk that it leaves
are the same with all other settings.  A command that is no inspection and exits with a code other
than zero has printed nothing and leaves the disk as it was, the file at its own path included;
there is one complaint, which the settings only put into words.  A file that differs afterwards is
the one at the path of a command that has ended well, and there every such command leaves the store
that it has found. -/
theorem failed_command_leaves_nothing (settings : Settings) (command : Command) (disk : Disk) :
    (∀ other : Settings,
      (command.execute other disk).1 = (command.execute settings disk).1 ∧
        (command.execute other disk).2.disk = (command.execute settings disk).2.disk) ∧
    ((∀ store, command ≠ .check store) → (command.execute settings disk).1 ≠ 0 →
      (command.execute settings disk).2.stdout = "" ∧
        (command.execute settings disk).2.disk = disk ∧
        ∃ complaint : Complaint, ∀ other : Settings,
          (command.execute other disk).2.stderr = complaint.render other) ∧
    (∀ path, (command.execute settings disk).2.disk.files path ≠ disk.files path →
      (command.execute settings disk).1 = 0 ∧ command.out? = some path) ∧
    ((command.execute settings disk).1 = 0 → ∀ path, command.out? = some path →
      ∃ next diff, command.find disk.files = .updated next diff (some path) ∧
        (command.execute settings disk).2.disk.files path = .ok (Finding.storeText next)) := by
  refine ⟨fun other => ?_, fun hcheck hexit => ?_, fun path hdiffers => ?_,
    fun hexit path hout => ?_⟩
  · rw [exitCode_execute, exitCode_execute, disk_execute, disk_execute]
    exact ⟨rfl, rfl⟩
  · rw [Ne, exitCode_execute_eq_zero_iff] at hexit
    obtain ⟨complaint, hstays⟩ := stays_of_not_succeeds hcheck hexit
    obtain ⟨hstdout, hdisk, -⟩ := execute_of_failed settings command disk hstays
    exact ⟨hstdout, hdisk, complaint, fun other =>
      (execute_of_failed other command disk hstays).2.2⟩
  · rw [disk_execute] at hdiffers
    obtain ⟨text, hsaved⟩ := saved?_of_files_ne hdiffers
    rw [exitCode_execute_eq_zero_iff]
    exact of_saved?_stays hsaved
  · have hsucceeds := (exitCode_execute_eq_zero_iff settings command disk).mp hexit
    obtain ⟨next, diff, hstays⟩ := stays_of_out? hsucceeds hout
    refine ⟨next, diff, (stays_of_succeeds hsucceeds).symm.trans hstays, ?_⟩
    rw [disk_execute, hstays]
    show (disk.write path (Finding.storeText next)).files path = _
    rw [Disk.files_write, if_pos rfl]

/-- An empty store, a body that declares a name twice, and a body that declares it once. -/
def repeatingDisk : Disk where
  files path :=
    if path = "store.json" then .ok "\x7b\x7d"
    else if path = "twice.json" then
      .ok "\x7b\"variables\":[\x7b\"name\":\"x\"\x7d,\x7b\"name\":\"x\"\x7d]\x7d"
    else if path = "once.json" then .ok "\x7b\"variables\":[\x7b\"name\":\"x\"\x7d]\x7d"
    else .error "not found"
  refusal? _ := none

/-- Takes in a body and saves the store in its own place. -/
def overwriting (body : String) : Command :=
  .sync "store.json" body "Page" (some "store.json") true

/-- The body with the repeated name leaves the store in its place, and the other one replaces it. -/
theorem overwriting_is_atomic :
    let refused := (overwriting "twice.json").execute ⟨.json, true, false⟩ repeatingDisk
    let accepted := (overwriting "once.json").execute ⟨.text, false, true⟩ repeatingDisk
    refused.1 ≠ 0 ∧ refused.2.stdout = "" ∧ refused.2.disk = repeatingDisk ∧
      accepted.1 = 0 ∧
      ∃ next, accepted.2.disk.files "store.json" = .ok (Finding.storeText next) := by
  have hne : ((overwriting "twice.json").execute ⟨.json, true, false⟩ repeatingDisk).1 ≠ 0 := by
    decide +kernel
  have hexit : ((overwriting "once.json").execute ⟨.text, false, true⟩ repeatingDisk).1 = 0 := by
    decide +kernel
  obtain ⟨-, hfails, -, -⟩ :=
    failed_command_leaves_nothing ⟨.json, true, false⟩ (overwriting "twice.json") repeatingDisk
  obtain ⟨-, -, -, hends⟩ :=
    failed_command_leaves_nothing ⟨.text, false, true⟩ (overwriting "once.json") repeatingDisk
  obtain ⟨hstdout, hdisk, -⟩ := hfails (fun store => by rintro ⟨⟩) hne
  obtain ⟨next, diff, -, hsaved⟩ := hends hexit "store.json" rfl
  exact ⟨hne, hstdout, hdisk, hexit, next, hsaved⟩

end Cli

end ScriptStore
