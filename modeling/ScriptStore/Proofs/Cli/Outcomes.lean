import ScriptStore.Cli.Run
import ScriptStore.Proofs.Body.Validity
import ScriptStore.Proofs.Document.Origins
import ScriptStore.Proofs.Store.Passes

/-!
# How commands end

A command finds something from its files and may save it, and a finding that cannot be saved becomes
a complaint.  The finding that stays (`Command.stays`) decides how the command ends: the exit code
and the disk are functions of it alone, and the settings are asked only for the wording
(`Command.run_eq`).

The commands are then read off step by step: what a comparison and a synchronization have read when
they find something (`findDiff_eq_ok_iff`, `findSync_eq_ok_iff`), and what a clearing has
(`findClear_eq_ok_iff`).  Without a complaint a command has a finding of its kind
(`gives_of_find?`), so what it complains about in the end is what it has found or a file that it
cannot write (`complaint_run_eq_some`).
-/

namespace ScriptStore

namespace Cli

/-! ## Findings that stay -/

/-- The path at which a command is to save. -/
def Command.out? : Command → Option String
  | .sync _ _ _ out _ => out
  | .clear _ _ out => out
  | _ => none

/-- The path of the document of a store that a command reads. -/
def Command.store : Command → String
  | .diff store _ _ => store
  | .sync store _ _ _ _ => store
  | .clear store _ _ => store
  | .check store => store
  | .validate store => store

/-- The finding that stays: what the command finds, unless it cannot be saved. -/
def Command.stays (command : Command) (disk : Disk) : Finding :=
  match (command.find disk.files).saved? with
  | some (path, _) => (command.find disk.files).afterSaving path (disk.refusal? path)
  | none => command.find disk.files

/-- The disk with what a finding saves. -/
def Disk.saving (disk : Disk) (finding : Finding) : Disk :=
  match finding.saved? with
  | some (path, text) => disk.write path text
  | none => disk

section Runs

variable {settings : Settings} {command : Command} {disk : Disk} {finding : Finding}

/-- What is found stays, unless it has to be saved in a file that cannot be written. -/
theorem Command.stays_cases (command : Command) (disk : Disk) :
    (command.stays disk = command.find disk.files ∧
      ∀ path text, (command.find disk.files).saved? = some (path, text) →
        disk.refusal? path = none) ∨
    ∃ path text detail, (command.find disk.files).saved? = some (path, text) ∧
      disk.refusal? path = some detail ∧
      command.stays disk = .failed (.unwritable path detail) := by
  unfold stays
  cases hsaved : (command.find disk.files).saved? with
  | none =>
    refine Or.inl ⟨rfl, ?_⟩
    rintro path text ⟨⟩
  | some file =>
    obtain ⟨path, text⟩ := file
    dsimp only
    cases hrefusal : disk.refusal? path with
    | none =>
      refine Or.inl ⟨rfl, ?_⟩
      rintro _ _ ⟨⟩
      exact hrefusal
    | some detail => exact Or.inr ⟨path, text, detail, rfl, hrefusal, rfl⟩

/-- **A run in one equation**: the finding that stays decides how the command ends, what is on the
disk then, and with the settings what is shown. -/
theorem Command.run_eq (settings : Settings) (command : Command) (disk : Disk) :
    command.run settings disk =
      (.ofFinding settings (command.stays disk), disk.saving (command.stays disk)) := by
  unfold run
  dsimp only
  rcases command.stays_cases disk with
    ⟨hstays, hfree⟩ | ⟨path, text, detail, hsaved, hrefusal, hstays⟩
  · rw [hstays, Disk.saving]
    cases hsaved : (command.find disk.files).saved? with
    | none => rfl
    | some file =>
      dsimp only
      rw [hfree file.1 file.2 hsaved]
      rfl
  · rw [hstays, hsaved]
    dsimp only
    rw [hrefusal]
    rfl

theorem exitCode_ofFinding_eq_zero_iff :
    (Outcome.ofFinding settings finding).exitCode = 0 ↔ finding.succeeds = true := by
  unfold Outcome.ofFinding
  cases finding.succeeds <;> simp

/-- There are two exit codes. -/
theorem exitCode_run_le_one (settings : Settings) (command : Command) (disk : Disk) :
    (command.run settings disk).1.exitCode ≤ 1 := by
  rw [Command.run_eq, Outcome.ofFinding]
  dsimp only
  split <;> omega

/-- A command ends well exactly if the finding that stays is a success. -/
theorem exitCode_run_eq_zero_iff_stays :
    (command.run settings disk).1.exitCode = 0 ↔ (command.stays disk).succeeds = true := by
  rw [Command.run_eq, exitCode_ofFinding_eq_zero_iff]

/-- A finding that stays as a success is what was found. -/
theorem stays_of_succeeds (h : (command.stays disk).succeeds = true) :
    command.stays disk = command.find disk.files := by
  rcases command.stays_cases disk with ⟨hstays, -⟩ | ⟨path, text, detail, -, -, hstays⟩
  · exact hstays
  · rw [hstays] at h
    cases h

/-- A command ends well exactly if it succeeds and its file, if there is one, can be written. -/
theorem exitCode_run_eq_zero_iff :
    (command.run settings disk).1.exitCode = 0 ↔ (command.find disk.files).succeeds = true ∧
      ∀ path text, (command.find disk.files).saved? = some (path, text) →
        disk.refusal? path = none := by
  rw [exitCode_run_eq_zero_iff_stays]
  rcases command.stays_cases disk with
    ⟨hstays, hfree⟩ | ⟨path, text, detail, hsaved, hrefusal, hstays⟩
  · rw [hstays, and_iff_left hfree]
  · rw [hstays]
    constructor
    · rintro ⟨⟩
    · rintro ⟨-, hfree⟩
      rw [hfree path text hsaved] at hrefusal
      cases hrefusal

end Runs

/-! ## Reading files -/

section Reading

variable {files : Files} {path : String}

/-- A store is read from a file that holds the document of one. -/
theorem readStore_eq_ok_iff {verify : Bool} {store : Store} :
    readStore files verify path = .ok store ↔
      ∃ document, readJson files path = .ok document ∧
        Store.ofJson? verify document = some store := by
  unfold readStore
  rw [bind_eq_ok_iff]
  refine exists_congr fun document => and_congr_right fun _ => ?_
  cases Store.ofJson? verify document with
  | none =>
    constructor
    · rintro ⟨⟩
    · rintro ⟨⟩
  | some found =>
    constructor
    · exact fun h => congrArg some (Except.ok.inj h)
    · exact fun h => congrArg Except.ok (Option.some.inj h)

/-- A body is read from a file that holds the document of one. -/
theorem readBody_eq_ok_iff {body : Body} :
    readBody files path = .ok body ↔
      ∃ document, readJson files path = .ok document ∧ Body.ofJson document = .ok body := by
  unfold readBody
  rw [bind_eq_ok_iff]
  refine exists_congr fun document => and_congr_right fun _ => ?_
  cases Body.ofJson document with
  | error error =>
    constructor
    · rintro ⟨⟩
    · rintro ⟨⟩
  | ok found =>
    constructor
    · exact fun h => congrArg Except.ok (Except.ok.inj h)
    · exact fun h => congrArg Except.ok (Except.ok.inj h)

/-- A body that is read has no offending names. -/
theorem nameError?_of_readBody {body : Body} (h : readBody files path = .ok body) :
    body.nameError? = none := by
  obtain ⟨document, -, hbody⟩ := readBody_eq_ok_iff.mp h
  obtain ⟨read, -, hbody⟩ := bind_eq_ok_iff.mp hbody
  obtain ⟨_, hvalid, hbody⟩ := bind_eq_ok_iff.mp hbody
  obtain rfl := Except.ok.inj hbody
  exact (Body.nameError?_eq_none_iff read).mpr ((Body.validate_eq_ok_iff read).mp hvalid)

/-- A document does not say whether its store verifies. -/
theorem ofJson?_eq_map (verify : Bool) (document : Json) :
    Store.ofJson? verify document =
      (Store.ofJson? false document).map fun store => { store with verify := verify } := by
  unfold Store.ofJson?
  simp only [Option.bind_eq_bind, Option.map_bind, Function.comp_def]
  rfl

/-- A store that is to verify is read as one that is not, and then told to. -/
theorem readStore_eq_bind (files : Files) (verify : Bool) (path : String) :
    readStore files verify path =
      readStore files false path >>= fun loaded => .ok { loaded with verify := verify } := by
  unfold readStore
  rw [bind_assoc]
  refine congrArg (readJson files path >>= ·) (funext fun document => ?_)
  rw [ofJson?_eq_map verify]
  cases Store.ofJson? false document with
  | none => rfl
  | some loaded => rfl

/-- Whether a store verifies is not read from its file. -/
theorem readStore_verify {verify : Bool} {store : Store}
    (h : readStore files verify path = .ok store) (again : Bool) :
    readStore files again path = .ok { store with verify := again } := by
  rw [readStore_eq_bind] at h ⊢
  obtain ⟨loaded, hloaded, h⟩ := bind_eq_ok_iff.mp h
  obtain rfl := Except.ok.inj h
  exact bind_eq_ok_iff.mpr ⟨loaded, hloaded, rfl⟩

/-- A store that is read verifies as it is asked to. -/
theorem verify_of_readStore {verify : Bool} {store : Store}
    (h : readStore files verify path = .ok store) : store.verify = verify := by
  have hstore := Except.ok.inj (h.symm.trans (readStore_verify h verify))
  exact congrArg Store.verify hstore

end Reading

/-! ## What commands find -/

section Finding

variable {files : Files} {store body entity : String} {out : Option String} {verify : Bool}
  {finding : Finding} {command : Command}

theorem orRefused_eq_ok_iff {α : Type} {purpose : Purpose} {result : Except SyncError α}
    {value : α} : orRefused purpose result = .ok value ↔ result = .ok value := by
  cases result with
  | error error =>
    constructor
    · rintro ⟨⟩
    · rintro ⟨⟩
  | ok found =>
    rw [orRefused, Except.ok.injEq, Except.ok.injEq]

/-- A comparison that finds something has read a store and a body, and it finds what any pass of
the body over the state of the entity would change. -/
theorem findDiff_eq_ok_iff :
    findDiff files store body entity = .ok finding ↔
      ∃ kept parsed, readStore files false store = .ok kept ∧ readBody files body = .ok parsed ∧
        finding = .compared ((kept.stateOf entity).classify parsed) := by
  have hdiff : ∀ (kept : Store) (parsed : Body), readBody files body = .ok parsed →
      (comparedState kept entity).diff parsed = .ok ((kept.stateOf entity).classify parsed) := by
    intro kept parsed hparsed
    rw [EntityState.diff, nameError?_of_readBody hparsed]
    rfl
  constructor
  · intro h
    obtain ⟨kept, hkept, h⟩ := bind_eq_ok_iff.mp h
    obtain ⟨parsed, hparsed, h⟩ := bind_eq_ok_iff.mp h
    obtain ⟨diff, hfound, h⟩ := bind_eq_ok_iff.mp h
    rw [hdiff kept parsed hparsed] at hfound
    obtain rfl := Except.ok.inj (orRefused_eq_ok_iff.mp hfound)
    exact ⟨kept, parsed, hkept, hparsed, (Except.ok.inj h).symm⟩
  · rintro ⟨kept, parsed, hkept, hparsed, rfl⟩
    refine bind_eq_ok_iff.mpr ⟨kept, hkept, bind_eq_ok_iff.mpr ⟨parsed, hparsed, ?_⟩⟩
    exact bind_eq_ok_iff.mpr ⟨_, orRefused_eq_ok_iff.mpr (hdiff kept parsed hparsed), rfl⟩

/-- A synchronization that finds something has read a store and a body and has reconciled them. -/
theorem findSync_eq_ok_iff :
    findSync files store body entity out verify = .ok finding ↔
      ∃ kept parsed diff next, readStore files verify store = .ok kept ∧
        readBody files body = .ok parsed ∧ kept.reconcile entity parsed = .ok (diff, next) ∧
        finding = .updated next diff out := by
  constructor
  · intro h
    obtain ⟨kept, hkept, h⟩ := bind_eq_ok_iff.mp h
    obtain ⟨parsed, hparsed, h⟩ := bind_eq_ok_iff.mp h
    obtain ⟨⟨diff, next⟩, hpass, h⟩ := bind_eq_ok_iff.mp h
    exact ⟨kept, parsed, diff, next, hkept, hparsed, orRefused_eq_ok_iff.mp hpass,
      (Except.ok.inj h).symm⟩
  · rintro ⟨kept, parsed, diff, next, hkept, hparsed, hpass, rfl⟩
    refine bind_eq_ok_iff.mpr ⟨kept, hkept, bind_eq_ok_iff.mpr ⟨parsed, hparsed, ?_⟩⟩
    exact bind_eq_ok_iff.mpr ⟨(diff, next), orRefused_eq_ok_iff.mpr hpass, rfl⟩

/-- A clearing that finds something has read a store and has cleared a tracked entity of it. -/
theorem findClear_eq_ok_iff :
    findClear files store entity out = .ok finding ↔
      ∃ kept diff next, readStore files true store = .ok kept ∧
        kept.clear entity = .ok (some diff, next) ∧ finding = .updated next diff out := by
  constructor
  · intro h
    obtain ⟨kept, hkept, h⟩ := bind_eq_ok_iff.mp h
    obtain ⟨⟨answer, next⟩, hpass, h⟩ := bind_eq_ok_iff.mp h
    cases answer with
    | none => cases h
    | some diff =>
      exact ⟨kept, diff, next, hkept, orRefused_eq_ok_iff.mp hpass, (Except.ok.inj h).symm⟩
  · rintro ⟨kept, diff, next, hkept, hpass, rfl⟩
    exact bind_eq_ok_iff.mpr ⟨kept, hkept,
      bind_eq_ok_iff.mpr ⟨(some diff, next), orRefused_eq_ok_iff.mpr hpass, rfl⟩⟩

/-- A document is found valid exactly if the schema accepts it. -/
theorem findValidate_eq_ok_iff :
    findValidate files store = .ok finding ↔
      finding = .valid ∧ ∃ document, readJson files store = .ok document ∧
        Schema.storeDocument.accepts document = true := by
  constructor
  · intro h
    obtain ⟨document, hdocument, h⟩ := bind_eq_ok_iff.mp h
    cases hfaults : Schema.storeDocument.faults [] document with
    | nil =>
      rw [hfaults] at h
      refine ⟨(Except.ok.inj h).symm, document, hdocument, ?_⟩
      rw [Schema.accepts, hfaults]
      rfl
    | cons fault rest =>
      rw [hfaults] at h
      cases h
  · rintro ⟨rfl, document, hdocument, haccepts⟩
    have hfaults : Schema.storeDocument.faults [] document = [] := List.isEmpty_iff.mp haccepts
    refine bind_eq_ok_iff.mpr ⟨document, hdocument, ?_⟩
    rw [hfaults]
    rfl

/-- What a command has found, it has found without a complaint if it succeeds. -/
theorem find?_of_succeeds (h : (command.find files).succeeds = true) :
    command.find? files = .ok (command.find files) := by
  unfold Command.find at h ⊢
  cases hfind : command.find? files with
  | ok finding => rfl
  | error complaint =>
    rw [hfind] at h
    cases h

theorem find_of_find? (h : command.find? files = .ok finding) : command.find files = finding := by
  rw [Command.find, h]

/-- How a command ends that has found something and can save it. -/
theorem run_of_find? {settings : Settings} {disk : Disk}
    (hfound : command.find? disk.files = .ok finding)
    (hfree : ∀ path text, finding.saved? = some (path, text) → disk.refusal? path = none) :
    command.run settings disk = (.ofFinding settings finding, disk.saving finding) := by
  have hfind := find_of_find? hfound
  have hstays : command.stays disk = finding := by
    rcases command.stays_cases disk with ⟨hstays, -⟩ | ⟨path, text, detail, hsaved, hrefusal, -⟩
    · exact hstays.trans hfind
    · rw [hfind] at hsaved
      rw [hfree path text hsaved] at hrefusal
      cases hrefusal
  rw [Command.run_eq, hstays]

/-- Whether a finding is of the kind that the command has without a complaint. -/
def Command.Gives : Command → Finding → Prop
  | .diff _ _ _, finding => ∃ diff, finding = .compared diff
  | .sync _ _ _ out _, finding => ∃ next diff, finding = .updated next diff out
  | .clear _ _ out, finding => ∃ next diff, finding = .updated next diff out
  | .check _, finding => ∃ reports, finding = .inspected reports
  | .validate _, finding => finding = .valid

/-- Without a complaint a command has a finding of its kind. -/
theorem gives_of_find? (h : command.find? files = .ok finding) : command.Gives finding := by
  cases command with
  | diff store body entity =>
    obtain ⟨kept, parsed, -, -, rfl⟩ := findDiff_eq_ok_iff.mp h
    exact ⟨_, rfl⟩
  | sync store body entity out verify =>
    obtain ⟨kept, parsed, diff, next, -, -, -, rfl⟩ := findSync_eq_ok_iff.mp h
    exact ⟨next, diff, rfl⟩
  | clear store entity out =>
    obtain ⟨kept, diff, next, -, -, rfl⟩ := findClear_eq_ok_iff.mp h
    exact ⟨next, diff, rfl⟩
  | check store =>
    obtain ⟨kept, -, h⟩ := bind_eq_ok_iff.mp h
    exact ⟨_, (Except.ok.inj h).symm⟩
  | validate store => exact (findValidate_eq_ok_iff.mp h).1

/-- A command complains or has a finding of its kind. -/
theorem find_cases (command : Command) (files : Files) :
    (∃ complaint, command.find files = .failed complaint) ∨ command.Gives (command.find files) := by
  unfold Command.find
  cases hfind : command.find? files with
  | error complaint => exact Or.inl ⟨complaint, rfl⟩
  | ok finding => exact Or.inr (gives_of_find? hfind)

theorem Command.Gives.complaint?_eq_none (h : command.Gives finding) :
    finding.complaint? = none := by
  cases command with
  | diff store body entity =>
    obtain ⟨diff, rfl⟩ := h
    rfl
  | sync store body entity out verify =>
    obtain ⟨next, diff, rfl⟩ := h
    rfl
  | clear store entity out =>
    obtain ⟨next, diff, rfl⟩ := h
    rfl
  | check store =>
    obtain ⟨reports, rfl⟩ := h
    rfl
  | validate store =>
    obtain rfl := h
    rfl

/-- A command complains about what it has found, or about the file that it cannot write. -/
theorem complaint_run_eq_some {settings : Settings} {disk : Disk} {complaint : Complaint}
    (h : (command.run settings disk).1.complaint = some complaint) :
    command.find? disk.files = .error complaint ∨
      ∃ path detail, complaint = .unwritable path detail := by
  rw [Command.run_eq] at h
  change (command.stays disk).complaint? = some complaint at h
  rcases command.stays_cases disk with ⟨hstays, -⟩ | ⟨path, text, detail, -, -, hstays⟩
  · rw [hstays, Command.find] at h
    cases hfind : command.find? disk.files with
    | error found =>
      rw [hfind] at h
      exact Or.inl (congrArg Except.error (Option.some.inj h))
    | ok finding =>
      rw [hfind] at h
      rw [(gives_of_find? hfind).complaint?_eq_none] at h
      cases h
  · rw [hstays] at h
    exact Or.inr ⟨path, detail, (Option.some.inj h).symm⟩

end Finding

end Cli

end ScriptStore
