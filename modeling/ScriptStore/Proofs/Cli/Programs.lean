import ScriptStore.Cli.Program
import ScriptStore.Proofs.Cli.Outcomes
import ScriptStore.Proofs.Store.Sessions

/-!
# Commands, step by step and as a whole

The program of a command is followed on a machine from step to step.  A step that reads follows an
attempt (`Follows`): it gives what the attempt gives, or it reports the complaint of the attempt and
exits with one, and nothing else is touched but the log.  A program as a whole ends as an attempt at
a finding says (`EndsAs`): with the exit code, the texts and the disk that belong to the finding
that stays.  Both are put together along the steps of a program (`Follows.bind`, `EndsAs.bind`).

So what a command prints and leaves when it is carried out step by step, with an exit at every place
where something may go wrong, is what it comes to as a whole (`Command.execute_eq_run`).
-/

namespace ScriptStore

namespace Cli

open Program

variable {α β : Type} {settings : Settings} {machine : Machine}

/-! ## Running on a machine -/

/-- What a program gives on a machine, and the machine that it leaves. -/
def Program.on (program : Program (StateM Machine) α) (machine : Machine) :
    Except Nat α × Machine := program.run.run machine

/-- After a step that has come to its end the program goes on. -/
theorem on_bind_of_ok {first : Program (StateM Machine) α} {value : α} {left : Machine}
    (h : first.on machine = (.ok value, left)) (next : α → Program (StateM Machine) β) :
    (first >>= next).on machine = (next value).on left := run_bind_of_ok h

/-- After a step that has exited nothing is done. -/
theorem on_bind_of_error {first : Program (StateM Machine) α} {code : Nat} {left : Machine}
    (h : first.on machine = (.error code, left)) (next : α → Program (StateM Machine) β) :
    (first >>= next).on machine = (.error code, left) := run_bind_of_error h

/-! ## Writing texts -/

namespace Machine

/-- Printing nothing changes nothing. -/
theorem print_empty (machine : Machine) : machine.print "" = machine := by
  rw [print, String.append_empty]

/-- Texts that are printed one after the other are printed as one. -/
theorem print_print (machine : Machine) (text rest : String) :
    (machine.print text).print rest = machine.print (text ++ rest) := by
  rw [print, print, print, String.append_assoc]

/-- Complaining about nothing changes nothing. -/
theorem eprint_empty (machine : Machine) : machine.eprint "" = machine := by
  rw [eprint, String.append_empty]

/-- Texts that are written to the standard error one after the other are written as one. -/
theorem eprint_eprint (machine : Machine) (text rest : String) :
    (machine.eprint text).eprint rest = machine.eprint (text ++ rest) := by
  rw [eprint, eprint, eprint, String.append_assoc]

end Machine

/-- The lines of two lists are those of the one and then those of the other. -/
theorem lines_append (texts more : List String) :
    Complaint.lines (texts ++ more) = Complaint.lines texts ++ Complaint.lines more := by
  unfold Complaint.lines
  rw [List.map_append, String.join_append]

/-- The first line and the others. -/
theorem lines_cons (text : String) (texts : List String) :
    Complaint.lines (text :: texts) = (text ++ "\n") ++ Complaint.lines texts := by
  unfold Complaint.lines
  rw [List.map_cons, String.join_cons]

/-- No lines are no text. -/
theorem lines_nil : Complaint.lines [] = "" := String.join_nil

/-- What is written about items in turn is the text about all of them. -/
theorem on_forM_write {write : Machine → String → Machine}
    (hnothing : ∀ machine, write machine "" = machine)
    (hrest : ∀ machine text rest, write (write machine text) rest = write machine (text ++ rest))
    {step : α → Program (StateM Machine) Unit} {text : α → List String}
    (h : ∀ item machine,
      (step item).on machine = (.ok (), write machine (Complaint.lines (text item))))
    (items : List α) (machine : Machine) :
    (items.forM step).on machine =
      (.ok (), write machine (Complaint.lines (items.flatMap text))) := by
  induction items generalizing machine with
  | nil =>
    rw [List.flatMap_nil, lines_nil, hnothing]
    rfl
  | cons first rest ih =>
    rw [List.flatMap_cons, lines_append, ← hrest, ← ih]
    exact on_bind_of_ok (h first machine) fun _ => rest.forM step

/-- Lines that are printed in turn are printed as one text. -/
theorem on_forM_println (line : α → String) (items : List α) (machine : Machine) :
    (items.forM fun item => println (line item) : Program (StateM Machine) Unit).on machine =
      (.ok (), machine.print (Complaint.lines (items.map line))) := by
  rw [List.map_eq_flatMap]
  refine on_forM_write Machine.print_empty Machine.print_print (fun item machine => ?_) items
    machine
  rw [lines_cons, lines_nil, String.append_empty]
  rfl

/-- Lines that are written to the standard error in turn are written as one text. -/
theorem on_forM_eprintln (line : α → String) (items : List α) (machine : Machine) :
    (items.forM fun item => eprintln (line item) : Program (StateM Machine) Unit).on machine =
      (.ok (), machine.eprint (Complaint.lines (items.map line))) := by
  rw [List.map_eq_flatMap]
  refine on_forM_write Machine.eprint_empty Machine.eprint_eprint (fun item machine => ?_) items
    machine
  rw [lines_cons, lines_nil, String.append_empty]
  rfl

/-- What is written about something is nothing if the command is to be quiet. -/
theorem on_unless_quiet {step : Program (StateM Machine) Unit} {write : String → Machine}
    {text : String} (h : step.on machine = (.ok (), write text)) (hnothing : write "" = machine) :
    (if settings.quiet then pure () else step : Program (StateM Machine) Unit).on machine =
      (.ok (), write (if settings.quiet then "" else text)) := by
  cases settings.quiet with
  | true =>
    rw [if_pos rfl, if_pos rfl, hnothing]
    rfl
  | false => rw [if_neg Bool.false_ne_true, if_neg Bool.false_ne_true, h]

/-! ## What is printed -/

/-- A difference is printed as it is shown. -/
theorem on_printDiff (settings : Settings) (diff : EntityDiff) (machine : Machine) :
    (printDiff settings diff).on machine =
      (.ok (), machine.print (Finding.diffText settings diff)) := by
  refine on_unless_quiet ?_ machine.print_empty
  cases settings.format with
  | text => rfl
  | json => rfl

/-- The report of an entity is printed line by line. -/
theorem on_printReport (report : Report) (machine : Machine) :
    (printReport report).on machine =
      (.ok (), machine.print (Complaint.lines (Finding.reportLines report))) := by
  have hstale := on_forM_println
    (fun name => "  ! stale dependency '" ++ name ++ "'") report.staleDependencies
  unfold printReport Finding.reportLines Finding.reportHeadline
  by_cases hconsistent : report.isConsistent = true
  · have hviolations : report.violations = [] := List.isEmpty_iff.mp hconsistent
    rw [if_pos hconsistent, if_pos hconsistent, hviolations, List.map_nil, List.nil_append,
      lines_cons, ← machine.print_print, ← hstale]
    exact on_bind_of_ok rfl _
  · have hviolations := on_forM_println
      (fun violation : Violation => "  - " ++ violation.message) report.violations
    rw [if_neg hconsistent, if_neg hconsistent, lines_cons, lines_append, ← machine.print_print,
      ← Machine.print_print, ← hstale]
    exact (on_bind_of_ok rfl _).trans (on_bind_of_ok (hviolations _) _)

/-- Reports are printed as they are shown. -/
theorem on_printReports (settings : Settings) (reports : List Report) (machine : Machine) :
    (printReports settings reports).on machine =
      (.ok (), machine.print (Finding.reportsText settings reports)) := by
  refine on_unless_quiet ?_ machine.print_empty
  cases settings.format with
  | text =>
    exact on_forM_write Machine.print_empty Machine.print_print on_printReport reports machine
  | json => rfl

/-- That a document is valid is printed as it is shown. -/
theorem on_printValid (settings : Settings) (machine : Machine) :
    (printValid settings).on machine = (.ok (), machine.print (Finding.validText settings)) := by
  refine on_unless_quiet ?_ machine.print_empty
  cases settings.format with
  | text => rfl
  | json => rfl

/-! ## What is reported -/

/-- A complaint other than one about the faults of a document is rendered as its message. -/
theorem render_eq {complaint : Complaint} (h : ∀ faults, complaint ≠ .invalid faults) :
    complaint.render settings =
      if settings.quiet then ""
      else
        match settings.format with
        | .text => complaint.message ++ "\n"
        | .json => (Json.obj [("error", .str complaint.message)]).compact ++ "\n" := by
  unfold Complaint.render
  cases complaint with
  | invalid faults => exact absurd rfl (h faults)
  | _ => cases settings.format <;> rfl

/-- A complaint about a step is reported and ends the program with one. -/
theorem on_fail {complaint : Complaint} (h : ∀ faults, complaint ≠ .invalid faults)
    (machine : Machine) :
    (fail settings complaint : Program (StateM Machine) α).on machine =
      (.error 1, machine.eprint (complaint.render settings)) := by
  have hreport : (reportError settings complaint.message : Program (StateM Machine) Unit).on
      machine = (.ok (), machine.eprint (complaint.render settings)) := by
    rw [render_eq h]
    refine on_unless_quiet ?_ machine.eprint_empty
    cases settings.format with
    | text => rfl
    | json => rfl
  exact on_bind_of_ok hreport _

/-- The faults of a document are reported as they are rendered. -/
theorem on_reportFaults (settings : Settings) (faults : List SchemaFault) (machine : Machine) :
    (reportFaults settings faults).on machine =
      (.ok (), machine.eprint ((Complaint.invalid faults).render settings)) := by
  unfold reportFaults Complaint.render
  cases settings.format with
  | json => rfl
  | text =>
    refine on_unless_quiet ?_ machine.eprint_empty
    rw [lines_cons, ← machine.eprint_eprint, Complaint.faultLines, ← on_forM_eprintln]
    exact on_bind_of_ok rfl _

/-- A store is written to its file, or there is a complaint about the file. -/
theorem on_writeStore (store : Store) (path : String) (machine : Machine) :
    (writeStore store path).on machine =
      match machine.disk.refusal? path with
      | some detail => (.ok (.error (.unwritable path detail)), machine)
      | none => (.ok (.ok ()),
          { machine with disk := machine.disk.write path (Finding.storeText store) }) := by
  have hwrite : (Host.writeFile path (Finding.storeText store) :
      Program (StateM Machine) (Except String Unit)).on machine =
        (.ok (machine.writeFile path (Finding.storeText store)).1,
          (machine.writeFile path (Finding.storeText store)).2) := rfl
  refine (on_bind_of_ok hwrite _).trans ?_
  rw [Machine.writeFile]
  cases machine.disk.refusal? path with
  | none => rfl
  | some detail => rfl

/-! ## Following an attempt -/

/-- What has happened between two machines, apart from the log: the disk is this one now, and these
texts have been printed and reported. -/
structure Machine.Turns (machine left : Machine) (disk : Disk) (printed reported : String) :
    Prop where
  disk : left.disk = disk
  stdout : left.stdout = machine.stdout ++ printed
  stderr : left.stderr = machine.stderr ++ reported

/-- What follows on a silent step is all that has happened. -/
theorem Machine.Turns.after {middle left : Machine} {disk : Disk} {printed reported : String}
    (hsilent : machine.Turns middle machine.disk "" "")
    (h : middle.Turns left disk printed reported) : machine.Turns left disk printed reported where
  disk := h.disk
  stdout := by rw [h.stdout, hsilent.stdout, String.append_empty]
  stderr := by rw [h.stderr, hsilent.stderr, String.append_empty]

/-- What is reported about an attempt. -/
def reported (settings : Settings) : Except Complaint α → String
  | .ok _ => ""
  | .error complaint => complaint.render settings

/-- A program follows an attempt: it gives what the attempt gives, or it reports the complaint and
exits with one. Nothing is printed and the disk is not touched. -/
def Follows (settings : Settings) (program : Program (StateM Machine) α) (machine : Machine)
    (attempt : Except Complaint α) : Prop :=
  ∃ left, program.on machine = (attempt.mapError fun _ => 1, left) ∧
    machine.Turns left machine.disk "" (reported settings attempt)

namespace Follows

/-- A value that is there already. -/
protected theorem pure (value : α) :
    Follows settings (pure value : Program (StateM Machine) α) machine (.ok value) :=
  ⟨machine, rfl, rfl, String.append_empty.symm, String.append_empty.symm⟩

/-- A line of the log. -/
theorem debug (line : String) :
    Follows settings (Program.debug settings line) machine (.ok ()) := by
  unfold Program.debug
  cases settings.verbose with
  | true =>
    exact ⟨machine.note line, rfl, rfl, String.append_empty.symm, String.append_empty.symm⟩
  | false => exact .pure ()

/-- A complaint about a step. -/
theorem fail {complaint : Complaint} (h : ∀ faults, complaint ≠ .invalid faults) :
    Follows settings (Program.fail settings complaint : Program (StateM Machine) α) machine
      (.error complaint) :=
  ⟨_, on_fail h machine, rfl, String.append_empty.symm, rfl⟩

/-- Two steps follow the attempts in a row. -/
theorem bind {first : Program (StateM Machine) α} {next : α → Program (StateM Machine) β}
    {attempt : Except Complaint α} {rest : α → Except Complaint β}
    (hfirst : Follows settings first machine attempt)
    (hnext : ∀ value left, left.disk = machine.disk →
      Follows settings (next value) left (rest value)) :
    Follows settings (first >>= next) machine (attempt >>= rest) := by
  obtain ⟨middle, hon, hturns⟩ := hfirst
  cases attempt with
  | error complaint => exact ⟨middle, on_bind_of_error hon next, hturns⟩
  | ok value =>
    obtain ⟨left, hrest, hleft⟩ := hnext value middle hturns.disk
    rw [hturns.disk] at hleft
    exact ⟨left, (on_bind_of_ok hon next).trans hrest, hturns.after hleft⟩

/-- A step that gives a value and changes nothing comes before what follows. -/
theorem of_on {first : Program (StateM Machine) α} {value : α}
    {next : α → Program (StateM Machine) β} {attempt : Except Complaint β}
    (hfirst : first.on machine = (.ok value, machine))
    (hnext : Follows settings (next value) machine attempt) :
    Follows settings (first >>= next) machine attempt := by
  obtain ⟨left, hon, hturns⟩ := hnext
  exact ⟨left, (on_bind_of_ok hfirst next).trans hon, hturns⟩

/-- A document is read as from the files of the machine. -/
theorem readJson (path : String) :
    Follows settings (Program.readJson settings path) machine
      (Cli.readJson machine.disk.files path) := by
  have hread : (Host.readFile path : Program (StateM Machine) (Except String String)).on machine =
      (.ok (machine.disk.files path), machine) := rfl
  refine of_on hread ?_
  unfold Cli.readJson
  cases machine.disk.files path with
  | error detail => exact fail (by rintro _ ⟨⟩)
  | ok text =>
    dsimp only
    cases Json.ofString? text with
    | none => exact fail (by rintro _ ⟨⟩)
    | some value => exact .pure value

/-- A store is loaded as it is read. -/
theorem loadStore (path : String) :
    Follows settings (Program.loadStore settings path) machine
      (readStore machine.disk.files false path) := by
  refine (readJson path).bind fun document left _ => ?_
  cases Store.ofJson? false document with
  | none => exact fail (by rintro _ ⟨⟩)
  | some store => exact (debug _).bind fun _ _ _ => .pure store

/-- A body is loaded as it is read. -/
theorem loadBody (path : String) :
    Follows settings (Program.loadBody settings path) machine
      (readBody machine.disk.files path) := by
  refine (readJson path).bind fun document left _ => ?_
  cases Body.ofJson document with
  | error error => exact fail (by rintro _ ⟨⟩)
  | ok body => exact .pure body

end Follows

/-! ## Ending as a finding -/

/-- The finding that stays of an attempt on a disk. -/
def staying (disk : Disk) (attempt : Except Complaint Finding) : Finding :=
  let finding :=
    match attempt with
    | .ok finding => finding
    | .error complaint => .failed complaint
  match finding.saved? with
  | some (path, _) => finding.afterSaving path (disk.refusal? path)
  | none => finding

/-- What a command finds stays as its attempt at a finding does. -/
theorem stays_eq (command : Command) (disk : Disk) :
    command.stays disk = staying disk (command.find? disk.files) := rfl

/-- A program ends as a finding: with its exit code, having saved, printed and reported what belongs
to it. -/
def EndsAs (settings : Settings) (program : Program (StateM Machine) Unit) (machine : Machine)
    (finding : Finding) : Prop :=
  ∃ left, program.on machine = (if finding.succeeds then .ok () else .error 1, left) ∧
    machine.Turns left (machine.disk.saving finding) (finding.shown settings)
      ((Outcome.ofFinding settings finding).complaintText settings)

namespace EndsAs

/-- A step that follows an attempt comes before the end. -/
theorem bind {first : Program (StateM Machine) α} {next : α → Program (StateM Machine) Unit}
    {attempt : Except Complaint α} {rest : α → Except Complaint Finding}
    (hfirst : Follows settings first machine attempt)
    (hnext : ∀ value left, left.disk = machine.disk →
      EndsAs settings (next value) left (staying left.disk (rest value))) :
    EndsAs settings (first >>= next) machine (staying machine.disk (attempt >>= rest)) := by
  obtain ⟨middle, hon, hturns⟩ := hfirst
  cases attempt with
  | error complaint => exact ⟨middle, on_bind_of_error hon next, hturns⟩
  | ok value =>
    obtain ⟨left, hrest, hleft⟩ := hnext value middle hturns.disk
    rw [hturns.disk] at hrest hleft
    exact ⟨left, (on_bind_of_ok hon next).trans hrest, hturns.after hleft⟩

/-- A silent step comes before the end. -/
theorem of_silent {first : Program (StateM Machine) Unit}
    {next : Unit → Program (StateM Machine) Unit} {attempt : Except Complaint Finding}
    (hfirst : Follows settings first machine (.ok ()))
    (hnext : ∀ left, left.disk = machine.disk →
      EndsAs settings (next ()) left (staying left.disk attempt)) :
    EndsAs settings (first >>= next) machine (staying machine.disk attempt) := by
  show EndsAs settings _ machine (staying machine.disk ((.ok ()) >>= fun _ : Unit => attempt))
  exact bind hfirst fun _ left => hnext left

/-- A complaint about a step is the end. -/
theorem fail {complaint : Complaint} (h : ∀ faults, complaint ≠ .invalid faults) :
    EndsAs settings (Program.fail settings complaint) machine
      (staying machine.disk (.error complaint)) :=
  ⟨_, on_fail h machine, rfl, String.append_empty.symm, rfl⟩

/-- A difference is printed and comes to its end. -/
theorem printDiff (diff : EntityDiff) :
    EndsAs settings (Program.printDiff settings diff) machine (.compared diff) :=
  ⟨_, on_printDiff settings diff machine, rfl, rfl, String.append_empty.symm⟩

/-- A store is emitted as it is saved or shown: the difference is printed only once the file has
been written, and a file that cannot be written is complained about. -/
theorem emitStore (store : Store) (diff : EntityDiff) (out : Option String) :
    EndsAs settings (Program.emitStore settings store diff out) machine
      (staying machine.disk (.ok (.updated store diff out))) := by
  cases out with
  | none => exact ⟨_, rfl, rfl, rfl, String.append_empty.symm⟩
  | some path =>
    have hwrite := on_writeStore store path machine
    show EndsAs settings _ machine
      (Finding.afterSaving (.updated store diff (some path)) path (machine.disk.refusal? path))
    -- the file comes first: a refused one is complained about before anything is printed
    cases hrefusal : machine.disk.refusal? path with
    | none =>
      rw [hrefusal] at hwrite
      exact ⟨_, (on_bind_of_ok hwrite _).trans (on_printDiff settings diff _), rfl, rfl,
        String.append_empty.symm⟩
    | some detail =>
      rw [hrefusal] at hwrite
      exact ⟨_, (on_bind_of_ok hwrite _).trans (on_fail (by rintro _ ⟨⟩) machine), rfl,
        String.append_empty.symm, rfl⟩

end EndsAs

/-! ## Commands -/

/-- A comparison, step by step. -/
theorem endsAs_diff (store body entity : String) :
    EndsAs settings (Program.diff settings store body entity) machine
      (staying machine.disk (findDiff machine.disk.files store body entity)) := by
  refine EndsAs.bind (.loadStore store) fun kept left hleft => ?_
  rw [← hleft]
  refine EndsAs.bind (.loadBody body) fun parsed last _ => ?_
  have hstate : comparedState kept entity =
      ⟨(kept.record? entity).getD (Record.new entity), (kept.tree? entity).getD ∅⟩ := rfl
  dsimp only
  rw [hstate]
  generalize EntityState.diff _ parsed = compared
  cases compared with
  | error error => exact .fail (by rintro _ ⟨⟩)
  | ok diff => exact .printDiff diff

/-- A synchronization, step by step. -/
theorem endsAs_sync (store body entity : String) (out : Option String) (verify : Bool) :
    EndsAs settings (Program.sync settings store body entity out verify) machine
      (staying machine.disk (findSync machine.disk.files store body entity out verify)) := by
  rw [findSync, readStore_eq_bind, bind_assoc]
  refine EndsAs.bind (.loadStore store) fun loaded left hleft => ?_
  rw [← hleft]
  refine EndsAs.bind (.loadBody body) fun parsed last _ => ?_
  rw [Session.on_reconcile]
  cases Store.reconcile { loaded with verify := verify } entity parsed with
  | error error => exact .fail (by rintro _ ⟨⟩)
  | ok outcome => exact .of_silent (.debug _) fun _ _ => .emitStore outcome.2 outcome.1 out

/-- A clearing, step by step. -/
theorem endsAs_clear (store entity : String) (out : Option String) :
    EndsAs settings (Program.clear settings store entity out) machine
      (staying machine.disk (findClear machine.disk.files store entity out)) := by
  rw [findClear, readStore_eq_bind, bind_assoc]
  refine EndsAs.bind (.loadStore store) fun loaded left hleft => ?_
  dsimp only
  rw [Session.on_clear]
  show EndsAs settings _ left (staying left.disk
    (orRefused .clear (Store.clear { loaded with verify := true } entity) >>= _))
  cases Store.clear { loaded with verify := true } entity with
  | error error => exact .fail (by rintro _ ⟨⟩)
  | ok outcome =>
    obtain ⟨answer, next⟩ := outcome
    cases answer with
    | none => exact .fail (by rintro _ ⟨⟩)
    | some diff => exact .of_silent (.debug _) fun _ _ => .emitStore next diff out

/-- An inspection, step by step: the exit comes after the reports. -/
theorem endsAs_check (store : String) :
    EndsAs settings (Program.check settings store) machine
      (staying machine.disk (findCheck machine.disk.files store)) := by
  refine EndsAs.bind (.loadStore store) fun kept left _ => ?_
  have hprint := on_printReports settings kept.inspectAll left
  refine ⟨left.print (Finding.reportsText settings kept.inspectAll),
    (on_bind_of_ok hprint _).trans ?_, rfl, rfl, String.append_empty.symm⟩
  show _ = (if kept.inspectAll.all (·.isConsistent) then _ else _, _)
  cases kept.inspectAll.all (·.isConsistent) with
  | true => rfl
  | false => rfl

/-- A validation, step by step. -/
theorem endsAs_validate (store : String) :
    EndsAs settings (Program.validate settings store) machine
      (staying machine.disk (findValidate machine.disk.files store)) := by
  refine EndsAs.bind (.readJson store) fun document left _ => ?_
  cases hfaults : Schema.storeDocument.faults [] document with
  | nil => exact ⟨_, on_printValid settings left, rfl, rfl, String.append_empty.symm⟩
  | cons fault rest =>
    have hreport := on_reportFaults settings (fault :: rest) left
    exact ⟨_, on_bind_of_ok hreport _, rfl, String.append_empty.symm, rfl⟩

/-- **The program of a command** ends as the finding that stays. -/
theorem endsAs_program (settings : Settings) (command : Command) (disk : Disk) :
    EndsAs settings (command.program settings) (.start disk) (command.stays disk) := by
  rw [stays_eq]
  cases command with
  | diff store body entity => exact endsAs_diff store body entity
  | sync store body entity out verify => exact endsAs_sync store body entity out verify
  | clear store entity out => exact endsAs_clear store entity out
  | check store => exact endsAs_check store
  | validate store => exact endsAs_validate store

/-- The exit code of a command, and the machine that its program leaves. -/
theorem Command.execute_eq {finding : Finding} {left : Machine} {command : Command} {disk : Disk}
    (h : (command.program settings).on (.start disk) =
      (if finding.succeeds then .ok () else .error 1, left)) :
    command.execute settings disk = (if finding.succeeds then 0 else 1, left) := by
  have hrun : (command.program settings : Program (StateM Machine) Unit).run.run (.start disk) =
      (if finding.succeeds then .ok () else .error 1, left) := h
  unfold execute exitCode
  rw [StateT.run_bind, hrun]
  cases finding.succeeds with
  | true => rfl
  | false => rfl

/-- **Commands step by step and as a whole.**  Carried out step by step, a command exits with the
same code, prints and reports the same texts and leaves the same disk as it does as a whole. -/
theorem Command.execute_eq_run (settings : Settings) (command : Command) (disk : Disk) :
    (command.execute settings disk).1 = (command.run settings disk).1.exitCode ∧
      (command.execute settings disk).2.stdout = (command.run settings disk).1.shown ∧
      (command.execute settings disk).2.stderr =
        (command.run settings disk).1.complaintText settings ∧
      (command.execute settings disk).2.disk = (command.run settings disk).2 := by
  obtain ⟨left, hon, hturns⟩ := endsAs_program settings command disk
  rw [execute_eq hon, run_eq]
  refine ⟨rfl, ?_, ?_, hturns.disk⟩
  · rw [hturns.stdout]
    exact String.empty_append
  · rw [hturns.stderr]
    exact String.empty_append

end Cli

end ScriptStore
