import RustZero.LogRecovery

/-!
# The byte counter of a rotating log

`bytes_written` of `core/src/log.rs` beside the length of the active file, under size rotation and
with failures anywhere.  Three places write the counter: a rotation that succeeds, a record that
is written whole, and nothing else.

* `Changes` says what a program over files may do to the directory, whether it fails or not.
* `Tears` and `Restarts` are the two failures that change the file and not the counter.
* `counter_exact`: in a run without them the counter is exact, and each of them makes it wrong.
-/

namespace RustZero.Log

open Lib Lib.Files

/-! ## What programs change -/

/-- Whether the program fails or not, it changes the directory only so. -/
structure Changes {α : Type} (allowed : Directory → Directory → Prop) (program : FileProgram α) :
    Prop where
  ok : ∀ disk a later, program.run disk = .ok a later → allowed disk.directory later.directory
  error : ∀ disk error later, program.run disk = .error error later →
    allowed disk.directory later.directory

section Changes

variable {α β : Type} {allowed : Directory → Directory → Prop} {active path target : String}

theorem Changes.pure (refl : ∀ directory, allowed directory directory) (a : α) :
    Changes allowed (pure a : FileProgram α) := by
  refine ⟨?_, ?_⟩
  · intro disk result later ran
    cases ran
    exact refl _
  · intro disk error later ran
    cases ran

theorem Changes.bind (trans : ∀ first second third, allowed first second → allowed second third →
      allowed first third) {program : FileProgram α} {next : α → FileProgram β}
    (changes : Changes allowed program) (further : ∀ a, Changes allowed (next a)) :
    Changes allowed (program >>= next) := by
  refine ⟨?_, ?_⟩
  · intro disk result later ran
    obtain ⟨a, mid, first, second⟩ := of_run_bind_ok ran
    exact trans _ _ _ (changes.ok _ _ _ first) ((further a).ok _ _ _ second)
  · intro disk error later ran
    rw [EStateM.run_bind] at ran
    split at ran
    · rename_i a mid first
      exact trans _ _ _ (changes.ok _ _ _ first) ((further a).error _ _ _ ran)
    · rename_i failure mid first
      cases ran
      exact changes.error _ _ _ first

/-- An operation may do what its effect does, and what it leaves behind. -/
theorem Changes.of_effects (refl : ∀ directory, allowed directory directory)
    {effect : Directory → Except FileError (α × Directory)} {torn : Nat → Directory → Directory}
    (whole : ∀ directory a later, effect directory = .ok (a, later) → allowed directory later)
    (part : ∀ written directory, allowed directory (torn written directory)) :
    Changes allowed (operation effect torn) := by
  refine ⟨?_, ?_⟩
  · intro disk a later ran
    exact whole _ _ _ (operation_ok ran)
  · intro disk error later ran
    rcases operation_error ran with same | ⟨written, same⟩
    · rw [same]
      exact refl _
    · rw [same]
      exact part written _

/-! ## The active file -/

/-- The file reads as before. -/
def Untouched (active : String) (before later : Directory) : Prop :=
  later[active]? = before[active]?

/-- The file reads as before, or is gone. -/
def KeptOrGone (active : String) (before later : Directory) : Prop :=
  later[active]? = before[active]? ∨ later[active]? = none

theorem KeptOrGone.refl (directory : Directory) : KeptOrGone active directory directory :=
  .inl rfl

theorem KeptOrGone.trans {first second third : Directory}
    (before : KeptOrGone active first second) (later : KeptOrGone active second third) :
    KeptOrGone active first third := by
  rcases later with same | gone
  · rcases before with same' | gone'
    · exact .inl (same.trans same')
    · exact .inr (same.trans gone')
  · exact .inr gone

/-- A file that is gone is not made again. -/
theorem KeptOrGone.gone {before later : Directory} (kept : KeptOrGone active before later)
    (gone : before[active]? = none) : later[active]? = none := by
  rcases kept with same | none
  · exact same.trans gone
  · exact none

theorem keptOrGone_insert {directory : Directory} {content : Bytes} (differs : path ≠ active) :
    KeptOrGone active directory (directory.insert path content) :=
  .inl (by rw [get_insert, if_neg differs])

theorem keptOrGone_erase (directory : Directory) :
    KeptOrGone active directory (directory.erase path) := by
  rw [KeptOrGone, get_erase]
  split
  · exact .inr rfl
  · exact .inl rfl

/-- An operation that leaves nothing behind when it fails. -/
theorem Changes.of_effect {effect : Directory → Except FileError (α × Directory)}
    (whole : ∀ directory a later, effect directory = .ok (a, later) →
      KeptOrGone active directory later) :
    Changes (KeptOrGone active) (operation effect untouched) :=
  .of_effects KeptOrGone.refl whole fun _ => KeptOrGone.refl

theorem fileExists_changes (path : String) : Changes (KeptOrGone active) (fileExists path) := by
  refine ⟨?_, ?_⟩
  · intro disk a later ran
    cases ran
    exact .refl _
  · intro disk error later ran
    cases ran

theorem removeFile_changes (path : String) : Changes (KeptOrGone active) (removeFile path) := by
  refine .of_effect ?_
  intro directory _ later done
  split at done
  · cases done
  · cases done
    exact keptOrGone_erase directory

theorem openFile_changes (path : String) : Changes (KeptOrGone active) (openFile path) := by
  refine .of_effect ?_
  intro directory content later done
  split at done
  · cases done
  · cases done
    exact .refl directory

theorem createFile_changes (differs : path ≠ active) :
    Changes (KeptOrGone active) (createFile path) := by
  refine .of_effect ?_
  intro directory _ later done
  cases done
  exact keptOrGone_insert differs

theorem fillFile_changes (differs : path ≠ active) (bytes : Bytes) :
    Changes (KeptOrGone active) (fillFile path bytes) := by
  refine .of_effects KeptOrGone.refl ?_ ?_
  · intro directory _ later done
    cases done
    exact keptOrGone_insert differs
  · intro written directory
    exact keptOrGone_insert differs

theorem rename_changes (differs : target ≠ active) :
    Changes (KeptOrGone active) (rename path target) := by
  refine .of_effect ?_
  intro directory _ later done
  split at done
  · cases done
  · cases done
    exact (keptOrGone_erase directory).trans (keptOrGone_insert differs)

theorem Changes.then {program : FileProgram α} {next : α → FileProgram β}
    (changes : Changes (KeptOrGone active) program)
    (further : ∀ a, Changes (KeptOrGone active) (next a)) :
    Changes (KeptOrGone active) (program >>= next) := by
  refine changes.bind ?_ further
  intro first second third before later
  exact before.trans later

theorem Changes.nothing (a : α) : Changes (KeptOrGone active) (Pure.pure a : FileProgram α) :=
  .pure KeptOrGone.refl a

theorem removeExisting_changes (path : String) :
    Changes (KeptOrGone active) (removeExisting path) := by
  refine (fileExists_changes path).then ?_
  intro present
  cases present with
  | false => exact .nothing ()
  | true => exact removeFile_changes path

theorem removeBackup_changes (path : String) : Changes (KeptOrGone active) (removeBackup path) :=
  (removeExisting_changes path).then fun _ => removeExisting_changes (gzipPath path)

theorem existingBackup_changes (path : String) :
    Changes (KeptOrGone active) (existingBackup path) := by
  refine (fileExists_changes path).then ?_
  intro present
  cases present with
  | true => exact .nothing _
  | false =>
      refine (fileExists_changes (gzipPath path)).then ?_
      intro compressed
      cases compressed with
      | true => exact .nothing _
      | false => exact .nothing _

theorem shiftBackup_changes (active : String) (index : Nat) :
    Changes (KeptOrGone active) (shiftBackup active index) := by
  refine (existingBackup_changes _).then ?_
  intro found
  cases found with
  | none => exact .nothing ()
  | some source =>
      apply rename_changes
      split
      · exact gzip_backupPath_ne_active active (index + 1)
      · exact backupPath_ne_active active (index + 1)

theorem shiftBackups_changes (active : String) (count : Nat) :
    Changes (KeptOrGone active) (shiftBackups active count) := by
  induction count with
  | zero => exact .nothing ()
  | succ count ih => exact (shiftBackup_changes active (count + 1)).then fun _ => ih

theorem compressFile_changes (gzip : Gzip) (path : String) (differs : gzipPath path ≠ active) :
    Changes (KeptOrGone active) (compressFile gzip path) :=
  (openFile_changes path).then fun input =>
    (createFile_changes differs).then fun _ =>
      (fillFile_changes differs (gzip.encode input)).then fun _ => removeFile_changes path

end Changes

/-! ## Moving the active file away -/

section Moving

variable {gzip : Gzip} {active backup serviceName : String} {disk later : Disk}

/-- A backup is another file than the active one, and so is its archive. -/
structure Apart (active backup : String) : Prop where
  plain : backup ≠ active
  compressed : gzipPath backup ≠ active

theorem apart_backupPath (active : String) (index : Nat) :
    Apart active (backupPath active index) :=
  ⟨backupPath_ne_active active index, gzip_backupPath_ne_active active index⟩

theorem apart_nanos (serviceName : String) (nanos : Nat) :
    Apart (serviceName ++ ".log") (serviceName ++ "." ++ toString nanos ++ ".log") := by
  have dot : ".".length = 1 := rfl
  have log : ".log".length = 4 := rfl
  refine ⟨?_, ?_⟩
  · intro same
    have longer := congrArg String.length same
    simp only [String.length_append] at longer
    omega
  · intro same
    have longer := congrArg String.length same
    simp only [gzipPath, String.length_append] at longer
    omega

theorem retireActive_changes (apart : Apart active backup) (compressRotated : Bool) :
    Changes (KeptOrGone active) (retireActive gzip compressRotated active backup) := by
  refine (rename_changes apart.plain).then ?_
  intro _
  cases compressRotated with
  | false => exact .nothing ()
  | true => exact compressFile_changes gzip backup apart.compressed

/-- An active file that was retired is gone. -/
theorem retireActive_gone (apart : Apart active backup) {compressRotated : Bool}
    (ran : (retireActive gzip compressRotated active backup).run disk = .ok () later) :
    later.directory[active]? = none := by
  obtain ⟨_, mid, renamed, ran⟩ := of_run_bind_ok ran
  have gone : mid.directory[active]? = none := by
    have moved := operation_ok renamed
    split at moved
    · cases moved
    · have same := (Prod.mk.inj (Except.ok.inj moved)).2
      rw [← same, get_insert, if_neg apart.plain, get_erase, if_pos rfl]
  have rest : Changes (KeptOrGone active)
      (if compressRotated then compressFile gzip backup else pure () : FileProgram Unit) := by
    cases compressRotated with
    | false => exact .nothing ()
    | true => exact compressFile_changes gzip backup apart.compressed
  exact (rest.ok _ _ _ ran).gone gone

theorem moveFiles_changes (gzip : Gzip) (serviceName : String) (compressRotated : Bool)
    (nanos maxBackups : Nat) : Changes (KeptOrGone (serviceName ++ ".log"))
      (moveFiles gzip compressRotated serviceName (serviceName ++ ".log") nanos maxBackups) := by
  unfold moveFiles
  split
  case isTrue => exact retireActive_changes (apart_nanos serviceName nanos) compressRotated
  case isFalse =>
    refine (removeBackup_changes _).then fun _ => (shiftBackups_changes _ _).then fun _ =>
      (fileExists_changes _).then ?_
    intro present
    cases present with
    | false => exact .nothing ()
    | true => exact retireActive_changes (apart_backupPath _ 1) compressRotated

/-- Once the files have been moved there is no active file. -/
theorem moveFiles_gone {compressRotated : Bool} {nanos maxBackups : Nat}
    (ran : (moveFiles gzip compressRotated serviceName (serviceName ++ ".log") nanos
      maxBackups).run disk = .ok () later) : later.directory[serviceName ++ ".log"]? = none := by
  unfold moveFiles at ran
  split at ran
  case isTrue => exact retireActive_gone (apart_nanos serviceName nanos) ran
  case isFalse =>
    obtain ⟨_, cleared, _, ran⟩ := of_run_bind_ok ran
    obtain ⟨_, shifted, _, ran⟩ := of_run_bind_ok ran
    obtain ⟨present, mid, looked, ran⟩ := of_run_bind_ok ran
    cases looked
    split at ran
    case isTrue => exact retireActive_gone (apart_backupPath _ 1) ran
    case isFalse absent =>
      cases ran
      exact not_contains_iff_get.mp (Bool.of_not_eq_true absent)

end Moving

/-! ## The counter -/

/-- While a file is open the counter is the length of the active file. -/
def CounterExact (state : LogState) : Prop :=
  state.self.file ≠ none → ∃ content, state.disk.directory[state.self.activePath]? = some content ∧
    state.self.bytesWritten = content.length

/-- The record is written in part. -/
def Tears (gzip : Gzip) (state : LogState) (write : Moment × Bytes) : Prop :=
  ∃ ready written fates, (rotateIfDue gzip write.1 write.2).run state = .ok () ready ∧
    ready.self.file ≠ none ∧ ready.disk.fates = .fails written :: fates ∧
      write.2.take written ≠ []

/-- A rotation fails when the active file has been moved away, and the file that is opened instead
is a new one. -/
def Restarts (gzip : Gzip) (state : LogState) (write : Moment × Bytes) : Prop :=
  rotationDue state.self write.1 write.2 = true ∧ ∃ error failed disk,
    (rotate gzip write.1).run state = .error error failed ∧
      failed.self.activePath ∉ failed.disk.directory ∧
        (appendFile failed.self.activePath).run failed.disk = .ok () disk

/-- What every call keeps: the file by its name, and the counter of what is at the active path. -/
structure Counted (state : LogState) : Prop where
  size : ∃ maxBytes maxBackups, state.self.rotation = .size maxBytes maxBackups
  named : state.self.activePath = state.self.serviceName ++ ".log"
  opened : ∀ file, state.self.file = some file →
    file = state.self.activePath ∧ state.self.activePath ∈ state.disk.directory
  exact : ∀ content, state.disk.directory[state.self.activePath]? = some content →
    state.self.bytesWritten = content.length

theorem Counted.counterExact {state : LogState} (counted : Counted state) : CounterExact state := by
  intro opened
  obtain ⟨file, isOpen⟩ := Option.ne_none_iff_exists'.mp opened
  obtain ⟨content, found⟩ := mem_iff_get.mp (counted.opened file isOpen).2
  exact ⟨content, found, counted.exact content found⟩

section Calls

variable {gzip : Gzip} {self : RotatingFile} {disk later : Disk} {moment : Moment}

theorem appendFile_ok {path : String} (ran : (appendFile path).run disk = .ok () later) :
    later.directory = disk.directory.insertIfNew path [] :=
  (Prod.mk.inj (Except.ok.inj (operation_ok ran))).2.symm

theorem appendFile_error {path : String} {error : FileError}
    (ran : (appendFile path).run disk = .error error later) : later.directory = disk.directory := by
  rcases operation_error ran with same | ⟨_, same⟩
  · exact same
  · exact same

/-- What a rotation by size can come to. -/
inductive Rotated (self : RotatingFile) (disk : Disk) :
    EStateM.Result FileError LogState Unit → Prop
  | done {later : Disk} (fresh : later.directory[self.activePath]? = some []) :
      Rotated self disk
        (.ok () ⟨{ self with file := some self.activePath, bytesWritten := 0 }, later⟩)
  | failed {later : Disk} (error : FileError)
      (kept : KeptOrGone self.activePath disk.directory later.directory) :
      Rotated self disk (.error error ⟨{ self with file := none }, later⟩)

theorem rotate_rotated (gzip : Gzip) (moment : Moment) {maxBytes maxBackups : Nat}
    (size : self.rotation = .size maxBytes maxBackups)
    (named : self.activePath = self.serviceName ++ ".log") (disk : Disk) :
    Rotated self disk ((rotate gzip moment).run ⟨self, disk⟩) := by
  have changes := moveFiles_changes gzip self.serviceName self.compressRotated moment.nanos
    maxBackups
  rw [rotate, run_bind_ok _ (run_getSelf _ _)]
  simp only [size]
  rw [rotateSize, run_bind_ok _ (run_getSelf _ _)]
  simp only [size]
  rw [run_bind_ok _ (run_modifySelf _ _ _)]
  rw [← named] at changes
  cases moved : (moveFiles gzip self.compressRotated self.serviceName self.activePath
      moment.nanos maxBackups).run disk with
  | error error mid =>
      rw [run_bind_error _ (run_onDisk_error moved)]
      exact .failed error (changes.error _ _ _ moved)
  | ok _ mid =>
      rw [run_bind_ok _ (run_onDisk_ok moved)]
      cases opened : (appendFile self.activePath).run mid with
      | error error later =>
          rw [run_bind_error _ (run_onDisk_error opened)]
          refine .failed error ?_
          rw [appendFile_error opened]
          exact changes.ok _ _ _ moved
      | ok _ later =>
          rw [run_bind_ok _ (run_onDisk_ok opened), run_modifySelf]
          have gone : mid.directory[self.activePath]? = none := by
            rw [named] at moved ⊢
            exact moveFiles_gone moved
          refine .done ?_
          rw [appendFile_ok opened, get_insertIfNew, if_pos rfl, gone]
          rfl

/-- Opening the active file again, after a failed rotation. -/
theorem reopenActive_run (self : RotatingFile) (disk : Disk) :
    (∃ opened, (appendFile self.activePath).run disk = .ok () opened ∧
      reopenActive.run ⟨{ self with file := none }, disk⟩ =
        .ok () ⟨{ self with file := some self.activePath }, opened⟩) ∨
    ∃ error closed, (appendFile self.activePath).run disk = .error error closed ∧
      reopenActive.run ⟨{ self with file := none }, disk⟩ =
        .ok () ⟨{ self with file := none }, closed⟩ := by
  rw [reopenActive, run_bind_ok _ (run_getSelf _ _), if_pos rfl]
  cases opened : (appendFile self.activePath).run disk with
  | ok _ mid =>
      refine .inl ⟨mid, rfl, tryCatch_ok ?_⟩
      rw [run_bind_ok _ (run_onDisk_ok opened), run_modifySelf]
  | error error mid =>
      refine .inr ⟨error, mid, rfl, ?_⟩
      rw [EStateM.run_tryCatch, run_bind_error _ (run_onDisk_error opened)]
      rfl

/-- The next operation fails after some of the bytes. -/
def TornNext (disk : Disk) (bytes : Bytes) : Prop :=
  ∃ written fates, disk.fates = .fails written :: fates ∧ bytes.take written ≠ []

/-- What becomes of an append. -/
theorem appendBytes_run (path : String) (bytes : Bytes) (disk : Disk) :
    (∃ later, (appendBytes path bytes).run disk = .ok () later ∧ ¬TornNext disk bytes ∧
      later.directory = disk.directory.modify path (· ++ bytes)) ∨
    ∃ error later written, (appendBytes path bytes).run disk = .error error later ∧
      (TornNext disk bytes ↔ bytes.take written ≠ []) ∧
        later.directory = disk.directory.modify path (· ++ bytes.take written) := by
  obtain ⟨directory, fates⟩ := disk
  cases fates with
  | nil =>
      refine .inl ⟨_, rfl, ?_, rfl⟩
      intro torn
      obtain ⟨written, fates, same, _⟩ := torn
      cases same
  | cons fate fates =>
      cases fate with
      | succeeds =>
          refine .inl ⟨_, rfl, ?_, rfl⟩
          intro torn
          obtain ⟨written, fates, same, _⟩ := torn
          cases same
      | fails written =>
          refine .inr ⟨_, _, written, rfl, ?_, rfl⟩
          constructor
          · intro torn
            obtain ⟨written', fates', same, some⟩ := torn
            cases same
            exact some
          · intro some
            exact ⟨written, fates, rfl, some⟩

/-- A record is counted exactly if it is not written in part. -/
theorem appendRecord_counted {ready : LogState} (bytes : Bytes) (counted : Counted ready)
    (opened : ready.self.file ≠ none) :
    (¬TornNext ready.disk bytes → Counted (after ((appendRecord bytes).run ready))) ∧
      (CounterExact (after ((appendRecord bytes).run ready)) → ¬TornNext ready.disk bytes) := by
  obtain ⟨self, disk⟩ := ready
  obtain ⟨file, isOpen⟩ := Option.ne_none_iff_exists'.mp opened
  obtain ⟨rfl, present⟩ := counted.opened file isOpen
  obtain ⟨content, found⟩ := mem_iff_get.mp present
  have length := counted.exact content found
  dsimp only at isOpen present found length
  rw [appendRecord, run_bind_ok _ (run_getSelf _ _)]
  simp only [isOpen]
  rcases appendBytes_run self.activePath bytes disk with
    ⟨later, ran, whole, same⟩ | ⟨error, later, written, ran, torn, same⟩
  · have reads : later.directory[self.activePath]? = some (content ++ bytes) := by
      rw [same, get_modify, if_pos rfl, found]
      rfl
    rw [run_bind_ok _ (run_onDisk_ok ran), run_modifySelf]
    refine ⟨?_, fun _ => whole⟩
    intro _
    refine ⟨counted.size, counted.named, ?_, ?_⟩
    · intro file same
      cases isOpen.symm.trans same
      exact ⟨rfl, mem_iff_get.mpr ⟨_, reads⟩⟩
    · intro other there
      cases reads.symm.trans there
      rw [List.length_append, ← length]
      rfl
  · have reads : later.directory[self.activePath]? = some (content ++ bytes.take written) := by
      rw [same, get_modify, if_pos rfl, found]
      rfl
    rw [run_bind_error _ (run_onDisk_error ran), torn]
    refine ⟨?_, ?_⟩
    · intro nothing
      rw [not_not] at nothing
      refine ⟨counted.size, counted.named, ?_, ?_⟩
      · intro file same
        cases isOpen.symm.trans same
        exact ⟨rfl, mem_iff_get.mpr ⟨_, reads⟩⟩
      · intro other there
        cases reads.symm.trans there
        rw [nothing, List.append_nil]
        exact length
    · intro exact_ some
      obtain ⟨other, there, counts⟩ := exact_ opened
      cases reads.symm.trans there
      have longer := List.length_pos_iff.mpr some
      have all : (content ++ bytes.take written).length =
          content.length + (bytes.take written).length := List.length_append
      have before : self.bytesWritten = (content ++ bytes.take written).length := counts
      omega

/-- A call that fails before its record leaves the counter exact, unless it made a new file. -/
theorem reopened_counted {state : LogState} {error : FileError} {failed : Disk}
    {moment : Moment} {bytes : Bytes} (counted : Counted state)
    (due : rotationDue state.self moment bytes = true)
    (ran : (rotate gzip moment).run state =
      .error error ⟨{ state.self with file := none }, failed⟩)
    (kept : KeptOrGone state.self.activePath state.disk.directory failed.directory) :
    (¬Restarts gzip state (moment, bytes) →
      Counted (after ((writeAll gzip moment bytes).run state))) ∧
    (CounterExact (after ((writeAll gzip moment bytes).run state)) →
      ¬Restarts gzip state (moment, bytes)) := by
  obtain ⟨self, disk⟩ := state
  dsimp only at due ran kept
  have exact_ {content : Bytes} (there : failed.directory[self.activePath]? = some content) :
      self.bytesWritten = content.length := by
    rcases kept with same | gone
    · exact counted.exact content (same.symm.trans there)
    · cases gone.symm.trans there
  have restarts : Restarts gzip ⟨self, disk⟩ (moment, bytes) ↔
      failed.directory[self.activePath]? = none ∧
        ∃ opened, (appendFile self.activePath).run failed = .ok () opened := by
    constructor
    · intro restarts
      obtain ⟨_, error', failed', opened, ran', absent, ok⟩ := restarts
      cases ran.symm.trans ran'
      exact ⟨Std.ExtTreeMap.getElem?_eq_none absent, opened, ok⟩
    · intro new
      obtain ⟨absent, opened, ok⟩ := new
      refine ⟨due, error, _, opened, ran, ?_, ok⟩
      intro present
      obtain ⟨content, found⟩ := mem_iff_get.mp present
      cases absent.symm.trans found
  rcases reopenActive_run self failed with
    ⟨opened, ok, reopened⟩ | ⟨closing, closed, failing, reopened⟩
  · have reads : opened.directory[self.activePath]? =
        some (failed.directory[self.activePath]?.getD []) := by
      rw [appendFile_ok ok, get_insertIfNew, if_pos rfl]
    rw [writeAll, run_bind_error _ (rotateIfDue_error due ran reopened), restarts]
    refine ⟨?_, ?_⟩
    · intro old
      cases there : failed.directory[self.activePath]? with
      | none => exact (old ⟨there, opened, ok⟩).elim
      | some content =>
          rw [there] at reads
          refine ⟨counted.size, counted.named, ?_, ?_⟩
          · intro file same
            cases same
            exact ⟨rfl, mem_iff_get.mpr ⟨_, reads⟩⟩
          · intro other found
            cases reads.symm.trans found
            exact exact_ there
    · intro agrees new
      obtain ⟨content, found, counts⟩ := agrees (Option.some_ne_none _)
      rw [new.1] at reads
      cases reads.symm.trans found
      obtain ⟨maxBytes, maxBackups, size⟩ := counted.size
      have some_ : 0 < self.bytesWritten := by
        dsimp only at size
        simp only [rotationDue, size, Bool.and_eq_true, decide_eq_true_eq] at due
        exact due.1
      exact absurd counts some_.ne'
  · rw [writeAll, run_bind_error _ (rotateIfDue_error due ran reopened), restarts]
    refine ⟨?_, ?_⟩
    · intro _
      refine ⟨counted.size, counted.named, ?_, ?_⟩
      · intro file none
        cases none
      · intro content found
        have same : closed.directory = failed.directory := appendFile_error failing
        apply exact_
        rw [← same]
        exact found
    · intro _ new
      obtain ⟨_, opened, ok⟩ := new
      cases failing.symm.trans ok

variable (gzip) in
/-- One call: the counter stays exact unless the record is torn or the file restarts. -/
theorem writeAll_counted {state : LogState} (counted : Counted state) (moment : Moment)
    (bytes : Bytes) :
    (¬Tears gzip state (moment, bytes) ∧ ¬Restarts gzip state (moment, bytes) →
      Counted (after ((writeAll gzip moment bytes).run state))) ∧
    (CounterExact (after ((writeAll gzip moment bytes).run state)) →
      ¬Tears gzip state (moment, bytes) ∧ ¬Restarts gzip state (moment, bytes)) := by
  have written {ready : LogState} (counted : Counted ready)
      (ran : (rotateIfDue gzip moment bytes).run state = .ok () ready)
      (steady : ¬Restarts gzip state (moment, bytes)) :
      (¬Tears gzip state (moment, bytes) ∧ ¬Restarts gzip state (moment, bytes) →
        Counted (after ((writeAll gzip moment bytes).run state))) ∧
      (CounterExact (after ((writeAll gzip moment bytes).run state)) →
        ¬Tears gzip state (moment, bytes) ∧ ¬Restarts gzip state (moment, bytes)) := by
    have tears : Tears gzip state (moment, bytes) ↔
        ready.self.file ≠ none ∧ TornNext ready.disk bytes := by
      constructor
      · intro tears
        obtain ⟨ready', written, fates, ran', opened, next, some⟩ := tears
        cases ran.symm.trans ran'
        exact ⟨opened, written, fates, next, some⟩
      · intro torn
        obtain ⟨opened, written, fates, next, some⟩ := torn
        exact ⟨ready, written, fates, ran, opened, next, some⟩
    rw [writeAll, run_bind_ok _ ran, tears]
    by_cases opened : ready.self.file ≠ none
    · have appended := appendRecord_counted bytes counted opened
      refine ⟨fun whole => appended.1 fun torn => whole.1 ⟨opened, torn⟩, fun exact_ => ?_⟩
      exact ⟨fun torn => appended.2 exact_ torn.2, steady⟩
    · have unchanged : (appendRecord bytes).run ready = .error .notConnected ready := by
        rw [appendRecord, run_bind_ok _ (run_getSelf ready.self ready.disk), not_not.mp opened]
        rfl
      rw [unchanged]
      exact ⟨fun _ => counted, fun _ => ⟨fun torn => opened torn.1, steady⟩⟩
  obtain ⟨self, disk⟩ := state
  cases due : rotationDue self moment bytes with
  | false =>
      refine written counted (rotateIfDue_skip gzip disk due) ?_
      intro restarts
      cases due.symm.trans restarts.1
  | true =>
      obtain ⟨maxBytes, maxBackups, size⟩ := counted.size
      have rotated := rotate_rotated gzip moment size counted.named disk
      generalize ran : (rotate gzip moment).run ⟨self, disk⟩ = result at rotated
      cases rotated with
      | @done later fresh =>
          have restarted : Counted
              ⟨{ self with file := some self.activePath, bytesWritten := 0 }, later⟩ := by
            refine ⟨counted.size, counted.named, ?_, ?_⟩
            · intro file same
              cases same
              exact ⟨rfl, mem_iff_get.mpr ⟨_, fresh⟩⟩
            · intro content found
              cases fresh.symm.trans found
              rfl
          refine written restarted (rotateIfDue_ok due ran) ?_
          intro restarts
          obtain ⟨_, error, failed, opened, ran', _⟩ := restarts
          cases ran.symm.trans ran'
      | failed error kept =>
          have reopened := reopened_counted counted due ran kept
          have whole : ¬Tears gzip ⟨self, disk⟩ (moment, bytes) := by
            intro tears
            obtain ⟨ready, _, _, ran', _⟩ := tears
            obtain ⟨again, back⟩ : ∃ again, (rotateIfDue gzip moment bytes).run ⟨self, disk⟩ =
                .error error again := by
              rcases reopenActive_run self _ with ⟨_, _, back⟩ | ⟨_, _, _, back⟩
              · exact ⟨_, rotateIfDue_error due ran back⟩
              · exact ⟨_, rotateIfDue_error due ran back⟩
            cases back.symm.trans ran'
          exact ⟨fun steady => reopened.1 steady.2, fun exact_ => ⟨whole, reopened.2 exact_⟩⟩

theorem new_counted {listing : Listing} {today : Int} {serviceName : String}
    {maxBytes maxBackups : Nat} {retentionDays : Option Nat} {compressRotated : Bool}
    (created : (RotatingFile.new gzip listing today serviceName (.size maxBytes maxBackups)
      retentionDays compressRotated).run disk = .ok self later) : Counted ⟨self, later⟩ := by
  unfold RotatingFile.new at created
  obtain ⟨_, opened, first, created⟩ := of_run_bind_ok created
  obtain ⟨length, measured, second, created⟩ := of_run_bind_ok created
  obtain ⟨rfl, same⟩ := Prod.mk.inj (Except.ok.inj (operation_ok second))
  cases created
  have reads : later.directory[safeFileName serviceName ++ ".log"]? =
      some (disk.directory[safeFileName serviceName ++ ".log"]?.getD []) := by
    rw [← same, appendFile_ok first]
    exact get_insertIfNew.trans (if_pos rfl)
  refine ⟨⟨maxBytes, maxBackups, rfl⟩, rfl, ?_, ?_⟩
  · intro file isOpen
    cases isOpen
    exact ⟨rfl, mem_iff_get.mpr ⟨_, reads⟩⟩
  · intro content found
    dsimp only [logPath] at found ⊢
    rw [same, found]
    rfl

/-- In a run in which no record is written in part and no failed rotation leaves a new file, the
counter is the length of the active file; the next call keeps it so exactly if it is no such
call. -/
theorem counter_exact {listing : Listing} {today : Int} {serviceName : String}
    {maxBytes maxBackups : Nat} {retentionDays : Option Nat} {compressRotated : Bool}
    (created : (RotatingFile.new gzip listing today serviceName (.size maxBytes maxBackups)
      retentionDays compressRotated).run disk = .ok self later) {state : LogState}
    (reach : (logger gzip ⟨self, later⟩).Reach (fun state write =>
      ¬Tears gzip state write ∧ ¬Restarts gzip state write) state) :
    CounterExact state ∧ ∀ write : Moment × Bytes,
      (CounterExact (after ((writeAll gzip write.1 write.2).run state)) ↔
        ¬Tears gzip state write ∧ ¬Restarts gzip state write) := by
  have counted : Counted state := by
    refine reach.invariant (I := Counted) (new_counted created) ?_
    intro before write next counted condition taken
    cases taken
    exact (writeAll_counted gzip counted write.1 write.2).1 condition
  refine ⟨counted.counterExact, ?_⟩
  intro write
  obtain ⟨keeps, breaks⟩ := writeAll_counted gzip counted write.1 write.2
  exact ⟨breaks, fun condition => (keeps condition).counterExact⟩

/-- No record is written in part while nothing is to fail. -/
theorem not_tears {state : LogState} {write : Moment × Bytes}
    (steady : (after ((rotateIfDue gzip write.1 write.2).run state)).disk.fates = []) :
    ¬Tears gzip state write := by
  intro tears
  obtain ⟨ready, written, fates, ran, _, next, _⟩ := tears
  rw [ran] at steady
  cases steady.symm.trans next

theorem not_restarts {state : LogState} {write : Moment × Bytes}
    (early : rotationDue state.self write.1 write.2 = false) : ¬Restarts gzip state write := by
  intro restarts
  cases early.symm.trans restarts.1

end Calls

/-! ## The small log -/

/-- What the counter and the file say. -/
def LogState.lengths (state : LogState) : Option String × Nat × Option Nat :=
  (state.self.file, state.self.bytesWritten,
    state.disk.directory[state.self.activePath]?.map List.length)

/-- Whether the first record rotates the small log, and what is to become of the operations from
there on. -/
def smallLogFirst (disk : Disk) (write : Moment × Bytes) : Option (Bool × List Fate) :=
  match smallLog disk with
  | .ok self disk =>
      some (rotationDue self write.1 write.2,
        (after ((rotateIfDue lineGzip write.1 write.2).run ⟨self, disk⟩)).disk.fates)
  | .error _ _ => none

theorem smallLog_counts : ∃ self disk state, smallLog ⟨∅, []⟩ = .ok self disk ∧
    (logger lineGzip ⟨self, disk⟩).Reach (fun state write =>
      ¬Tears lineGzip state write ∧ ¬Restarts lineGzip state write) state ∧
    state.lengths = (some "log.log", 8, some 8) ∧ CounterExact state := by
  have run : (runSmallLog ⟨∅, []⟩ [(dayZero, List.replicate 8 0)]).map LogState.lengths =
      some (some "log.log", 8, some 8) := by
    decide +kernel
  have first : smallLogFirst ⟨∅, []⟩ (dayZero, List.replicate 8 0) = some (false, []) := by
    decide +kernel
  rw [runSmallLog] at run
  rw [smallLogFirst] at first
  cases created : smallLog ⟨∅, []⟩ with
  | error error disk =>
      rw [created] at run
      cases run
  | ok self disk =>
      rw [created] at run first
      obtain ⟨state, executed, lengths⟩ := Option.map_eq_some_iff.mp run
      obtain ⟨early, steady⟩ := Prod.mk.inj (Option.some.inj first)
      have whole : (logger lineGzip ⟨self, disk⟩).Meets
          (fun state write => ¬Tears lineGzip state write ∧ ¬Restarts lineGzip state write)
          ⟨self, disk⟩ [(dayZero, List.replicate 8 0)] :=
        ⟨⟨not_tears steady, not_restarts early⟩, trivial⟩
      have reach := Lts.reach_of_exec _ whole executed
      exact ⟨self, disk, state, rfl, reach, lengths, (counter_exact created reach).1⟩

/-- A run of the small log that ends with the counter beside the file. -/
theorem miscounted {disk : Disk} {records : List (Moment × Bytes)} {file : String}
    {counter length : Nat} (differ : counter ≠ length)
    (run : (runSmallLog disk records).map LogState.lengths =
      some (some file, counter, some length)) :
    ¬∀ (disk' : Disk) (self : RotatingFile) (state : LogState), smallLog disk = .ok self disk' →
      (logger lineGzip ⟨self, disk'⟩).Reachable state → CounterExact state := by
  intro exact_
  rw [runSmallLog] at run
  cases created : smallLog disk with
  | error error disk =>
      rw [created] at run
      cases run
  | ok self disk' =>
      rw [created] at run
      obtain ⟨state, executed, lengths⟩ := Option.map_eq_some_iff.mp run
      obtain ⟨opened, lengths⟩ := Prod.mk.inj lengths
      obtain ⟨counts, there⟩ := Prod.mk.inj lengths
      obtain ⟨content, found, same⟩ :=
        exact_ disk' self state created (Lts.reachable_of_exec _ executed) (by simp [opened])
      rw [found] at there
      cases there
      exact differ (counts.symm.trans same)

/-- The first record is cut after three bytes, and the counter says that the file is empty. -/
theorem torn_miscounts : ¬∀ (disk : Disk) (self : RotatingFile) (state : LogState),
    smallLog ⟨∅, [.succeeds, .succeeds, .fails 3]⟩ = .ok self disk →
      (logger lineGzip ⟨self, disk⟩).Reachable state → CounterExact state := by
  have run : (runSmallLog ⟨∅, [.succeeds, .succeeds, .fails 3]⟩
      [(dayZero, List.replicate 8 0)]).map LogState.lengths =
        some (some "log.log", 0, some 3) := by
    decide +kernel
  exact miscounted (by decide) run

/-- The rotation fails once the active file has been renamed: the new one is empty, and counts as
eight bytes. -/
theorem restart_miscounts : ¬∀ (disk : Disk) (self : RotatingFile) (state : LogState),
    smallLog ⟨∅, [.succeeds, .succeeds, .succeeds, .succeeds, .fails 0]⟩ = .ok self disk →
      (logger lineGzip ⟨self, disk⟩).Reachable state → CounterExact state := by
  have run : (runSmallLog ⟨∅, [.succeeds, .succeeds, .succeeds, .succeeds, .fails 0]⟩
      [(dayZero, List.replicate 8 0), (dayZero, List.replicate 4 0)]).map LogState.lengths =
        some (some "log.log", 8, some 0) := by
    decide +kernel
  exact miscounted (by decide) run

end RustZero.Log
