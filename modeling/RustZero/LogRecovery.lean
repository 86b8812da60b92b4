import RustZero.Lib.Lts
import RustZero.LogSizeRotation
import RustZero.LogDailyRotation

/-!
# The rotating log after failures

What becomes of a rotating file once the disk is reliable again.  A rotation closes the
active file first; when it fails, `reopen_active` opens the file again, and its own
failure goes unnoticed.  A closed file is opened by the next rotation alone.

* `failures` counts the calls of a sequence that return an error, and `Recovers` says that
  there is at most one, whatever is written from here on.
* `Recoverable` is when they are: the file is open, or every call rotates.
* `logger` is a rotating file over a whole run, and `Reopens` says of one call that a
  failed rotation does not leave the file closed.
-/

namespace RustZero.Log

open Lib Lib.Files

/-- The state after a program, whether it failed or not. -/
def after {σ α : Type} (result : EStateM.Result FileError σ α) : σ :=
  match result with
  | .ok _ state => state
  | .error _ state => state

/-- The calls of `write_all` that return an error; the caller goes on writing. -/
def failures (gzip : Gzip) : LogState → List (Moment × Bytes) → Nat
  | _, [] => 0
  | state, (moment, bytes) :: writes =>
      match (writeAll gzip moment bytes).run state with
      | .ok _ later => failures gzip later writes
      | .error _ later => failures gzip later writes + 1

/-- At most one further call returns an error. -/
def Recovers (gzip : Gzip) (state : LogState) : Prop :=
  ∀ writes, failures gzip state writes ≤ 1

/-- The file is open, or the active file counts as too long for any record. -/
def Recoverable (self : RotatingFile) : Prop :=
  self.file ≠ none ∨
    ∃ maxBytes maxBackups, self.rotation = .size maxBytes maxBackups ∧
      0 < self.bytesWritten ∧ maxBytes < self.bytesWritten

section Reliable

variable {gzip : Gzip} {directory : Directory}

/-! ## Moving files on a reliable disk -/

/-- The program succeeds. -/
def Succeeds (program : FileProgram Unit) (directory : Directory) : Prop :=
  ∃ later, program.run (reliable directory) = .ok () (reliable later)

theorem Succeeds.bind {first second : FileProgram Unit} (done : Succeeds first directory)
    (next : ∀ later, Succeeds second later) :
    Succeeds (first >>= fun _ => second) directory := by
  obtain ⟨mid, ran⟩ := done
  obtain ⟨later, ranNext⟩ := next mid
  exact ⟨later, (run_bind_ok _ ran).trans ranNext⟩

theorem removeExisting_succeeds (path : String) (directory : Directory) :
    Succeeds (removeExisting path) directory :=
  ⟨_, removeExisting_reliable path directory⟩

theorem retireActive_succeeds {activePath : String} (present : activePath ∈ directory)
    (compressRotated : Bool) (backup : String) :
    Succeeds (retireActive gzip compressRotated activePath backup) directory := by
  obtain ⟨content, found⟩ := mem_iff_get.mp present
  have renamed := rename_reliable backup found
  cases compressRotated with
  | false => exact ⟨_, run_bind_ok _ renamed⟩
  | true =>
      have moved : ((directory.erase activePath).insert backup content)[backup]? =
          some content := by
        simp
      exact ⟨_, (run_bind_ok _ renamed).trans (compressFile_reliable moved)⟩

theorem shiftBackup_succeeds (activePath : String) (index : Nat) (directory : Directory) :
    Succeeds (shiftBackup activePath index) directory := by
  have looked := existingBackup_reliable (backupPath activePath index) directory
  rw [Succeeds, shiftBackup, run_bind_ok _ looked]
  split
  case h_1 => exact ⟨directory, rfl⟩
  case h_2 source found =>
    have present : source ∈ directory := by
      rw [← Std.ExtTreeMap.contains_iff_mem]
      split at found
      · rename_i plain
        cases found
        exact plain
      · split at found
        · rename_i zipped
          cases found
          exact zipped
        · cases found
    obtain ⟨content, held⟩ := mem_iff_get.mp present
    exact ⟨_, rename_reliable _ held⟩

theorem shiftBackups_succeeds (activePath : String) (count : Nat) (directory : Directory) :
    Succeeds (shiftBackups activePath count) directory := by
  induction count generalizing directory with
  | zero => exact ⟨directory, rfl⟩
  | succ count ih => exact (shiftBackup_succeeds activePath (count + 1) directory).bind ih

/-- The files of a rotation by size can be moved, unless the active file is missing and
there are no backups. -/
theorem moveFiles_succeeds (gzip : Gzip) {activePath : String} {maxBackups : Nat}
    (ready : maxBackups = 0 → activePath ∈ directory) (compressRotated : Bool)
    (serviceName : String) (nanos : Nat) :
    Succeeds (moveFiles gzip compressRotated serviceName activePath nanos maxBackups)
      directory := by
  unfold moveFiles
  split
  case isTrue none_ => exact retireActive_succeeds (ready none_) compressRotated _
  case isFalse =>
    refine Succeeds.bind ?_ fun mid => Succeeds.bind ?_ fun later => ?_
    · exact (removeExisting_succeeds _ _).bind fun mid => removeExisting_succeeds _ mid
    · exact shiftBackups_succeeds activePath (maxBackups - 1) mid
    · rw [Succeeds, run_bind_ok _ (fileExists_reliable _ _)]
      split
      case isTrue present =>
        exact retireActive_succeeds (Std.ExtTreeMap.contains_iff_mem.mp present) _ _
      case isFalse => exact ⟨later, rfl⟩

/-! ## Maintaining daily files on a reliable disk -/

theorem compressed_mem {name other : String} {content : Bytes} (differs : other ≠ name)
    (plain : endsWith other ".gz" = false) :
    other ∈ compressed gzip directory name content ↔ other ∈ directory := by
  rw [mem_iff_get, mem_iff_get, compressed_get, if_neg (Ne.symm differs),
    if_neg (gzipPath_ne_of_plain plain)]

theorem erase_mem {name other : String} (differs : other ≠ name) :
    other ∈ directory.erase name ↔ other ∈ directory := by
  rw [mem_iff_get, mem_iff_get, get_erase, if_neg (Ne.symm differs)]

/-- One round succeeds, and removes no plain file but its own. -/
theorem maintainEntry_succeeds (self : RotatingFile) (activeDate : String)
    (cutoff : Option String) {name : String}
    (present : endsWith name ".gz" = false → name ∈ directory) :
    ∃ later, (maintainEntry gzip self activeDate cutoff name).run (reliable directory) =
        .ok () (reliable later) ∧
      ∀ other, other ≠ name → endsWith other ".gz" = false →
        (other ∈ later ↔ other ∈ directory) := by
  unfold maintainEntry
  split
  case h_1 => exact ⟨directory, rfl, fun _ _ _ => Iff.rfl⟩
  case h_2 date found =>
    have removed (mid : Directory) : ∃ later,
        (if cutoff.any (date < ·) then do
            removeExisting name
            removeExisting (gzipPath name)
          else pure () : FileProgram Unit).run (reliable mid) = .ok () (reliable later) ∧
        ∀ other, other ≠ name → endsWith other ".gz" = false →
          (other ∈ later ↔ other ∈ mid) := by
      split
      · refine ⟨(mid.erase name).erase (gzipPath name), ?_, fun other differs plain => ?_⟩
        · rw [run_bind_ok _ (removeExisting_reliable name mid)]
          exact removeExisting_reliable (gzipPath name) (mid.erase name)
        · rw [erase_mem (gzipPath_ne_of_plain plain).symm, erase_mem differs]
      · exact ⟨mid, rfl, fun _ _ _ => Iff.rfl⟩
    by_cases stale : date < activeDate ∧ self.compressRotated ∧ ¬ endsWith name ".gz"
    · have plainName : endsWith name ".gz" = false := Bool.of_not_eq_true stale.2.2
      obtain ⟨content, held⟩ := mem_iff_get.mp (present plainName)
      obtain ⟨later, ran, kept⟩ := removed (compressed gzip directory name content)
      refine ⟨later, ?_, fun other differs plain => ?_⟩
      · dsimp only
        rw [if_pos stale, run_bind_ok _ (compressFile_reliable held)]
        exact ran
      · rw [kept other differs plain, compressed_mem differs plain]
    · obtain ⟨later, ran, kept⟩ := removed directory
      refine ⟨later, ?_, kept⟩
      dsimp only
      rw [if_neg stale]
      exact ran

theorem maintainEntries_succeed (self : RotatingFile) (activeDate : String)
    (cutoff : Option String) {entries : List String} (distinct : entries.Nodup)
    {directory : Directory}
    (present : ∀ name ∈ entries, endsWith name ".gz" = false → name ∈ directory) :
    Succeeds (entries.forM (maintainEntry gzip self activeDate cutoff)) directory := by
  induction entries generalizing directory with
  | nil => exact ⟨directory, rfl⟩
  | cons name entries ih =>
      obtain ⟨notLater, distinct⟩ := List.nodup_cons.mp distinct
      obtain ⟨mid, ran, kept⟩ :=
        maintainEntry_succeeds self activeDate cutoff (present name List.mem_cons_self)
      obtain ⟨later, rest⟩ := ih distinct fun other member plain => by
        have differs : other ≠ name := fun same => notLater (same ▸ member)
        exact (kept other differs plain).mpr (present other (List.mem_cons_of_mem _ member) plain)
      refine ⟨later, ?_⟩
      rw [List.forM_eq_forM, List.forM_cons, run_bind_ok _ ran]
      exact rest

theorem maintainDailyFiles_succeeds (gzip : Gzip) (listing : Listing) (self : RotatingFile)
    (day : Int) (directory : Directory) :
    Succeeds (maintainDailyFiles gzip listing self day) directory := by
  obtain ⟨later, ran⟩ := maintainEntries_succeed self (dateFromUnixDay day)
    (self.retentionDays.map fun days =>
      dateFromUnixDay (asI64 (day - asI64 ((days - 1 : Nat) : Int))))
    (listing.nodup_names directory) fun name member _ => listing.mem_names.mp member
  refine ⟨later, ?_⟩
  rw [maintainDailyFiles, run_bind_ok _ (readDirectory_reliable _ _)]
  exact ran

theorem archivePrevious_succeeds (gzip : Gzip) (compressRotated : Bool)
    (previousPath activePath : String) (directory : Directory) :
    Succeeds (archivePrevious gzip compressRotated previousPath activePath) directory := by
  unfold archivePrevious
  split
  · rw [Succeeds, run_bind_ok _ (fileExists_reliable _ _)]
    split
    case isTrue present =>
      obtain ⟨content, held⟩ := contains_iff_get.mp present
      exact ⟨_, compressFile_reliable held⟩
    case isFalse => exact ⟨directory, rfl⟩
  · exact ⟨directory, rfl⟩

/-! ## One call on a reliable disk -/

/-- The active file is where a rotation without backups looks for it. -/
def ActivePresent (self : RotatingFile) (directory : Directory) : Prop :=
  ∀ maxBytes, self.rotation = .size maxBytes 0 → self.activePath ∈ directory

theorem opened_mem_insertIfNew (directory : Directory) (path : String) :
    path ∈ directory.insertIfNew path [] := by
  rw [mem_iff_get, get_insertIfNew, if_pos rfl]
  exact ⟨_, rfl⟩

theorem rotateDaily_succeeds (gzip : Gzip) (self : RotatingFile) (daily : self.rotation = .daily)
    (moment : Moment) (directory : Directory) :
    ∃ rotated later, (rotate gzip moment).run ⟨self, reliable directory⟩ =
        .ok () ⟨rotated, reliable later⟩ ∧ rotated.file ≠ none ∧ rotated.rotation = .daily := by
  let active := logPath self.serviceName self.rotation moment.today
  obtain ⟨mid, archived⟩ := archivePrevious_succeeds gzip self.compressRotated
    self.activePath active (directory.insertIfNew active [])
  let rotated : RotatingFile := { self with
    file := some active, activeDay := moment.today, activePath := active,
    bytesWritten := ((directory.insertIfNew active [])[active]?.getD []).length }
  obtain ⟨later, maintained⟩ :=
    maintainDailyFiles_succeeds gzip moment.listing rotated moment.today mid
  refine ⟨rotated, later, ?_, by simp [rotated], daily⟩
  rw [rotate, run_bind_ok _ (run_getSelf _ _)]
  simp only [daily]
  exact rotateDaily_reliable rfl archived rfl maintained

theorem rotateSize_succeeds (gzip : Gzip) {self : RotatingFile} {maxBytes maxBackups : Nat}
    (size : self.rotation = .size maxBytes maxBackups)
    (ready : maxBackups = 0 → self.activePath ∈ directory) (moment : Moment) :
    ∃ rotated later, (rotate gzip moment).run ⟨self, reliable directory⟩ =
        .ok () ⟨rotated, reliable later⟩ ∧ rotated.file ≠ none ∧
          ActivePresent rotated later := by
  obtain ⟨mid, moved⟩ := moveFiles_succeeds gzip ready self.compressRotated
    self.serviceName moment.nanos
  refine ⟨{ self with file := some self.activePath, bytesWritten := 0 },
    mid.insertIfNew self.activePath [], ?_, by simp,
    fun _ _ => opened_mem_insertIfNew mid self.activePath⟩
  rw [rotate, run_bind_ok _ (run_getSelf _ _)]
  simp only [size]
  rw [rotateSize, run_bind_ok _ (run_getSelf _ _)]
  simp only [size]
  rw [run_bind_ok _ (run_modifySelf _ _ _), run_bind_ok _ (run_onDisk_ok moved),
    run_bind_ok _ (run_onDisk_ok (appendFile_reliable _ _)), run_modifySelf]
  simp only [size]

/-- A rotation without backups finds no active file to rename. -/
theorem rotateSize_fails (gzip : Gzip) {self : RotatingFile} {maxBytes : Nat}
    (size : self.rotation = .size maxBytes 0) (absent : self.activePath ∉ directory)
    (moment : Moment) :
    (rotate gzip moment).run ⟨self, reliable directory⟩ =
      .error .notFound ⟨{ self with file := none }, reliable directory⟩ := by
  have missing : directory[self.activePath]? = none :=
    Std.ExtTreeMap.getElem?_eq_none absent
  rw [rotate, run_bind_ok _ (run_getSelf _ _)]
  simp only [size]
  rw [rotateSize, run_bind_ok _ (run_getSelf _ _)]
  simp only [size]
  rw [run_bind_ok _ (run_modifySelf _ _ _)]
  simp [moveFiles, retireActive, onDisk, rename, operation, perform, reliable, missing,
    EStateM.run, bind, EStateM.bind, size]

/-- The disk is reliable, the file is open, and no rotation can fail any more. -/
structure Steady (state : LogState) : Prop where
  fates : state.disk.fates = []
  opened : state.self.file ≠ none
  present : ActivePresent state.self state.disk.directory

theorem rotateIfDue_error {self : RotatingFile} {disk : Disk} {moment : Moment} {bytes : Bytes}
    {error : FileError} {mid later : LogState} (due : rotationDue self moment bytes = true)
    (failed : (rotate gzip moment).run ⟨self, disk⟩ = .error error mid)
    (reopened : reopenActive.run mid = .ok () later) :
    (rotateIfDue gzip moment bytes).run ⟨self, disk⟩ = .error error later := by
  rw [rotateIfDue, run_bind_ok _ (run_getSelf _ _), due, if_pos rfl, EStateM.run_tryCatch,
    failed]
  exact run_bind_ok _ reopened

theorem reopenActive_reliable (self : RotatingFile) (directory : Directory) :
    reopenActive.run ⟨{ self with file := none }, reliable directory⟩ =
      .ok () ⟨{ self with file := some self.activePath },
        reliable (directory.insertIfNew self.activePath [])⟩ := by
  rw [reopenActive, run_bind_ok _ (run_getSelf _ _), if_pos rfl]
  refine tryCatch_ok ?_
  rw [run_bind_ok _ (run_onDisk_ok (appendFile_reliable _ _)), run_modifySelf]

variable (gzip) in
/-- A call that rotates ends with the file open, whether it returns an error or not. -/
theorem writeAll_rotates {self : RotatingFile} {moment : Moment} {bytes : Bytes}
    (due : rotationDue self moment bytes = true) :
    (∃ later, (writeAll gzip moment bytes).run ⟨self, reliable directory⟩ = .ok () later ∧
        Steady later) ∨
      ¬ ActivePresent self directory ∧
        ∃ later, (writeAll gzip moment bytes).run ⟨self, reliable directory⟩ =
          .error .notFound later ∧ Steady later := by
  have wrote {rotated : RotatingFile} {later : Directory}
      (ran : (rotate gzip moment).run ⟨self, reliable directory⟩ =
        .ok () ⟨rotated, reliable later⟩)
      (opened : rotated.file ≠ none) (present : ActivePresent rotated later) :
      ∃ later, (writeAll gzip moment bytes).run ⟨self, reliable directory⟩ = .ok () later ∧
        Steady later := by
    obtain ⟨file, open_⟩ := Option.ne_none_iff_exists'.mp opened
    refine ⟨_, writeAll_reliable (rotateIfDue_ok due ran) open_, rfl, opened, ?_⟩
    intro maxBytes size
    have member := present maxBytes size
    exact Std.ExtTreeMap.mem_modify.mpr member
  cases rotation : self.rotation with
  | daily =>
      obtain ⟨rotated, later, ran, opened, daily⟩ :=
        rotateDaily_succeeds gzip self rotation moment directory
      refine .inl (wrote ran opened fun maxBytes size => ?_)
      rw [daily] at size
      cases size
  | size maxBytes maxBackups =>
      by_cases ready : maxBackups = 0 → self.activePath ∈ directory
      · obtain ⟨rotated, later, ran, opened, present⟩ :=
          rotateSize_succeeds gzip rotation ready moment
        exact .inl (wrote ran opened present)
      · rw [Classical.not_imp] at ready
        obtain ⟨none_, absent⟩ := ready
        subst none_
        have failed := rotateSize_fails gzip rotation absent moment
        refine .inr ⟨fun present => absent (present maxBytes rotation),
          ⟨{ self with file := some self.activePath },
            reliable (directory.insertIfNew self.activePath [])⟩, ?_, rfl, by simp,
          fun _ _ => opened_mem_insertIfNew directory self.activePath⟩
        exact run_bind_error _
          (rotateIfDue_error due failed (reopenActive_reliable self directory))

/-- A call without a rotation writes to an open file. -/
theorem writeAll_open {self : RotatingFile} {moment : Moment} {bytes : Bytes}
    (early : rotationDue self moment bytes = false) (opened : self.file ≠ none) :
    ∃ self' later, (writeAll gzip moment bytes).run ⟨self, reliable directory⟩ =
        .ok () ⟨self', reliable later⟩ ∧ self'.file ≠ none ∧
      (ActivePresent self directory → ActivePresent self' later) := by
  obtain ⟨file, open_⟩ := Option.ne_none_iff_exists'.mp opened
  refine ⟨_, _, writeAll_reliable (rotateIfDue_skip gzip (reliable directory) early) open_, opened,
    fun present maxBytes size => ?_⟩
  exact Std.ExtTreeMap.mem_modify.mpr (present maxBytes size)

/-- A call without a rotation fails on a closed file, and changes nothing. -/
theorem writeAll_closed {self : RotatingFile} {moment : Moment} {bytes : Bytes}
    (early : rotationDue self moment bytes = false) (closed : self.file = none) :
    (writeAll gzip moment bytes).run ⟨self, reliable directory⟩ =
      .error .notConnected ⟨self, reliable directory⟩ := by
  rw [writeAll, run_bind_ok _ (rotateIfDue_skip gzip (reliable directory) early), appendRecord,
    run_bind_ok _ (run_getSelf _ _)]
  simp only [closed]
  rfl

/-! ## Sequences of calls -/

theorem writeAll_steady {state : LogState} (steady : Steady state) (moment : Moment)
    (bytes : Bytes) :
    ∃ later, (writeAll gzip moment bytes).run state = .ok () later ∧ Steady later := by
  obtain ⟨self, directory, fates⟩ := state
  obtain ⟨none_, opened, present⟩ := steady
  dsimp only at none_ opened present
  subst none_
  cases due : rotationDue self moment bytes with
  | true =>
      rcases writeAll_rotates gzip due with wrote | ⟨absent, _⟩
      · exact wrote
      · exact absurd present absent
  | false =>
      obtain ⟨self', later, ran, opened', kept⟩ := writeAll_open due opened
      exact ⟨_, ran, rfl, opened', kept present⟩

theorem failures_steady {state : LogState} (steady : Steady state)
    (writes : List (Moment × Bytes)) : failures gzip state writes = 0 := by
  induction writes generalizing state with
  | nil => rfl
  | cons write writes ih =>
      obtain ⟨later, ran, steady'⟩ := writeAll_steady steady write.1 write.2
      rw [failures, ran]
      exact ih steady'

/-- After a call that rotates no call fails. -/
theorem failures_due {self : RotatingFile} {moment : Moment} {bytes : Bytes}
    (due : rotationDue self moment bytes = true) (writes : List (Moment × Bytes)) :
    failures gzip ⟨self, reliable directory⟩ ((moment, bytes) :: writes) ≤ 1 := by
  rcases writeAll_rotates gzip due with ⟨later, ran, steady⟩ | ⟨_, later, ran, steady⟩
  · rw [failures, ran]
    exact (failures_steady steady writes).trans_le (Nat.zero_le _)
  · rw [failures, ran]
    exact Nat.succ_le_succ (failures_steady steady writes).le

theorem failures_open {self : RotatingFile} (opened : self.file ≠ none)
    (writes : List (Moment × Bytes)) :
    failures gzip ⟨self, reliable directory⟩ writes ≤ 1 := by
  induction writes generalizing self directory with
  | nil => exact Nat.zero_le _
  | cons write writes ih =>
      cases due : rotationDue self write.1 write.2 with
      | true => exact failures_due due writes
      | false =>
          obtain ⟨self', later, ran, opened', _⟩ := writeAll_open due opened
          rw [failures, ran]
          exact ih opened'

/-- The file recovers exactly when it is open or every call rotates. -/
theorem recovers_iff (gzip : Gzip) (self : RotatingFile) (directory : Directory) :
    Recovers gzip ⟨self, reliable directory⟩ ↔ Recoverable self := by
  refine ⟨fun recovers => ?_, fun recoverable writes => ?_⟩
  · by_contra lost
    have closed : self.file = none := by
      by_contra opened
      exact lost (.inl opened)
    have idle : ∃ moment, rotationDue self moment [] = false := by
      refine ⟨⟨self.activeDay, self.activeDay, 0, Listing.sorted⟩, ?_⟩
      cases rotation : self.rotation with
      | daily => simp [rotationDue, rotation]
      | size maxBytes maxBackups =>
          rw [← Bool.not_eq_true]
          intro due
          simp only [rotationDue, rotation, List.length_nil, Nat.add_zero, Bool.and_eq_true,
            decide_eq_true_eq] at due
          exact lost (.inr ⟨maxBytes, maxBackups, rotation, due⟩)
    obtain ⟨moment, early⟩ := idle
    have failed : (writeAll gzip moment []).run ⟨self, reliable directory⟩ = _ :=
      writeAll_closed early closed
    have twice := recovers [(moment, []), (moment, [])]
    rw [failures, failed] at twice
    dsimp only at twice
    rw [failures, failed] at twice
    dsimp only [failures] at twice
    omega
  · rcases recoverable with opened | ⟨maxBytes, maxBackups, size, some_, long⟩
    · exact failures_open opened writes
    · cases writes with
      | nil => exact Nat.zero_le _
      | cons write writes =>
          refine failures_due ?_ writes
          simp only [rotationDue, size, Bool.and_eq_true, decide_eq_true_eq]
          omega

end Reliable

/-! ## Runs with failures -/

/-- One call after another on any disk; the caller goes on after an error. -/
def logger (gzip : Gzip) (start : LogState) : Lts LogState (Moment × Bytes) where
  init := start
  step := fun state write => some (after ((writeAll gzip write.1 write.2).run state))

/-- If a rotation is due and fails with the file closed, the file can be opened again. -/
def Reopens (gzip : Gzip) (state : LogState) (write : Moment × Bytes) : Prop :=
  rotationDue state.self write.1 write.2 = true → ∀ error mid,
    (rotate gzip write.1).run state = .error error mid → mid.self.file = none →
      ∃ disk, (appendFile mid.self.activePath).run mid.disk = .ok () disk

section Runs

variable {gzip : Gzip}

theorem of_run_bind_ok {σ α β : Type} {program : EStateM FileError σ α}
    {f : α → EStateM FileError σ β} {state later : σ} {b : β}
    (ran : (program >>= f).run state = .ok b later) :
    ∃ a mid, program.run state = .ok a mid ∧ (f a).run mid = .ok b later := by
  rw [EStateM.run_bind] at ran
  split at ran
  · rename_i a mid first
    exact ⟨a, mid, first, ran⟩
  · cases ran

/-- The disk operations leave the rotating file as it is. -/
theorem onDisk_self {α : Type} (program : FileProgram α) (state : LogState) :
    (after ((onDisk program).run state)).self = state.self := by
  simp only [onDisk, EStateM.run]
  split <;> rfl

theorem onDisk_ok {α : Type} {program : FileProgram α} {state later : LogState} {a : α}
    (ran : (onDisk program).run state = .ok a later) : later.self = state.self := by
  have same := onDisk_self program state
  rwa [ran] at same

theorem appendRecord_file (bytes : Bytes) (state : LogState) :
    (after ((appendRecord bytes).run state)).self.file = state.self.file := by
  obtain ⟨self, disk⟩ := state
  rw [appendRecord, run_bind_ok _ (run_getSelf _ _)]
  cases opened : self.file with
  | none =>
      exact opened
  | some file =>
      dsimp only
      rw [EStateM.run_bind]
      have same := onDisk_self (appendBytes file bytes) ⟨self, disk⟩
      split
      · rename_i mid ran
        rw [ran] at same
        obtain ⟨self', disk'⟩ := mid
        rw [run_modifySelf]
        exact (congrArg RotatingFile.file same).trans opened
      · rename_i mid ran
        rw [ran] at same
        exact (congrArg RotatingFile.file same).trans opened

/-- A rotation that succeeds leaves the file open. -/
theorem rotate_ok_open {moment : Moment} {state later : LogState} (opened : state.self.file ≠ none)
    (ran : (rotate gzip moment).run state = .ok () later) : later.self.file ≠ none := by
  obtain ⟨self, disk⟩ := state
  rw [rotate, run_bind_ok _ (run_getSelf _ _)] at ran
  cases rotation : self.rotation with
  | daily =>
      simp only [rotation] at ran
      rw [rotateDaily, run_bind_ok _ (run_getSelf _ _), run_bind_ok _ (run_modifySelf _ _ _),
        run_bind_ok _ (run_getSelf _ _)] at ran
      obtain ⟨_, first, _, ran⟩ := of_run_bind_ok ran
      obtain ⟨length, ⟨self', disk'⟩, _, ran⟩ := of_run_bind_ok ran
      rw [run_bind_ok _ (run_modifySelf _ _ _), run_bind_ok _ (run_getSelf _ _)] at ran
      obtain ⟨_, archived, archive, ran⟩ := of_run_bind_ok ran
      rw [onDisk_ok ran, onDisk_ok archive]
      simp
  | size maxBytes maxBackups =>
      simp only [rotation] at ran
      rw [rotateSize, run_bind_ok _ (run_getSelf _ _)] at ran
      simp only [rotation] at ran
      rw [run_bind_ok _ (run_modifySelf _ _ _)] at ran
      obtain ⟨_, moved, _, ran⟩ := of_run_bind_ok ran
      obtain ⟨_, ⟨self', disk'⟩, _, ran⟩ := of_run_bind_ok ran
      rw [run_modifySelf] at ran
      cases ran
      simp

/-- Where the file can be opened, `reopen_active` leaves it open. -/
theorem reopenActive_open {mid : LogState}
    (opens : mid.self.file = none →
      ∃ disk, (appendFile mid.self.activePath).run mid.disk = .ok () disk) :
    ∃ later, reopenActive.run mid = .ok () later ∧ later.self.file ≠ none := by
  obtain ⟨self, disk⟩ := mid
  rw [reopenActive, run_bind_ok _ (run_getSelf _ _)]
  by_cases closed : self.file = none
  · obtain ⟨disk', ran⟩ := opens closed
    have appended : (onDisk (appendFile self.activePath)).run ⟨self, disk⟩ =
        .ok () ⟨self, disk'⟩ := by
      simp only [onDisk, EStateM.run] at ran ⊢
      rw [ran]
    refine ⟨⟨{ self with file := some self.activePath }, disk'⟩, ?_, by simp⟩
    rw [if_pos closed]
    exact tryCatch_ok ((run_bind_ok _ appended).trans (run_modifySelf _ _ _))
  · rw [if_neg closed]
    exact ⟨⟨self, disk⟩, rfl, closed⟩

/-- A call that can reopen the file keeps it open, whatever fails. -/
theorem writeAll_keeps_open {state : LogState} {write : Moment × Bytes}
    (opened : state.self.file ≠ none) (reopens : Reopens gzip state write) :
    (after ((writeAll gzip write.1 write.2).run state)).self.file ≠ none := by
  obtain ⟨moment, bytes⟩ := write
  obtain ⟨self, disk⟩ := state
  have written {ready : LogState}
      (ran : (rotateIfDue gzip moment bytes).run ⟨self, disk⟩ = .ok () ready)
      (still : ready.self.file ≠ none) :
      (after ((writeAll gzip moment bytes).run ⟨self, disk⟩)).self.file ≠ none := by
    rw [writeAll, run_bind_ok _ ran, appendRecord_file]
    exact still
  cases due : rotationDue self moment bytes with
  | false => exact written (rotateIfDue_skip gzip disk due) opened
  | true =>
      cases ran : (rotate gzip moment).run ⟨self, disk⟩ with
      | ok _ mid => exact written (rotateIfDue_ok due ran) (rotate_ok_open opened ran)
      | error error mid =>
          obtain ⟨later, reopened, still⟩ := reopenActive_open (reopens due error mid ran)
          rw [writeAll, run_bind_error _ (rotateIfDue_error due ran reopened)]
          exact still

theorem new_open {listing : Listing} {today : Int} {serviceName : String}
    {rotation : RotationPolicy} {retentionDays : Option Nat} {compressRotated : Bool}
    {disk disk' : Disk} {self : RotatingFile}
    (created : (RotatingFile.new gzip listing today serviceName rotation retentionDays
      compressRotated).run disk = .ok self disk') : self.file ≠ none := by
  unfold RotatingFile.new at created
  obtain ⟨_, opened, _, created⟩ := of_run_bind_ok created
  obtain ⟨length, measured, _, created⟩ := of_run_bind_ok created
  dsimp only at created
  split at created
  · obtain ⟨_, maintained, _, created⟩ := of_run_bind_ok created
    cases created
    simp
  · cases created
    simp

/-- After any run of a logger with failures, it recovers once nothing fails any more exactly
when its file is open or every call rotates; it does after every run in which each failed
rotation could open the file again. -/
theorem logger_recovers_iff {listing : Listing} {today : Int} {serviceName : String}
    {rotation : RotationPolicy} {retentionDays : Option Nat} {compressRotated : Bool}
    {disk disk' : Disk} {self : RotatingFile}
    (created : (RotatingFile.new gzip listing today serviceName rotation retentionDays
      compressRotated).run disk = .ok self disk') :
    (∀ state, (logger gzip ⟨self, disk'⟩).Reachable state →
      (Recovers gzip ⟨state.self, reliable state.disk.directory⟩ ↔ Recoverable state.self)) ∧
    ∀ state, (logger gzip ⟨self, disk'⟩).Reach (Reopens gzip) state →
      Recovers gzip ⟨state.self, reliable state.disk.directory⟩ := by
  refine ⟨fun state _ => recovers_iff gzip state.self state.disk.directory, fun state reach => ?_⟩
  refine (recovers_iff gzip state.self state.disk.directory).mpr (.inl ?_)
  refine reach.invariant (I := fun state => state.self.file ≠ none) (new_open created) ?_
  intro before write after_ opened reopens taken
  cases taken
  exact writeAll_keeps_open opened reopens

/-- A call on day 0. -/
def dayZero : Moment :=
  ⟨0, 0, 0, Listing.sorted⟩

/-- A log of files of ten bytes with one backup. -/
def smallLog (disk : Disk) : EStateM.Result FileError Disk RotatingFile :=
  (RotatingFile.new lineGzip Listing.sorted 0 "log" (.size 10 1) none false).run disk

/-- A run of the small log from its creation. -/
def runSmallLog (disk : Disk) (records : List (Moment × Bytes)) : Option LogState :=
  match smallLog disk with
  | .ok self disk => (logger lineGzip ⟨self, disk⟩).exec ⟨self, disk⟩ records
  | .error _ _ => none

/-- A failed rename costs one call, here and after it. -/
theorem smallLog_recovers : ∃ self disk state,
    smallLog ⟨∅, [.succeeds, .succeeds, .succeeds, .fails 0]⟩ = .ok self disk ∧
      (logger lineGzip ⟨self, disk⟩).Reachable state ∧ state.disk.fates = [] ∧
      Recovers lineGzip ⟨state.self, reliable state.disk.directory⟩ := by
  have run : (runSmallLog ⟨∅, [.succeeds, .succeeds, .succeeds, .fails 0]⟩
      [(dayZero, List.replicate 8 0), (dayZero, List.replicate 4 0)]).map (fun state =>
        (state.self.file, state.disk.fates)) = some (some "log.log", []) := by
    decide +kernel
  rw [runSmallLog] at run
  cases created : smallLog ⟨∅, [.succeeds, .succeeds, .succeeds, .fails 0]⟩ with
  | error error disk =>
      rw [created] at run
      cases run
  | ok self disk =>
      rw [created] at run
      obtain ⟨state, executed, ends⟩ := Option.map_eq_some_iff.mp run
      have reach := Lts.reachable_of_exec _ executed
      obtain ⟨opened, fates⟩ := Prod.mk.inj ends
      refine ⟨self, disk, state, rfl, reach, fates, ?_⟩
      refine ((logger_recovers_iff created).1 state reach).mpr (.inl ?_)
      rw [opened]
      simp

/-- When the file cannot be opened again either, every short record is refused from then
on. -/
theorem smallLog_stays_closed : ¬ ∀ (disk disk' : Disk) (self : RotatingFile) (state : LogState),
    smallLog disk = .ok self disk' → (logger lineGzip ⟨self, disk'⟩).Reachable state →
    Recovers lineGzip ⟨state.self, reliable state.disk.directory⟩ := by
  intro recovers
  have run : (runSmallLog ⟨∅, [.succeeds, .succeeds, .succeeds, .fails 0, .fails 0]⟩
      [(dayZero, List.replicate 8 0), (dayZero, List.replicate 4 0)]).map (fun state =>
        failures lineGzip ⟨state.self, reliable state.disk.directory⟩
          [(dayZero, [0]), (dayZero, [0])]) = some 2 := by
    decide +kernel
  rw [runSmallLog] at run
  cases created : smallLog ⟨∅, [.succeeds, .succeeds, .succeeds, .fails 0, .fails 0]⟩ with
  | error error disk =>
      rw [created] at run
      cases run
  | ok self disk =>
      rw [created] at run
      obtain ⟨state, executed, count⟩ := Option.map_eq_some_iff.mp run
      have reach := Lts.reachable_of_exec _ executed
      have few := recovers _ disk self state created reach [(dayZero, [0]), (dayZero, [0])]
      rw [count] at few
      omega

end Runs

end RustZero.Log
