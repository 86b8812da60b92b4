import RustZero.Lib.Files

/-!
# The rotating log file

`core/src/log.rs`: `RotatingFile` with its two rotation policies, over the
files of one directory.  A path of the source is the name of a file in that
directory.  File operations run on the disk of `Lib.Files`, so any of them may
fail; what a failing call changed in `self` and on the disk stays changed, and
`reopen_active` is the code's answer to a failed rotation.

`bytes_written` and the lengths it is compared with are `Nat`: the source adds
with `saturating_add` on `u64`, and no file is that long.  gzip is a parameter,
of which the code relies on nothing but that decoding undoes encoding.
-/

namespace RustZero.Log

open Lib Lib.Files

/-- The third-party gzip encoder and decoder. -/
structure Gzip where
  encode : Bytes → Bytes
  decode : Bytes → Option Bytes
  decode_encode : ∀ bytes, decode (encode bytes) = some bytes

inductive RotationPolicy where
  | daily
  | size (maxBytes maxBackups : Nat)
  deriving DecidableEq, Repr

/-! ## Names of files -/

def backupPath (active : String) (index : Nat) : String :=
  active ++ "." ++ toString index

def gzipPath (path : String) : String :=
  path ++ ".gz"

/-- `Path::extension`: what follows the last dot, unless that dot comes first. -/
def extension (path : String) : Option String :=
  if path = ".." then none
  else
    match path.toList.reverse.dropWhile (· ≠ '.') with
    | [] => none
    | [_] => none
    | _ => some (String.ofList (path.toList.reverse.takeWhile (· ≠ '.')).reverse)

def isGzip (path : String) : Bool :=
  extension path = some "gz"

/-- Characters that `safe_file_name` leaves as they are. -/
def fileNameChar (character : Char) : Bool :=
  character.isAlphanum || character = '-' || character = '_' || character = '.'

def safeFileName (value : String) : String :=
  String.ofList (value.toList.map fun character =>
    if fileNameChar character then character else '_')

/-! ## Dates -/

/-- A value as the 64-bit signed integer it wraps to. -/
def asI64 (value : Int) : Int :=
  Int.bmod value (2 ^ 64)

/-- The decimal digits of a number, padded with zeros after the sign. -/
def zeroPadded (width : Nat) (value : Int) : String :=
  let sign := if value < 0 then "-" else ""
  let digits := toString value.natAbs
  sign ++ String.ofList (List.replicate (width - sign.length - digits.length) '0') ++ digits

def dateFromUnixDay (day : Int) : String :=
  let day := asI64 (day + 719468)
  let era := (if 0 ≤ day then day else asI64 (day - 146096)).tdiv 146097
  let dayOfEra := day - era * 146097
  let yearOfEra :=
    (dayOfEra - dayOfEra.tdiv 1460 + dayOfEra.tdiv 36524 - dayOfEra.tdiv 146096).tdiv 365
  let year := yearOfEra + era * 400
  let dayOfYear := dayOfEra - (365 * yearOfEra + yearOfEra.tdiv 4 - yearOfEra.tdiv 100)
  let monthPrime := (5 * dayOfYear + 2).tdiv 153
  let day := dayOfYear - (153 * monthPrime + 2).tdiv 5 + 1
  let month := monthPrime + (if monthPrime < 10 then 3 else -9)
  let year := year + (if month ≤ 2 then 1 else 0)
  zeroPadded 4 year ++ "-" ++ zeroPadded 2 month ++ "-" ++ zeroPadded 2 day

def logPath (serviceName : String) (rotation : RotationPolicy) (day : Int) : String :=
  match rotation with
  | .daily => serviceName ++ "." ++ dateFromUnixDay day ++ ".log"
  | .size _ _ => serviceName ++ ".log"

def endsWith (name ending : String) : Bool :=
  ending.toList.isSuffixOf name.toList

def stripStart (name start : String) : Option String :=
  (name.toList.dropPrefix? start.toList).map String.ofList

def stripEnd (name ending : String) : Option String :=
  (name.toList.dropSuffix? ending.toList).map String.ofList

/-- A date that `daily_file_date` accepts: ten characters, digits and dashes,
with dashes between year, month and day. -/
def dateShaped (date : String) : Bool :=
  date.length = 10 && date.toList[4]? = some '-' && date.toList[7]? = some '-'
    && date.toList.all fun value => value.isDigit || value = '-'

def dailyFileDate (name start : String) : Option String := do
  let remainder ← stripStart name start
  let date ← (stripEnd remainder ".log").or (stripEnd remainder ".log.gz")
  if dateShaped date then some date else none

/-! ## Rotated files -/

def existingBackup (path : String) : FileProgram (Option String) := do
  if ← fileExists path then return some path
  else if ← fileExists (gzipPath path) then return some (gzipPath path)
  else return none

/-- `if path.exists() { fs::remove_file(path)? }`. -/
def removeExisting (path : String) : FileProgram Unit := do
  if ← fileExists path then removeFile path

def removeBackup (path : String) : FileProgram Unit := do
  removeExisting path
  removeExisting (gzipPath path)

def compressFile (gzip : Gzip) (path : String) : FileProgram Unit := do
  let input ← openFile path
  createFile (gzipPath path)
  fillFile (gzipPath path) (gzip.encode input)
  removeFile path

/-- One round of the loop that moves the backups up by one. -/
def shiftBackup (activePath : String) (index : Nat) : FileProgram Unit := do
  match ← existingBackup (backupPath activePath index) with
  | none => pure ()
  | some source =>
      let target := backupPath activePath (index + 1)
      rename source (if isGzip source then gzipPath target else target)

/-- `for index in (1..=count).rev()`. -/
def shiftBackups (activePath : String) : Nat → FileProgram Unit
  | 0 => pure ()
  | count + 1 => do
      shiftBackup activePath (count + 1)
      shiftBackups activePath count

/-- Move the active file to a backup, compressing it there. -/
def retireActive (gzip : Gzip) (compressRotated : Bool) (activePath backup : String) :
    FileProgram Unit := do
  rename activePath backup
  if compressRotated then compressFile gzip backup

/-- The part of `rotate_size` that moves files. -/
def moveFiles (gzip : Gzip) (compressRotated : Bool) (serviceName activePath : String)
    (nanos maxBackups : Nat) : FileProgram Unit := do
  if maxBackups = 0 then
    retireActive gzip compressRotated activePath (serviceName ++ "." ++ toString nanos ++ ".log")
  else
    removeBackup (backupPath activePath maxBackups)
    shiftBackups activePath (maxBackups - 1)
    if ← fileExists activePath then
      retireActive gzip compressRotated activePath (backupPath activePath 1)

/-! ## The rotating file -/

structure RotatingFile where
  serviceName : String
  rotation : RotationPolicy
  file : Option String
  activePath : String
  activeDay : Int
  bytesWritten : Nat
  retentionDays : Option Nat
  compressRotated : Bool
  deriving DecidableEq, Repr

/-- What one call reads from outside: the day when `write_all` checks it and
again when `rotate_daily` does, the time in nanoseconds, and the order in which
the directory is listed. -/
structure Moment where
  checked : Int
  today : Int
  nanos : Nat
  listing : Listing

/-- One round of `maintain_daily_files`. -/
def maintainEntry (gzip : Gzip) (self : RotatingFile) (activeDate : String)
    (cutoff : Option String) (name : String) : FileProgram Unit := do
  match dailyFileDate name (self.serviceName ++ ".") with
  | none => pure ()
  | some date =>
      if date < activeDate ∧ self.compressRotated ∧ ¬ endsWith name ".gz" then
        compressFile gzip name
      if cutoff.any (date < ·) then
        removeExisting name
        removeExisting (gzipPath name)

def maintainDailyFiles (gzip : Gzip) (listing : Listing) (self : RotatingFile)
    (activeDay : Int) : FileProgram Unit := do
  let cutoff := self.retentionDays.map fun days =>
    dateFromUnixDay (asI64 (activeDay - asI64 ((days - 1 : Nat) : Int)))
  let entries ← readDirectory listing
  entries.forM (maintainEntry gzip self (dateFromUnixDay activeDay) cutoff)

/-- `RotatingFile::new`; the directory it creates is the one of the disk. -/
def RotatingFile.new (gzip : Gzip) (listing : Listing) (today : Int) (serviceName : String)
    (rotation : RotationPolicy) (retentionDays : Option Nat) (compressRotated : Bool) :
    FileProgram RotatingFile := do
  let serviceName := safeFileName serviceName
  let activePath := logPath serviceName rotation today
  appendFile activePath
  let bytesWritten ← fileLength activePath
  let rotating : RotatingFile :=
    { serviceName := serviceName, rotation := rotation, file := some activePath,
      activePath := activePath, activeDay := today, bytesWritten := bytesWritten,
      retentionDays := retentionDays, compressRotated := compressRotated }
  if rotation = .daily then maintainDailyFiles gzip listing rotating today
  return rotating

/-- The rotating file and the disk it writes to. -/
structure LogState where
  self : RotatingFile
  disk : Disk

/-- Methods of the rotating file; what a failed one changed stays changed. -/
abbrev Method := EStateM FileError LogState

def onDisk {α : Type} (program : FileProgram α) : Method α :=
  fun state =>
    match program state.disk with
    | .ok result disk => .ok result { state with disk := disk }
    | .error error disk => .error error { state with disk := disk }

def getSelf : Method RotatingFile :=
  fun state => .ok state.self state

def modifySelf (change : RotatingFile → RotatingFile) : Method Unit :=
  fun state => .ok () { state with self := change state.self }

/-- Compress the file of the day that has ended. -/
def archivePrevious (gzip : Gzip) (compressRotated : Bool) (previousPath activePath : String) :
    FileProgram Unit := do
  if compressRotated ∧ previousPath ≠ activePath then
    if ← fileExists previousPath then compressFile gzip previousPath

def rotateDaily (gzip : Gzip) (moment : Moment) : Method Unit := do
  let previousPath := (← getSelf).activePath
  modifySelf fun self =>
    { self with
      file := none, activeDay := moment.today,
      activePath := logPath self.serviceName self.rotation moment.today }
  let activePath := (← getSelf).activePath
  onDisk (appendFile activePath)
  let length ← onDisk (fileLength activePath)
  modifySelf fun self => { self with bytesWritten := length, file := some activePath }
  let self ← getSelf
  onDisk (archivePrevious gzip self.compressRotated previousPath activePath)
  onDisk (maintainDailyFiles gzip moment.listing self self.activeDay)

def rotateSize (gzip : Gzip) (moment : Moment) : Method Unit := do
  let self ← getSelf
  match self.rotation with
  | .daily => pure ()
  | .size _ maxBackups =>
      modifySelf fun self => { self with file := none }
      onDisk (moveFiles gzip self.compressRotated self.serviceName self.activePath
        moment.nanos maxBackups)
      onDisk (appendFile self.activePath)
      modifySelf fun self => { self with file := some self.activePath, bytesWritten := 0 }

def reopenActive : Method Unit := do
  let self ← getSelf
  if self.file = none then
    tryCatch (do
        onDisk (appendFile self.activePath)
        modifySelf fun self => { self with file := some self.activePath })
      fun _ => pure ()

/-- The policy asks for a rotation before these bytes are written. -/
def rotationDue (self : RotatingFile) (moment : Moment) (bytes : Bytes) : Bool :=
  match self.rotation with
  | .daily => moment.checked ≠ self.activeDay
  | .size maxBytes _ => 0 < self.bytesWritten && maxBytes < self.bytesWritten + bytes.length

def rotate (gzip : Gzip) (moment : Moment) : Method Unit := do
  match (← getSelf).rotation with
  | .daily => rotateDaily gzip moment
  | .size _ _ => rotateSize gzip moment

/-- The part of `write_all` before the bytes are written. -/
def rotateIfDue (gzip : Gzip) (moment : Moment) (bytes : Bytes) : Method Unit := do
  if rotationDue (← getSelf) moment bytes then
    tryCatch (rotate gzip moment) fun error => do
      reopenActive
      throw error

def appendRecord (bytes : Bytes) : Method Unit := do
  match (← getSelf).file with
  | none => throw .notConnected
  | some file =>
      onDisk (appendBytes file bytes)
      modifySelf fun self => { self with bytesWritten := self.bytesWritten + bytes.length }

def writeAll (gzip : Gzip) (moment : Moment) (bytes : Bytes) : Method Unit := do
  rotateIfDue gzip moment bytes
  appendRecord bytes

/-! ## On a reliable disk -/

section Reliable

variable {gzip : Gzip} {directory : Directory} {path name : String} {content : Bytes}

theorem gzipPath_ne (path : String) : gzipPath path ≠ path := by
  intro same
  have longer := congrArg String.length same
  simp [gzipPath] at longer

theorem gzipPath_inj {path other : String} : gzipPath path = gzipPath other ↔ path = other := by
  rw [gzipPath, gzipPath, ← String.toList_inj, String.toList_append, String.toList_append,
    List.append_left_inj, String.toList_inj]

theorem removeExisting_reliable (path : String) (directory : Directory) :
    (removeExisting path).run (reliable directory) = .ok () (reliable (directory.erase path)) := by
  rw [removeExisting, run_bind_ok _ (fileExists_reliable path directory)]
  cases found : directory[path]? with
  | none =>
      rw [not_contains_iff_get.mpr found]
      have same : directory.erase path = directory := by
        apply Std.ExtTreeMap.ext_getElem?
        intro name
        rw [get_erase]
        split
        case isTrue same => rw [← same, found]
        case isFalse => rfl
      rw [same]
      rfl
  | some content =>
      rw [contains_iff_get.mpr ⟨content, found⟩]
      exact removeFile_reliable found

/-- The directory after a file of the given content has been compressed. -/
def compressed (gzip : Gzip) (directory : Directory) (path : String) (content : Bytes) :
    Directory :=
  (directory.insert (gzipPath path) (gzip.encode content)).erase path

theorem compressFile_reliable (present : directory[path]? = some content) :
    (compressFile gzip path).run (reliable directory)
      = .ok () (reliable (compressed gzip directory path content)) := by
  rw [compressFile, run_bind_ok _ (openFile_reliable present),
    run_bind_ok _ (createFile_reliable _ _), run_bind_ok _ (fillFile_reliable _ _ _)]
  have still : ((directory.insert (gzipPath path) []).insert (gzipPath path)
      (gzip.encode content))[path]? = some content := by
    simp [gzipPath_ne, present]
  rw [removeFile_reliable still]
  congr 2
  apply Std.ExtTreeMap.ext_getElem?
  intro name
  simp only [compressed, get_erase, get_insert]
  split
  · rfl
  · split
    · rfl
    · rfl

theorem compressed_get :
    (compressed gzip directory path content)[name]?
      = if path = name then none
        else if gzipPath path = name then some (gzip.encode content) else directory[name]? := by
  simp only [compressed, get_erase, get_insert]

theorem run_getSelf (self : RotatingFile) (disk : Disk) :
    getSelf.run ⟨self, disk⟩ = .ok self ⟨self, disk⟩ :=
  rfl

theorem run_modifySelf (change : RotatingFile → RotatingFile) (self : RotatingFile)
    (disk : Disk) : (modifySelf change).run ⟨self, disk⟩ = .ok () ⟨change self, disk⟩ :=
  rfl

theorem run_onDisk_ok {α : Type} {program : FileProgram α} {self : RotatingFile} {a : α}
    {disk later : Disk} (ran : program.run disk = .ok a later) :
    (onDisk program).run ⟨self, disk⟩ = .ok a ⟨self, later⟩ := by
  simp only [onDisk, EStateM.run] at ran ⊢
  rw [ran]

theorem run_onDisk_error {α : Type} {program : FileProgram α} {self : RotatingFile}
    {error : FileError} {disk later : Disk} (failed : program.run disk = .error error later) :
    (onDisk program).run ⟨self, disk⟩ = .error error ⟨self, later⟩ := by
  simp only [onDisk, EStateM.run] at failed ⊢
  rw [failed]

/-- A method that succeeds needs no handler. -/
theorem tryCatch_ok {program : Method Unit} {handler : FileError → Method Unit}
    {state later : LogState} (ran : program.run state = .ok () later) :
    (tryCatch program handler).run state = .ok () later := by
  rw [EStateM.run_tryCatch, ran]

theorem rotateIfDue_skip (gzip : Gzip) {self : RotatingFile} (disk : Disk) {moment : Moment}
    {bytes : Bytes} (early : rotationDue self moment bytes = false) :
    (rotateIfDue gzip moment bytes).run ⟨self, disk⟩ = .ok () ⟨self, disk⟩ := by
  rw [rotateIfDue, run_bind_ok _ (run_getSelf _ _), early]
  rfl

theorem rotateIfDue_ok {self : RotatingFile} {disk : Disk} {moment : Moment} {bytes : Bytes}
    {later : LogState} (due : rotationDue self moment bytes = true)
    (ran : (rotate gzip moment).run ⟨self, disk⟩ = .ok () later) :
    (rotateIfDue gzip moment bytes).run ⟨self, disk⟩ = .ok () later := by
  rw [rotateIfDue, run_bind_ok _ (run_getSelf _ _), due]
  exact tryCatch_ok ran

theorem appendRecord_reliable {self : RotatingFile} {file : String} (bytes : Bytes)
    (opened : self.file = some file) :
    (appendRecord bytes).run ⟨self, reliable directory⟩
      = .ok () ⟨{ self with bytesWritten := self.bytesWritten + bytes.length },
          reliable (directory.modify file (· ++ bytes))⟩ := by
  rw [appendRecord, run_bind_ok _ (run_getSelf _ _)]
  simp only [opened]
  rw [run_bind_ok _ (run_onDisk_ok (appendBytes_reliable _ _ _)), run_modifySelf, opened]

theorem writeAll_reliable {state : LogState} {self : RotatingFile} {file : String}
    {moment : Moment} {bytes : Bytes}
    (ready : (rotateIfDue gzip moment bytes).run state = .ok () ⟨self, reliable directory⟩)
    (opened : self.file = some file) :
    (writeAll gzip moment bytes).run state
      = .ok () ⟨{ self with bytesWritten := self.bytesWritten + bytes.length },
          reliable (directory.modify file (· ++ bytes))⟩ := by
  rw [writeAll, run_bind_ok _ ready, appendRecord_reliable bytes opened]

end Reliable

/-! ## Two lines compressed -/

/-- The gzip files of the lines `a` and `b`. -/
def gzippedA : Bytes :=
  [0x1f, 0x8b, 8, 0, 0, 0, 0, 0, 0, 255, 0x4b, 0xe4, 2, 0, 7, 0xa1, 0xea, 0xdd, 2, 0, 0, 0]

@[inherit_doc gzippedA]
def gzippedB : Bytes :=
  [0x1f, 0x8b, 8, 0, 0, 0, 0, 0, 0, 255, 0x4b, 0xe2, 2, 0, 0xc4, 0xf2, 0xc7, 0xf6, 2, 0, 0, 0]

/-- An encoder that agrees with gzip on the lines `a` and `b`. -/
def lineGzip : Gzip where
  encode bytes :=
    if bytes = [97, 10] then gzippedA else if bytes = [98, 10] then gzippedB else 0 :: bytes
  decode raw :=
    if raw = gzippedA then some [97, 10]
    else if raw = gzippedB then some [98, 10]
    else
      match raw with
      | 0 :: bytes => some bytes
      | _ => none
  decode_encode bytes := by
    by_cases lineA : bytes = [97, 10]
    · simp [lineA]
    · by_cases lineB : bytes = [98, 10]
      · simp [lineB, gzippedA, gzippedB]
      · simp [lineA, lineB, gzippedA, gzippedB]

end RustZero.Log
