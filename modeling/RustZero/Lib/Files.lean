import RustZero.Lib.Programs

/-!
# One directory of files

A directory maps the names of its files to their contents.  A file operation
either takes effect or reports an error, and whether the operating system lets
it through is not the program's choice: a `Disk` carries the fates of the
operations to come, and an operation takes the first of them.  A disk with no
fates left is reliable: an operation on it fails only where the directory makes
it fail, such as renaming a file that does not exist.

The lemmas `*_reliable` run each operation on a reliable disk; the `*_get`
lemmas say what a name reads as afterwards.
-/

namespace RustZero.Lib.Files

open Std (ExtTreeMap)

abbrev Bytes := List UInt8

abbrev Directory := ExtTreeMap String Bytes

inductive FileError where
  | notFound
  | notConnected
  | device
  deriving DecidableEq, Repr

/-- What becomes of an operation: a failing one may have written some bytes. -/
inductive Fate where
  | succeeds
  | fails (written : Nat)
  deriving DecidableEq, Repr

structure Disk where
  directory : Directory
  fates : List Fate

/-- No operation to come fails for an outside reason. -/
def reliable (directory : Directory) : Disk :=
  ⟨directory, []⟩

@[simp] theorem reliable_directory (directory : Directory) :
    (reliable directory).directory = directory :=
  rfl

/-- Programs over a disk; what a failed program did to the disk stays done. -/
abbrev FileProgram := EStateM FileError Disk

/-- The operation that the fates let through. -/
def perform {α : Type} (effect : Directory → Except FileError (α × Directory)) : FileProgram α :=
  fun disk =>
    match effect disk.directory with
    | .ok (result, directory) => .ok result { disk with directory := directory }
    | .error error => .error error disk

/-- One file operation with its effect, and what it leaves behind when it fails
after some bytes. -/
def operation {α : Type} (effect : Directory → Except FileError (α × Directory))
    (torn : Nat → Directory → Directory) : FileProgram α :=
  fun disk =>
    match disk.fates with
    | [] => perform effect disk
    | .succeeds :: fates => perform effect { disk with fates := fates }
    | .fails written :: fates =>
        .error .device { directory := torn written disk.directory, fates := fates }

theorem perform_ok {α : Type} {effect : Directory → Except FileError (α × Directory)} {a : α}
    {disk later : Disk} (ran : perform effect disk = .ok a later) :
    effect disk.directory = .ok (a, later.directory) := by
  rw [perform] at ran
  split at ran
  · rename_i done
    cases ran
    exact done
  · cases ran

theorem perform_error {α : Type} {effect : Directory → Except FileError (α × Directory)}
    {error : FileError} {disk later : Disk} (ran : perform effect disk = .error error later) :
    later = disk := by
  rw [perform] at ran
  split at ran
  · cases ran
  · cases ran
    rfl

/-- An operation that succeeds had its effect. -/
theorem operation_ok {α : Type} {effect : Directory → Except FileError (α × Directory)}
    {torn : Nat → Directory → Directory} {a : α} {disk later : Disk}
    (ran : (operation effect torn).run disk = .ok a later) :
    effect disk.directory = .ok (a, later.directory) := by
  rw [EStateM.run, operation] at ran
  split at ran
  · exact perform_ok ran
  · have performed := perform_ok ran
    exact performed
  · cases ran

/-- An operation that fails changed nothing, or left its part behind. -/
theorem operation_error {α : Type} {effect : Directory → Except FileError (α × Directory)}
    {torn : Nat → Directory → Directory} {error : FileError} {disk later : Disk}
    (ran : (operation effect torn).run disk = .error error later) :
    later.directory = disk.directory ∨
      ∃ written, later.directory = torn written disk.directory := by
  rw [EStateM.run, operation] at ran
  split at ran
  · have same := perform_error ran
    refine .inl ?_
    rw [same]
  · have same := perform_error ran
    refine .inl ?_
    rw [same]
  · cases ran
    exact .inr ⟨_, rfl⟩

/-- Nothing is left behind. -/
def untouched : Nat → Directory → Directory :=
  fun _ directory => directory

/-! ## The operations -/

/-- `Path::exists`: an error reads as absent, so no fate is taken. -/
def fileExists (path : String) : FileProgram Bool :=
  fun disk => .ok (disk.directory.contains path) disk

/-- Open for appending, creating the file if it is absent. -/
def appendFile (path : String) : FileProgram Unit :=
  operation (fun directory => .ok ((), directory.insertIfNew path [])) untouched

/-- The length of an open file. -/
def fileLength (path : String) : FileProgram Nat :=
  operation (fun directory => .ok ((directory[path]?.getD []).length, directory)) untouched

/-- Write to a file opened for appending; a file that was unlinked since takes
the bytes with it. -/
def appendBytes (path : String) (bytes : Bytes) : FileProgram Unit :=
  operation (fun directory => .ok ((), directory.modify path (· ++ bytes)))
    (fun written directory => directory.modify path (· ++ bytes.take written))

def rename (source target : String) : FileProgram Unit :=
  operation (fun directory =>
    match directory[source]? with
    | none => .error .notFound
    | some content => .ok ((), (directory.erase source).insert target content)) untouched

def removeFile (path : String) : FileProgram Unit :=
  operation (fun directory =>
    match directory[path]? with
    | none => .error .notFound
    | some _ => .ok ((), directory.erase path)) untouched

/-- Open for reading, with the content that reading to the end gives. -/
def openFile (path : String) : FileProgram Bytes :=
  operation (fun directory =>
    match directory[path]? with
    | none => .error .notFound
    | some content => .ok (content, directory)) untouched

/-- Create a file, truncating one that exists. -/
def createFile (path : String) : FileProgram Unit :=
  operation (fun directory => .ok ((), directory.insert path [])) untouched

/-- Fill a file just created. -/
def fillFile (path : String) (bytes : Bytes) : FileProgram Unit :=
  operation (fun directory => .ok ((), directory.insert path bytes))
    (fun written directory => directory.insert path (bytes.take written))

/-- A way to list a directory: the order of the names is the operating
system's. -/
structure Listing where
  names : Directory → List String
  perm : ∀ directory, (names directory).Perm directory.keys

/-- The listing in the order of the names. -/
def Listing.sorted : Listing :=
  ⟨fun directory => directory.keys, fun _ => .refl _⟩

def readDirectory (listing : Listing) : FileProgram (List String) :=
  operation (fun directory => .ok (listing.names directory, directory)) untouched

theorem Listing.mem_names (listing : Listing) {directory : Directory} {name : String} :
    name ∈ listing.names directory ↔ name ∈ directory := by
  rw [(listing.perm directory).mem_iff, ExtTreeMap.mem_keys]

theorem Listing.nodup_names (listing : Listing) (directory : Directory) :
    (listing.names directory).Nodup :=
  (listing.perm directory).nodup_iff.mpr ExtTreeMap.nodup_keys

/-! ## What the operations do on a reliable disk -/

section Reliable

variable {directory : Directory} {path name : String} {content : Bytes}

theorem fileExists_reliable (path : String) (directory : Directory) :
    (fileExists path).run (reliable directory)
      = .ok (directory.contains path) (reliable directory) :=
  rfl

theorem appendFile_reliable (path : String) (directory : Directory) :
    (appendFile path).run (reliable directory) =
      .ok () (reliable (directory.insertIfNew path [])) :=
  rfl

theorem fileLength_reliable (path : String) (directory : Directory) :
    (fileLength path).run (reliable directory)
      = .ok (directory[path]?.getD []).length (reliable directory) :=
  rfl

theorem appendBytes_reliable (path : String) (bytes : Bytes) (directory : Directory) :
    (appendBytes path bytes).run (reliable directory)
      = .ok () (reliable (directory.modify path (· ++ bytes))) :=
  rfl

theorem rename_reliable (target : String) (present : directory[path]? = some content) :
    (rename path target).run (reliable directory)
      = .ok () (reliable ((directory.erase path).insert target content)) := by
  simp only [rename, EStateM.run, operation, reliable, perform, present]

theorem removeFile_reliable (present : directory[path]? = some content) :
    (removeFile path).run (reliable directory) = .ok () (reliable (directory.erase path)) := by
  simp only [removeFile, EStateM.run, operation, reliable, perform, present]

theorem openFile_reliable (present : directory[path]? = some content) :
    (openFile path).run (reliable directory) = .ok content (reliable directory) := by
  simp only [openFile, EStateM.run, operation, reliable, perform, present]

theorem createFile_reliable (path : String) (directory : Directory) :
    (createFile path).run (reliable directory) = .ok () (reliable (directory.insert path [])) :=
  rfl

theorem fillFile_reliable (path : String) (bytes : Bytes) (directory : Directory) :
    (fillFile path bytes).run (reliable directory)
      = .ok () (reliable (directory.insert path bytes)) :=
  rfl

theorem readDirectory_reliable (listing : Listing) (directory : Directory) :
    (readDirectory listing).run (reliable directory)
      = .ok (listing.names directory) (reliable directory) :=
  rfl

end Reliable

/-! ## Reading a changed directory -/

section Reading

variable {directory : Directory} {path name : String}

@[simp] theorem get_insert (content : Bytes) :
    (directory.insert path content)[name]? = if path = name then some content
      else directory[name]? := by
  simp only [ExtTreeMap.getElem?_insert, Std.compare_eq_iff_eq]

@[simp] theorem get_erase :
    (directory.erase path)[name]? = if path = name then none else directory[name]? := by
  simp only [ExtTreeMap.getElem?_erase, Std.compare_eq_iff_eq]

@[simp] theorem get_modify (change : Bytes → Bytes) :
    (directory.modify path change)[name]?
      = if path = name then directory[path]?.map change else directory[name]? := by
  simp only [ExtTreeMap.getElem?_modify, Std.compare_eq_iff_eq]

theorem mem_iff_get : path ∈ directory ↔ ∃ content, directory[path]? = some content := by
  rw [ExtTreeMap.mem_iff_isSome_getElem?, Option.isSome_iff_exists]

theorem contains_iff_get :
    directory.contains path = true ↔ ∃ content, directory[path]? = some content := by
  rw [ExtTreeMap.contains_iff_mem, mem_iff_get]

theorem not_contains_iff_get : directory.contains path = false ↔ directory[path]? = none := by
  rw [← Bool.not_eq_true, contains_iff_get, Option.eq_none_iff_forall_ne_some, not_exists]

theorem get_insertIfNew :
    (directory.insertIfNew path [])[name]?
      = if path = name then some (directory[path]?.getD []) else directory[name]? := by
  simp only [ExtTreeMap.getElem?_insertIfNew, Std.compare_eq_iff_eq]
  by_cases same : path = name
  · subst same
    by_cases present : path ∈ directory
    · simp [present]
    · simp [present]
  · simp [same]

end Reading

end RustZero.Lib.Files
