import RustZero.Lib.Chunks
import RustZero.Log

/-!
# Size rotation keeps an ordered suffix

The chunks of the written records (`Lib.Chunks`, with the byte limit of the
policy) are what the files hold: the newest chunk is the active file, the one
before it backup 1, and so on up to the last backup the policy keeps.
`Holds` says so of a directory; `rotateSize` retires a chunk and `writeAll` adds
a record to them.
-/

namespace RustZero.Log

open Lib Lib.Files Lib.Chunks

/-! ## Names of backups -/

theorem backupPath_ne_active (active : String) (index : Nat) :
    backupPath active index ≠ active := by
  intro same
  have longer := congrArg String.length same
  simp only [backupPath, String.length_append] at longer
  have dot : ".".length = 1 := rfl
  omega

theorem gzip_backupPath_ne_active (active : String) (index : Nat) :
    gzipPath (backupPath active index) ≠ active := by
  intro same
  have longer := congrArg String.length same
  simp only [gzipPath, backupPath, String.length_append] at longer
  have dot : ".".length = 1 := rfl
  omega

theorem backupPath_toList (active : String) (index : Nat) :
    (backupPath active index).toList = active.toList ++ '.' :: Nat.toDigits 10 index := by
  simp [backupPath]

theorem gzipPath_toList (path : String) :
    (gzipPath path).toList = path.toList ++ ['.', 'g', 'z'] := by
  simp [gzipPath]

theorem backupPath_inj {active : String} {left right : Nat} :
    backupPath active left = backupPath active right ↔ left = right := by
  refine ⟨?_, fun same => same ▸ rfl⟩
  intro same
  have lists := congrArg String.toList same
  rw [backupPath_toList, backupPath_toList] at lists
  have digits := List.tail_eq_of_cons_eq (List.append_cancel_left lists)
  have read := congrArg (Nat.ofDigitChars 10 · 0) digits
  simpa using read

theorem isDigit_of_mem_toDigits {index : Nat} {c : Char} (member : c ∈ Nat.toDigits 10 index) :
    c.isDigit = true :=
  Nat.isDigit_of_mem_toDigits (by decide) (by decide) member

/-- A backup's name ends in a digit, a compressed file's in a letter. -/
theorem backupPath_ne_gzipPath (active path : String) (index : Nat) :
    backupPath active index ≠ gzipPath path := by
  intro same
  have lists := congrArg String.toList same
  rw [backupPath_toList, gzipPath_toList] at lists
  have last := congrArg (·.getLast?) lists
  have digits : Nat.toDigits 10 index ≠ [] := Nat.toDigits_ne_nil
  rw [List.getLast?_append_of_ne_nil _ (List.cons_ne_nil _ _), List.getLast?_cons_of_ne_nil digits,
    List.getLast?_append_of_ne_nil _ (List.cons_ne_nil _ _)] at last
  have member := isDigit_of_mem_toDigits (List.mem_of_getLast? last)
  exact absurd member (by decide)

/-- What follows a dot that no later dot hides is the extension. -/
theorem extension_of_toList {path : String} {base ending : List Char}
    (parts : path.toList = base ++ '.' :: ending) (named : base ≠ [])
    (undotted : '.' ∉ ending) (nonempty : ending ≠ []) :
    extension path = some (String.ofList ending) := by
  have reversed : path.toList.reverse = ending.reverse ++ '.' :: base.reverse := by
    simp [parts]
  have before : ∀ c ∈ ending.reverse, decide (c ≠ '.') = true := by
    intro c member
    exact decide_eq_true fun dot => undotted (dot ▸ List.mem_reverse.mp member)
  have dropped : path.toList.reverse.dropWhile (· ≠ '.') = '.' :: base.reverse := by
    rw [reversed, List.dropWhile_append_of_pos before]
    rfl
  have taken : path.toList.reverse.takeWhile (· ≠ '.') = ending.reverse := by
    rw [reversed, List.takeWhile_append_of_pos before]
    simp
  have other : path ≠ ".." := by
    intro dots
    have length := congrArg List.length parts
    have before := List.length_pos_iff.mpr named
    have after := List.length_pos_iff.mpr nonempty
    rw [dots, List.length_append, List.length_cons] at length
    have two : "..".toList.length = 2 := rfl
    omega
  rw [extension, if_neg other, dropped, taken, List.reverse_reverse]
  split
  · rename_i h
    cases h
  · rename_i h
    simp [named] at h
  · rfl

theorem isGzip_gzipPath_backupPath (active : String) (index : Nat) :
    isGzip (gzipPath (backupPath active index)) = true := by
  have parts := gzipPath_toList (backupPath active index)
  rw [isGzip, extension_of_toList parts _ (by decide) (by decide)]
  · rfl
  · rw [backupPath_toList]
    simp

theorem isGzip_backupPath {active : String} (named : active ≠ "") (index : Nat) :
    isGzip (backupPath active index) = false := by
  have parts := backupPath_toList active index
  have undotted : '.' ∉ Nat.toDigits 10 index := by
    intro member
    exact absurd (isDigit_of_mem_toDigits member) (by decide)
  rw [isGzip, extension_of_toList parts (by simpa using named) undotted Nat.toDigits_ne_nil,
    decide_eq_false_iff_not]
  intro same
  have digits := congrArg String.toList (Option.some.inj same)
  rw [String.toList_ofList] at digits
  have member : 'g' ∈ Nat.toDigits 10 index := digits ▸ List.mem_cons_self
  exact absurd (isDigit_of_mem_toDigits member) (by decide)

/-! ## Slots -/

/-- The name is one of the two forms of a backup. -/
def InSlot (active : String) (index : Nat) (name : String) : Prop :=
  name = backupPath active index ∨ name = gzipPath (backupPath active index)

/-- Backup `index` reads as `content`, in one form; or it is absent. -/
def Slot (gzip : Gzip) (active : String) (directory : Directory) (index : Nat) :
    Option Bytes → Prop
  | none =>
      directory[backupPath active index]? = none
        ∧ directory[gzipPath (backupPath active index)]? = none
  | some content =>
      (directory[backupPath active index]? = some content
        ∧ directory[gzipPath (backupPath active index)]? = none)
      ∨ (directory[backupPath active index]? = none
        ∧ ∃ raw, directory[gzipPath (backupPath active index)]? = some raw
          ∧ gzip.decode raw = some content)

section Slots

variable {gzip : Gzip} {active : String} {directory later : Directory} {content : Option Bytes}
  {index other : Nat} {name : String}

theorem InSlot.unique (left : InSlot active index name) (right : InSlot active other name) :
    index = other := by
  rcases left with rfl | rfl
  · rcases right with same | same
    · exact backupPath_inj.mp same
    · exact absurd same (backupPath_ne_gzipPath _ _ _)
  · rcases right with same | same
    · exact absurd same.symm (backupPath_ne_gzipPath _ _ _)
    · exact backupPath_inj.mp (gzipPath_inj.mp same)

theorem InSlot.ne_active (member : InSlot active index name) : name ≠ active := by
  rcases member with rfl | rfl
  · exact backupPath_ne_active _ _
  · exact gzip_backupPath_ne_active _ _

/-- Nothing changed but the backups in `slots`. -/
def Frame (active : String) (slots : Nat → Prop) (directory later : Directory) : Prop :=
  ∀ name, (∀ index, slots index → ¬ InSlot active index name) → later[name]? = directory[name]?

theorem Slot.congr (slot : Slot gzip active directory index content)
    (same : ∀ name, InSlot active index name → later[name]? = directory[name]?) :
    Slot gzip active later index content := by
  have plain := same _ (Or.inl rfl)
  have zipped := same _ (Or.inr rfl)
  cases content with
  | none => rwa [Slot, plain, zipped]
  | some content => rwa [Slot, plain, zipped]

theorem Frame.slot {slots : Nat → Prop} (frame : Frame active slots directory later)
    (outside : ¬ slots index) (slot : Slot gzip active directory index content) :
    Slot gzip active later index content := by
  refine slot.congr fun name member => frame name fun other changed within => ?_
  rw [within.unique member] at changed
  exact outside changed

theorem Frame.get_active {slots : Nat → Prop} (frame : Frame active slots directory later) :
    later[active]? = directory[active]? :=
  frame active fun _ _ member => member.ne_active rfl

theorem Frame.trans {first second : Nat → Prop} {mid : Directory}
    (left : Frame active first directory mid) (right : Frame active second mid later) :
    Frame active (fun index => first index ∨ second index) directory later := by
  intro name outside
  rw [right name fun index changed => outside index (Or.inr changed),
    left name fun index changed => outside index (Or.inl changed)]

/-! ## Moving the files -/

theorem removeBackup_reliable (gzip : Gzip) (active : String) (directory : Directory)
    (index : Nat) :
    ∃ later, (removeBackup (backupPath active index)).run (reliable directory)
        = .ok () (reliable later)
      ∧ Slot gzip active later index none ∧ Frame active (· = index) directory later := by
  refine ⟨(directory.erase (backupPath active index)).erase (gzipPath (backupPath active index)),
    ?_, ⟨?_, ?_⟩, ?_⟩
  · rw [removeBackup, run_bind_ok _ (removeExisting_reliable _ _), removeExisting_reliable]
  · simp
  · simp
  · intro name outside
    have plain : backupPath active index ≠ name := fun same => outside index rfl (Or.inl same.symm)
    have zipped : gzipPath (backupPath active index) ≠ name :=
      fun same => outside index rfl (Or.inr same.symm)
    simp [plain, zipped]

/-- A rename from one slot to a free one, in the form the file has. -/
theorem rename_slot {source target : String} {raw : Bytes} (here : InSlot active index source)
    (there : InSlot active other target) (apart : index ≠ other)
    (present : directory[source]? = some raw) :
    ∃ later, (rename source target).run (reliable directory) = .ok () (reliable later)
      ∧ later[target]? = some raw ∧ later[source]? = none
      ∧ ∀ name, name ≠ source → name ≠ target → later[name]? = directory[name]? := by
  refine ⟨_, rename_reliable target present, ?_, ?_, ?_⟩
  · simp
  · have distinct : target ≠ source := by
      intro same
      exact apart (here.unique (same ▸ there))
    simp [distinct]
  · intro name notSource notTarget
    simp [Ne.symm notSource, Ne.symm notTarget]

theorem existingBackup_reliable (path : String) (directory : Directory) :
    (existingBackup path).run (reliable directory)
      = .ok (if directory.contains path then some path
          else if directory.contains (gzipPath path) then some (gzipPath path) else none)
        (reliable directory) := by
  rw [existingBackup, run_bind_ok _ (fileExists_reliable _ _)]
  split
  · rfl
  · rw [run_bind_ok _ (fileExists_reliable _ _)]
    split
    · rfl
    · rfl

theorem frame_of_rename {source target : String} (here : InSlot active index source)
    (there : InSlot active other target)
    (kept : ∀ name, name ≠ source → name ≠ target → later[name]? = directory[name]?) :
    Frame active (fun i => i = index ∨ i = other) directory later := by
  intro name outside
  refine kept name ?_ ?_
  · intro same
    exact outside index (Or.inl rfl) (same ▸ here)
  · intro same
    exact outside other (Or.inr rfl) (same ▸ there)

theorem shiftBackup_reliable (named : active ≠ "")
    (slot : Slot gzip active directory index content)
    (free : Slot gzip active directory (index + 1) none) :
    ∃ later, (shiftBackup active index).run (reliable directory) = .ok () (reliable later)
      ∧ Slot gzip active later (index + 1) content ∧ Slot gzip active later index none
      ∧ Frame active (fun i => i = index ∨ i = index + 1) directory later := by
  obtain ⟨freePlain, freeZipped⟩ := free
  have apart : index ≠ index + 1 := by omega
  have plainNe : backupPath active index ≠ backupPath active (index + 1) :=
    fun same => apart (backupPath_inj.mp same)
  have zippedNe : gzipPath (backupPath active index) ≠ gzipPath (backupPath active (index + 1)) :=
    fun same => plainNe (gzipPath_inj.mp same)
  rw [shiftBackup, run_bind_ok _ (existingBackup_reliable _ _)]
  cases content with
  | none =>
      obtain ⟨plain, zipped⟩ := slot
      rw [not_contains_iff_get.mpr plain, not_contains_iff_get.mpr zipped]
      exact ⟨directory, rfl, ⟨freePlain, freeZipped⟩, ⟨plain, zipped⟩, fun _ _ => rfl⟩
  | some content =>
      rcases slot with ⟨plain, zipped⟩ | ⟨plain, raw, zipped, decoded⟩
      · rw [contains_iff_get.mpr ⟨content, plain⟩]
        obtain ⟨later, ran, target, source, kept⟩ :=
          rename_slot (Or.inl rfl) (Or.inl rfl) apart plain
        refine ⟨later, ?_, Or.inl ⟨target, ?_⟩, ⟨source, ?_⟩,
          frame_of_rename (Or.inl rfl) (Or.inl rfl) kept⟩
        · simpa [isGzip_backupPath named] using ran
        · rw [kept _ (backupPath_ne_gzipPath _ _ _).symm (backupPath_ne_gzipPath _ _ _).symm,
            freeZipped]
        · rw [kept _ (backupPath_ne_gzipPath _ _ _).symm (backupPath_ne_gzipPath _ _ _).symm,
            zipped]
      · rw [not_contains_iff_get.mpr plain, contains_iff_get.mpr ⟨raw, zipped⟩]
        obtain ⟨later, ran, target, source, kept⟩ :=
          rename_slot (Or.inr rfl) (Or.inr rfl) apart zipped
        refine ⟨later, ?_, Or.inr ⟨?_, raw, target, decoded⟩, ⟨?_, source⟩,
          frame_of_rename (Or.inr rfl) (Or.inr rfl) kept⟩
        · simpa [isGzip_gzipPath_backupPath] using ran
        · rw [kept _ (backupPath_ne_gzipPath _ _ _) (backupPath_ne_gzipPath _ _ _), freePlain]
        · rw [kept _ (backupPath_ne_gzipPath _ _ _) (backupPath_ne_gzipPath _ _ _), plain]

/-- The loop runs from the oldest backup down, so that each finds the slot above
it free. -/
theorem shiftBackups_reliable (named : active ≠ "") {contents : Nat → Option Bytes} (count : Nat)
    {directory : Directory}
    (slots : ∀ index, 1 ≤ index → index ≤ count → Slot gzip active directory index (contents index))
    (free : Slot gzip active directory (count + 1) none) :
    ∃ later, (shiftBackups active count).run (reliable directory) = .ok () (reliable later)
      ∧ (∀ index, 1 ≤ index → index ≤ count →
          Slot gzip active later (index + 1) (contents index))
      ∧ Slot gzip active later 1 none
      ∧ Frame active (fun index => 1 ≤ index ∧ index ≤ count + 1) directory later := by
  induction count generalizing directory with
  | zero => exact ⟨directory, rfl, fun index low high => by omega, free, fun _ _ => rfl⟩
  | succ count ih =>
      obtain ⟨mid, first, moved, vacated, frame⟩ :=
        shiftBackup_reliable named (slots (count + 1) (by omega) (by omega)) free
      have below : ∀ index, 1 ≤ index → index ≤ count →
          Slot gzip active mid index (contents index) := by
        intro index low high
        exact frame.slot (by omega) (slots index low (by omega))
      obtain ⟨later, rest, shifted, first1, frame'⟩ := ih below vacated
      refine ⟨later, ?_, ?_, first1, ?_⟩
      · rw [shiftBackups, run_bind_ok _ first, rest]
      · intro index low high
        by_cases top : index = count + 1
        · rw [top]
          exact frame'.slot (by omega) moved
        · exact shifted index low (by omega)
      · intro name outside
        refine (frame.trans frame') name fun index changed => outside index ?_
        rcases changed with (same | same) | ⟨low, high⟩
        · omega
        · omega
        · omega

theorem retireActive_reliable {current : Bytes} (compressRotated : Bool)
    (present : directory[active]? = some current) (free : Slot gzip active directory 1 none) :
    ∃ later, (retireActive gzip compressRotated active (backupPath active 1)).run
        (reliable directory) = .ok () (reliable later)
      ∧ later[active]? = none ∧ Slot gzip active later 1 (some current)
      ∧ ∀ name, name ≠ active → ¬ InSlot active 1 name → later[name]? = directory[name]? := by
  obtain ⟨freePlain, freeZipped⟩ := free
  have notActive : backupPath active 1 ≠ active := backupPath_ne_active _ _
  have notZipped : backupPath active 1 ≠ gzipPath (backupPath active 1) :=
    (gzipPath_ne _).symm
  have zippedNotActive : gzipPath (backupPath active 1) ≠ active := gzip_backupPath_ne_active _ _
  have renamed := rename_reliable (backupPath active 1) present
  rw [retireActive, run_bind_ok _ renamed]
  cases compressRotated with
  | false =>
      refine ⟨_, rfl, ?_, Or.inl ⟨?_, ?_⟩, ?_⟩
      · simp [notActive]
      · simp
      · simp [notZipped, zippedNotActive.symm, freeZipped]
      · intro name notName outside
        have plain : backupPath active 1 ≠ name := fun same => outside (Or.inl same.symm)
        simp [plain, notName.symm]
  | true =>
      have moved : ((directory.erase active).insert (backupPath active 1) current)[
          backupPath active 1]? = some current := by
        simp
      refine ⟨_, compressFile_reliable moved, ?_, Or.inr ⟨?_, gzip.encode current, ?_, ?_⟩, ?_⟩
      · simp [compressed_get, notActive, zippedNotActive]
      · simp [compressed_get]
      · simp [compressed_get, notZipped]
      · exact gzip.decode_encode current
      · intro name notName outside
        have plain : backupPath active 1 ≠ name := fun same => outside (Or.inl same.symm)
        have zipped : gzipPath (backupPath active 1) ≠ name :=
          fun same => outside (Or.inr same.symm)
        simp [compressed_get, plain, zipped, notName.symm]

end Slots

/-- The directory holds the active file and the backups, newest first, and
nothing else. -/
structure Holds (gzip : Gzip) (active : String) (directory : Directory) (current : Bytes)
    (backups : List Bytes) : Prop where
  opened : directory[active]? = some current
  slots : ∀ index, 1 ≤ index → Slot gzip active directory index backups[index - 1]?
  others : ∀ name, name ≠ active → (∀ index, 1 ≤ index → ¬ InSlot active index name) →
    directory[name]? = none

section Rotation

variable {gzip : Gzip} {active : String} {directory : Directory} {current : Bytes}
  {backups : List Bytes}

/-- Retiring the active file drops the backup that there is no slot for. -/
theorem moveFiles_reliable (named : active ≠ "")
    (holds : Holds gzip active directory current backups)
    {maxBackups : Nat} (kept : 1 ≤ maxBackups) (bounded : backups.length ≤ maxBackups)
    (compressRotated : Bool) (serviceName : String) (nanos : Nat) :
    ∃ later, (moveFiles gzip compressRotated serviceName active nanos maxBackups).run
        (reliable directory) = .ok () (reliable later)
      ∧ Holds gzip active (later.insertIfNew active []) []
          ((current :: backups).take maxBackups) := by
  obtain ⟨removed, ranRemove, free, frameRemove⟩ :=
    removeBackup_reliable gzip active directory maxBackups
  have below : ∀ index, 1 ≤ index → index ≤ maxBackups - 1 →
      Slot gzip active removed index backups[index - 1]? := by
    intro index low high
    exact frameRemove.slot (by omega) (holds.slots index low)
  have top : maxBackups - 1 + 1 = maxBackups := by omega
  obtain ⟨shifted, ranShift, moved, first, frameShift⟩ :=
    shiftBackups_reliable named (maxBackups - 1) below (top.symm ▸ free)
  have present : shifted[active]? = some current := by
    rw [frameShift.get_active, frameRemove.get_active, holds.opened]
  obtain ⟨later, ranRetire, gone, newest, unmoved⟩ :=
    retireActive_reliable compressRotated present first
  refine ⟨later, ?_, ?_⟩
  · rw [moveFiles, if_neg (by omega), run_bind_ok _ ranRemove, run_bind_ok _ ranShift,
      run_bind_ok _ (fileExists_reliable _ _), contains_iff_get.mpr ⟨current, present⟩]
    exact ranRetire
  · have frame := frameRemove.trans frameShift
    -- slot 1 holds what was active, each other slot what the one below it held
    have slots : ∀ index, 1 ≤ index →
        Slot gzip active later index ((current :: backups).take maxBackups)[index - 1]? := by
      intro index low
      by_cases head : index = 1
      · subst head
        rw [List.getElem?_take_of_lt (by omega)]
        exact newest
      · have untouched : ∀ name, InSlot active index name → later[name]? = shifted[name]? := by
          intro name member
          exact unmoved name member.ne_active fun within => head (member.unique within)
        refine Slot.congr ?_ untouched
        by_cases within : index ≤ maxBackups
        · have position : index - 1 - 1 + 1 = index - 1 := by omega
          have shift := moved (index - 1) (by omega) (by omega)
          rw [show index - 1 + 1 = index by omega] at shift
          rwa [List.getElem?_take_of_lt (by omega), ← position, List.getElem?_cons_succ]
        · have beyond : backups[index - 1]? = none := List.getElem?_eq_none (by omega)
          have absent := holds.slots index low
          rw [beyond] at absent
          rw [List.getElem?_take_eq_none (by omega)]
          exact frame.slot (by omega) absent
    refine ⟨?_, ?_, ?_⟩
    · rw [get_insertIfNew, if_pos rfl, gone]
      rfl
    · intro index low
      refine (slots index low).congr fun name member => ?_
      rw [get_insertIfNew, if_neg member.ne_active.symm]
    · intro name notActive outside
      rw [get_insertIfNew, if_neg notActive.symm, unmoved name notActive (outside 1 le_rfl)]
      rw [frame name fun index changed => outside index (by omega)]
      exact holds.others name notActive outside

/-- Bytes written to the active file. -/
theorem Holds.append (holds : Holds gzip active directory current backups) (bytes : Bytes) :
    Holds gzip active (directory.modify active (· ++ bytes)) (current ++ bytes) backups := by
  refine ⟨?_, ?_, ?_⟩
  · simp [holds.opened]
  · intro index low
    refine (holds.slots index low).congr fun name member => ?_
    rw [get_modify, if_neg member.ne_active.symm]
  · intro name notActive outside
    rw [get_modify, if_neg notActive.symm]
    exact holds.others name notActive outside

end Rotation

/-! ## Runs -/

/-- The rotating file after these records were written to it. -/
structure Tracks (gzip : Gzip) (maxBytes maxBackups : Nat) (state : LogState)
    (records : List Bytes) : Prop where
  rotation : state.self.rotation = .size maxBytes maxBackups
  file : state.self.file = some state.self.activePath
  named : state.self.activePath ≠ ""
  reliable : state.disk.fates = []
  chunks : ∃ chunk older, chunked List.length maxBytes records = chunk :: older
    ∧ state.self.bytesWritten = weight List.length chunk
    ∧ Holds gzip state.self.activePath state.disk.directory chunk.flatten
        ((older.map List.flatten).take maxBackups)

section Runs

variable {gzip : Gzip} {maxBytes maxBackups : Nat} {state : LogState} {records : List Bytes}

theorem rotateSize_reliable {self : RotatingFile} {directory : Directory} {current : Bytes}
    {backups : List Bytes} (rotation : self.rotation = .size maxBytes maxBackups)
    (named : self.activePath ≠ "")
    (holds : Holds gzip self.activePath directory current backups) (kept : 1 ≤ maxBackups)
    (bounded : backups.length ≤ maxBackups) (moment : Moment) :
    ∃ later, (rotateSize gzip moment).run ⟨self, reliable directory⟩
        = .ok () ⟨{ self with file := some self.activePath, bytesWritten := 0 }, reliable later⟩
      ∧ Holds gzip self.activePath later [] ((current :: backups).take maxBackups) := by
  obtain ⟨later, ran, retired⟩ := moveFiles_reliable named holds kept bounded
    self.compressRotated self.serviceName moment.nanos
  refine ⟨later.insertIfNew self.activePath [], ?_, retired⟩
  rw [rotateSize, run_bind_ok _ (run_getSelf _ _)]
  simp only [rotation]
  rw [run_bind_ok _ (run_modifySelf _ _ _), run_bind_ok _ (run_onDisk_ok ran),
    run_bind_ok _ (run_onDisk_ok (appendFile_reliable _ _)), run_modifySelf]
  simp only [rotation]

theorem rotationDue_iff_overflows {self : RotatingFile} {chunk : List Bytes}
    (rotation : self.rotation = .size maxBytes maxBackups)
    (counted : self.bytesWritten = weight List.length chunk) (moment : Moment) (bytes : Bytes) :
    rotationDue self moment bytes = true ↔ Overflows List.length maxBytes chunk bytes := by
  rw [rotationDue, rotation, Overflows]
  simp [counted]

theorem take_cons_take {α : Type} {count : Nat} (some : 1 ≤ count) (a : α) (l : List α) :
    (a :: l.take count).take count = (a :: l).take count := by
  obtain ⟨fewer, rfl⟩ : ∃ fewer, count = fewer + 1 := ⟨count - 1, by omega⟩
  rw [List.take_succ_cons, List.take_succ_cons, List.take_take, Nat.min_eq_left (by omega)]

/-- One write adds its record to the chunks. -/
theorem writeAll_tracks (kept : 1 ≤ maxBackups)
    (tracks : Tracks gzip maxBytes maxBackups state records) (moment : Moment) (bytes : Bytes) :
    ∃ later, (writeAll gzip moment bytes).run state = .ok () later
      ∧ Tracks gzip maxBytes maxBackups later (records ++ [bytes]) := by
  obtain ⟨self, directory, fates⟩ := state
  obtain ⟨rotation, file, named, noFates, chunk, older, cut, counted, holds⟩ := tracks
  dsimp only at rotation file named noFates counted holds
  subst noFates
  have bounded : ((older.map List.flatten).take maxBackups).length ≤ maxBackups :=
    List.length_take_le _ _
  by_cases overflows : Overflows List.length maxBytes chunk bytes
  · obtain ⟨rotated, ran, fresh⟩ :=
      rotateSize_reliable rotation named holds kept bounded moment
    have due := (rotationDue_iff_overflows rotation counted moment bytes).mpr overflows
    have rotates : (rotate gzip moment).run ⟨self, reliable directory⟩
        = .ok () ⟨{ self with file := some self.activePath, bytesWritten := 0 },
            reliable rotated⟩ := by
      rw [rotate, run_bind_ok _ (run_getSelf _ _)]
      simp only [rotation]
      rw [ran, rotation]
    have wrote := writeAll_reliable (rotateIfDue_ok due rotates) rfl
    refine ⟨_, wrote, rotation, rfl, named, rfl, [bytes], chunk :: older, ?_, ?_, ?_⟩
    · rw [chunked_append, cut, add, if_pos overflows]
    · simp [weight_singleton]
    · have appended := fresh.append bytes
      rw [List.nil_append, take_cons_take kept] at appended
      simpa using appended
  · have early : rotationDue self moment bytes = false := by
      rw [← Bool.not_eq_true, rotationDue_iff_overflows rotation counted moment bytes]
      exact overflows
    have wrote := writeAll_reliable (rotateIfDue_skip gzip (reliable directory) early) file
    refine ⟨_, wrote, rotation, file, named, rfl, chunk ++ [bytes], older, ?_, ?_, ?_⟩
    · rw [chunked_append, cut, add, if_neg overflows]
    · rw [weight_append, weight_singleton, ← counted]
    · have appended := holds.append bytes
      simpa using appended

def writeRecords (gzip : Gzip) (writes : List (Moment × Bytes)) : Method Unit :=
  writes.forM fun write => writeAll gzip write.1 write.2

theorem writeRecords_tracks (kept : 1 ≤ maxBackups) (writes : List (Moment × Bytes))
    {state : LogState} {records : List Bytes}
    (tracks : Tracks gzip maxBytes maxBackups state records) :
    ∃ later, (writeRecords gzip writes).run state = .ok () later
      ∧ Tracks gzip maxBytes maxBackups later (records ++ writes.map Prod.snd) := by
  induction writes generalizing state records with
  | nil => exact ⟨state, rfl, by simpa using tracks⟩
  | cons write writes ih =>
      obtain ⟨mid, first, tracked⟩ := writeAll_tracks kept tracks write.1 write.2
      obtain ⟨later, rest, tracked⟩ := ih tracked
      refine ⟨later, ?_, by simpa using tracked⟩
      rw [writeRecords, List.forM_eq_forM, List.forM_cons, run_bind_ok _ first]
      exact rest

theorem holds_fresh (gzip : Gzip) (active : String) :
    Holds gzip active ((∅ : Directory).insertIfNew active []) [] [] := by
  have absent : ∀ name, name ≠ active → ((∅ : Directory).insertIfNew active [])[name]? = none := by
    intro name notActive
    rw [get_insertIfNew, if_neg notActive.symm]
    rfl
  refine ⟨?_, ?_, fun name notActive _ => absent name notActive⟩
  · rw [get_insertIfNew, if_pos rfl]
    rfl
  · intro index _
    rw [List.getElem?_nil]
    exact ⟨absent _ (backupPath_ne_active _ _), absent _ (gzip_backupPath_ne_active _ _)⟩

theorem new_tracks (gzip : Gzip) (listing : Listing) (today : Int) (serviceName : String)
    (maxBytes maxBackups : Nat) (retentionDays : Option Nat) (compressRotated : Bool) :
    ∃ self directory, (RotatingFile.new gzip listing today serviceName (.size maxBytes maxBackups)
        retentionDays compressRotated).run (reliable ∅) = .ok self (reliable directory)
      ∧ Tracks gzip maxBytes maxBackups ⟨self, reliable directory⟩ [] := by
  have fresh := holds_fresh gzip (safeFileName serviceName ++ ".log")
  refine ⟨_, (∅ : Directory).insertIfNew (safeFileName serviceName ++ ".log") [], rfl, rfl, rfl, ?_,
    rfl, [], [], rfl, ?_, ?_⟩
  · intro empty
    have length := congrArg String.length empty
    rw [logPath, String.length_append] at length
    have ending : ".log".length = 4 := rfl
    have none : "".length = 0 := rfl
    omega
  · exact congrArg (fun content => (content.getD []).length) fresh.opened
  · rw [List.map_nil, List.take_nil]
    exact fresh

end Runs

/-! ## What the files hold -/

/-- A backup read back, decompressed if it is in that form. -/
def readBackup (gzip : Gzip) (active : String) (directory : Directory) (index : Nat) :
    Option Bytes :=
  match directory[backupPath active index]? with
  | some content => some content
  | none => directory[gzipPath (backupPath active index)]?.bind gzip.decode

/-- The contents of the files that exist, oldest first: the backups from the last
index down to 1, then the active file. -/
def files (gzip : Gzip) (active : String) (directory : Directory) (maxBackups : Nat) :
    List Bytes :=
  (List.range' 1 maxBackups).reverse.filterMap (readBackup gzip active directory)
    ++ directory[active]?.toList

/-- The directory keeps an ordered suffix of the records. -/
structure KeepsSuffix (gzip : Gzip) (maxBytes maxBackups : Nat) (active : String)
    (directory : Directory) (records : List Bytes) : Prop where
  /-- Reading the files in order gives the records from some point on. -/
  suffix : ∃ dropped kept, records = dropped ++ kept
    ∧ (files gzip active directory maxBackups).flatten = kept.flatten
  /-- A backup has one form. -/
  oneForm : ∀ index, 1 ≤ index →
    backupPath active index ∉ directory ∨ gzipPath (backupPath active index) ∉ directory
  contiguous : ∀ index, 1 ≤ index → (readBackup gzip active directory (index + 1)).isSome →
    (readBackup gzip active directory index).isSome
  /-- There is nothing but the active file and backups `1` to `maxBackups`. -/
  atMost : ∀ name ∈ directory, name = active
    ∨ ∃ index, 1 ≤ index ∧ index ≤ maxBackups ∧ InSlot active index name
  /-- Each file holds whole records, and is within the limit unless it holds a
  single one; files, lost and kept, were filled in turn; and none was lost
  unless all the others are there. -/
  segments : ∃ lost kept : List (List Bytes), records = (lost ++ kept).flatten
    ∧ files gzip active directory maxBackups = kept.map List.flatten
    ∧ (∀ segment ∈ kept, Fits List.length maxBytes segment)
    ∧ (lost ++ kept).IsChain (fun older newer => Filled List.length maxBytes newer older)
    ∧ (lost ≠ [] → kept.length = maxBackups + 1)

section Reading

variable {gzip : Gzip} {active : String} {directory : Directory} {current : Bytes}
  {backups : List Bytes} {maxBytes maxBackups index : Nat} {content : Option Bytes}

theorem Slot.readBackup_eq (slot : Slot gzip active directory index content) :
    readBackup gzip active directory index = content := by
  cases content with
  | none =>
      obtain ⟨plain, zipped⟩ := slot
      simp [readBackup, plain, zipped]
  | some content =>
      rcases slot with ⟨plain, zipped⟩ | ⟨plain, raw, zipped, decoded⟩
      · simp [readBackup, plain]
      · simp [readBackup, plain, zipped, decoded]

theorem filterMap_getElem?_range {α : Type} (l : List α) (count : Nat) :
    (List.range count).filterMap (l[·]?) = l.take count := by
  induction count with
  | zero => rfl
  | succ count ih =>
      rw [List.range_succ, List.filterMap_append, ih, List.take_add_one]
      cases found : l[count]? with
      | none => simp [found]
      | some a => simp [found]

theorem Holds.files_eq (holds : Holds gzip active directory current backups)
    (bounded : backups.length ≤ maxBackups) :
    files gzip active directory maxBackups = (current :: backups).reverse := by
  have read : ∀ index ∈ List.range' 1 maxBackups,
      readBackup gzip active directory index = backups[index - 1]? := by
    intro index member
    exact (holds.slots index (List.mem_range'_1.mp member).1).readBackup_eq
  have existing : (List.range' 1 maxBackups).filterMap (readBackup gzip active directory)
      = backups := by
    rw [List.filterMap_congr read, List.range'_eq_map_range, List.filterMap_map]
    have shifted : (fun index => backups[index - 1]?) ∘ (1 + ·) = (backups[·]?) := by
      funext index
      simp
    rw [shifted, filterMap_getElem?_range, List.take_of_length_le bounded]
  rw [files, List.filterMap_reverse, existing, holds.opened, List.reverse_cons]
  rfl

theorem Holds.one_form (holds : Holds gzip active directory current backups) (low : 1 ≤ index) :
    backupPath active index ∉ directory ∨ gzipPath (backupPath active index) ∉ directory := by
  have missing : ∀ name, directory[name]? = none → name ∉ directory := by
    intro name none member
    obtain ⟨content, found⟩ := mem_iff_get.mp member
    simp [none] at found
  have slot := holds.slots index low
  cases backup : backups[index - 1]? with
  | none =>
      rw [backup] at slot
      exact Or.inl (missing _ slot.1)
  | some content =>
      rw [backup] at slot
      rcases slot with ⟨plain, zipped⟩ | ⟨plain, _⟩
      · exact Or.inr (missing _ zipped)
      · exact Or.inl (missing _ plain)

theorem Holds.contiguous (holds : Holds gzip active directory current backups) (low : 1 ≤ index)
    (next : (readBackup gzip active directory (index + 1)).isSome) :
    (readBackup gzip active directory index).isSome := by
  rw [(holds.slots (index + 1) (by omega)).readBackup_eq] at next
  rw [(holds.slots index low).readBackup_eq]
  simp only [isSome_getElem?] at next ⊢
  omega

theorem Holds.at_most (holds : Holds gzip active directory current backups)
    (bounded : backups.length ≤ maxBackups) {name : String} (member : name ∈ directory) :
    name = active ∨ ∃ index, 1 ≤ index ∧ index ≤ maxBackups ∧ InSlot active index name := by
  obtain ⟨raw, found⟩ := mem_iff_get.mp member
  by_cases same : name = active
  · exact Or.inl same
  by_cases backup : ∃ index, 1 ≤ index ∧ InSlot active index name
  · obtain ⟨index, low, within⟩ := backup
    refine Or.inr ⟨index, low, ?_, within⟩
    by_contra beyond
    have slot := holds.slots index low
    rw [List.getElem?_eq_none (by omega)] at slot
    rcases within with rfl | rfl
    · simp [slot.1] at found
    · simp [slot.2] at found
  · have absent := holds.others name same fun index low within => backup ⟨index, low, within⟩
    simp [absent] at found

end Reading

theorem Tracks.keepsSuffix {gzip : Gzip} {maxBytes maxBackups : Nat} {state : LogState}
    {records : List Bytes} (tracks : Tracks gzip maxBytes maxBackups state records) :
    KeepsSuffix gzip maxBytes maxBackups state.self.activePath state.disk.directory records := by
  obtain ⟨chunk, older, cut, -, holds⟩ := tracks.chunks
  have bounded : ((older.map List.flatten).take maxBackups).length ≤ maxBackups :=
    List.length_take_le _ _
  have stream := flatten_chunked List.length maxBytes records
  have filled := chunked_filled List.length maxBytes records
  rw [cut] at stream filled
  have parts : (older.drop maxBackups).reverse ++ (chunk :: older.take maxBackups).reverse
      = (chunk :: older).reverse := by
    rw [← List.reverse_append, List.cons_append, List.take_append_drop]
  have read : files gzip state.self.activePath state.disk.directory maxBackups
      = (chunk :: older.take maxBackups).reverse.map List.flatten := by
    rw [holds.files_eq bounded, List.map_reverse, List.map_cons, List.map_take]
  refine ⟨⟨(older.drop maxBackups).reverse.flatten,
      (chunk :: older.take maxBackups).reverse.flatten, ?_, ?_⟩,
    fun index low => holds.one_form low, fun index low => holds.contiguous low,
    fun name member => holds.at_most bounded member,
    ⟨(older.drop maxBackups).reverse, (chunk :: older.take maxBackups).reverse, ?_, read, ?_, ?_,
      ?_⟩⟩
  · rw [← List.flatten_append, parts, stream]
  · rw [read, List.flatten_flatten]
  · rw [parts, stream]
  · intro segment member
    have among : segment ∈ chunked List.length maxBytes records := by
      rw [cut]
      rcases List.mem_cons.mp (List.mem_reverse.mp member) with rfl | old
      · exact List.mem_cons_self
      · exact List.mem_cons_of_mem _ (List.mem_of_mem_take old)
    exact fits_of_mem_chunked segment among
  · rw [parts, List.isChain_reverse]
    exact filled
  · intro lost
    rw [List.length_reverse, List.length_cons, List.length_take]
    have more : older.drop maxBackups ≠ [] := fun none => lost (by rw [none, List.reverse_nil])
    have many := mt List.drop_eq_nil_iff.mpr more
    omega

/-- A log under size rotation that starts in an empty directory takes every
record, and keeps an ordered suffix of them. -/
theorem sizeRotation_keeps_suffix (gzip : Gzip) (listing : Listing) (today : Int)
    (serviceName : String) (maxBytes maxBackups : Nat) (retentionDays : Option Nat)
    (compressRotated : Bool) (kept : 1 ≤ maxBackups) (writes : List (Moment × Bytes)) :
    ∃ self disk state,
      (RotatingFile.new gzip listing today serviceName (.size maxBytes maxBackups) retentionDays
        compressRotated).run (reliable ∅) = .ok self disk
      ∧ (writeRecords gzip writes).run ⟨self, disk⟩ = .ok () state
      ∧ KeepsSuffix gzip maxBytes maxBackups state.self.activePath state.disk.directory
          (writes.map Prod.snd) := by
  obtain ⟨self, directory, opened, start⟩ := new_tracks gzip listing today serviceName maxBytes
    maxBackups retentionDays compressRotated
  obtain ⟨state, ran, tracks⟩ := writeRecords_tracks kept writes start
  refine ⟨self, reliable directory, state, opened, ran, ?_⟩
  simpa using tracks.keepsSuffix

/-- Three lines of two bytes with room for one in a file and one backup. -/
theorem sizeRotation_keeps_two_lines :
    ∃ self disk state,
      (RotatingFile.new lineGzip .sorted 20665 "api" (.size 2 1) none true).run (reliable ∅)
          = .ok self disk
      ∧ (writeRecords lineGzip [(⟨20665, 20665, 0, .sorted⟩, [97, 10]),
          (⟨20665, 20665, 0, .sorted⟩, [97, 10]),
          (⟨20665, 20665, 0, .sorted⟩, [98, 10])]).run ⟨self, disk⟩ = .ok () state
      ∧ KeepsSuffix lineGzip 2 1 state.self.activePath state.disk.directory
          [[97, 10], [97, 10], [98, 10]] :=
  sizeRotation_keeps_suffix lineGzip .sorted 20665 "api" 2 1 none true (by decide)
    [(⟨20665, 20665, 0, .sorted⟩, [97, 10]), (⟨20665, 20665, 0, .sorted⟩, [97, 10]),
      (⟨20665, 20665, 0, .sorted⟩, [98, 10])]

end RustZero.Log
