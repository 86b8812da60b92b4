import RustZero.Lib.Lts
import RustZero.Log

/-!
# Daily rotation with compression

A process writes to the file of the day and compresses the files of other days;
it may be restarted on the same directory, and the day its clock shows may go
back.  `compress_file` creates the archive of a day anew, so a second archive of
one day replaces the first.  As long as no step compresses a file whose archive
already holds something, every record stays in exactly one file: `Placed` puts
each record in a file, and every step of such a run moves records from a file to
its archive or adds one to the file of the day.
-/

namespace RustZero.Log

open Lib Lib.Files

/-! ## Plain and compressed names -/

theorem endsWith_gzipPath (path : String) : endsWith (gzipPath path) ".gz" = true := by
  rw [endsWith, List.isSuffixOf_iff_suffix, gzipPath, String.toList_append]
  exact List.suffix_append _ _

theorem not_endsWith_log (path : String) : endsWith (path ++ ".log") ".gz" = false := by
  rw [← Bool.not_eq_true, endsWith, List.isSuffixOf_iff_suffix, String.toList_append]
  intro suffix
  obtain ⟨start, same⟩ := suffix
  have last := congrArg List.getLast? same
  simp at last

theorem logPath_plain (serviceName : String) (day : Int) :
    endsWith (logPath serviceName .daily day) ".gz" = false :=
  not_endsWith_log _

/-- The archive of a file is no plain file. -/
theorem gzipPath_ne_of_plain {path plain : String} (isPlain : endsWith plain ".gz" = false) :
    gzipPath path ≠ plain := by
  intro same
  rw [← same, endsWith_gzipPath] at isPlain
  cases isPlain

theorem stripStart_append (start rest : String) : stripStart (start ++ rest) start = some rest := by
  rw [stripStart, String.toList_append, List.dropPrefix?_append_of_beq _ (by simp)]
  simp

theorem stripEnd_append (rest ending : String) : stripEnd (rest ++ ending) ending = some rest := by
  have dropped : (rest ++ ending).toList.dropSuffix? ending.toList = some rest.toList := by
    rw [List.dropSuffix?_eq_some_iff]
    exact ⟨ending.toList, String.toList_append, by simp⟩
  rw [stripEnd, dropped]
  simp

/-- The date that `daily_file_date` finds in a daily file's own name. -/
theorem dailyFileDate_logPath {serviceName date : String} {day : Int}
    (found : dailyFileDate (logPath serviceName .daily day) (serviceName ++ ".") = some date) :
    date = dateFromUnixDay day := by
  have parts : logPath serviceName .daily day
      = (serviceName ++ ".") ++ (dateFromUnixDay day ++ ".log") := by
    rw [logPath, String.append_assoc]
  rw [dailyFileDate, parts, stripStart_append] at found
  simp only [Option.bind_eq_bind, Option.bind_some, stripEnd_append, Option.some_or] at found
  split at found
  · exact (Option.some.inj found).symm
  · cases found

/-! ## Where the records are -/

/-- The content of a file, decompressed if it is an archive. -/
def readFile (gzip : Gzip) (name : String) (raw : Bytes) : Option Bytes :=
  if endsWith name ".gz" then gzip.decode raw else some raw

/-- The records placed in a file, in the order they were written. -/
def recordsIn (placed : List (String × Bytes)) (name : String) : Bytes :=
  (placed.filter (·.1 = name)).flatMap Prod.snd

/-- Bytes that a file of the directory held at the start, or none. -/
def Initially (gzip : Gzip) (initial : Directory) (bytes : Bytes) : Prop :=
  bytes = [] ∨ ∃ name raw, initial[name]? = some raw ∧ readFile gzip name raw = some bytes

/-- A plain file of the day, or its archive. -/
def IsDailyFile (serviceName name : String) : Prop :=
  ∃ day, name = logPath serviceName .daily day ∨ name = gzipPath (logPath serviceName .daily day)

/-- Every record is in the file it is placed in, and in no other: a file reads as
what it held at the start and then exactly the records placed in it, or it is as
it was at the start and no record is placed in it. -/
structure Preserved (gzip : Gzip) (serviceName : String) (initial directory : Directory)
    (placed : List (String × Bytes)) : Prop where
  daily : ∀ entry ∈ placed, IsDailyFile serviceName entry.1
  stored : ∀ entry ∈ placed, entry.1 ∈ directory
  content : ∀ name raw, directory[name]? = some raw →
    (∃ old, Initially gzip initial old
      ∧ readFile gzip name raw = some (old ++ recordsIn placed name))
    ∨ (initial[name]? = some raw ∧ ∀ entry ∈ placed, entry.1 ≠ name)

section Placement

variable {gzip : Gzip} {serviceName : String} {initial directory : Directory}
  {placed : List (String × Bytes)} {name path : String} {raw : Bytes}

theorem recordsIn_eq_nil (none : ∀ entry ∈ placed, entry.1 ≠ name) :
    recordsIn placed name = [] := by
  have empty : placed.filter (·.1 = name) = [] := by
    rw [List.filter_eq_nil_iff]
    intro entry member
    simpa using none entry member
  rw [recordsIn, empty]
  rfl

theorem readFile_plain (plain : endsWith name ".gz" = false) :
    readFile gzip name raw = some raw := by
  simp [readFile, plain]

/-- A plain file holds initial bytes and then its records. -/
theorem Preserved.plain_content (preserved : Preserved gzip serviceName initial directory placed)
    (plain : endsWith name ".gz" = false) (found : directory[name]? = some raw) :
    ∃ old, Initially gzip initial old ∧ raw = old ++ recordsIn placed name := by
  rcases preserved.content name raw found with ⟨old, start, read⟩ | ⟨kept, none⟩
  · rw [readFile_plain plain] at read
    exact ⟨old, start, Option.some.inj read⟩
  · refine ⟨raw, Or.inr ⟨name, raw, kept, readFile_plain plain⟩, ?_⟩
    rw [recordsIn_eq_nil none, List.append_nil]

/-- Move the records placed in a file to its archive. -/
def archiveEntry (path : String) (entry : String × Bytes) : String × Bytes :=
  if entry.1 = path then (gzipPath path, entry.2) else entry

theorem archiveEntry_snd (path : String) (entry : String × Bytes) :
    (archiveEntry path entry).2 = entry.2 := by
  rw [archiveEntry]
  split
  · rfl
  · rfl

theorem recordsIn_cons (entry : String × Bytes) (placed : List (String × Bytes)) (name : String) :
    recordsIn (entry :: placed) name
      = (if entry.1 = name then entry.2 else []) ++ recordsIn placed name := by
  by_cases here : entry.1 = name
  · simp [recordsIn, here]
  · simp [recordsIn, here]

theorem recordsIn_append (left right : List (String × Bytes)) (name : String) :
    recordsIn (left ++ right) name = recordsIn left name ++ recordsIn right name := by
  rw [recordsIn, List.filter_append, List.flatMap_append]
  rfl

theorem recordsIn_archived_other (placed : List (String × Bytes)) (notPath : name ≠ path)
    (notArchive : name ≠ gzipPath path) :
    recordsIn (placed.map (archiveEntry path)) name = recordsIn placed name := by
  induction placed with
  | nil => rfl
  | cons entry placed ih =>
      rw [List.map_cons, recordsIn_cons, recordsIn_cons, ih]
      by_cases moved : entry.1 = path
      · rw [archiveEntry, if_pos moved, if_neg notArchive.symm, moved, if_neg notPath.symm]
      · rw [archiveEntry, if_neg moved]

theorem recordsIn_archived (empty : ∀ entry ∈ placed, entry.1 = gzipPath path → entry.2 = []) :
    recordsIn (placed.map (archiveEntry path)) (gzipPath path) = recordsIn placed path := by
  induction placed with
  | nil => rfl
  | cons entry placed ih =>
      rw [List.map_cons, recordsIn_cons, recordsIn_cons,
        ih fun other member => empty other (List.mem_cons_of_mem _ member)]
      by_cases moved : entry.1 = path
      · rw [archiveEntry, if_pos moved, if_pos rfl, if_pos moved]
      · rw [archiveEntry, if_neg moved, if_neg moved]
        by_cases there : entry.1 = gzipPath path
        · rw [if_pos there, empty entry List.mem_cons_self there]
        · rw [if_neg there]

/-! ## What the steps do to the placement -/

/-- Opening the file of the day, which may be new. -/
theorem Preserved.opened (preserved : Preserved gzip serviceName initial directory placed)
    (plain : endsWith path ".gz" = false) :
    Preserved gzip serviceName initial (directory.insertIfNew path []) placed := by
  refine ⟨preserved.daily, ?_, ?_⟩
  · intro entry member
    obtain ⟨content, found⟩ := mem_iff_get.mp (preserved.stored entry member)
    refine mem_iff_get.mpr ⟨content, ?_⟩
    rw [get_insertIfNew]
    split
    case isTrue same => rw [same, found, Option.getD_some]
    case isFalse => exact found
  · intro name raw read
    rw [get_insertIfNew] at read
    split at read
    case isFalse => exact preserved.content name raw read
    case isTrue same =>
      subst same
      cases found : directory[path]? with
      | some content =>
          rw [found, Option.getD_some] at read
          exact preserved.content path raw (found.trans read)
      | none =>
          have empty : raw = [] := by simpa [found] using read.symm
          have unplaced : ∀ entry ∈ placed, entry.1 ≠ path := by
            intro entry member same
            obtain ⟨content, stored⟩ := mem_iff_get.mp (preserved.stored entry member)
            rw [same, found] at stored
            cases stored
          refine Or.inl ⟨[], Or.inl rfl, ?_⟩
          rw [readFile_plain plain, recordsIn_eq_nil unplaced, empty]
          rfl

/-- A record written to the file of the day. -/
theorem Preserved.written (preserved : Preserved gzip serviceName initial directory placed)
    (plain : endsWith path ".gz" = false) (daily : IsDailyFile serviceName path)
    (present : path ∈ directory) (bytes : Bytes) :
    Preserved gzip serviceName initial (directory.modify path (· ++ bytes))
      (placed ++ [(path, bytes)]) := by
  obtain ⟨content, found⟩ := mem_iff_get.mp present
  have kept : ∀ name ∈ directory, name ∈ directory.modify path (· ++ bytes) := by
    intro name member
    obtain ⟨raw, read⟩ := mem_iff_get.mp member
    rw [mem_iff_get, get_modify]
    split
    · exact ⟨content ++ bytes, by rw [found, Option.map_some]⟩
    · exact ⟨raw, read⟩
  refine ⟨?_, ?_, ?_⟩
  · intro entry member
    rcases List.mem_append.mp member with old | new
    · exact preserved.daily entry old
    · rwa [List.mem_singleton.mp new]
  · intro entry member
    rcases List.mem_append.mp member with old | new
    · exact kept _ (preserved.stored entry old)
    · rw [List.mem_singleton.mp new]
      exact kept _ present
  · intro name raw read
    rw [get_modify] at read
    split at read
    case isTrue same =>
      subst same
      obtain ⟨old, start, whole⟩ := preserved.plain_content plain found
      rw [found, Option.map_some] at read
      refine Or.inl ⟨old, start, ?_⟩
      rw [readFile_plain plain, recordsIn_append, recordsIn_cons, if_pos rfl,
        ← List.append_assoc, ← whole, ← Option.some.inj read]
      simp [recordsIn]
    case isFalse other =>
      have unmoved : recordsIn (placed ++ [(path, bytes)]) name = recordsIn placed name := by
        rw [recordsIn_append, recordsIn_cons, if_neg other]
        simp [recordsIn]
      rcases preserved.content name raw read with ⟨old, start, whole⟩ | ⟨same, unplaced⟩
      · exact Or.inl ⟨old, start, by rw [unmoved, whole]⟩
      · refine Or.inr ⟨same, ?_⟩
        intro entry member
        rcases List.mem_append.mp member with old | new
        · exact unplaced entry old
        · rwa [List.mem_singleton.mp new]

/-- The archive of a file is absent, or holds nothing. -/
def Clear (gzip : Gzip) (directory : Directory) (path : String) : Prop :=
  ∀ raw, directory[gzipPath path]? = some raw → gzip.decode raw = some []

/-- The records in an archive that holds nothing have no bytes. -/
theorem Preserved.empty_of_clear (preserved : Preserved gzip serviceName initial directory placed)
    (clear : Clear gzip directory path) :
    ∀ entry ∈ placed, entry.1 = gzipPath path → entry.2 = [] := by
  intro entry member there
  obtain ⟨raw, found⟩ := mem_iff_get.mp (preserved.stored entry member)
  rw [there] at found
  rcases preserved.content _ raw found with ⟨old, _, read⟩ | ⟨_, unplaced⟩
  · rw [readFile, if_pos (endsWith_gzipPath path), clear raw found] at read
    have nothing := (List.append_eq_nil_iff.mp (Option.some.inj read).symm).2
    rw [recordsIn, List.flatMap_eq_nil_iff] at nothing
    exact nothing entry (List.mem_filter.mpr ⟨member, by simpa using there⟩)
  · exact absurd there (unplaced entry member)

/-- A file compressed to a clear archive. -/
theorem Preserved.archived (preserved : Preserved gzip serviceName initial directory placed)
    (plain : endsWith path ".gz" = false) (found : directory[path]? = some raw)
    (clear : Clear gzip directory path) :
    Preserved gzip serviceName initial (compressed gzip directory path raw)
      (placed.map (archiveEntry path)) := by
  refine ⟨?_, ?_, ?_⟩
  · intro entry member
    obtain ⟨before, old, rfl⟩ := List.mem_map.mp member
    obtain ⟨day, named⟩ := preserved.daily before old
    rw [archiveEntry]
    split
    case isTrue here =>
      rw [here] at named
      refine ⟨day, Or.inr ?_⟩
      rcases named with named | named
      · rw [named]
      · exact absurd named.symm (gzipPath_ne_of_plain plain)
    case isFalse => exact ⟨day, named⟩
  · intro entry member
    obtain ⟨before, old, rfl⟩ := List.mem_map.mp member
    obtain ⟨content, stored⟩ := mem_iff_get.mp (preserved.stored before old)
    rw [mem_iff_get, compressed_get, archiveEntry]
    split
    · exact ⟨gzip.encode raw, by rw [if_neg (gzipPath_ne path).symm, if_pos rfl]⟩
    case isFalse other =>
      rw [if_neg (Ne.symm other)]
      split
      · exact ⟨_, rfl⟩
      · exact ⟨content, stored⟩
  · intro name content read
    rw [compressed_get] at read
    split at read
    · cases read
    case isFalse notPath =>
      split at read
      case isTrue archive =>
        subst archive
        obtain ⟨old, start, whole⟩ := preserved.plain_content plain found
        refine Or.inl ⟨old, start, ?_⟩
        rw [recordsIn_archived (preserved.empty_of_clear clear), ← whole, readFile,
          if_pos (endsWith_gzipPath path), ← Option.some.inj read, gzip.decode_encode]
      case isFalse notArchive =>
        have unmoved := recordsIn_archived_other placed (Ne.symm notPath) (Ne.symm notArchive)
        rcases preserved.content name content read with ⟨old, start, whole⟩ | ⟨same, unplaced⟩
        · exact Or.inl ⟨old, start, by rw [unmoved, whole]⟩
        · refine Or.inr ⟨same, ?_⟩
          intro entry member
          obtain ⟨before, old, rfl⟩ := List.mem_map.mp member
          rw [archiveEntry]
          split
          · exact notArchive
          · exact unplaced before old

/-! ## Passes over the directory -/

/-- A file other than the active one is compressed to a clear archive. -/
def Archive (gzip : Gzip) (active : String) (directory later : Directory) : Prop :=
  ∃ path raw, endsWith path ".gz" = false ∧ path ≠ active ∧ directory[path]? = some raw
    ∧ Clear gzip directory path ∧ later = compressed gzip directory path raw

theorem compressed_get_other {other : String} (otherName : other ≠ path)
    (notArchive : other ≠ gzipPath path) :
    (compressed gzip directory path raw)[other]? = directory[other]? := by
  rw [compressed_get, if_neg otherName.symm, if_neg notArchive.symm]

/-- Compressing one file leaves the archives of the others clear. -/
theorem Clear.compressed {other : String} (clear : Clear gzip directory other)
    (plain : endsWith path ".gz" = false) (otherName : other ≠ path) :
    Clear gzip (compressed gzip directory path raw) other := by
  intro content found
  rw [compressed_get_other (gzipPath_ne_of_plain plain)
    fun same => otherName (gzipPath_inj.mp same)] at found
  exact clear content found

theorem Preserved.archives {later : Directory} {active : String}
    (archives : Relation.ReflTransGen (Archive gzip active) directory later)
    (preserved : Preserved gzip serviceName initial directory placed) :
    ∃ moved, moved.map Prod.snd = placed.map Prod.snd
      ∧ Preserved gzip serviceName initial later moved := by
  induction archives with
  | refl => exact ⟨placed, rfl, preserved⟩
  | tail _ last ih =>
      obtain ⟨before, records, kept⟩ := ih
      obtain ⟨path, raw, plain, _, found, clear, rfl⟩ := last
      refine ⟨before.map (archiveEntry path), ?_, kept.archived plain found clear⟩
      rw [List.map_map, ← records]
      exact List.map_congr_left fun entry _ => archiveEntry_snd path entry

theorem archives_get_active {later : Directory} {active : String}
    (plain : endsWith active ".gz" = false)
    (archives : Relation.ReflTransGen (Archive gzip active) directory later) :
    later[active]? = directory[active]? := by
  induction archives with
  | refl => rfl
  | tail _ last ih =>
      obtain ⟨path, raw, _, notActive, _, _, rfl⟩ := last
      rw [compressed_get_other notActive.symm (gzipPath_ne_of_plain plain).symm, ih]

/-- The files that `maintain_daily_files` compresses. -/
def isStale (serviceName activeDate name : String) : Bool :=
  (dailyFileDate name (serviceName ++ ".")).any (· < activeDate) && !endsWith name ".gz"

theorem isStale_logPath (serviceName : String) (day : Int) :
    isStale serviceName (dateFromUnixDay day) (logPath serviceName .daily day) = false := by
  rw [isStale]
  cases found : dailyFileDate (logPath serviceName .daily day) (serviceName ++ ".") with
  | none => rfl
  | some date =>
      have later : ¬ dateFromUnixDay day < dateFromUnixDay day := lt_irrefl _
      rw [dailyFileDate_logPath found, Option.any_some, decide_eq_false later, Bool.false_and]

theorem maintainEntry_unlimited {self : RotatingFile} (compresses : self.compressRotated = true)
    (activeDate : String) (name : String) :
    maintainEntry gzip self activeDate none name
      = if isStale self.serviceName activeDate name then compressFile gzip name else pure () := by
  rw [maintainEntry, isStale]
  cases dailyFileDate name (self.serviceName ++ ".") with
  | none => rfl
  | some date =>
      simp [compresses]

/-- The pass compresses the stale files one after another. -/
theorem maintain_entries {self : RotatingFile} {active activeDate : String}
    (compresses : self.compressRotated = true)
    (fresh : isStale self.serviceName activeDate active = false) {entries : List String}
    (distinct : entries.Nodup) {directory : Directory}
    (ready : ∀ name ∈ entries, isStale self.serviceName activeDate name = true →
      name ∈ directory ∧ Clear gzip directory name) :
    ∃ later, (entries.forM (maintainEntry gzip self activeDate none)).run (reliable directory)
        = .ok () (reliable later)
      ∧ Relation.ReflTransGen (Archive gzip active) directory later := by
  induction entries generalizing directory with
  | nil => exact ⟨directory, rfl, .refl⟩
  | cons name entries ih =>
      obtain ⟨notLater, distinct⟩ := List.nodup_cons.mp distinct
      rw [List.forM_eq_forM, List.forM_cons, maintainEntry_unlimited compresses]
      split
      case isFalse =>
        obtain ⟨later, ran, archives⟩ := ih distinct
          fun other member => ready other (List.mem_cons_of_mem _ member)
        exact ⟨later, ran, archives⟩
      case isTrue stale =>
        obtain ⟨present, clear⟩ := ready name List.mem_cons_self stale
        obtain ⟨raw, found⟩ := mem_iff_get.mp present
        have plain : endsWith name ".gz" = false := by
          simpa using (Bool.and_eq_true_iff.mp stale).2
        have notActive : name ≠ active := by
          intro same
          rw [same, fresh] at stale
          cases stale
        have rest : ∀ other ∈ entries, isStale self.serviceName activeDate other = true →
            other ∈ compressed gzip directory name raw
              ∧ Clear gzip (compressed gzip directory name raw) other := by
          intro other member otherStale
          obtain ⟨otherPresent, otherClear⟩ :=
            ready other (List.mem_cons_of_mem _ member) otherStale
          have otherName : other ≠ name := fun same => notLater (same ▸ member)
          have otherPlain : endsWith other ".gz" = false := by
            simpa using (Bool.and_eq_true_iff.mp otherStale).2
          refine ⟨?_, otherClear.compressed plain otherName⟩
          rw [mem_iff_get,
            compressed_get_other otherName (gzipPath_ne_of_plain otherPlain).symm]
          exact mem_iff_get.mp otherPresent
        obtain ⟨later, ran, archives⟩ := ih distinct rest
        refine ⟨later, ?_, .head ⟨name, raw, plain, notActive, found, clear, rfl⟩ archives⟩
        rw [run_bind_ok _ (compressFile_reliable found)]
        exact ran

theorem maintainDailyFiles_archives (self : RotatingFile) (service : self.serviceName = serviceName)
    (unlimited : self.retentionDays = none) (compresses : self.compressRotated = true)
    (listing : Listing) (day : Int)
    (ready : ∀ name ∈ directory,
      isStale serviceName (dateFromUnixDay day) name = true → Clear gzip directory name) :
    ∃ later, (maintainDailyFiles gzip listing self day).run (reliable directory)
        = .ok () (reliable later)
      ∧ Relation.ReflTransGen (Archive gzip (logPath serviceName .daily day))
          directory later := by
  subst service
  obtain ⟨later, ran, archives⟩ := maintain_entries compresses
    (isStale_logPath self.serviceName day) (listing.nodup_names directory)
    fun name member stale =>
      ⟨listing.mem_names.mp member, ready name (listing.mem_names.mp member) stale⟩
  refine ⟨later, ?_, archives⟩
  rw [maintainDailyFiles, run_bind_ok _ (readDirectory_reliable _ _), unlimited]
  exact ran

theorem archivePrevious_archives {previous active : String}
    (plain : endsWith previous ".gz" = false) (present : previous ∈ directory)
    (ready : previous ≠ active → Clear gzip directory previous) :
    ∃ later, (archivePrevious gzip true previous active).run (reliable directory)
        = .ok () (reliable later)
      ∧ Relation.ReflTransGen (Archive gzip active) directory later
      ∧ (∀ name ∈ later, endsWith name ".gz" = false → name ∈ directory
          ∧ (Clear gzip directory name → Clear gzip later name)) := by
  rw [archivePrevious]
  by_cases same : previous = active
  · rw [if_neg (by simp [same])]
    exact ⟨directory, rfl, .refl, fun name member _ => ⟨member, fun clear => clear⟩⟩
  · obtain ⟨raw, found⟩ := mem_iff_get.mp present
    rw [if_pos ⟨rfl, same⟩, run_bind_ok _ (fileExists_reliable _ _),
      contains_iff_get.mpr ⟨raw, found⟩]
    refine ⟨_, compressFile_reliable found,
      .single ⟨previous, raw, plain, same, found, ready same, rfl⟩, ?_⟩
    intro name member namePlain
    obtain ⟨content, read⟩ := mem_iff_get.mp member
    have other : name ≠ previous := by
      intro equal
      rw [equal, compressed_get, if_pos rfl] at read
      cases read
    rw [compressed_get_other other (gzipPath_ne_of_plain namePlain).symm] at read
    exact ⟨mem_iff_get.mpr ⟨content, read⟩, fun clear => clear.compressed plain other⟩

end Placement

/-! ## The process and its host -/

/-- A process that writes daily files with compression and no retention limit. -/
structure Running (serviceName : String) (directory : Directory) (rotating : RotatingFile) :
    Prop where
  service : rotating.serviceName = serviceName
  rotation : rotating.rotation = .daily
  unlimited : rotating.retentionDays = none
  compresses : rotating.compressRotated = true
  path : rotating.activePath = logPath serviceName .daily rotating.activeDay
  file : rotating.file = some rotating.activePath
  present : rotating.activePath ∈ directory

section Host

variable {gzip : Gzip} {serviceName : String} {directory : Directory} {self : RotatingFile}

theorem Clear.opened {active name : String} (clear : Clear gzip directory name)
    (plain : endsWith active ".gz" = false) :
    Clear gzip (directory.insertIfNew active []) name := by
  intro raw found
  rw [get_insertIfNew, if_neg (gzipPath_ne_of_plain plain).symm] at found
  exact clear raw found

theorem mem_opened {active name : String} (member : name ∈ directory) :
    name ∈ directory.insertIfNew active [] := by
  obtain ⟨content, found⟩ := mem_iff_get.mp member
  rw [mem_iff_get, get_insertIfNew]
  split
  · exact ⟨_, rfl⟩
  · exact ⟨content, found⟩

theorem opened_mem (directory : Directory) (active : String) :
    active ∈ directory.insertIfNew active [] := by
  rw [mem_iff_get, get_insertIfNew, if_pos rfl]
  exact ⟨_, rfl⟩

/-- A stale file was there before the file of the day was opened. -/
theorem mem_of_stale {day : Int} {name : String}
    (member : name ∈ directory.insertIfNew (logPath serviceName .daily day) [])
    (stale : isStale serviceName (dateFromUnixDay day) name = true) : name ∈ directory := by
  have other : logPath serviceName .daily day ≠ name := by
    intro same
    rw [← same, isStale_logPath] at stale
    cases stale
  obtain ⟨content, read⟩ := mem_iff_get.mp member
  rw [get_insertIfNew, if_neg other] at read
  exact mem_iff_get.mpr ⟨content, read⟩

/-- The rotating file once it has opened the file of a day. -/
def RotatingFile.openedOn (self : RotatingFile) (day : Int) (length : Nat) : RotatingFile :=
  { self with
    file := some (logPath self.serviceName .daily day), activeDay := day,
    activePath := logPath self.serviceName .daily day, bytesWritten := length }

theorem Running.openedOn (running : Running serviceName directory self) {day : Int}
    {later : Directory} (present : logPath serviceName .daily day ∈ later) (length : Nat) :
    Running serviceName later (self.openedOn day length) := by
  obtain ⟨rfl, rotation, unlimited, compresses, -, -, -⟩ := running
  exact ⟨rfl, rotation, unlimited, compresses, rfl, rfl, present⟩

theorem rotateDaily_reliable {moment : Moment} {active : String} {mid later : Directory}
    (path : active = logPath self.serviceName self.rotation moment.today)
    (ranArchive : (archivePrevious gzip self.compressRotated self.activePath active).run
      (reliable (directory.insertIfNew active [])) = .ok () (reliable mid))
    {rotated : RotatingFile}
    (opened : rotated = { self with
      file := some active, activeDay := moment.today, activePath := active,
      bytesWritten := ((directory.insertIfNew active [])[active]?.getD []).length })
    (ranMaintain : (maintainDailyFiles gzip moment.listing rotated moment.today).run (reliable mid)
      = .ok () (reliable later)) :
    (rotateDaily gzip moment).run ⟨self, reliable directory⟩
      = .ok () ⟨rotated, reliable later⟩ := by
  subst path opened
  rw [rotateDaily, run_bind_ok _ (run_getSelf _ _), run_bind_ok _ (run_modifySelf _ _ _),
    run_bind_ok _ (run_getSelf _ _), run_bind_ok _ (run_onDisk_ok (appendFile_reliable _ _)),
    run_bind_ok _ (run_onDisk_ok (fileLength_reliable _ _)),
    run_bind_ok _ (run_modifySelf _ _ _), run_bind_ok _ (run_getSelf _ _),
    run_bind_ok _ (run_onDisk_ok ranArchive)]
  exact run_onDisk_ok ranMaintain

theorem rotateDaily_archives (running : Running serviceName directory self) (moment : Moment)
    (ready : ∀ name ∈ directory,
      (name = self.activePath ∧ name ≠ logPath serviceName .daily moment.today)
        ∨ isStale serviceName (dateFromUnixDay moment.today) name = true →
      Clear gzip directory name) :
    ∃ length later, (rotateDaily gzip moment).run ⟨self, reliable directory⟩
        = .ok () ⟨self.openedOn moment.today length, reliable later⟩
      ∧ Relation.ReflTransGen (Archive gzip (logPath serviceName .daily moment.today))
          (directory.insertIfNew (logPath serviceName .daily moment.today) []) later := by
  have newPlain := logPath_plain serviceName moment.today
  have oldPlain : endsWith self.activePath ".gz" = false :=
    running.path ▸ logPath_plain serviceName self.activeDay
  obtain ⟨mid, ranArchive, first, between⟩ := archivePrevious_archives oldPlain
    (mem_opened running.present)
    fun other => (ready self.activePath running.present (Or.inl ⟨rfl, other⟩)).opened newPlain
  -- what is stale after that was stale and there before, with the same archive
  have still : ∀ name ∈ mid,
      isStale serviceName (dateFromUnixDay moment.today) name = true → Clear gzip mid name := by
    intro name member stale
    have plain : endsWith name ".gz" = false := by
      simpa using (Bool.and_eq_true_iff.mp stale).2
    obtain ⟨opened, carried⟩ := between name member plain
    exact carried ((ready name (mem_of_stale opened stale) (Or.inr stale)).opened newPlain)
  -- the length that the open file reports
  let active := logPath serviceName .daily moment.today
  let length := ((directory.insertIfNew active [])[active]?.getD []).length
  obtain ⟨later, ranMaintain, rest⟩ := maintainDailyFiles_archives
    (self.openedOn moment.today length) running.service running.unlimited running.compresses
    moment.listing moment.today still
  refine ⟨length, later, ?_, first.trans rest⟩
  refine rotateDaily_reliable (by rw [running.service, running.rotation]) ?_ ?_ ranMaintain
  · rw [running.compresses]
    exact ranArchive
  · rw [RotatingFile.openedOn, running.service]

theorem rotate_archives (running : Running serviceName directory self) (moment : Moment)
    (ready : ∀ name ∈ directory,
      (name = self.activePath ∧ name ≠ logPath serviceName .daily moment.today)
        ∨ isStale serviceName (dateFromUnixDay moment.today) name = true →
      Clear gzip directory name) :
    ∃ rotated later, (rotate gzip moment).run ⟨self, reliable directory⟩
        = .ok () ⟨rotated, reliable later⟩
      ∧ Running serviceName later rotated
      ∧ Relation.ReflTransGen (Archive gzip (logPath serviceName .daily moment.today))
          (directory.insertIfNew (logPath serviceName .daily moment.today) []) later := by
  obtain ⟨length, later, ran, archives⟩ := rotateDaily_archives running moment ready
  have present : logPath serviceName .daily moment.today ∈ later := by
    rw [mem_iff_get, archives_get_active (logPath_plain _ _) archives]
    exact mem_iff_get.mp (opened_mem directory _)
  refine ⟨self.openedOn moment.today length, later, ?_, running.openedOn present length, archives⟩
  rw [rotate, run_bind_ok _ (run_getSelf _ _)]
  simp only [running.rotation]
  exact ran

/-- A process started on the directory. -/
theorem new_archives (service : String) (listing : Listing) (today : Int)
    (ready : ∀ name ∈ directory,
      isStale (safeFileName service) (dateFromUnixDay today) name = true →
      Clear gzip directory name) :
    ∃ started later, (RotatingFile.new gzip listing today service .daily none true).run
        (reliable directory) = .ok started (reliable later)
      ∧ Running (safeFileName service) later started
      ∧ Relation.ReflTransGen (Archive gzip (logPath (safeFileName service) .daily today))
          (directory.insertIfNew (logPath (safeFileName service) .daily today) []) later := by
  let active := logPath (safeFileName service) .daily today
  have plain : endsWith active ".gz" = false := logPath_plain _ _
  have still : ∀ name ∈ directory.insertIfNew active [],
      isStale (safeFileName service) (dateFromUnixDay today) name = true →
      Clear gzip (directory.insertIfNew active []) name := by
    intro name member stale
    exact (ready name (mem_of_stale member stale) stale).opened plain
  let started : RotatingFile :=
    { serviceName := safeFileName service, rotation := .daily, file := some active,
      activePath := active, activeDay := today,
      bytesWritten := ((directory.insertIfNew active [])[active]?.getD []).length,
      retentionDays := none, compressRotated := true }
  obtain ⟨later, ran, archives⟩ :=
    maintainDailyFiles_archives started rfl rfl rfl listing today still
  have present : active ∈ later := by
    rw [mem_iff_get, archives_get_active plain archives]
    exact mem_iff_get.mp (opened_mem directory active)
  refine ⟨started, later, ?_, ⟨rfl, rfl, rfl, rfl, rfl, rfl, present⟩, archives⟩
  rw [RotatingFile.new, run_bind_ok _ (appendFile_reliable _ _),
    run_bind_ok _ (fileLength_reliable _ _), if_pos rfl, run_bind_ok _ ran]
  rfl

end Host

/-- The directory of a host, and the process that logs to it. -/
structure Host where
  directory : Directory
  running : Option RotatingFile

inductive DailyAction where
  /-- A process starts, in place of the one before. -/
  | start (today : Int) (listing : Listing)
  | write (moment : Moment) (bytes : Bytes)

/-- What happens on a host, and the record whose write returned `Ok`. -/
def Host.advance (gzip : Gzip) (service : String) (host : Host) :
    DailyAction → Option (Host × List Bytes)
  | .start today listing =>
      match (RotatingFile.new gzip listing today service .daily none true).run
        (reliable host.directory) with
      | .ok started disk => some (⟨disk.directory, some started⟩, [])
      | .error _ _ => none
  | .write moment bytes =>
      match host.running with
      | none => none
      | some rotating =>
          match (writeAll gzip moment bytes).run ⟨rotating, reliable host.directory⟩ with
          | .ok _ state => some (⟨state.disk.directory, some state.self⟩, [bytes])
          | .error _ _ => none

/-- Hosts over whole runs, beside the records written. -/
def dailyHost (gzip : Gzip) (service : String) (initial : Directory) :
    Lts (Host × List Bytes) DailyAction :=
  Lts.emitting ⟨initial, none⟩ (Host.advance gzip service)

/-- The files that a step compresses. -/
def compresses (service : String) (host : Host) : DailyAction → String → Bool
  | .start today _, name => isStale (safeFileName service) (dateFromUnixDay today) name
  | .write moment bytes, name =>
      match host.running with
      | none => false
      | some rotating =>
          rotationDue rotating moment bytes
            && ((name = rotating.activePath
                && name ≠ logPath (safeFileName service) .daily moment.today)
              || isStale (safeFileName service) (dateFromUnixDay moment.today) name)

/-- No file is compressed whose archive already holds something. -/
def ArchivesClear (gzip : Gzip) (service : String) (host : Host) (action : DailyAction) : Prop :=
  ∀ name ∈ host.directory, compresses service host action name = true →
    Clear gzip host.directory name

instance Clear.decidable (gzip : Gzip) (directory : Directory) (path : String) :
    Decidable (Clear gzip directory path) :=
  match found : directory[gzipPath path]? with
  | none => isTrue fun raw read => by rw [found] at read; cases read
  | some raw =>
      decidable_of_iff (gzip.decode raw = some []) <| by
        rw [Clear, found]
        simp

instance ArchivesClear.decidable (gzip : Gzip) (service : String) (host : Host)
    (action : DailyAction) : Decidable (ArchivesClear gzip service host action) :=
  decidable_of_iff (∀ name ∈ host.directory.keys, compresses service host action name = true →
    Clear gzip host.directory name) <| by
      simp only [ArchivesClear, Std.ExtTreeMap.mem_keys]

section Runs

variable {gzip : Gzip} {service : String} {initial : Directory} {host later : Host}
  {written : List Bytes}

/-- What every run with clear archives keeps: the records written so far are
placed in files, and a running process has the file of its day. -/
structure Kept (gzip : Gzip) (service : String) (initial : Directory) (host : Host)
    (records : List Bytes) : Prop where
  placed : ∃ placed, placed.map Prod.snd = records
    ∧ Preserved gzip (safeFileName service) initial host.directory placed
  running : ∀ rotating, host.running = some rotating →
    Running (safeFileName service) host.directory rotating

theorem start_kept {records : List Bytes} (kept : Kept gzip service initial host records)
    {today : Int} {listing : Listing}
    (clear : ArchivesClear gzip service host (.start today listing)) :
    ∃ later, host.advance gzip service (.start today listing) = some (later, [])
      ∧ Kept gzip service initial later records := by
  obtain ⟨started, directory, ran, running, archives⟩ := new_archives service listing today clear
  obtain ⟨placed, whole, preserved⟩ := kept.placed
  obtain ⟨moved, same, preserved⟩ :=
    (preserved.opened (logPath_plain (safeFileName service) today)).archives archives
  refine ⟨⟨directory, some started⟩, ?_, ⟨moved, same.trans whole, preserved⟩, ?_⟩
  · rw [Host.advance, ran]
    rfl
  · intro rotating same
    cases same
    exact running

/-- A write to the open file of the day. -/
theorem Running.append {directory : Directory} {rotating : RotatingFile} {name : String}
    (running : Running name directory rotating) (bytes : Bytes) :
    Running name (directory.modify rotating.activePath (· ++ bytes))
      { rotating with bytesWritten := rotating.bytesWritten + bytes.length } := by
  obtain ⟨content, found⟩ := mem_iff_get.mp running.present
  refine ⟨running.service, running.rotation, running.unlimited, running.compresses, running.path,
    running.file, mem_iff_get.mpr ⟨content ++ bytes, ?_⟩⟩
  rw [get_modify, if_pos rfl, found, Option.map_some]

theorem write_kept {records : List Bytes} (kept : Kept gzip service initial host records)
    {rotating : RotatingFile} (process : host.running = some rotating) {moment : Moment}
    {bytes : Bytes} (clear : ArchivesClear gzip service host (.write moment bytes)) :
    ∃ later, host.advance gzip service (.write moment bytes) = some (later, [bytes])
      ∧ Kept gzip service initial later (records ++ [bytes]) := by
  obtain ⟨directory, _⟩ := host
  dsimp only at process
  subst process
  have running := kept.running rotating rfl
  obtain ⟨placed, whole, preserved⟩ := kept.placed
  -- the rotation, if it is due, leaves a running process and the records in place
  have ready : ∃ self mid placed',
      (rotateIfDue gzip moment bytes).run ⟨rotating, reliable directory⟩
        = .ok () ⟨self, reliable mid⟩
      ∧ Running (safeFileName service) mid self ∧ placed'.map Prod.snd = records
      ∧ Preserved gzip (safeFileName service) initial mid placed' := by
    by_cases due : rotationDue rotating moment bytes = true
    · obtain ⟨self, mid, ran, process, archives⟩ := rotate_archives running moment
        fun name member moved => clear name member (by simpa [compresses, due] using moved)
      obtain ⟨moved, same, settled⟩ := (preserved.opened (logPath_plain _ _)).archives archives
      exact ⟨self, mid, moved, rotateIfDue_ok due ran, process, same.trans whole, settled⟩
    · exact ⟨rotating, directory, placed, rotateIfDue_skip gzip _ (by simpa using due), running,
        whole, preserved⟩
  obtain ⟨self, mid, moved, ran, process, same, settled⟩ := ready
  have plain : endsWith self.activePath ".gz" = false := process.path ▸ logPath_plain _ _
  have daily : IsDailyFile (safeFileName service) self.activePath :=
    ⟨self.activeDay, Or.inl process.path⟩
  have wrote := writeAll_reliable ran process.file
  refine ⟨⟨mid.modify self.activePath (· ++ bytes),
    some { self with bytesWritten := self.bytesWritten + bytes.length }⟩, ?_,
    ⟨moved ++ [(self.activePath, bytes)], ?_,
      settled.written plain daily process.present bytes⟩, ?_⟩
  · simp only [Host.advance]
    rw [wrote]
    rfl
  · rw [List.map_append, same]
    rfl
  · intro other equal
    cases equal
    exact process.append bytes

/-- One step of a run with clear archives. -/
theorem kept_step {records new : List Bytes} {action : DailyAction}
    (kept : Kept gzip service initial host records)
    (clear : ArchivesClear gzip service host action)
    (advanced : Host.advance gzip service host action = some (later, new)) :
    Kept gzip service initial later (records ++ new) := by
  cases action with
  | start today listing =>
      obtain ⟨after, started, kept⟩ := start_kept kept clear
      rw [started] at advanced
      cases advanced
      rwa [List.append_nil]
  | write moment bytes =>
      cases process : host.running with
      | none =>
          rw [Host.advance, process] at advanced
          cases advanced
      | some rotating =>
          obtain ⟨after, wrote, kept⟩ := write_kept kept process clear
          rw [wrote] at advanced
          cases advanced
          exact kept

theorem preserved_nil (gzip : Gzip) (name : String) (initial : Directory) :
    Preserved gzip name initial initial [] := by
  refine ⟨?_, ?_, ?_⟩
  · intro entry member
    cases member
  · intro entry member
    cases member
  · intro name raw found
    refine Or.inr ⟨found, ?_⟩
    intro entry member
    cases member

end Runs

/-- In every run in which no file is compressed while its archive already holds
something, each record whose write returned `Ok` is in exactly one of the daily
files. -/
theorem daily_records_preserved_when_clear (gzip : Gzip) (service : String) (initial : Directory)
    {host : Host} {records : List Bytes}
    (reach : (dailyHost gzip service initial).Reach
      (fun state action => ArchivesClear gzip service state.1 action) (host, records)) :
    ∃ placed, placed.map Prod.snd = records
      ∧ Preserved gzip (safeFileName service) initial host.directory placed := by
  have start : Kept gzip service initial ⟨initial, none⟩ [] :=
    ⟨⟨[], rfl, preserved_nil _ _ _⟩, fun rotating same => by cases same⟩
  have kept : Kept gzip service initial host records := by
    refine reach.emitting_invariant (I := Kept gzip service initial) start ?_
    intro host records action later new kept clear advanced
    exact kept_step kept clear advanced
  exact kept.placed

/-- A call at a day that the clock shows throughout. -/
def Moment.ofDay (day : Int) : Moment :=
  ⟨day, day, 0, .sorted⟩

/-- A line on each of two days. -/
theorem daily_two_lines_preserved :
    ∃ host, (dailyHost lineGzip "api" ∅).Reach
        (fun state action => ArchivesClear lineGzip "api" state.1 action)
        (host, [[97, 10], [98, 10]])
      ∧ ∃ placed, placed.map Prod.snd = [[97, 10], [98, 10]]
        ∧ Preserved lineGzip (safeFileName "api") ∅ host.directory placed := by
  have run : ((dailyHost lineGzip "api" ∅).exec (dailyHost lineGzip "api" ∅).init
      [.start 20664 .sorted, .write (.ofDay 20664) [97, 10],
        .write (.ofDay 20665) [98, 10]]).map Prod.snd
      = some [[97, 10], [98, 10]] := by
    decide +kernel
  obtain ⟨state, executed, ends⟩ := Option.map_eq_some_iff.mp run
  obtain ⟨host, records⟩ := state
  dsimp only at ends
  subst ends
  have meets : (dailyHost lineGzip "api" ∅).Meets
      (fun state action => ArchivesClear lineGzip "api" state.1 action)
      (dailyHost lineGzip "api" ∅).init
      [.start 20664 .sorted, .write (.ofDay 20664) [97, 10], .write (.ofDay 20665) [98, 10]] := by
    decide +kernel
  have reach := Lts.reach_of_exec _ meets executed
  exact ⟨host, reach, daily_records_preserved_when_clear lineGzip "api" ∅ reach⟩

/-- The clock steps back to a day that is already archived: when the day after
comes again, its file replaces the archive, and the first record is gone. -/
theorem daily_archive_replaced :
    ∃ host, (dailyHost lineGzip "api" ∅).Reachable
        (host, [[97, 10], [98, 10], [98, 10], [98, 10]])
      ∧ ¬ ∃ placed, placed.map Prod.snd = [[97, 10], [98, 10], [98, 10], [98, 10]]
        ∧ Preserved lineGzip (safeFileName "api") ∅ host.directory placed := by
  have run : ((dailyHost lineGzip "api" ∅).exec (dailyHost lineGzip "api" ∅).init
      [.start 20664 .sorted, .write (.ofDay 20664) [97, 10], .write (.ofDay 20665) [98, 10],
        .write (.ofDay 20664) [98, 10], .write (.ofDay 20665) [98, 10]]).map
          (fun state => (state.2, state.1.directory.toList))
      = some ([[97, 10], [98, 10], [98, 10], [98, 10]],
          [("api.2026-07-30.log.gz", gzippedB), ("api.2026-07-31.log", [98, 10]),
            ("api.2026-07-31.log.gz", gzippedB)]) := by
    decide +kernel
  obtain ⟨state, executed, ends⟩ := Option.map_eq_some_iff.mp run
  obtain ⟨host, records⟩ := state
  obtain ⟨rfl, files⟩ := Prod.mk.inj ends
  refine ⟨host, Lts.reachable_of_exec _ executed, ?_⟩
  intro claimed
  obtain ⟨placed, records, preserved⟩ := claimed
  obtain ⟨first, rest, rfl, line, -⟩ := List.map_eq_cons_iff.mp records
  obtain ⟨name, bytes⟩ := first
  dsimp only at line
  subst line
  obtain ⟨raw, found⟩ := mem_iff_get.mp (preserved.stored (name, [97, 10]) List.mem_cons_self)
  have reads : readFile lineGzip name raw = some [98, 10] := by
    have listed := Std.ExtTreeMap.mem_toList_iff_getElem?_eq_some.mpr found
    rw [files] at listed
    simp only [List.mem_cons, Prod.mk.injEq, List.not_mem_nil, or_false] at listed
    obtain ⟨rfl, rfl⟩ | ⟨rfl, rfl⟩ | ⟨rfl, rfl⟩ := listed
    · decide +kernel
    · decide +kernel
    · decide +kernel
  rcases preserved.content name raw found with ⟨old, start, read⟩ | ⟨initially, -⟩
  · have empty : old = [] := by
      rcases start with none | ⟨_, _, absent, _⟩
      · exact none
      · cases absent
    rw [reads, empty, recordsIn_cons, if_pos rfl] at read
    simp at read
  · cases initially

end RustZero.Log
