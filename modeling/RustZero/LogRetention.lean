import RustZero.LogDates
import RustZero.LogRecovery

/-!
# What daily retention removes

`maintain_daily_files` of `core/src/log.rs` on a directory of any files, for a retention of any
number of days and an active day whose year has four digits.

* `maintained` is what one round of the loop makes of the directory; `Acts` is when it does
  anything.
* `Settled` says what the whole loop makes of the two files of a date.
* `retention_exact`: exactly the expired files are removed if and only if the cutoff is computed
  without wrapping and no file that only looks dated is acted upon.
-/

namespace RustZero.Log

open Lib Lib.Files

/-! ## Names with a date -/

/-- The daily file of a service for the text of a date. -/
def datedFile (serviceName text : String) : String :=
  serviceName ++ "." ++ text ++ ".log"

section Names

variable {serviceName name text other : String}

theorem datedFile_plain (serviceName text : String) :
    endsWith (datedFile serviceName text) ".gz" = false :=
  not_endsWith_log _

theorem datedFile_inj :
    datedFile serviceName text = datedFile serviceName other ↔ text = other := by
  rw [datedFile, datedFile, ← String.toList_inj]
  simp [String.toList_inj]

theorem of_stripStart {start rest : String} (stripped : stripStart name start = some rest) :
    name = start ++ rest := by
  obtain ⟨chars, dropped, same⟩ := Option.map_eq_some_iff.mp stripped
  obtain ⟨head, parts, isStart⟩ := List.dropPrefix?_eq_some_iff.mp dropped
  rw [← String.toList_inj, parts, eq_of_beq isStart, ← same]
  simp

theorem of_stripEnd {ending rest : String} (stripped : stripEnd name ending = some rest) :
    name = rest ++ ending := by
  obtain ⟨chars, dropped, same⟩ := Option.map_eq_some_iff.mp stripped
  obtain ⟨tail, parts, isEnding⟩ := List.dropSuffix?_eq_some_iff.mp dropped
  rw [← String.toList_inj, parts, eq_of_beq isEnding, ← same]
  simp

theorem stripEnd_zipped (text : String) : stripEnd (text ++ ".log.gz") ".log" = none := by
  cases stripped : stripEnd (text ++ ".log.gz") ".log" with
  | none => rfl
  | some rest =>
      have last := congrArg (fun name => name.toList.getLast?) (of_stripEnd stripped)
      simp at last

/-- A name in which a date is found is that of the daily file, or of its archive. -/
theorem name_of_dailyFileDate (found : dailyFileDate name (serviceName ++ ".") = some text) :
    (name = datedFile serviceName text ∨ name = gzipPath (datedFile serviceName text)) ∧
      dateShaped text = true := by
  rw [dailyFileDate] at found
  obtain ⟨remainder, stripped, found⟩ := Option.bind_eq_some_iff.mp found
  obtain ⟨date, ended, found⟩ := Option.bind_eq_some_iff.mp found
  split at found
  case isFalse => cases found
  case isTrue shaped =>
    cases found
    refine ⟨?_, shaped⟩
    rw [of_stripStart stripped]
    rcases Option.or_eq_some_iff.mp ended with plain | ⟨_, zipped⟩
    · refine .inl ?_
      rw [of_stripEnd plain, datedFile, String.append_assoc, String.append_assoc,
        String.append_assoc]
    · refine .inr ?_
      rw [of_stripEnd zipped, gzipPath, datedFile, String.append_assoc, String.append_assoc,
        String.append_assoc, String.append_assoc]
      rfl

theorem dailyFileDate_datedFile (shaped : dateShaped text = true) :
    dailyFileDate (datedFile serviceName text) (serviceName ++ ".") = some text := by
  have parts : datedFile serviceName text = (serviceName ++ ".") ++ (text ++ ".log") := by
    rw [datedFile, String.append_assoc, String.append_assoc]
  rw [dailyFileDate, parts, stripStart_append]
  simp [stripEnd_append, shaped]

theorem dailyFileDate_zipped (shaped : dateShaped text = true) :
    dailyFileDate (gzipPath (datedFile serviceName text)) (serviceName ++ ".") = some text := by
  have parts : gzipPath (datedFile serviceName text) =
      (serviceName ++ ".") ++ (text ++ ".log.gz") := by
    rw [gzipPath, datedFile, String.append_assoc, String.append_assoc, String.append_assoc,
      String.append_assoc]
    rfl
  rw [dailyFileDate, parts, stripStart_append]
  simp [stripEnd_append, stripEnd_zipped, shaped]

end Names

/-! ## One round of the loop -/

section Rounds

variable {gzip : Gzip} {self : RotatingFile} {activeDate cutoff name other text : String}
  {directory : Directory}

/-- The round compresses the file. -/
def Zips (self : RotatingFile) (activeDate name text : String) : Prop :=
  text < activeDate ∧ self.compressRotated = true ∧ ¬endsWith name ".gz" = true

instance decidableZips (self : RotatingFile) (activeDate name text : String) :
    Decidable (Zips self activeDate name text) :=
  inferInstanceAs (Decidable (_ ∧ _ ∧ _))

/-- The directory after a round on a file with the text of a date. -/
def roundOn (gzip : Gzip) (self : RotatingFile) (activeDate cutoff name text : String)
    (directory : Directory) : Directory :=
  let zipped :=
    if Zips self activeDate name text then
      compressed gzip directory name (directory[name]?.getD [])
    else directory
  if text < cutoff then (zipped.erase name).erase (gzipPath name) else zipped

/-- The directory after a round. -/
def maintained (gzip : Gzip) (self : RotatingFile) (activeDate cutoff : String)
    (directory : Directory) (name : String) : Directory :=
  match dailyFileDate name (self.serviceName ++ ".") with
  | none => directory
  | some text => roundOn gzip self activeDate cutoff name text directory

theorem maintained_none (undated : dailyFileDate name (self.serviceName ++ ".") = none) :
    maintained gzip self activeDate cutoff directory name = directory := by
  rw [maintained, undated]

theorem maintained_some (found : dailyFileDate name (self.serviceName ++ ".") = some text) :
    maintained gzip self activeDate cutoff directory name =
      roundOn gzip self activeDate cutoff name text directory := by
  rw [maintained, found]

variable (gzip self activeDate cutoff) in
theorem maintainEntry_reliable (present : endsWith name ".gz" = false → name ∈ directory) :
    (maintainEntry gzip self activeDate (some cutoff) name).run (reliable directory) =
      .ok () (reliable (maintained gzip self activeDate cutoff directory name)) := by
  rw [maintainEntry]
  cases found : dailyFileDate name (self.serviceName ++ ".") with
  | none =>
      rw [maintained_none found]
      rfl
  | some text =>
      have removed (mid : Directory) :
          (if text < cutoff then do
            removeExisting name
            removeExisting (gzipPath name)
          else pure () : FileProgram Unit).run (reliable mid) = .ok () (reliable
            (if text < cutoff then (mid.erase name).erase (gzipPath name) else mid)) := by
        split
        case isTrue =>
          rw [run_bind_ok _ (removeExisting_reliable name mid)]
          exact removeExisting_reliable (gzipPath name) (mid.erase name)
        case isFalse => rfl
      rw [maintained_some found, roundOn]
      dsimp only [Option.any_some]
      by_cases zips : Zips self activeDate name text
      · obtain ⟨content, held⟩ := mem_iff_get.mp (present (Bool.of_not_eq_true zips.2.2))
        rw [if_pos zips, held, Option.getD_some]
        have first : (compressFile gzip name).run (reliable directory) = _ :=
          compressFile_reliable held
        simp only [decide_eq_true_eq]
        rw [Zips] at zips
        rw [if_pos zips, run_bind_ok _ first]
        exact removed _
      · rw [if_neg zips]
        simp only [decide_eq_true_eq]
        rw [Zips] at zips
        rw [if_neg zips]
        exact removed directory

/-- What each file is after a round. -/
theorem roundOn_get : (roundOn gzip self activeDate cutoff name text directory)[other]? =
    if text < cutoff ∧ (name = other ∨ gzipPath name = other) then none
    else if Zips self activeDate name text ∧ name = other then none
    else if Zips self activeDate name text ∧ gzipPath name = other then
      some (gzip.encode (directory[name]?.getD []))
    else directory[other]? := by
  rw [roundOn]
  by_cases stale : text < cutoff
  · by_cases zips : Zips self activeDate name text
    · simp only [stale, zips, if_true, get_erase, compressed_get, true_and]
      split_ifs <;> simp_all
    · simp only [stale, zips, if_true, if_false, get_erase, true_and, false_and]
      split_ifs <;> simp_all
  · by_cases zips : Zips self activeDate name text
    · simp only [stale, zips, if_true, if_false, compressed_get, true_and, false_and]
    · simp only [stale, zips, if_false, false_and]

/-- The round does anything. -/
def Acts (self : RotatingFile) (activeDate cutoff name text : String) : Prop :=
  text < cutoff ∨ Zips self activeDate name text

/-- A round changes its own file and the archive of it. -/
theorem maintained_get_other (apart : ∀ text,
      dailyFileDate name (self.serviceName ++ ".") = some text →
        Acts self activeDate cutoff name text → name ≠ other ∧ gzipPath name ≠ other) :
    (maintained gzip self activeDate cutoff directory name)[other]? = directory[other]? := by
  cases found : dailyFileDate name (self.serviceName ++ ".") with
  | none => rw [maintained_none found]
  | some text =>
      rw [maintained_some found, roundOn_get]
      by_cases acts : Acts self activeDate cutoff name text
      · obtain ⟨plain, zipped⟩ := apart text found acts
        simp [plain, zipped]
      · obtain ⟨fresh, whole⟩ := not_or.mp acts
        simp [fresh, whole]

end Rounds

/-! ## The whole loop -/

section Loop

variable {gzip : Gzip} {self : RotatingFile} {activeDate cutoff name other text : String}
  {directory : Directory} {entries : List String}

variable (gzip self activeDate cutoff) in
theorem maintainEntries_reliable (distinct : entries.Nodup)
    (present : ∀ name ∈ entries, endsWith name ".gz" = false → name ∈ directory) :
    (entries.forM (maintainEntry gzip self activeDate (some cutoff))).run (reliable directory) =
      .ok () (reliable (entries.foldl (maintained gzip self activeDate cutoff) directory)) := by
  induction entries generalizing directory with
  | nil => rfl
  | cons name entries ih =>
      obtain ⟨notLater, distinct⟩ := List.nodup_cons.mp distinct
      have first := maintainEntry_reliable gzip self activeDate cutoff
        (present name List.mem_cons_self)
      rw [List.forM_eq_forM, List.forM_cons, run_bind_ok _ first]
      refine ih distinct ?_
      intro other member plain
      have differs : name ≠ other := fun same => notLater (same ▸ member)
      have there := present other (List.mem_cons_of_mem _ member) plain
      rw [mem_iff_get] at there ⊢
      rw [maintained_get_other fun _ _ _ => ⟨differs, gzipPath_ne_of_plain plain⟩]
      exact there

theorem foldl_get_other (apart : ∀ name ∈ entries, ∀ text,
      dailyFileDate name (self.serviceName ++ ".") = some text →
        Acts self activeDate cutoff name text → name ≠ other ∧ gzipPath name ≠ other) :
    (entries.foldl (maintained gzip self activeDate cutoff) directory)[other]? =
      directory[other]? := by
  induction entries generalizing directory with
  | nil => rfl
  | cons name entries ih =>
      rw [List.foldl_cons, ih fun later member => apart later (List.mem_cons_of_mem _ member),
        maintained_get_other (apart name List.mem_cons_self)]

/-- The two files of a date. -/
def OfDate (serviceName text name : String) : Prop :=
  name = datedFile serviceName text ∨ name = gzipPath (datedFile serviceName text)

/-- A round on another date leaves the two files of a date. -/
theorem apart_of_ne {date : String}
    (found : dailyFileDate name (self.serviceName ++ ".") = some date)
    (differs : date ≠ text) (ofDate : OfDate self.serviceName text other) :
    name ≠ other ∧ gzipPath name ≠ other := by
  have plainDiffers : datedFile self.serviceName date ≠ datedFile self.serviceName text :=
    fun same => differs (datedFile_inj.mp same)
  have notPlain (path : String) : gzipPath path ≠ datedFile self.serviceName text :=
    gzipPath_ne_of_plain (datedFile_plain _ _)
  have notZipped (path : String) : datedFile self.serviceName date ≠ gzipPath path :=
    (gzipPath_ne_of_plain (datedFile_plain _ _)).symm
  rcases (name_of_dailyFileDate found).1 with rfl | rfl
  · rcases ofDate with rfl | rfl
    · exact ⟨plainDiffers, notPlain _⟩
    · exact ⟨notZipped _, fun same => plainDiffers (gzipPath_inj.mp same)⟩
  · rcases ofDate with rfl | rfl
    · exact ⟨notPlain _, notPlain _⟩
    · exact ⟨fun same => plainDiffers (gzipPath_inj.mp same),
        fun same => notPlain _ (gzipPath_inj.mp same)⟩

/-- A file of a stale date that is absent stays absent. -/
theorem maintained_absent (stale : text < cutoff) (ofDate : OfDate self.serviceName text other)
    (absent : directory[other]? = none) :
    (maintained gzip self activeDate cutoff directory name)[other]? = none := by
  cases found : dailyFileDate name (self.serviceName ++ ".") with
  | none => rw [maintained_none found, absent]
  | some date =>
      by_cases same : date = text
      · subst same
        rw [maintained_some found, roundOn_get]
        by_cases touched : name = other ∨ gzipPath name = other
        · rw [if_pos ⟨stale, touched⟩]
        · obtain ⟨plain, zipped⟩ := not_or.mp touched
          simp [plain, zipped, absent]
      · rw [maintained_get_other fun date' found' _ => ?_, absent]
        cases found.symm.trans found'
        exact apart_of_ne found same ofDate

theorem foldl_absent (stale : text < cutoff) (ofDate : OfDate self.serviceName text other)
    (absent : directory[other]? = none) :
    (entries.foldl (maintained gzip self activeDate cutoff) directory)[other]? = none := by
  induction entries generalizing directory with
  | nil => exact absent
  | cons name entries ih => exact ih (maintained_absent stale ofDate absent)

/-- Where a file of a stale date is reached, it is removed. -/
theorem foldl_stale (stale : text < cutoff)
    (found : dailyFileDate name (self.serviceName ++ ".") = some text) (member : name ∈ entries) :
    (entries.foldl (maintained gzip self activeDate cutoff) directory)[name]? = none := by
  obtain ⟨before, later, rfl⟩ := List.append_of_mem member
  rw [List.foldl_append, List.foldl_cons]
  refine foldl_absent stale (name_of_dailyFileDate found).1 ?_
  rw [maintained_some found, roundOn_get, if_pos ⟨stale, .inl rfl⟩]

/-- The rounds that leave the files of a date that is kept. -/
theorem apart_of_kept (fresh : ¬text < cutoff) (ofDate : OfDate self.serviceName text other)
    (whole : name = datedFile self.serviceName text → ¬Zips self activeDate name text)
    {date : String} (found : dailyFileDate name (self.serviceName ++ ".") = some date)
    (acts : Acts self activeDate cutoff name date) : name ≠ other ∧ gzipPath name ≠ other := by
  by_cases same : date = text
  · subst same
    have zips := acts.resolve_left fresh
    rcases (name_of_dailyFileDate found).1 with plain | zipped
    · exact absurd zips (whole plain)
    · refine absurd ?_ zips.2.2
      rw [zipped]
      exact endsWith_gzipPath _
  · exact apart_of_ne found same ofDate

variable (gzip) in
/-- A file that is to be compressed is. -/
theorem foldl_zipped {content : Bytes} (shaped : dateShaped text = true) (fresh : ¬text < cutoff)
    (zips : Zips self activeDate (datedFile self.serviceName text) text)
    (member : datedFile self.serviceName text ∈ entries) (distinct : entries.Nodup)
    (held : directory[datedFile self.serviceName text]? = some content) :
    (entries.foldl (maintained gzip self activeDate cutoff) directory)[
        datedFile self.serviceName text]? = none ∧
      (entries.foldl (maintained gzip self activeDate cutoff) directory)[
        gzipPath (datedFile self.serviceName text)]? = some (gzip.encode content) := by
  obtain ⟨before, later, rfl⟩ := List.append_of_mem member
  have parts := List.nodup_append.mp distinct
  have notLater := (List.nodup_cons.mp parts.2.1).1
  have notBefore : datedFile self.serviceName text ∉ before := fun earlier =>
    parts.2.2 _ earlier _ List.mem_cons_self rfl
  have left {entries : List String} {directory : Directory} {other : String}
      (absent : datedFile self.serviceName text ∉ entries)
      (ofDate : OfDate self.serviceName text other) :
      (entries.foldl (maintained gzip self activeDate cutoff) directory)[other]? =
        directory[other]? :=
    foldl_get_other fun name inside _ found acts =>
      apart_of_kept fresh ofDate (fun same => (absent (same ▸ inside)).elim) found acts
  have reached : (before.foldl (maintained gzip self activeDate cutoff) directory)[
      datedFile self.serviceName text]? = some content := by
    rw [left notBefore (.inl rfl), held]
  have archive := gzipPath_ne (datedFile self.serviceName text)
  rw [List.foldl_append, List.foldl_cons, maintained_some (dailyFileDate_datedFile shaped),
    left notLater (.inl rfl), left notLater (.inr rfl), roundOn_get, roundOn_get, reached]
  simp [fresh, zips, archive, archive.symm]

end Loop

/-! ## Retention -/

def FitsI64 (value : Int) : Prop :=
  -2 ^ 63 ≤ value ∧ value < 2 ^ 63

/-- The sums of `date_from_unix_day` stay in 64 bits. -/
def DateFits (day : Int) : Prop :=
  FitsI64 (day + 719468) ∧ (day + 719468 < 0 → FitsI64 (day + 719468 - 146096))

/-- No conversion and no sum of `maintain_daily_files` leaves 64 signed bits. -/
structure NoOverflow (days : Nat) (day : Int) : Prop where
  converted : FitsI64 ((days - 1 : Nat) : Int)
  subtracted : FitsI64 (day - asI64 ((days - 1 : Nat) : Int))
  cutoff : DateFits (asI64 (day - asI64 ((days - 1 : Nat) : Int)))
  active : DateFits day

/-- The file of a date is compressed. -/
def Compressed (gzip : Gzip) (path : String) (before later : Directory) : Prop :=
  ∃ content, before[path]? = some content ∧ later[path]? = none ∧
    later[gzipPath path]? = some (gzip.encode content)

/-- Of the daily files of the service exactly those are removed that are dated more than `days - 1`
days before the active day; of the others those of past days may be compressed, and no other file
is touched.  An archive of an archive, which no service writes, is left out. -/
structure RemovesExpired (gzip : Gzip) (rotating : RotatingFile) (days : Nat) (active : Date)
    (before later : Directory) : Prop where
  expired : ∀ date, FourDigits date → unixDay date < unixDay active - ((days - 1 : Nat) : Int) →
    later[datedFile rotating.serviceName (dateText date)]? = none ∧
      later[gzipPath (datedFile rotating.serviceName (dateText date))]? = none
  kept : ∀ date, FourDigits date → unixDay active - ((days - 1 : Nat) : Int) ≤ unixDay date →
    (∀ name, OfDate rotating.serviceName (dateText date) name → later[name]? = before[name]?) ∨
      rotating.compressRotated = true ∧ date.Before active ∧
        Compressed gzip (datedFile rotating.serviceName (dateText date)) before later
  others : ∀ name, (∀ date, FourDigits date → ¬OfDate rotating.serviceName (dateText date) name ∧
      name ≠ gzipPath (gzipPath (datedFile rotating.serviceName (dateText date)))) →
    later[name]? = before[name]?

/-- Whatever the loop acts upon is a file of a date. -/
def OnlyDates (self : RotatingFile) (activeDate cutoff : String) (directory : Directory) : Prop :=
  ∀ name ∈ directory, ∀ text, dailyFileDate name (self.serviceName ++ ".") = some text →
    Acts self activeDate cutoff name text → ∃ date, FourDigits date ∧ text = dateText date

section Retention

variable {gzip : Gzip} {self : RotatingFile} {active : Date} {cutoff : String} {days : Nat}
  {directory : Directory}

theorem noOverflow_iff (year : FourDigits active) : NoOverflow days (unixDay active) ↔
    days - 1 < 2 ^ 63 ∧ -2 ^ 63 ≤ unixDay active - ((days - 1 : Nat) : Int) := by
  have range := unixDay_range year
  constructor
  · intro fits
    have converted := fits.converted
    have subtracted := fits.subtracted
    rw [asI64_of_range converted.1 converted.2] at subtracted
    exact ⟨by exact_mod_cast converted.2, subtracted.1⟩
  · intro small
    obtain ⟨converted, subtracted⟩ := small
    have converts : FitsI64 ((days - 1 : Nat) : Int) := ⟨by omega, by exact_mod_cast converted⟩
    have subtracts : FitsI64 (unixDay active - ((days - 1 : Nat) : Int)) := ⟨subtracted, by omega⟩
    have same := asI64_of_range converts.1 converts.2
    refine ⟨converts, ?_, ?_, ?_⟩
    · rw [same]
      exact subtracts
    · rw [same, asI64_of_range subtracts.1 subtracts.2, DateFits, FitsI64, FitsI64]
      omega
    · rw [DateFits, FitsI64, FitsI64]
      omega

/-- A name has one date. -/
theorem text_of_ofDate {name text other : String}
    (found : dailyFileDate name (self.serviceName ++ ".") = some text)
    (ofDate : OfDate self.serviceName other name) : text = other := by
  by_contra differs
  exact (apart_of_ne found differs ofDate).1 rfl

theorem not_doubly_zipped {name text other : String}
    (found : dailyFileDate name (self.serviceName ++ ".") = some text) :
    name ≠ gzipPath (gzipPath (datedFile self.serviceName other)) := by
  have notPlain (path : String) : datedFile self.serviceName text ≠ gzipPath path :=
    (gzipPath_ne_of_plain (datedFile_plain _ _)).symm
  rcases (name_of_dailyFileDate found).1 with plain | zipped
  · rw [plain]
    exact notPlain _
  · rw [zipped]
    exact fun same => notPlain _ (gzipPath_inj.mp same)

variable {activeDate : String} {entries : List String}

/-- A file that is acted upon is gone. -/
theorem foldl_acts {name text : String} {content : Bytes} (distinct : entries.Nodup)
    (member : name ∈ entries) (held : directory[name]? = some content)
    (found : dailyFileDate name (self.serviceName ++ ".") = some text)
    (acts : Acts self activeDate cutoff name text) :
    (entries.foldl (maintained gzip self activeDate cutoff) directory)[name]? = none := by
  obtain ⟨ofDate, shaped⟩ := name_of_dailyFileDate found
  by_cases stale : text < cutoff
  · exact foldl_stale stale found member
  · have zips := acts.resolve_left stale
    rcases ofDate with rfl | rfl
    · exact (foldl_zipped gzip shaped stale zips member distinct held).1
    · exact absurd (endsWith_gzipPath _) zips.2.2

theorem onlyDates_of_removesExpired (distinct : entries.Nodup)
    (listed : ∀ name, name ∈ entries ↔ name ∈ directory)
    (removes : RemovesExpired gzip self days active directory
      (entries.foldl (maintained gzip self activeDate cutoff) directory)) :
    OnlyDates self activeDate cutoff directory := by
  intro name member text found acts
  by_contra undated
  obtain ⟨content, held⟩ := mem_iff_get.mp member
  have untouched := removes.others name fun date digits =>
    ⟨fun ofDate => undated ⟨date, digits, text_of_ofDate found ofDate⟩, not_doubly_zipped found⟩
  rw [foldl_acts distinct ((listed name).mpr member) held found acts, held] at untouched
  cases untouched

theorem removesExpired_of_onlyDates (year : FourDigits active) (distinct : entries.Nodup)
    (listed : ∀ name, name ∈ entries ↔ name ∈ directory)
    (least : -2 ^ 63 ≤ unixDay active - ((days - 1 : Nat) : Int))
    (only : OnlyDates self (dateText active)
      (dateFromUnixDay (unixDay active - ((days - 1 : Nat) : Int))) directory) :
    RemovesExpired gzip self days active directory
      (entries.foldl (maintained gzip self (dateText active)
        (dateFromUnixDay (unixDay active - ((days - 1 : Nat) : Int)))) directory) := by
  have early (date : Date) (digits : FourDigits date) :
      dateText date < dateFromUnixDay (unixDay active - ((days - 1 : Nat) : Int)) ↔
        unixDay date < unixDay active - ((days - 1 : Nat) : Int) :=
    dateText_lt_cutoff digits year least (by omega)
  refine ⟨?_, ?_, ?_⟩
  · intro date digits expired
    have stale := (early date digits).mpr expired
    have shaped := dateShaped_dateText digits
    have gone {name : String} (ofDate : OfDate self.serviceName (dateText date) name)
        (found : dailyFileDate name (self.serviceName ++ ".") = some (dateText date)) :
        (entries.foldl (maintained gzip self (dateText active)
          (dateFromUnixDay (unixDay active - ((days - 1 : Nat) : Int)))) directory)[name]? =
            none := by
      by_cases member : name ∈ entries
      · exact foldl_stale stale found member
      · exact foldl_absent stale ofDate
          (Std.ExtTreeMap.getElem?_eq_none (mt (listed name).mpr member))
    exact ⟨gone (.inl rfl) (dailyFileDate_datedFile shaped),
      gone (.inr rfl) (dailyFileDate_zipped shaped)⟩
  · intro date digits recent
    have fresh := mt (early date digits).mp (not_lt.mpr recent)
    by_cases zips : Zips self (dateText active) (datedFile self.serviceName (dateText date))
        (dateText date) ∧ datedFile self.serviceName (dateText date) ∈ directory
    · obtain ⟨zips, member⟩ := zips
      obtain ⟨content, held⟩ := mem_iff_get.mp member
      have zipped := foldl_zipped gzip (dateShaped_dateText digits) fresh zips
        ((listed _).mpr member) distinct held
      refine .inr ⟨zips.2.1, (dateText_lt_iff digits year).mp zips.1, content, held, ?_⟩
      exact zipped
    · refine .inl ?_
      intro name ofDate
      refine foldl_get_other ?_
      intro entry member text found acts
      refine apart_of_kept fresh ofDate ?_ found acts
      intro same zips'
      exact zips ⟨same ▸ zips', same ▸ (listed entry).mp member⟩
  · intro name apart
    refine foldl_get_other ?_
    intro entry member text found acts
    obtain ⟨date, digits, rfl⟩ := only entry ((listed entry).mp member) text found acts
    obtain ⟨outside, notDouble⟩ := apart date digits
    rcases (name_of_dailyFileDate found).1 with rfl | rfl
    · exact ⟨fun same => outside (.inl same.symm), fun same => outside (.inr same.symm)⟩
    · exact ⟨fun same => outside (.inr same.symm), fun same => notDouble same.symm⟩

/-- Retention removes exactly the expired files, without wrapping, if and only if the cutoff is a
day of 64 signed bits and every file that is acted upon is dated. -/
theorem retention_exact (gzip : Gzip) (listing : Listing) (limit : self.retentionDays = some days)
    (year : FourDigits active) (directory : Directory) :
    ∃ later, (maintainDailyFiles gzip listing self (unixDay active)).run (reliable directory) =
        .ok () (reliable later) ∧
      (NoOverflow days (unixDay active) ∧
          RemovesExpired gzip self days active directory later ↔
        (days - 1 < 2 ^ 63 ∧ -2 ^ 63 ≤ unixDay active - ((days - 1 : Nat) : Int)) ∧
          OnlyDates self (dateText active)
            (dateFromUnixDay (unixDay active - ((days - 1 : Nat) : Int))) directory) := by
  have range := unixDay_range year
  have distinct := listing.nodup_names directory
  have listed (name : String) : name ∈ listing.names directory ↔ name ∈ directory :=
    listing.mem_names
  let cutoff := dateFromUnixDay (asI64 (unixDay active - asI64 ((days - 1 : Nat) : Int)))
  have ran := maintainEntries_reliable gzip self (dateText active) cutoff distinct
    fun name member _ => (listed name).mp member
  refine ⟨(listing.names directory).foldl (maintained gzip self (dateText active) cutoff)
    directory, ?_, ?_⟩
  · rw [maintainDailyFiles, run_bind_ok _ (readDirectory_reliable _ _), limit,
      dateFromUnixDay_date active (by omega)]
    exact ran
  · rw [noOverflow_iff year]
    dsimp only [cutoff]
    refine and_congr_right ?_
    intro small
    obtain ⟨converted, subtracted⟩ := small
    have converts : asI64 ((days - 1 : Nat) : Int) = ((days - 1 : Nat) : Int) :=
      asI64_of_range (by omega) (by omega)
    have subtracts : asI64 (unixDay active - ((days - 1 : Nat) : Int)) =
        unixDay active - ((days - 1 : Nat) : Int) :=
      asI64_of_range subtracted (by omega)
    rw [converts, subtracts]
    exact ⟨onlyDates_of_removesExpired distinct listed,
      removesExpired_of_onlyDates year distinct listed subtracted⟩

end Retention

/-! ## The log of one service -/

/-- The first day of 2020. -/
def newYear : Date :=
  ⟨2020, 1, 1, by decide, by decide, by decide, by decide⟩

/-- The last but one day of 2019. -/
def beforeNewYear : Date :=
  ⟨2019, 12, 30, by decide, by decide, by decide, by decide⟩

/-- A daily log that keeps so many days. -/
def keptLog (days : Nat) : RotatingFile where
  serviceName := "api"
  rotation := .daily
  file := some "api.2020-01-01.log"
  activePath := "api.2020-01-01.log"
  activeDay := unixDay newYear
  bytesWritten := 0
  retentionDays := some days
  compressRotated := false

/-- A directory of one file with one line. -/
def lineAt (name : String) : Directory :=
  (∅ : Directory).insert name [97, 10]

/-- Two days are kept, and the third is removed. -/
theorem third_day_removed : ∃ later,
    (maintainDailyFiles lineGzip Listing.sorted (keptLog 2) (unixDay newYear)).run
      (reliable (lineAt "api.2019-12-30.log")) =
        .ok () (reliable later) ∧
      later["api.2019-12-30.log"]? = none := by
  obtain ⟨later, ran, exact_⟩ := retention_exact lineGzip Listing.sorted
    (show (keptLog 2).retentionDays = some 2 from rfl) (show FourDigits newYear by decide)
    (lineAt "api.2019-12-30.log")
  refine ⟨later, ran, ?_⟩
  have plain : datedFile (keptLog 2).serviceName (dateText beforeNewYear) =
      "api.2019-12-30.log" := by
    decide +kernel
  have dates : OnlyDates (keptLog 2) (dateText newYear)
      (dateFromUnixDay (unixDay newYear - ((2 - 1 : Nat) : Int)))
      (lineAt "api.2019-12-30.log") := by
    intro name member text found _
    have same : name = "api.2019-12-30.log" := by
      obtain ⟨content, held⟩ := mem_iff_get.mp member
      rw [lineAt, get_insert] at held
      split at held
      case isTrue same => exact same.symm
      case isFalse => cases held
    have date : dailyFileDate "api.2019-12-30.log" ((keptLog 2).serviceName ++ ".") =
        some (dateText beforeNewYear) := by
      decide +kernel
    rw [same, date] at found
    cases found
    exact ⟨beforeNewYear, by decide, rfl⟩
  have removes := (exact_.mpr ⟨by decide +kernel, dates⟩).2
  rw [← plain]
  exact (removes.expired beforeNewYear (by decide) (by decide +kernel)).1

/-- Kept for the greatest number of days, the active file is removed. -/
theorem forever_removes_active : ¬∀ (days : Nat) (directory : Directory), 0 < days →
    days < 2 ^ 64 → ∃ later,
      (maintainDailyFiles lineGzip Listing.sorted (keptLog days) (unixDay newYear)).run
        (reliable directory) = .ok () (reliable later) ∧
      RemovesExpired lineGzip (keptLog days) days newYear directory later := by
  intro removes
  obtain ⟨later, ran, removes⟩ :=
    removes (2 ^ 64 - 1) (lineAt "api.2020-01-01.log") (by decide) (by decide)
  have plain : datedFile (keptLog (2 ^ 64 - 1)).serviceName (dateText newYear) =
      "api.2020-01-01.log" := by
    decide +kernel
  have gone : (after ((maintainDailyFiles lineGzip Listing.sorted (keptLog (2 ^ 64 - 1))
      (unixDay newYear)).run (reliable (lineAt "api.2020-01-01.log")))).directory[
        "api.2020-01-01.log"]? = none := by
    decide +kernel
  rw [ran] at gone
  rcases removes.kept newYear (by decide) (by omega) with whole | zipped
  · have same := whole _ (.inl rfl)
    rw [plain, lineAt, get_insert, if_pos rfl] at same
    cases gone.symm.trans same
  · cases zipped.1

/-- A file that only looks dated is removed. -/
theorem lookalike_removed :
    (after ((maintainDailyFiles lineGzip Listing.sorted (keptLog 2) (unixDay newYear)).run
      (reliable (lineAt "api.2018-99-99.log")))).directory["api.2018-99-99.log"]? = none := by
  decide +kernel

end RustZero.Log
