import Mathlib
import RustZero.Lib.Escapes
import RustZero.Lib.Readers
import RustZero.Lib.Separated
import RustZero.Lib.Utf8
import RustZero.MetricsRegistry

/-!
# The exposition of a registry

`Metrics::render` of `core/src/metric.rs`, and the text format that it writes.

* `Metrics.render` writes the families of a registry in the order of their names.
* `parseText` reads lines of the text format, without optional blanks and timestamps.
* `Metrics.lines` is what a registry has to say: its families and their samples.
* `parseText_render`: exactly that is read from what is rendered.
-/

namespace RustZero.MetricsRegistry

open Lib

/-! ## Rendering -/

/-- `str::replace` of a character. -/
def replace (value : String) (char : Char) (code : String) : String :=
  String.ofList (replaceAll char code.toList value.toList)

def escapeHelp (value : String) : String :=
  replace (replace value '\\' "\\\\") '\n' "\\n"

def escapeLabel (value : String) : String :=
  replace (replace (replace value '\\' "\\\\") '\n' "\\n") '"' "\\\""

def writeLabel (name value : String) : String :=
  name ++ "=\"" ++ escapeLabel value ++ "\""

/-- The loop of `write_labels`. -/
def writePairs (index : Nat) : List (String × String) → String
  | [] => ""
  | pair :: pairs =>
      (if index > 0 then "," else "") ++ writeLabel pair.1 pair.2 ++ writePairs (index + 1) pairs

def writeLabels (labelNames labels : List String) (extra : Option (String × String)) : String :=
  if labelNames.isEmpty && extra.isNone then ""
  else
    "\x7b" ++ writePairs 0 (labelNames.zip labels) ++
      (match extra with
        | some (name, value) =>
            (if labelNames.isEmpty then "" else ",") ++ writeLabel name value
        | none => "") ++ "\x7d"

section Render

variable {F : Type} [Floating F]

def formatFloat (value : F) : String :=
  if Floating.isInfinity value then "+Inf" else Floating.display value

def writeSample (name : String) (labelNames labels : List String) (value : F) : String :=
  name ++ writeLabels labelNames labels none ++ " " ++ formatFloat value ++ "\n"

def writeHistogramBucket (name : String) (labelNames labels : List String) (bucket : F)
    (count : Nat) : String :=
  name ++ "_bucket" ++ writeLabels labelNames labels (some ("le", formatFloat bucket)) ++ " " ++
    count.repr ++ "\n"

/-- The loop over the buckets, with the count that is set to zero at its end. -/
def writeBuckets (name : String) (labelNames labels : List String) (values : List F)
    (count : Nat) : List F → String
  | [] => ""
  | bucket :: buckets =>
      writeHistogramBucket name labelNames labels bucket
        (count + (values.filter fun value => Floating.le value bucket).length) ++
      writeBuckets name labelNames labels values 0 buckets

/-- What is written of the observations of one label set. -/
def writeObservation (name : String) (labelNames : List String) (buckets : List F)
    (labels : List String) (values : List F) : String :=
  writeBuckets name labelNames labels values 0 buckets ++
    writeHistogramBucket name labelNames labels (Floating.infinity : F) values.length ++
    writeSample (name ++ "_sum") labelNames labels (Floating.sum values) ++
    writeSample (name ++ "_count") labelNames labels (Floating.ofNat values.length : F)

def writeValues (name : String) (labelNames : List String) : MetricValues F → String
  | .counter values | .gauge values =>
      String.join (values.toList.map fun entry => writeSample name labelNames entry.1 entry.2)
  | .histogram buckets observations =>
      String.join (observations.toList.map fun entry =>
        writeObservation name labelNames buckets entry.1 entry.2)

def writeFamily (family : MetricFamily F) : String :=
  "# HELP " ++ family.name ++ " " ++ escapeHelp family.help ++ "\n" ++
    ("# TYPE " ++ family.name ++ " " ++ family.kind.prometheusName ++ "\n") ++
    writeValues family.name family.labels family.values

def Metrics.render (metrics : Metrics F) : String :=
  String.join (metrics.families.toList.map fun entry => writeFamily entry.2)

end Render

/-! ## The text format -/

structure Sample (F : Type) where
  name : String
  labels : List (String × String)
  value : F

inductive Line (F : Type) where
  | help (name help : String)
  | type (name : String) (kind : MetricKind)
  | comment
  | sample (sample : Sample F)

/-- The backslash and the line feed. -/
def helpEscapes : Escapes Char :=
  ⟨'\\', [('\\', '\\'), ('\n', 'n')], by decide, by decide⟩

/-- The double quote as well. -/
def labelEscapes : Escapes Char :=
  ⟨'\\', [('\\', '\\'), ('\n', 'n'), ('"', '"')], by decide, by decide⟩

def isLabelChar (char : Char) : Bool :=
  char == '_' || char.isAlphanum

def isNameChar (char : Char) : Bool :=
  isLabelChar char || char == ':'

/-- A name, and its value between double quotes. -/
def readLabel : Reader Char (String × String) := fun text => do
  let (name, text) := readWhile isLabelChar text
  if name.isEmpty then none
  else
    let text ← expect ['=', '"'] text
    let (value, text) ← labelEscapes.read (· == '"') text
    let text ← expect ['"'] text
    some ((String.ofList name, String.ofList value), text)

/-- Labels in braces, or nothing. -/
def readLabels : Reader Char (List (String × String)) := fun text =>
  match expect ['\x7b'] text with
  | some text => readSeparated readLabel ',' '\x7d' text.length text
  | none => some ([], text)

/-- The word up to the next space, and what is behind that. -/
def readWord (text : List Char) : List Char × List Char :=
  ((readWhile (· != ' ') text).1, (readWhile (· != ' ') text).2.drop 1)

def readKind (text : List Char) : Option MetricKind :=
  [MetricKind.counter, .gauge, .histogram].find? fun kind => kind.prometheusName.toList == text

section Parse

variable {F : Type} [Floating F]

def parseSample (text : List Char) : Option (Sample F) := do
  let (name, text) := readWhile isNameChar text
  if name.isEmpty then none
  else
    let (labels, text) ← readLabels text
    let token ← expect [' '] text
    let value ← Floating.parse (String.ofList token)
    some ⟨String.ofList name, labels, value⟩

def parseComment (text : List Char) : Option (Line F) :=
  let (keyword, text) := readWord text
  let (name, text) := readWord text
  if keyword = "HELP".toList then
    (helpEscapes.unescape text).map fun help => .help (String.ofList name) (String.ofList help)
  else if keyword = "TYPE".toList then
    (readKind text).map fun kind => .type (String.ofList name) kind
  else some .comment

def parseLine (text : List Char) : Option (Line F) :=
  match expect ['#', ' '] text with
  | some text => parseComment text
  | none => (parseSample text).map .sample

/-- The lines of a text; the last one is ended as well. -/
def parseText (text : String) : Option (List (Line F)) :=
  let lines := text.toList.splitOn '\n'
  if lines.getLast? = some [] then lines.dropLast.mapM parseLine else none

end Parse

/-! ## What a registry has to say -/

section Lines

variable {F : Type} [Floating F]

/-- How many observations are at most the bound. -/
def atMost (values : List F) (bound : F) : Nat :=
  values.countP fun value => Floating.le value bound

/-- The samples of one label set: its buckets with the infinite one, its sum and its count. -/
def observationSamples (name : String) (buckets : List F) (pairs : List (String × String))
    (values : List F) : List (Sample F) :=
  ((buckets ++ [Floating.infinity]).map fun bucket =>
    ⟨name ++ "_bucket", pairs ++ [("le", formatFloat bucket)],
      Floating.ofNat (atMost values bucket)⟩) ++
  [⟨name ++ "_sum", pairs, Floating.sum values⟩,
    ⟨name ++ "_count", pairs, Floating.ofNat values.length⟩]

def MetricFamily.samples (family : MetricFamily F) : List (Sample F) :=
  match family.values with
  | .counter values | .gauge values =>
      values.toList.map fun entry => ⟨family.name, family.labels.zip entry.1, entry.2⟩
  | .histogram buckets observations =>
      observations.toList.flatMap fun entry =>
        observationSamples family.name buckets (family.labels.zip entry.1) entry.2

def MetricFamily.lines (family : MetricFamily F) : List (Line F) :=
  .help family.name family.help :: .type family.name family.kind :: family.samples.map .sample

/-- The families in the order of their names. -/
def Metrics.lines (metrics : Metrics F) : List (Line F) :=
  metrics.families.toList.flatMap fun entry => entry.2.lines

end Lines

/-! ## Reading what was written -/

theorem replace_toList (value : String) (char : Char) (code : String) :
    (replace value char code).toList = replaceAll char code.toList value.toList :=
  String.toList_ofList

theorem escapeHelp_toList (value : String) :
    (escapeHelp value).toList = helpEscapes.escape value.toList := by
  have ordered : Escapes.Ordered helpEscapes.mark helpEscapes.codes := by
    simp [Escapes.Ordered, helpEscapes]
  rw [escapeHelp, replace_toList, replace_toList, ← Escapes.chain_eq_escape ordered]
  rfl

theorem escapeLabel_toList (value : String) :
    (escapeLabel value).toList = labelEscapes.escape value.toList := by
  have ordered : Escapes.Ordered labelEscapes.mark labelEscapes.codes := by
    simp [Escapes.Ordered, labelEscapes]
  rw [escapeLabel, replace_toList, replace_toList, replace_toList,
    ← Escapes.chain_eq_escape ordered]
  rfl

theorem isLabelChar_of_valid {name : String} (valid : isValidIdentifier name = true) :
    name.toList ≠ [] ∧ ∀ char ∈ name.toList, isLabelChar char = true := by
  rw [isValidIdentifier] at valid
  split at valid
  case h_1 => cases valid
  case h_2 first rest chars =>
    rw [Bool.and_eq_true, Bool.or_eq_true, List.all_eq_true] at valid
    obtain ⟨begins, continues⟩ := valid
    rw [chars]
    refine ⟨List.cons_ne_nil _ _, List.forall_mem_cons.mpr ⟨?_, continues⟩⟩
    rw [isLabelChar, Bool.or_eq_true, Char.isAlphanum, Bool.or_eq_true]
    rcases begins with low | letter
    · exact .inl low
    · exact .inr (.inl letter)

theorem not_mem_of_valid {name : String} (valid : isValidIdentifier name = true) {char : Char}
    (other : isLabelChar char = false) : char ∉ name.toList := by
  intro member
  have inside := (isLabelChar_of_valid valid).2 char member
  rw [other] at inside
  cases inside

theorem writeLabel_toList (name value : String) : (writeLabel name value).toList =
    name.toList ++ (['=', '"'] ++ (labelEscapes.escape value.toList ++ ['"'])) := by
  rw [writeLabel, String.toList_append, String.toList_append, String.toList_append,
    escapeLabel_toList, List.append_assoc, List.append_assoc]
  rfl

theorem readLabel_reads {name : String} (valid : isValidIdentifier name = true) (value : String) :
    Reads readLabel (writeLabel name value).toList (name, value) := by
  intro rest
  obtain ⟨some_char, chars⟩ := isLabelChar_of_valid valid
  have text : (writeLabel name value).toList ++ rest = name.toList ++
      (['=', '"'] ++ (labelEscapes.escape value.toList ++ (['"'] ++ rest))) := by
    rw [writeLabel_toList]
    simp only [List.append_assoc]
  have word : readWhile isLabelChar (name.toList ++
      (['=', '"'] ++ (labelEscapes.escape value.toList ++ (['"'] ++ rest)))) =
        (name.toList, ['=', '"'] ++ (labelEscapes.escape value.toList ++ (['"'] ++ rest))) :=
    readWhile_append chars (by simp [isLabelChar])
  have quoted : labelEscapes.read (· == '"')
      (labelEscapes.escape value.toList ++ (['"'] ++ rest)) =
        some (value.toList, ['"'] ++ rest) := by
    apply Escapes.read_escape rfl
    · intro char stops
      rw [beq_iff_eq] at stops
      rw [stops]
      decide
    · simp
  have filled : name.toList.isEmpty = false := by simpa using some_char
  rw [text, readLabel]
  simp only [word, filled, expect_append, quoted, Option.bind_eq_bind, Option.bind_some,
    String.ofList_toList]
  rfl

/-- How a pair is written. -/
def written (pair : String × String) : List Char :=
  (writeLabel pair.1 pair.2).toList

theorem writePairs_succ (index : Nat) (pairs : List (String × String)) :
    (writePairs (index + 1) pairs).toList = (pairs.map written).flatMap (',' :: ·) := by
  induction pairs generalizing index with
  | nil => rfl
  | cons pair pairs ih =>
      rw [writePairs, if_pos (Nat.succ_pos index), String.toList_append, String.toList_append, ih,
        List.map_cons, List.flatMap_cons]
      rfl

theorem writePairs_zero (pair : String × String) (pairs : List (String × String)) :
    (writePairs 0 (pair :: pairs)).toList = [','].intercalate ((pair :: pairs).map written) := by
  rw [writePairs, if_neg (Nat.not_lt_zero 0), String.toList_append, String.toList_append,
    writePairs_succ, List.map_cons, intercalate_cons]
  rfl

/-- Pairs in braces, or nothing. -/
def braces (pairs : List (String × String)) : List Char :=
  if pairs.isEmpty then []
  else '\x7b' :: ([','].intercalate (pairs.map written) ++ ['\x7d'])

theorem writeLabels_toList {labelNames labels : List String}
    (fits : labels.length = labelNames.length) (extra : Option (String × String)) :
    (writeLabels labelNames labels extra).toList =
      braces (labelNames.zip labels ++ extra.toList) := by
  cases labelNames with
  | nil =>
      cases extra with
      | none => rfl
      | some pair =>
          simp [writeLabels, braces, writePairs, written]
  | cons name names =>
      cases labels with
      | nil => cases fits
      | cons label labels =>
          have joined : (writeLabels (name :: names) (label :: labels) extra).toList =
              '\x7b' :: ((writePairs 0 ((name, label) :: names.zip labels)).toList ++
                (extra.toList.map written).flatMap (',' :: ·) ++ ['\x7d']) := by
            cases extra with
            | none => simp [writeLabels]
            | some pair => simp [writeLabels, written]
          rw [joined, braces, if_neg (by simp), List.zip_cons_cons, writePairs_zero,
            List.cons_append, List.map_cons, List.map_cons, List.map_append, intercalate_cons,
            intercalate_cons, List.flatMap_append]
          simp only [List.append_assoc]

theorem readLabels_braces {pairs : List (String × String)}
    (valid : ∀ pair ∈ pairs, isValidIdentifier pair.1 = true) (rest : List Char) :
    readLabels (braces pairs ++ ' ' :: rest) = some (pairs, ' ' :: rest) := by
  rw [braces]
  split
  case isTrue none =>
    rw [List.isEmpty_iff.mp none, List.nil_append, readLabels, expect_of_head_ne (by simp)]
  case isFalse filled =>
    rw [List.isEmpty_iff] at filled
    have separated : Reads (readSeparated readLabel ',' '\x7d'
        ([','].intercalate (pairs.map written) ++ ['\x7d'] ++ ' ' :: rest).length)
        ([','].intercalate (pairs.map written) ++ ['\x7d']) pairs := by
      apply readSeparated_reads (by decide) filled
      · have long := length_le_intercalate ',' (pairs.map written)
        rw [List.length_map] at long
        simp only [List.length_append, List.length_cons]
        omega
      · intro pair member next rest _
        exact readLabel_reads (valid pair member) pair.2 (next :: rest)
    have opened := expect_append ['\x7b']
      ([','].intercalate (pairs.map written) ++ ['\x7d'] ++ ' ' :: rest)
    rw [List.cons_append, readLabels]
    refine Eq.trans ?_ (separated (' ' :: rest))
    rw [List.singleton_append] at opened
    rw [opened]

section Lines

variable {F : Type} [Floating F]

/-- A line that reads as one. -/
structure LineWritten (text : List Char) (line : Line F) : Prop where
  free : '\n' ∉ text
  read : parseLine text = some line

/-- A text whose lines are read as these. -/
inductive TextWritten : List Char → List (Line F) → Prop
  | nil : TextWritten [] []
  | cons {text rest : List Char} {line : Line F} {lines : List (Line F)}
      (first : LineWritten text line) (others : TextWritten rest lines) :
      TextWritten (text ++ '\n' :: rest) (line :: lines)

theorem TextWritten.single {text : List Char} {line : Line F} (written : LineWritten text line) :
    TextWritten (text ++ ['\n']) [line] :=
  .cons written .nil

theorem TextWritten.append {text rest : List Char} {lines others : List (Line F)}
    (first : TextWritten text lines) (second : TextWritten rest others) :
    TextWritten (text ++ rest) (lines ++ others) := by
  induction first with
  | nil => exact second
  | cons line _ ih =>
      rw [List.append_assoc]
      exact .cons line ih

theorem TextWritten.flatMap {α : Type} {write : α → List Char} {lines : α → List (Line F)}
    {items : List α} (each : ∀ item ∈ items, TextWritten (write item) (lines item)) :
    TextWritten (items.flatMap write) (items.flatMap lines) := by
  induction items with
  | nil => exact .nil
  | cons item items ih =>
      rw [List.forall_mem_cons] at each
      exact each.1.append (ih each.2)

theorem TextWritten.parts {text : List Char} {lines : List (Line F)}
    (written : TextWritten text lines) : ∃ parts : List (List Char),
      text = parts.flatMap (· ++ ['\n']) ∧ (∀ part ∈ parts, '\n' ∉ part) ∧
        parts.mapM parseLine = some lines := by
  induction written with
  | nil => exact ⟨[], rfl, List.forall_mem_nil _, rfl⟩
  | @cons text _ line _ first _ ih =>
      obtain ⟨parts, joined, free, read⟩ := ih
      refine ⟨text :: parts, ?_, List.forall_mem_cons.mpr ⟨first.free, free⟩, ?_⟩
      · rw [joined, List.flatMap_cons, List.append_assoc]
        rfl
      · rw [List.mapM_cons, first.read, read]
        rfl

theorem TextWritten.parseText {text : String} {lines : List (Line F)}
    (written : TextWritten text.toList lines) : parseText text = some lines := by
  obtain ⟨parts, joined, free, read⟩ := written.parts
  have split := splitOn_terminated free
  rw [← joined] at split
  rw [MetricsRegistry.parseText, split, if_pos List.getLast?_concat, List.dropLast_concat, read]

theorem parse_formatFloat (value : F) : Floating.parse (formatFloat value) = some value := by
  rw [formatFloat]
  split
  case isTrue infinite =>
    rw [(Floating.isInfinity_iff value).mp infinite]
    exact Floating.parse_infinity
  case isFalse other =>
    exact Floating.parse_display value fun same => other ((Floating.isInfinity_iff value).mpr same)

theorem formatFloat_free (value : F) : '\n' ∉ (formatFloat value).toList := by
  rw [formatFloat]
  split
  case isTrue => decide
  case isFalse => exact Floating.line_free value

theorem written_free {pair : String × String} (valid : isValidIdentifier pair.1 = true) :
    '\n' ∉ written pair := by
  rw [written, writeLabel_toList]
  simp only [List.mem_append, not_or]
  refine ⟨not_mem_of_valid valid (by decide), by decide, ?_, by decide⟩
  exact Escapes.not_mem_escape (by decide) (by decide) (by decide)

theorem braces_free {pairs : List (String × String)}
    (valid : ∀ pair ∈ pairs, isValidIdentifier pair.1 = true) : '\n' ∉ braces pairs := by
  rw [braces]
  split
  case isTrue => exact List.not_mem_nil
  case isFalse =>
    simp only [List.mem_cons, List.mem_append, not_or]
    refine ⟨by decide, ?_, by decide, List.not_mem_nil⟩
    intro inside
    rcases mem_intercalate inside with comma | ⟨_, part, inside⟩
    · cases comma
    · obtain ⟨pair, member, rfl⟩ := List.mem_map.mp part
      exact written_free (valid pair member) inside

theorem isNameChar_of_isLabelChar {char : Char} (holds : isLabelChar char = true) :
    isNameChar char = true := by
  rw [isNameChar, holds]
  rfl

/-- A sample line: a name, its labels and a token. -/
theorem sample_written {name token : String} {pairs : List (String × String)} {value : F}
    (named : isValidIdentifier name = true)
    (valid : ∀ pair ∈ pairs, isValidIdentifier pair.1 = true)
    (read : Floating.parse token = some value) (free : '\n' ∉ token.toList) :
    LineWritten (name.toList ++ (braces pairs ++ ' ' :: token.toList))
      (.sample ⟨name, pairs, value⟩) where
  free := by
    simp only [List.mem_append, List.mem_cons, not_or]
    exact ⟨not_mem_of_valid named (by decide), braces_free valid, by decide, free⟩
  read := by
    obtain ⟨some_char, chars⟩ := isLabelChar_of_valid named
    have no_comment : expect ['#', ' '] (name.toList ++ (braces pairs ++ ' ' :: token.toList)) =
        none := by
      apply expect_of_head_ne
      rw [List.head?_append_of_ne_nil _ some_char]
      intro begins
      exact not_mem_of_valid named (by decide) (List.mem_of_mem_head? begins)
    have word : readWhile isNameChar (name.toList ++ (braces pairs ++ ' ' :: token.toList)) =
        (name.toList, braces pairs ++ ' ' :: token.toList) := by
      apply readWhile_append
      · intro char member
        exact isNameChar_of_isLabelChar (chars char member)
      · rw [braces]
        split <;> simp [isNameChar, isLabelChar]
    have filled : name.toList.isEmpty = false := by simpa using some_char
    have spaced : expect [' '] (' ' :: token.toList) = some token.toList :=
      expect_append [' '] token.toList
    rw [parseLine, no_comment]
    simp only [parseSample, word, filled, readLabels_braces valid, spaced, Option.bind_eq_bind,
      Option.bind_some, String.ofList_toList, read]
    rfl

theorem valid_append {name : String} (named : isValidIdentifier name = true) (suffix : String)
    (chars : suffix.toList.all isLabelChar = true) :
    isValidIdentifier (name ++ suffix) = true := by
  rw [isValidIdentifier] at named ⊢
  split at named
  case h_1 => cases named
  case h_2 first rest begins =>
    rw [Bool.and_eq_true] at named
    rw [String.toList_append, begins, List.cons_append]
    simp only [Bool.and_eq_true, List.all_append]
    exact ⟨named.1, named.2, chars⟩

/-- The label names of a family, and the values of one label set. -/
structure Labelled (labelNames labels : List String) : Prop where
  valid : ∀ label ∈ labelNames, isValidIdentifier label = true
  fits : labels.length = labelNames.length

theorem Labelled.pairs {labelNames labels : List String} (labelled : Labelled labelNames labels) :
    ∀ pair ∈ labelNames.zip labels, isValidIdentifier pair.1 = true := by
  intro pair member
  exact labelled.valid pair.1 (List.of_mem_zip member).1

theorem writeSample_written {name : String} {labelNames labels : List String}
    (named : isValidIdentifier name = true) (labelled : Labelled labelNames labels) (value : F) :
    TextWritten (writeSample name labelNames labels value).toList
      [.sample ⟨name, labelNames.zip labels, value⟩] := by
  have line := sample_written named labelled.pairs (parse_formatFloat value)
    (formatFloat_free value)
  have text : (writeSample name labelNames labels value).toList =
      name.toList ++ (braces (labelNames.zip labels) ++ ' ' :: (formatFloat value).toList) ++
        ['\n'] := by
    have labels := writeLabels_toList labelled.fits none
    rw [Option.toList_none, List.append_nil] at labels
    simp [writeSample, labels]
  rw [text]
  exact .single line

theorem le_valid : isValidIdentifier "le" = true := by
  decide +kernel

theorem writeHistogramBucket_written {name : String} {labelNames labels : List String}
    (named : isValidIdentifier name = true) (labelled : Labelled labelNames labels) (bucket : F)
    (count : Nat) :
    TextWritten (writeHistogramBucket name labelNames labels bucket count).toList
      [.sample ⟨name ++ "_bucket", labelNames.zip labels ++ [("le", formatFloat bucket)],
        (Floating.ofNat count : F)⟩] := by
  have valid : ∀ pair ∈ labelNames.zip labels ++ [("le", formatFloat bucket)],
      isValidIdentifier pair.1 = true := by
    intro pair member
    rcases List.mem_append.mp member with own | le
    · exact labelled.pairs pair own
    · rw [List.mem_singleton.mp le]
      exact le_valid
  have line := sample_written (valid_append named "_bucket" (by decide +kernel)) valid
    (Floating.parse_repr (F := F) count) (not_mem_toString (by decide) count)
  have text : (writeHistogramBucket name labelNames labels bucket count).toList =
      (name ++ "_bucket").toList ++
        (braces (labelNames.zip labels ++ [("le", formatFloat bucket)]) ++
          ' ' :: count.repr.toList) ++ ['\n'] := by
    have labels := writeLabels_toList labelled.fits (some ("le", formatFloat bucket))
    rw [Option.toList_some] at labels
    simp [writeHistogramBucket, labels]
  rw [text]
  exact .single line

theorem writeBuckets_written {name : String} {labelNames labels : List String}
    (named : isValidIdentifier name = true) (labelled : Labelled labelNames labels)
    (values buckets : List F) :
    TextWritten (writeBuckets name labelNames labels values 0 buckets).toList
      ((buckets.map fun bucket => (⟨name ++ "_bucket",
        labelNames.zip labels ++ [("le", formatFloat bucket)],
          Floating.ofNat (atMost values bucket)⟩ : Sample F)).map .sample) := by
  induction buckets with
  | nil => exact .nil
  | cons bucket buckets ih =>
      have line := writeHistogramBucket_written named labelled bucket (atMost values bucket)
      rw [writeBuckets, Nat.zero_add, ← List.countP_eq_length_filter, ← atMost,
        String.toList_append]
      exact line.append ih

theorem atMost_infinity {values : List F}
    (finite : ∀ value ∈ values, Floating.isFinite value = true) :
    atMost values Floating.infinity = values.length := by
  rw [atMost, List.countP_eq_length]
  intro value member
  exact Floating.le_infinity value (finite value member)

theorem writeObservation_written {name : String} {labelNames labels : List String}
    (named : isValidIdentifier name = true) (labelled : Labelled labelNames labels)
    (buckets : List F) {values : List F}
    (finite : ∀ value ∈ values, Floating.isFinite value = true) :
    TextWritten (writeObservation name labelNames buckets labels values).toList
      ((observationSamples name buckets (labelNames.zip labels) values).map .sample) := by
  have listed := writeBuckets_written named labelled values buckets
  have infinite := writeHistogramBucket_written named labelled (Floating.infinity : F) values.length
  have sum := writeSample_written (valid_append named "_sum" (by decide +kernel)) labelled
    (Floating.sum values)
  have count := writeSample_written (valid_append named "_count" (by decide +kernel)) labelled
    (Floating.ofNat values.length : F)
  have all := ((listed.append infinite).append sum).append count
  rw [← atMost_infinity finite] at all
  simp only [observationSamples, List.map_append, List.map_cons, List.map_nil]
  simp only [writeObservation, String.toList_append, List.append_assoc] at all ⊢
  rw [← atMost_infinity finite]
  exact all

omit [Floating F] in
theorem readWord_append {word : List Char} (free : ' ' ∉ word) (rest : List Char) :
    readWord (word ++ ' ' :: rest) = (word, rest) := by
  have split : readWhile (· != ' ') (word ++ ' ' :: rest) = (word, ' ' :: rest) := by
    apply readWhile_append
    · intro char member
      rw [bne_iff_ne]
      intro same
      exact free (same ▸ member)
    · simp
  rw [readWord, split]
  rfl

/-- A comment of a keyword, a name and a rest. -/
theorem parseLine_comment (keyword : String) {name : String} (space : ' ' ∉ keyword.toList)
    (named : isValidIdentifier name = true) (rest : List Char) :
    parseLine (F := F) ("# ".toList ++ (keyword.toList ++ ' ' :: (name.toList ++ ' ' :: rest))) =
      if keyword = "HELP" then
        (helpEscapes.unescape rest).map fun help => .help name (String.ofList help)
      else if keyword = "TYPE" then (readKind rest).map fun kind => .type name kind
      else some .comment := by
  have behind := expect_append ['#', ' '] (keyword.toList ++ ' ' :: (name.toList ++ ' ' :: rest))
  have chars : "# ".toList = ['#', ' '] := rfl
  have second := readWord_append (not_mem_of_valid named (by decide)) rest
  rw [parseLine, chars, behind]
  simp only [parseComment, readWord_append space, second, String.toList_inj, String.ofList_toList]

theorem help_written {name : String} (named : isValidIdentifier name = true) (help : String) :
    LineWritten (F := F) ("# HELP ".toList ++ (name.toList ++ ' ' :: (escapeHelp help).toList))
      (.help name help) where
  free := by
    rw [escapeHelp_toList]
    simp only [List.mem_append, List.mem_cons, not_or]
    refine ⟨by decide, not_mem_of_valid named (by decide), by decide, ?_⟩
    exact Escapes.not_mem_escape (by decide) (by decide) (by decide)
  read := by
    have comment := parseLine_comment (F := F) "HELP" (by decide) named
      (escapeHelp help).toList
    rw [if_pos rfl, escapeHelp_toList, Escapes.unescape_escape, Option.map_some,
      String.ofList_toList] at comment
    rw [escapeHelp_toList]
    exact comment

theorem type_written {name : String} (named : isValidIdentifier name = true) (kind : MetricKind) :
    LineWritten (F := F) ("# TYPE ".toList ++ (name.toList ++ ' ' :: kind.prometheusName.toList))
      (.type name kind) where
  free := by
    simp only [List.mem_append, List.mem_cons, not_or]
    refine ⟨by decide, not_mem_of_valid named (by decide), by decide, ?_⟩
    cases kind <;> decide
  read := by
    have comment := parseLine_comment (F := F) "TYPE" (by decide) named
      kind.prometheusName.toList
    have found : readKind kind.prometheusName.toList = some kind := by
      cases kind <;> rfl
    rw [if_neg (by decide), if_pos rfl, found] at comment
    exact comment

/-- The samples of a counter or a gauge. -/
theorem writeEntries_written {family : MetricFamily F} (sound : family.Sound)
    {values : Std.ExtTreeMap (List String) F}
    (fits : ∀ labels : List String, labels ∈ values → labels.length = family.labels.length) :
    TextWritten (String.join (values.toList.map fun entry =>
        writeSample family.name family.labels entry.1 entry.2)).toList
      ((values.toList.map fun entry => (⟨family.name, family.labels.zip entry.1, entry.2⟩ :
        Sample F)).map .sample) := by
  rw [String.toList_join, List.flatMap_map, List.map_map, List.map_eq_flatMap]
  apply TextWritten.flatMap
  intro entry member
  have found := Std.ExtTreeMap.mem_toList_iff_getElem?_eq_some.mp member
  have stored : entry.1 ∈ values := Std.ExtTreeMap.mem_iff_isSome_getElem?.mpr (by rw [found]; rfl)
  exact writeSample_written sound.name ⟨sound.labels, fits entry.1 stored⟩ entry.2

theorem writeValues_written {family : MetricFamily F} (sound : family.Sound) :
    TextWritten (writeValues family.name family.labels family.values).toList
      (family.samples.map .sample) := by
  have valued := sound.values
  rw [MetricFamily.samples]
  cases stored : family.values with
  | counter values =>
      rw [stored] at valued
      exact writeEntries_written sound valued.2
  | gauge values =>
      rw [stored] at valued
      exact writeEntries_written sound valued.2
  | histogram buckets observations =>
      rw [stored] at valued
      obtain ⟨_, _, _, each⟩ := valued
      rw [writeValues, String.toList_join, List.flatMap_map, List.map_flatMap]
      apply TextWritten.flatMap
      intro entry member
      have found := Std.ExtTreeMap.mem_toList_iff_getElem?_eq_some.mp member
      obtain ⟨fits, finite⟩ := each entry.1 entry.2 found
      exact writeObservation_written sound.name ⟨sound.labels, fits⟩ buckets finite

theorem writeFamily_written {family : MetricFamily F} (sound : family.Sound) :
    TextWritten (writeFamily family).toList family.lines := by
  have text : (writeFamily family).toList =
      ("# HELP ".toList ++ (family.name.toList ++ ' ' :: (escapeHelp family.help).toList)) ++
        '\n' :: (("# TYPE ".toList ++
          (family.name.toList ++ ' ' :: family.kind.prometheusName.toList)) ++
            '\n' :: (writeValues family.name family.labels family.values).toList) := by
    simp [writeFamily]
  rw [text]
  exact .cons (help_written sound.name family.help)
    (.cons (type_written sound.name family.kind) (writeValues_written sound))

/-- What is rendered is read as what the registry has to say. -/
theorem parseText_render {metrics : Metrics F} (sound : metrics.Sound) :
    parseText metrics.render = some metrics.lines := by
  apply TextWritten.parseText
  rw [Metrics.render, Metrics.lines, String.toList_join, List.flatMap_map]
  apply TextWritten.flatMap
  intro entry member
  have found := Std.ExtTreeMap.mem_toList_iff_getElem?_eq_some.mp member
  exact writeFamily_written (sound entry.1 entry.2 found).2

end Lines

end RustZero.MetricsRegistry
