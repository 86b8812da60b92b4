import Mathlib
import RustZero.Lib.EventStream

/-!
# Server-sent events

`rest/src/sse.rs`: the events of a `text/event-stream` response and their encoding.
Event names and ids are stored on a single line; `data` and comments are split into
lines when they are written.  That splitting knows LF and CRLF, the reader of the
stream also a CR alone: text with such a CR is read as other lines than were written.

A `String` stands for its characters, a `Duration` for its nanoseconds.
-/

namespace RustZero.Sse

open Lib.EventStream

/-! ## Events -/

structure SseEvent where
  event : Option String
  data : Option String
  id : Option String
  retry : Option Nat
  comment : Option String
  deriving DecidableEq, Repr

def SseEvent.default : SseEvent := ⟨none, none, none, none, none⟩

def sanitizeSingleLine (value : String) : String :=
  String.ofList (value.toList.filter fun char => !(char == '\r' || char == '\n'))

/-- `SseEvent::data`. -/
def SseEvent.ofData (data : String) : SseEvent := { SseEvent.default with data := some data }

/-- `SseEvent::comment`. -/
def SseEvent.ofComment (comment : String) : SseEvent :=
  { SseEvent.default with comment := some comment }

def SseEvent.withEvent (sent : SseEvent) (event : String) : SseEvent :=
  { sent with event := some (sanitizeSingleLine event) }

def SseEvent.withId (sent : SseEvent) (id : String) : SseEvent :=
  { sent with id := some (String.ofList ((sanitizeSingleLine id).toList.filter (· != '\x00'))) }

def SseEvent.withRetry (sent : SseEvent) (retry : Nat) : SseEvent :=
  { sent with retry := some retry }

/-- The fields are private: an event comes from these. -/
inductive SseEvent.Built : SseEvent → Prop
  | default : Built SseEvent.default
  | data (data : String) : Built (.ofData data)
  | comment (comment : String) : Built (.ofComment comment)
  | event {sent : SseEvent} (event : String) : Built sent → Built (sent.withEvent event)
  | id {sent : SseEvent} (id : String) : Built sent → Built (sent.withId id)
  | retry {sent : SseEvent} (retry : Nat) : Built sent → Built (sent.withRetry retry)

/-! ## Encoding -/

/-- One CR at the end of a line is dropped. -/
def stripReturn (line : List Char) : List Char :=
  if line.getLast? = some '\r' then line.dropLast else line

def lines (value : String) : List String :=
  (value.toList.splitOn '\n').map fun line => String.ofList (stripReturn line)

def asMillis (duration : Nat) : Nat := duration / 1000000

/-- Every line behind its label. -/
def pushLines (label : String) : List String → String
  | [] => ""
  | line :: rest => label ++ line ++ "\n" ++ pushLines label rest

def SseEvent.encode (sent : SseEvent) : String :=
  pushLines ": " (sent.comment.elim [] lines) ++
    pushLines "event: " sent.event.toList ++
    pushLines "id: " sent.id.toList ++
    pushLines "retry: " (sent.retry.map fun retry => toString (asMillis retry)).toList ++
    pushLines "data: " (sent.data.elim [] lines) ++ "\n"

example : ((SseEvent.ofData "first\nsecond").withEvent "update\nignored" |>.withId "42\r\n"
      |>.withRetry 1500000000).encode =
    "event: updateignored\nid: 42\nretry: 1500\ndata: first\ndata: second\n\n" := by
  decide +kernel

/-! ## The round trip -/

/-- The message a reader should get. -/
def SseEvent.message (sent : SseEvent) (source : EventSource) : Option Message :=
  sent.data.map fun data =>
    ⟨(sent.event.getD "").toList, normalise data.toList, sent.id.elim source.lastId String.toList⟩

/-- The reader after it. -/
def SseEvent.after (sent : SseEvent) (source : EventSource) : EventSource :=
  ⟨[], [], sent.id.elim source.lastId String.toList, (sent.retry.map asMillis).or source.retry⟩

/-- The fields a reader should see, the data in the lines it consists of. -/
def SseEvent.fields (sent : SseEvent) : List Line :=
  sent.event.toList.map (fun event => .field "event".toList event.toList) ++
    sent.id.toList.map (fun id => .field "id".toList id.toList) ++
    sent.retry.toList.map (fun retry =>
      .field "retry".toList (toString (asMillis retry)).toList) ++
    (sent.data.elim [] fun data => (normalise data.toList).splitOn '\n').map
      (.field "data".toList)

/-- A reader between two events gets the one event or none, and reads the text as comments, the
fields and one event boundary at its end. -/
structure SseEvent.RoundTrips (sent : SseEvent) : Prop where
  decoded : ∀ source : EventSource, source.data = [] → source.event = [] →
    source.receive sent.encode.toList = (sent.after source, (sent.message source).toList)
  contained : ∃ comments : List (List Char), (wireLines sent.encode.toList).map parseLine =
    comments.map .comment ++ sent.fields ++ [.blank]

/-- Every CR is followed by LF. -/
def paired : List Char → Bool
  | [] => true
  | char :: rest => (char != '\r' || rest.head? == some '\n') && paired rest

/-- Every CR is followed by a colon, or ends the line. -/
def shielded : List Char → Bool
  | [] => true
  | char :: rest => (char != '\r' || rest.head?.all (· == ':')) && shielded rest

/-- No CR of the data stands alone, and none of the comment starts a line that is no comment. -/
structure SseEvent.Unbroken (sent : SseEvent) : Prop where
  data : ∀ data ∈ sent.data, paired data.toList = true
  comment : ∀ comment ∈ sent.comment, ∀ line ∈ lines comment, shielded line.toList = true

/-! ## What the constructors keep -/

structure SseEvent.WellFormed (sent : SseEvent) : Prop where
  event : ∀ event ∈ sent.event, '\r' ∉ event.toList ∧ '\n' ∉ event.toList
  id : ∀ id ∈ sent.id, '\r' ∉ id.toList ∧ '\n' ∉ id.toList
  noNull : ∀ id ∈ sent.id, '\x00' ∉ id.toList
  exclusive : sent.data = none ∨ sent.comment = none

theorem sanitizeSingleLine_clean (value : String) :
    '\r' ∉ (sanitizeSingleLine value).toList ∧ '\n' ∉ (sanitizeSingleLine value).toList := by
  unfold sanitizeSingleLine
  simp

theorem SseEvent.Built.wellFormed {sent : SseEvent} (built : sent.Built) : sent.WellFormed := by
  induction built with
  | default => constructor <;> simp [SseEvent.default]
  | data data => constructor <;> simp [SseEvent.ofData, SseEvent.default]
  | comment comment => constructor <;> simp [SseEvent.ofComment, SseEvent.default]
  | event event _ ih =>
      refine ⟨?_, ih.id, ih.noNull, ih.exclusive⟩
      intro name stored
      rw [← Option.mem_some_iff.mp stored]
      exact sanitizeSingleLine_clean event
  | id id _ ih =>
      have clean := sanitizeSingleLine_clean id
      refine ⟨ih.event, ?_, ?_, ih.exclusive⟩
      · intro name stored
        rw [← Option.mem_some_iff.mp stored]
        simp [clean]
      · intro name stored
        rw [← Option.mem_some_iff.mp stored]
        simp
  | retry retry _ ih => exact ⟨ih.event, ih.id, ih.noNull, ih.exclusive⟩

/-! ## The lines of an encoded event -/

/-- What a reader makes of labelled lines. -/
def readLines (label : String) (values : List String) : List Line :=
  values.flatMap fun value =>
    (wireLines (label.toList ++ value.toList ++ ['\n'])).map parseLine

theorem wireLines_pushLines (label : String) (values : List String) (rest : List Char) :
    (wireLines ((pushLines label values).toList ++ rest)).map parseLine =
      readLines label values ++ (wireLines rest).map parseLine := by
  induction values with
  | nil => rfl
  | cons value more ih =>
      have ended : (pushLines label (value :: more)).toList ++ rest =
          label.toList ++ value.toList ++ '\n' :: ((pushLines label more).toList ++ rest) := by
        rw [pushLines, String.toList_append, String.toList_append, String.toList_append,
          List.append_assoc (label.toList ++ value.toList), List.append_assoc]
        rfl
      rw [ended, wireLines_append, List.map_append, ih, ← List.append_assoc]
      rfl

theorem SseEvent.wireLines_encode (sent : SseEvent) :
    (wireLines sent.encode.toList).map parseLine =
      readLines ": " (sent.comment.elim [] lines) ++
        (readLines "event: " sent.event.toList ++ (readLines "id: " sent.id.toList ++
          (readLines "retry: " (sent.retry.map fun retry => toString (asMillis retry)).toList ++
            (readLines "data: " (sent.data.elim [] lines) ++ [.blank])))) := by
  have blank : (wireLines "\n".toList).map parseLine = [.blank] := by decide +kernel
  unfold SseEvent.encode
  simp only [String.toList_append, List.append_assoc, wireLines_pushLines, blank]

theorem readLines_cons (label : String) (line : List Char) (rest : List String) :
    readLines label (String.ofList line :: rest) =
      (wireLines (label.toList ++ line ++ ['\n'])).map parseLine ++ readLines label rest := by
  unfold readLines
  rw [List.flatMap_cons, String.toList_ofList]

/-- A label `name: `. -/
structure IsLabel (label name : String) : Prop where
  spelled : label.toList = name.toList ++ [':', ' ']
  nonempty : name.toList ≠ []
  plain : ':' ∉ name.toList
  clean : '\r' ∉ name.toList ∧ '\n' ∉ name.toList

theorem isLabel_event : IsLabel "event: " "event" := by
  constructor <;> decide +kernel

theorem isLabel_id : IsLabel "id: " "id" := by
  constructor <;> decide +kernel

theorem isLabel_retry : IsLabel "retry: " "retry" := by
  constructor <;> decide +kernel

theorem isLabel_data : IsLabel "data: " "data" := by
  constructor <;> decide +kernel

/-- Lines without breaks are read as they were written. -/
theorem readLines_field {label name : String} (isLabel : IsLabel label name)
    {values : List String}
    (clean : ∀ value ∈ values, '\r' ∉ value.toList ∧ '\n' ∉ value.toList) :
    readLines label values = values.map fun value => .field name.toList value.toList := by
  unfold readLines
  rw [List.map_eq_flatMap]
  apply List.flatMap_congr
  intro value member
  have row : '\r' ∉ label.toList ++ value.toList ∧ '\n' ∉ label.toList ++ value.toList := by
    rw [isLabel.spelled]
    simp [isLabel.clean, clean value member]
  rw [wireLines_row row.1 row.2, isLabel.spelled, List.append_assoc, List.map_singleton]
  exact congrArg (· :: []) (parseLine_field isLabel.nonempty isLabel.plain value.toList)

theorem toString_digits {number : Nat} {char : Char} (member : char ∈ (toString number).toList) :
    char.isDigit = true := by
  rw [Nat.toString_eq_repr, Nat.toList_repr] at member
  exact Nat.isDigit_of_mem_toDigits (by decide) (by decide) member

theorem readLines_retry (retry : Option Nat) :
    readLines "retry: " (retry.map fun retry => toString (asMillis retry)).toList =
      retry.toList.map fun retry =>
        .field "retry".toList (toString (asMillis retry)).toList := by
  have clean : ∀ value ∈ (retry.map fun retry => toString (asMillis retry)).toList,
      '\r' ∉ value.toList ∧ '\n' ∉ value.toList := by
    intro value member
    obtain ⟨time, _, same⟩ := Option.map_eq_some_iff.mp (Option.mem_toList.mp member)
    rw [← same]
    constructor
    · intro isReturn
      exact absurd (toString_digits isReturn) (by decide)
    · intro isBreak
      exact absurd (toString_digits isBreak) (by decide)
  rw [readLines_field isLabel_retry clean]
  cases retry <;> rfl

/-! ## Data -/

theorem stripReturn_cases (line : List Char) :
    (stripReturn line = line ∧ endsInReturn false line = false) ∨
      line = stripReturn line ++ ['\r'] := by
  unfold stripReturn
  rcases List.eq_nil_or_concat line with empty | ⟨before, last, split⟩
  · left
    rw [empty]
    exact ⟨rfl, rfl⟩
  · rw [List.concat_eq_append] at split
    rw [split, List.getLast?_concat, List.dropLast_concat, endsInReturn_concat]
    by_cases isReturn : last = '\r'
    · right
      rw [isReturn, if_pos rfl]
    · left
      rw [if_neg (by simpa using isReturn)]
      exact ⟨rfl, beq_eq_false_iff_ne.mpr isReturn⟩

theorem not_mem_stripReturn {line : List Char} {char : Char} (absent : char ∉ line) :
    char ∉ stripReturn line := by
  rcases stripReturn_cases line with ⟨same, _⟩ | split
  · rw [same]
    exact absent
  · intro member
    apply absent
    rw [split]
    exact List.mem_append_left _ member

theorem lines_last {line : List Char} (noBreak : '\n' ∉ line) :
    lines (String.ofList line) = [String.ofList (stripReturn line)] := by
  unfold lines
  rw [String.toList_ofList, List.splitOn_eq_singleton noBreak]
  rfl

theorem lines_break {line : List Char} (noBreak : '\n' ∉ line) (rest : List Char) :
    lines (String.ofList (line ++ '\n' :: rest)) =
      String.ofList (stripReturn line) :: lines (String.ofList rest) := by
  unfold lines
  rw [String.toList_ofList, String.toList_ofList,
    List.splitOn_append_cons_self_of_not_mem noBreak, List.map_cons]

theorem paired_cons (char : Char) (rest : List Char) :
    paired (char :: rest) = true ↔
      (char = '\r' → rest.head? = some '\n') ∧ paired rest = true := by
  rw [paired, Bool.and_eq_true, Bool.or_eq_true, bne_iff_ne, beq_iff_eq, ← imp_iff_not_or]

theorem paired_last {line : List Char} (noBreak : '\n' ∉ line) :
    paired line = true ↔ '\r' ∉ line := by
  induction line with
  | nil => simp [paired]
  | cons char rest ih =>
      rw [List.mem_cons, not_or] at noBreak
      have next : rest.head? ≠ some '\n' := by
        intro isBreak
        exact noBreak.2 (List.mem_of_head? isBreak)
      rw [paired_cons, List.mem_cons, not_or, ih noBreak.2, imp_iff_not next]
      exact and_congr_left' ne_comm

theorem stripReturn_cons (char : Char) {rest : List Char} (nonempty : rest ≠ []) :
    stripReturn (char :: rest) = char :: stripReturn rest := by
  unfold stripReturn
  rw [List.getLast?_cons_of_ne_nil nonempty, List.dropLast_cons_of_ne_nil nonempty]
  split <;> rfl

/-- Line by line, the CR before a line feed is the only one. -/
theorem paired_break {line : List Char} (noBreak : '\n' ∉ line) (rest : List Char) :
    paired (line ++ '\n' :: rest) = true ↔ '\r' ∉ stripReturn line ∧ paired rest = true := by
  induction line with
  | nil => simp [paired_cons, stripReturn]
  | cons char line ih =>
      rw [List.mem_cons, not_or] at noBreak
      rw [List.cons_append, paired_cons, ih noBreak.2, ← and_assoc]
      apply and_congr_left'
      cases line with
      | nil =>
          by_cases isReturn : char = '\r'
          · simp [stripReturn, isReturn]
          · simp [stripReturn, isReturn, Ne.symm isReturn]
      | cons next more =>
          have other : (next :: more ++ '\n' :: rest).head? ≠ some '\n' := by
            intro isBreak
            exact noBreak.2 (List.mem_cons.mpr (Or.inl (Option.some.inj isBreak).symm))
          rw [stripReturn_cons char (List.cons_ne_nil _ _), List.mem_cons, not_or,
            imp_iff_not other]
          exact and_congr_left' ne_comm

/-- A text is normalised line by line. -/
theorem normalise_break (line rest : List Char) :
    normalise (line ++ '\n' :: rest) = normalise (stripReturn line) ++ '\n' :: normalise rest := by
  rcases stripReturn_cases line with ⟨same, flag⟩ | split
  · rw [same]
    unfold normalise
    rw [unifyBreaks_append, flag]
    rfl
  · have pair : line ++ '\n' :: rest = stripReturn line ++ '\r' :: '\n' :: rest := by
      rw [List.append_cons (stripReturn line), ← split]
    rw [pair]
    unfold normalise
    rw [unifyBreaks_append]
    rfl

theorem normalise_of_no_return {line : List Char} (noReturn : '\r' ∉ line) :
    normalise line = line := by
  have alone := normalise_append noReturn []
  rw [List.append_nil] at alone
  rw [alone]
  exact List.append_nil line

theorem stripReturn_of_no_return {line : List Char} (noReturn : '\r' ∉ line) :
    stripReturn line = line := by
  unfold stripReturn
  apply if_neg
  intro last
  exact noReturn (List.mem_of_getLast? last)

/-- The lines written are the lines of the normalised text. -/
theorem lines_of_paired (text : List Char) (isPaired : paired text = true) :
    (lines (String.ofList text)).map String.toList = (normalise text).splitOn '\n' ∧
      ∀ value ∈ lines (String.ofList text), '\r' ∉ value.toList ∧ '\n' ∉ value.toList := by
  induction text using breakInduction with
  | last line noBreak =>
      have noReturn := (paired_last noBreak).mp isPaired
      rw [lines_last noBreak, stripReturn_of_no_return noReturn, normalise_of_no_return noReturn,
        List.splitOn_eq_singleton noBreak]
      simp [noReturn, noBreak]
  | more line rest noBreak ih =>
      obtain ⟨noReturn, restPaired⟩ := (paired_break noBreak rest).mp isPaired
      obtain ⟨same, clean⟩ := ih restPaired
      have lineClean := not_mem_stripReturn noBreak
      rw [lines_break noBreak, normalise_break, normalise_of_no_return noReturn,
        List.splitOn_append_cons_self_of_not_mem lineClean, List.map_cons, same]
      constructor
      · rw [String.toList_ofList]
      · intro value member
        rcases List.mem_cons.mp member with here | later
        · rw [here, String.toList_ofList]
          exact ⟨noReturn, lineClean⟩
        · exact clean value later

/-- A line with a CR of its own is read as less data than it holds. -/
theorem dataTotal_line {line : List Char} (noBreak : '\n' ∉ line) :
    dataTotal ((wireLines ("data: ".toList ++ line ++ ['\n'])).map parseLine) +
      (if '\r' ∈ line then 1 else 0) ≤ line.length + 1 := by
  have first : ∀ text : List Char, dataTotal [parseLine ("data: ".toList ++ text)] =
      text.length + 1 := by
    intro text
    have field : parseLine ("data: ".toList ++ text) = .field "data".toList text :=
      parseLine_field isLabel_data.nonempty isLabel_data.plain text
    rw [field]
    rfl
  have row : ∀ {text : List Char}, '\r' ∉ text → '\n' ∉ text →
      '\r' ∉ "data: ".toList ++ text ∧ '\n' ∉ "data: ".toList ++ text := by
    intro text noReturn noFeed
    rw [isLabel_data.spelled]
    simp [noReturn, noFeed]
  split
  · rename_i hasReturn
    obtain ⟨before, after, split, noReturn⟩ := List.eq_append_cons_of_mem hasReturn
    rw [split, List.mem_append, not_or] at noBreak
    have clean := row noReturn noBreak.1
    have shape : "data: ".toList ++ line ++ ['\n'] =
        ("data: ".toList ++ before) ++ '\r' :: (after ++ ['\n']) := by
      rw [split]
      simp
    have size : line.length = before.length + (after.length + 1) := by
      rw [split, List.length_append, List.length_cons]
    rw [shape]
    cases after with
    | nil =>
        rw [List.nil_append, wireLines_return_break clean.1 clean.2, List.map_singleton, first]
        rw [List.length_nil] at size
        omega
    | cons char rest =>
        have other : char ≠ '\n' := by
          intro isBreak
          apply noBreak.2
          rw [isBreak]
          simp
        have lost := dataTotal_wireLines_le (char :: rest)
        rw [List.cons_append] at lost
        rw [List.cons_append, wireLines_return clean.1 clean.2 other, List.map_cons,
          ← List.singleton_append, dataTotal_append, first]
        omega
  · rename_i noReturn
    have clean := row noReturn noBreak
    rw [wireLines_row clean.1 clean.2, List.map_singleton, first]

/-- Data with a CR alone is read as less than it is. -/
theorem dataTotal_lines (text : List Char) :
    dataTotal (readLines "data: " (lines (String.ofList text))) +
      (if paired text = true then 0 else 1) ≤ (normalise text).length + 1 := by
  induction text using breakInduction with
  | last line noBreak =>
      have read : readLines "data: " (lines (String.ofList line)) =
          (wireLines ("data: ".toList ++ stripReturn line ++ ['\n'])).map parseLine := by
        rw [lines_last noBreak, readLines_cons]
        exact List.append_nil _
      have written := dataTotal_line (not_mem_stripReturn noBreak)
      have size : (normalise line).length = line.length := length_unifyBreaks noBreak
      have whole := paired_last noBreak
      rw [read, size]
      rcases stripReturn_cases line with ⟨same, _⟩ | split
      · rw [same] at written ⊢
        by_cases hasReturn : '\r' ∈ line
        · rw [if_pos hasReturn] at written
          rw [if_neg (fun isPaired => whole.mp isPaired hasReturn)]
          exact written
        · rw [if_neg hasReturn] at written
          rw [if_pos (whole.mpr hasReturn)]
          exact written
      · have longer := congrArg List.length split
        rw [List.length_append, List.length_singleton] at longer
        split at written <;> split <;> omega
  | more line rest noBreak ih =>
      have read : readLines "data: " (lines (String.ofList (line ++ '\n' :: rest))) =
          (wireLines ("data: ".toList ++ stripReturn line ++ ['\n'])).map parseLine ++
            readLines "data: " (lines (String.ofList rest)) := by
        rw [lines_break noBreak, readLines_cons]
      have clean := not_mem_stripReturn noBreak
      have written := dataTotal_line clean
      have size : (normalise (stripReturn line)).length = (stripReturn line).length :=
        length_unifyBreaks clean
      have both := paired_break noBreak rest
      rw [read, dataTotal_append, normalise_break, List.length_append, List.length_cons, size]
      by_cases hasReturn : '\r' ∈ stripReturn line
      · rw [if_pos hasReturn] at written
        rw [if_neg (fun isPaired => (both.mp isPaired).1 hasReturn)]
        split at ih <;> omega
      · rw [if_neg hasReturn] at written
        by_cases restPaired : paired rest = true
        · rw [if_pos restPaired] at ih
          rw [if_pos (both.mpr ⟨hasReturn, restPaired⟩)]
          omega
        · rw [if_neg restPaired] at ih
          rw [if_neg (fun isPaired => restPaired (both.mp isPaired).2)]
          omega

/-! ## Comments -/

def IsComment (line : Line) : Prop := ∃ text, line = .comment text

theorem exists_comments {read : List Line} (comments : ∀ line ∈ read, IsComment line) :
    ∃ texts : List (List Char), read = texts.map .comment := by
  induction read with
  | nil => exact ⟨[], rfl⟩
  | cons line rest ih =>
      obtain ⟨⟨text, here⟩, later⟩ := List.forall_mem_cons.mp comments
      obtain ⟨texts, same⟩ := ih later
      refine ⟨text :: texts, ?_⟩
      rw [here, same, List.map_cons]

theorem shielded_cons (char : Char) (rest : List Char) :
    shielded (char :: rest) = true ↔
      (char = '\r' → rest = [] ∨ rest.head? = some ':') ∧ shielded rest = true := by
  rw [shielded, Bool.and_eq_true, Bool.or_eq_true, bne_iff_ne, ← imp_iff_not_or]
  apply and_congr_left'
  cases rest <;> simp

theorem isComment_parseLine (line : List Char) :
    IsComment (parseLine line) ↔ line.head? = some ':' := by
  constructor
  · intro ⟨text, same⟩
    by_contra other
    exact parseLine_ne_comment other text same
  · intro colon
    obtain ⟨rest, shape⟩ := List.head?_eq_some_iff.mp colon
    rw [shape]
    exact ⟨rest, parseLine_comment rest⟩

/-- Every line of a text, ended by LF, is a comment. -/
def AllComments (text : List Char) : Prop :=
  ∀ read ∈ (wireLines (text ++ ['\n'])).map parseLine, IsComment read

theorem allComments_row {row : List Char} (noReturn : '\r' ∉ row) (noBreak : '\n' ∉ row) :
    AllComments row ↔ row.head? = some ':' := by
  unfold AllComments
  rw [wireLines_row noReturn noBreak, List.map_singleton, List.forall_mem_singleton,
    isComment_parseLine]

theorem allComments_return_end {row : List Char} (noReturn : '\r' ∉ row) (noBreak : '\n' ∉ row) :
    AllComments (row ++ ['\r']) ↔ row.head? = some ':' := by
  have pair : row ++ ['\r'] ++ ['\n'] = row ++ ['\r', '\n'] := by simp
  unfold AllComments
  rw [pair, wireLines_return_break noReturn noBreak, List.map_singleton,
    List.forall_mem_singleton, isComment_parseLine]

theorem allComments_return {row : List Char} (noReturn : '\r' ∉ row) (noBreak : '\n' ∉ row)
    {char : Char} (other : char ≠ '\n') (rest : List Char) :
    AllComments (row ++ '\r' :: char :: rest) ↔
      row.head? = some ':' ∧ AllComments (char :: rest) := by
  unfold AllComments
  rw [List.append_assoc, List.cons_append, List.cons_append,
    wireLines_return noReturn noBreak other, List.map_cons, List.forall_mem_cons,
    isComment_parseLine]

/-- Other text in front makes the first line no comment. -/
theorem not_allComments {char : Char} (noReturn : char ≠ '\r') (noBreak : char ≠ '\n')
    (other : char ≠ ':') (rest : List Char) : ¬AllComments (char :: rest) := by
  have clean : '\r' ∉ [char] ∧ '\n' ∉ [char] := by
    simp [noReturn.symm, noBreak.symm]
  obtain ⟨more, lines, shape⟩ := exists_wireLines clean.1 clean.2 rest
  unfold AllComments
  rw [List.cons_append, ← List.singleton_append, shape, List.map_cons, List.forall_mem_cons,
    isComment_parseLine]
  intro both
  exact other (Option.some.inj both.1)

/-- A line is read as comments when it begins as one and every line that a CR starts does. -/
theorem allComments_iff (row line : List Char) (noReturn : '\r' ∉ row) (rowBreak : '\n' ∉ row)
    (colon : row ≠ [] → row.head? = some ':') (noBreak : '\n' ∉ line) :
    AllComments (row ++ line) ↔ (row = [] → line.head? = some ':') ∧ shielded line = true := by
  induction line generalizing row with
  | nil =>
      rw [List.append_nil, allComments_row noReturn rowBreak]
      cases row with
      | nil => simp
      | cons first more => simpa [shielded] using colon
  | cons char rest ih =>
      rw [List.mem_cons, not_or] at noBreak
      rw [shielded_cons]
      by_cases isReturn : char = '\r'
      · rw [isReturn]
        cases rest with
        | nil =>
            rw [allComments_return_end noReturn rowBreak]
            cases row with
            | nil => simp
            | cons first more => simpa [shielded] using colon
        | cons next more =>
            have other : next ≠ '\n' := by
              intro isBreak
              exact noBreak.2 (List.mem_cons.mpr (Or.inl isBreak.symm))
            have later := ih [] List.not_mem_nil List.not_mem_nil (fun wrong => absurd rfl wrong)
              noBreak.2
            rw [List.nil_append] at later
            rw [allComments_return noReturn rowBreak other, later]
            cases row with
            | nil => simp
            | cons first before => simpa using fun _ _ => colon (List.cons_ne_nil _ _)
      · have longer := ih (row ++ [char]) (by simpa using ⟨noReturn, Ne.symm isReturn⟩)
          (by simpa using ⟨rowBreak, noBreak.1⟩)
        rw [List.append_assoc, List.singleton_append] at longer
        cases row with
        | nil =>
            by_cases starts : char = ':'
            · rw [longer (by simp [starts]) noBreak.2]
              simp [starts]
            · have never := not_allComments isReturn (Ne.symm noBreak.1) starts rest
              simpa [starts] using never
        | cons first before =>
            rw [longer (by simpa using colon) noBreak.2]
            simp [isReturn]

theorem lines_no_break (text : List Char) :
    ∀ value ∈ lines (String.ofList text), '\n' ∉ value.toList := by
  induction text using breakInduction with
  | last line noBreak =>
      rw [lines_last noBreak, List.forall_mem_singleton, String.toList_ofList]
      exact not_mem_stripReturn noBreak
  | more line rest noBreak ih =>
      rw [lines_break noBreak, List.forall_mem_cons, String.toList_ofList]
      exact ⟨not_mem_stripReturn noBreak, ih⟩

theorem readLines_comments {values : List String} (clean : ∀ value ∈ values, '\n' ∉ value.toList) :
    (∀ read ∈ readLines ": " values, IsComment read) ↔
      ∀ value ∈ values, shielded value.toList = true := by
  have each : ∀ value ∈ values, AllComments (": ".toList ++ value.toList) ↔
      shielded value.toList = true := by
    intro value member
    rw [allComments_iff (": ".toList) value.toList (by decide +kernel) (by decide +kernel)
      (fun _ => rfl) (clean value member)]
    exact and_iff_right (fun wrong => absurd wrong (by decide +kernel))
  unfold readLines
  constructor
  · intro comments value member
    rw [← each value member]
    intro read here
    exact comments read (List.mem_flatMap.mpr ⟨value, member, here⟩)
  · intro safe read here
    obtain ⟨value, member, inside⟩ := List.mem_flatMap.mp here
    exact (each value member).mpr (safe value member) read inside

/-! ## Reading an event back -/

/-- The fields before the data. -/
def SseEvent.named (sent : SseEvent) : List Line :=
  sent.event.toList.map (fun event => .field "event".toList event.toList) ++
    sent.id.toList.map (fun id => .field "id".toList id.toList) ++
    sent.retry.toList.map fun retry => .field "retry".toList (toString (asMillis retry)).toList

theorem SseEvent.WellFormed.wireLines_encode {sent : SseEvent} (wellFormed : sent.WellFormed) :
    (wireLines sent.encode.toList).map parseLine =
      readLines ": " (sent.comment.elim [] lines) ++
        (sent.named ++ (readLines "data: " (sent.data.elim [] lines) ++ [.blank])) := by
  have event : ∀ value ∈ sent.event.toList, '\r' ∉ value.toList ∧ '\n' ∉ value.toList := by
    intro value member
    exact wellFormed.event value (Option.mem_toList.mp member)
  have id : ∀ value ∈ sent.id.toList, '\r' ∉ value.toList ∧ '\n' ∉ value.toList := by
    intro value member
    exact wellFormed.id value (Option.mem_toList.mp member)
  unfold SseEvent.named
  rw [sent.wireLines_encode, readLines_field isLabel_event event, readLines_field isLabel_id id,
    readLines_retry]
  simp only [List.append_assoc]

theorem run_event (source : EventSource) (event : Option String) :
    source.run (event.toList.map fun event => .field "event".toList event.toList) =
      ({ source with event := event.elim source.event String.toList }, []) := by
  cases event <;> rfl

theorem run_id (source : EventSource) {id : Option String}
    (noNull : ∀ value ∈ id, '\x00' ∉ value.toList) :
    source.run (id.toList.map fun id => .field "id".toList id.toList) =
      ({ source with lastId := id.elim source.lastId String.toList }, []) := by
  cases id with
  | none => rfl
  | some value =>
      have stored : source.setField "id".toList value.toList =
          { source with lastId := value.toList } := if_neg (noNull value rfl)
      rw [Option.toList_some, List.map_singleton, EventSource.run_cons]
      dsimp only [EventSource.process]
      rw [stored]
      rfl

theorem run_retry (source : EventSource) (retry : Option Nat) :
    source.run (retry.toList.map fun retry =>
        .field "retry".toList (toString (asMillis retry)).toList) =
      ({ source with retry := (retry.map asMillis).or source.retry }, []) := by
  cases retry with
  | none => rfl
  | some duration =>
      have digits : (toString (asMillis duration)).toList.all Char.isDigit = true := by
        rw [List.all_eq_true]
        intro char member
        exact toString_digits member
      have value : Nat.ofDigitChars 10 (toString (asMillis duration)).toList 0 =
          asMillis duration := by
        rw [Nat.toString_eq_repr, Nat.toList_repr, Nat.ofDigitChars_ten_toDigits]
      have stored : source.setField "retry".toList (toString (asMillis duration)).toList =
          { source with
            retry := some (Nat.ofDigitChars 10 (toString (asMillis duration)).toList 0) } :=
        if_pos digits
      rw [Option.toList_some, List.map_singleton, EventSource.run_cons]
      dsimp only [EventSource.process]
      rw [stored, value]
      rfl

/-- A reader gets the intended fields as the intended event. -/
theorem SseEvent.WellFormed.run_fields {sent : SseEvent} (wellFormed : sent.WellFormed)
    {source : EventSource} (noData : source.data = []) (noEvent : source.event = []) :
    source.run (sent.fields ++ [.blank]) = (sent.after source, (sent.message source).toList) := by
  unfold SseEvent.fields
  rw [EventSource.run_append, EventSource.run_append, EventSource.run_append,
    EventSource.run_append, run_event, run_id _ wellFormed.noNull, run_retry,
    EventSource.run_data]
  dsimp only
  unfold SseEvent.after SseEvent.message
  cases data : sent.data with
  | none =>
      rw [noData]
      rfl
  | some text =>
      have event : sent.event.elim [] String.toList = (sent.event.getD "").toList := by
        cases sent.event <;> rfl
      rw [noData, noEvent, event, Option.elim_some, unlines_splitOn, List.nil_append]
      simp [EventSource.run, EventSource.process, EventSource.dispatch]

/-- No CR of the data or a comment is a line break that the encoding missed. -/
theorem SseEvent.Unbroken.contained {sent : SseEvent} (unbroken : sent.Unbroken)
    (wellFormed : sent.WellFormed) : ∃ comments : List (List Char),
      (wireLines sent.encode.toList).map parseLine =
        comments.map .comment ++ sent.fields ++ [.blank] := by
  have commentLines : ∃ comments : List (List Char),
      readLines ": " (sent.comment.elim [] lines) = comments.map .comment := by
    cases comment : sent.comment with
    | none => exact ⟨[], rfl⟩
    | some text =>
        have clean := lines_no_break text.toList
        rw [String.ofList_toList] at clean
        exact exists_comments ((readLines_comments clean).mpr (unbroken.comment text comment))
  have dataLines : readLines "data: " (sent.data.elim [] lines) =
      (sent.data.elim [] fun data => (normalise data.toList).splitOn '\n').map
        (.field "data".toList) := by
    cases data : sent.data with
    | none => rfl
    | some text =>
        obtain ⟨same, clean⟩ := lines_of_paired text.toList (unbroken.data text data)
        rw [String.ofList_toList] at same clean
        rw [Option.elim_some, Option.elim_some, readLines_field isLabel_data clean, ← same,
          List.map_map]
        rfl
  obtain ⟨comments, commented⟩ := commentLines
  refine ⟨comments, ?_⟩
  rw [wellFormed.wireLines_encode, commented, dataLines]
  unfold SseEvent.fields SseEvent.named
  simp only [List.append_assoc]

theorem SseEvent.Unbroken.roundTrips {sent : SseEvent} (unbroken : sent.Unbroken)
    (wellFormed : sent.WellFormed) : sent.RoundTrips := by
  have contained := unbroken.contained wellFormed
  refine ⟨?_, contained⟩
  intro source noData noEvent
  obtain ⟨comments, read⟩ := contained
  unfold EventSource.receive
  rw [read, List.append_assoc, EventSource.run_append, EventSource.run_comments,
    wellFormed.run_fields noData noEvent]
  rfl

theorem SseEvent.RoundTrips.unbroken {sent : SseEvent} (roundTrips : sent.RoundTrips)
    (wellFormed : sent.WellFormed) : sent.Unbroken := by
  obtain ⟨comments, read⟩ := roundTrips.contained
  have fields : sent.fields = sent.named ++
      (sent.data.elim [] fun data => (normalise data.toList).splitOn '\n').map
        (.field "data".toList) := rfl
  rw [wellFormed.wireLines_encode, fields] at read
  constructor
  · intro data stored
    have noComment : sent.comment = none := by
      cases wellFormed.exclusive with
      | inl noData =>
          rw [noData] at stored
          cases stored
      | inr noComment => exact noComment
    have total := congrArg dataTotal read
    rw [noComment, stored] at total
    have bound := dataTotal_lines data.toList
    rw [String.ofList_toList] at bound
    have size : dataTotal (((normalise data.toList).splitOn '\n').map (.field "data".toList)) =
        (normalise data.toList).length + 1 := by
      rw [dataTotal_values, unlines_splitOn, List.length_append, List.length_singleton]
    have nothing : dataTotal (readLines ": " []) = 0 := rfl
    simp only [dataTotal_append, dataTotal_comments, Option.elim_some, Option.elim_none, size,
      nothing] at total
    by_contra unpaired
    rw [if_neg unpaired] at bound
    omega
  · intro comment stored
    have noData : sent.data = none := by
      cases wellFormed.exclusive with
      | inl noData => exact noData
      | inr noComment =>
          rw [noComment] at stored
          cases stored
    have clean := lines_no_break comment.toList
    rw [String.ofList_toList] at clean
    rw [stored, noData] at read
    have nothing : readLines "data: " [] = [] := rfl
    simp only [Option.elim_some, Option.elim_none, nothing, List.map_nil, List.nil_append,
      List.append_nil, List.append_assoc] at read
    rw [← readLines_comments clean, List.append_cancel_right read]
    intro line member
    obtain ⟨text, _, same⟩ := List.mem_map.mp member
    exact ⟨text, same.symm⟩

/-- An event survives encoding and decoding exactly when every CR of its data is followed by LF,
and every CR inside a line of its comment by a colon. -/
theorem sse_round_trip (sent : SseEvent) (built : sent.Built) :
    sent.RoundTrips ↔ sent.Unbroken := by
  constructor
  · intro roundTrips
    exact roundTrips.unbroken built.wellFormed
  · intro unbroken
    exact unbroken.roundTrips built.wellFormed

/-- CRLF in the data. -/
theorem sse_round_trip_crlf :
    ((SseEvent.ofData "first\r\nsecond").withEvent "update" |>.withId "42"
      |>.withRetry 1500000000).RoundTrips := by
  apply (sse_round_trip _ (.retry _ (.id _ (.event _ (.data _))))).mpr
  constructor
  · intro data stored
    rw [← Option.mem_some_iff.mp stored]
    decide +kernel
  · intro comment stored
    cases stored

def freshSource : EventSource := ⟨[], [], [], none⟩

/-- A CR in the data starts a second event, one in a comment an event of its own. -/
theorem sse_injection :
    (freshSource.receive (SseEvent.ofData "a\r\rdata: b").encode.toList).2 =
        [⟨[], "a".toList, []⟩, ⟨[], "b".toList, []⟩] ∧
      ¬(SseEvent.ofData "a\r\rdata: b").RoundTrips ∧
      (freshSource.receive (SseEvent.ofComment "a\rdata: b").encode.toList).2 =
        [⟨[], "b".toList, []⟩] := by
  have two : (freshSource.receive (SseEvent.ofData "a\r\rdata: b").encode.toList).2 =
      [⟨[], "a".toList, []⟩, ⟨[], "b".toList, []⟩] := by
    decide +kernel
  refine ⟨two, ?_, by decide +kernel⟩
  intro roundTrips
  have one := congrArg Prod.snd (roundTrips.decoded freshSource rfl rfl)
  rw [two] at one
  cases congrArg List.length one

end RustZero.Sse
