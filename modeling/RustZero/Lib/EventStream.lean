import Mathlib

/-!
# The EventSource stream grammar

A `text/event-stream` seen by its reader.  Lines end at LF, CR or CRLF; a line is
blank, a comment (it begins with a colon) or a field; a blank line dispatches what the
data fields before it collected.  Whatever follows the last line break is not a line
yet.

Texts are lists of characters.  The event type of a dispatched message is the type
buffer, and an empty one stands for the default type `message`.
-/

namespace RustZero.Lib.EventStream

/-! ## Lines -/

/-- Every line break as LF.  The flag says that the character before was a CR, whose LF belongs
to the break already written. -/
def unifyBreaks : Bool → List Char → List Char
  | _, [] => []
  | afterReturn, char :: rest =>
      if char = '\r' then '\n' :: unifyBreaks true rest
      else if char = '\n' ∧ afterReturn = true then unifyBreaks false rest
      else char :: unifyBreaks false rest

def normalise (text : List Char) : List Char := unifyBreaks false text

def wireLines (text : List Char) : List (List Char) := ((normalise text).splitOn '\n').dropLast

/-- Each row ended by LF. -/
def unlines (rows : List (List Char)) : List Char := rows.flatMap (· ++ ['\n'])

/-- The flag after a text. -/
def endsInReturn : Bool → List Char → Bool
  | afterReturn, [] => afterReturn
  | _, char :: rest => endsInReturn (char == '\r') rest

theorem endsInReturn_concat (afterReturn : Bool) (text : List Char) (char : Char) :
    endsInReturn afterReturn (text ++ [char]) = (char == '\r') := by
  induction text generalizing afterReturn with
  | nil => rfl
  | cons first rest ih => exact ih _

theorem unifyBreaks_cons (afterReturn : Bool) (char : Char) (rest : List Char) :
    unifyBreaks afterReturn (char :: rest) =
      if char = '\r' then '\n' :: unifyBreaks true rest
      else if char = '\n' ∧ afterReturn = true then unifyBreaks false rest
      else char :: unifyBreaks false rest :=
  rfl

theorem unifyBreaks_append (afterReturn : Bool) (left right : List Char) :
    unifyBreaks afterReturn (left ++ right) =
      unifyBreaks afterReturn left ++ unifyBreaks (endsInReturn afterReturn left) right := by
  induction left generalizing afterReturn with
  | nil => rfl
  | cons char rest ih =>
      have flag : endsInReturn afterReturn (char :: rest) =
          endsInReturn (char == '\r') rest := rfl
      rw [flag, List.cons_append, unifyBreaks_cons, unifyBreaks_cons]
      by_cases isReturn : char = '\r'
      · rw [if_pos isReturn, if_pos isReturn, ih, List.cons_append, beq_iff_eq.mpr isReturn]
      · have other : (char == '\r') = false := beq_eq_false_iff_ne.mpr isReturn
        rw [if_neg isReturn, if_neg isReturn, other]
        split
        · rw [ih]
        · rw [ih, List.cons_append]

theorem length_unifyBreaks_le (afterReturn : Bool) (text : List Char) :
    (unifyBreaks afterReturn text).length ≤ text.length := by
  induction text generalizing afterReturn with
  | nil => exact Nat.le_refl _
  | cons char rest ih =>
      have later := ih true
      have plain := ih false
      unfold unifyBreaks
      split
      · simpa using later
      · split
        · rw [List.length_cons]
          omega
        · simpa using plain

/-- Without LF, every CR becomes one LF. -/
theorem length_unifyBreaks {afterReturn : Bool} {text : List Char} (noBreak : '\n' ∉ text) :
    (unifyBreaks afterReturn text).length = text.length := by
  induction text generalizing afterReturn with
  | nil => rfl
  | cons char rest ih =>
      rw [List.mem_cons, not_or] at noBreak
      unfold unifyBreaks
      split
      · rw [List.length_cons, List.length_cons, ih noBreak.2]
      · rw [if_neg (fun both => noBreak.1 both.1.symm), List.length_cons, List.length_cons,
          ih noBreak.2]

/-- A text ended by LF is normalised to one ended by LF, whatever comes after it. -/
theorem exists_normalise_break (text : List Char) :
    ∃ body, ∀ rest, normalise (text ++ '\n' :: rest) = body ++ '\n' :: normalise rest := by
  unfold normalise
  rcases List.eq_nil_or_concat text with empty | ⟨before, last, split⟩
  · refine ⟨[], ?_⟩
    intro rest
    rw [empty]
    rfl
  · by_cases isReturn : last = '\r'
    · refine ⟨unifyBreaks false before, ?_⟩
      intro rest
      rw [split, isReturn, List.concat_eq_append, List.append_assoc, unifyBreaks_append]
      rfl
    · refine ⟨unifyBreaks false text, ?_⟩
      intro rest
      have flag : endsInReturn false text = false := by
        rw [split, List.concat_eq_append, endsInReturn_concat]
        exact beq_eq_false_iff_ne.mpr isReturn
      rw [unifyBreaks_append, flag]
      rfl

theorem normalise_append {row : List Char} (noReturn : '\r' ∉ row) (rest : List Char) :
    normalise (row ++ rest) = row ++ normalise rest := by
  unfold normalise
  induction row with
  | nil => rfl
  | cons char row ih =>
      rw [List.mem_cons, not_or] at noReturn
      rw [List.cons_append, unifyBreaks_cons, if_neg (Ne.symm noReturn.1), if_neg (by simp),
        ih noReturn.2, List.cons_append]

/-- Lines before a line feed and after it. -/
theorem wireLines_append (text rest : List Char) :
    wireLines (text ++ '\n' :: rest) = wireLines (text ++ ['\n']) ++ wireLines rest := by
  obtain ⟨body, ends⟩ := exists_normalise_break text
  unfold wireLines
  rw [ends rest, ends [], List.splitOn_append_cons_self, List.splitOn_append_cons_self,
    List.dropLast_append_of_ne_nil (List.splitOn_ne_nil _ _),
    List.dropLast_append_of_ne_nil (List.splitOn_ne_nil _ _)]
  simp [normalise, unifyBreaks]

/-- Induction on a text line by line. -/
theorem breakInduction {motive : List Char → Prop}
    (last : ∀ line, '\n' ∉ line → motive line)
    (more : ∀ line rest, '\n' ∉ line → motive rest → motive (line ++ '\n' :: rest))
    (text : List Char) : motive text := by
  have general : ∀ before, '\n' ∉ before → motive (before ++ text) := by
    induction text with
    | nil =>
        intro before noBreak
        rw [List.append_nil]
        exact last before noBreak
    | cons char rest ih =>
        intro before noBreak
        by_cases isBreak : char = '\n'
        · rw [isBreak]
          exact more before rest noBreak (ih [] (List.not_mem_nil))
        · have longer := ih (before ++ [char])
            (by simpa using ⟨noBreak, fun same => isBreak same.symm⟩)
          simpa using longer
  exact general [] List.not_mem_nil

/-- More text adds lines. -/
theorem wireLines_prefix (text more : List Char) : wireLines text <+: wireLines (text ++ more) := by
  unfold wireLines normalise
  rw [unifyBreaks_append]
  generalize unifyBreaks (endsInReturn false text) more = rest
  induction unifyBreaks false text using breakInduction with
  | last line noBreak =>
      rw [List.splitOn_eq_singleton noBreak]
      exact List.nil_prefix
  | more line later noBreak ih =>
      rw [List.append_assoc, List.cons_append, List.splitOn_append_cons_self_of_not_mem noBreak,
        List.splitOn_append_cons_self_of_not_mem noBreak,
        List.dropLast_cons_of_ne_nil (List.splitOn_ne_nil _ _),
        List.dropLast_cons_of_ne_nil (List.splitOn_ne_nil _ _)]
      exact (List.prefix_cons_inj line).mpr ih

/-- A row without line breaks is one line. -/
theorem wireLines_row {row : List Char} (noReturn : '\r' ∉ row) (noBreak : '\n' ∉ row) :
    wireLines (row ++ ['\n']) = [row] := by
  have same : normalise (row ++ ['\n']) = row ++ ['\n'] := normalise_append noReturn _
  unfold wireLines
  rw [same, List.splitOn_append_cons_self_of_not_mem noBreak]
  rfl

/-- A return ends a line. -/
theorem wireLines_return {row : List Char} (noReturn : '\r' ∉ row) (noBreak : '\n' ∉ row)
    {char : Char} (other : char ≠ '\n') (rest : List Char) :
    wireLines (row ++ '\r' :: char :: rest) = row :: wireLines (char :: rest) := by
  have flag : unifyBreaks true (char :: rest) = unifyBreaks false (char :: rest) := by
    rw [unifyBreaks_cons, unifyBreaks_cons]
    simp [other]
  have broken : normalise (row ++ '\r' :: char :: rest) =
      row ++ '\n' :: normalise (char :: rest) := by
    rw [normalise_append noReturn]
    unfold normalise
    rw [unifyBreaks_cons, if_pos rfl, flag]
  unfold wireLines
  rw [broken, List.splitOn_append_cons_self_of_not_mem noBreak,
    List.dropLast_cons_of_ne_nil (List.splitOn_ne_nil _ _)]

/-- With the line feed right behind it, it is the same break. -/
theorem wireLines_return_break {row : List Char} (noReturn : '\r' ∉ row) (noBreak : '\n' ∉ row) :
    wireLines (row ++ ['\r', '\n']) = [row] := by
  have broken : normalise (row ++ ['\r', '\n']) = row ++ ['\n'] := by
    rw [normalise_append noReturn]
    rfl
  unfold wireLines
  rw [broken, List.splitOn_append_cons_self_of_not_mem noBreak]
  rfl

theorem exists_splitOn_append {row : List Char} (noBreak : '\n' ∉ row) (rest : List Char) :
    ∃ more lines, (row ++ rest).splitOn '\n' = (row ++ more) :: lines := by
  induction row with
  | nil => exact List.exists_cons_of_ne_nil (List.splitOn_ne_nil '\n' rest)
  | cons char row ih =>
      rw [List.mem_cons, not_or] at noBreak
      obtain ⟨more, lines, shape⟩ := ih noBreak.2
      refine ⟨more, lines, ?_⟩
      rw [List.cons_append, List.splitOn_cons_eq_if_modifyHead,
        if_neg (by simpa using Ne.symm noBreak.1), shape, List.modifyHead_cons, List.cons_append]

/-- The first line begins with the row up to which there is no line break. -/
theorem exists_wireLines {row : List Char} (noReturn : '\r' ∉ row) (noBreak : '\n' ∉ row)
    (rest : List Char) :
    ∃ more lines, wireLines (row ++ (rest ++ ['\n'])) = (row ++ more) :: lines := by
  obtain ⟨body, ends⟩ := exists_normalise_break rest
  obtain ⟨more, lines, shape⟩ := exists_splitOn_append noBreak body
  refine ⟨more, lines, ?_⟩
  have empty : normalise [] = [] := rfl
  unfold wireLines
  rw [normalise_append noReturn, ends [], empty, ← List.append_assoc,
    List.splitOn_append_cons_self, List.splitOn_nil, List.dropLast_concat, shape]

theorem unlines_splitOn (text : List Char) : unlines (text.splitOn '\n') = text ++ ['\n'] := by
  induction text using breakInduction with
  | last line noBreak =>
      rw [List.splitOn_eq_singleton noBreak]
      simp [unlines]
  | more line rest noBreak ih =>
      rw [List.splitOn_append_cons_self_of_not_mem noBreak]
      unfold unlines at ih ⊢
      rw [List.flatMap_cons, ih]
      simp

/-! ## Fields -/

inductive Line where
  | blank
  | comment (text : List Char)
  | field (name value : List Char)
  deriving DecidableEq, Repr

/-- One space after the colon does not belong to the value. -/
def dropSpace : List Char → List Char
  | [] => []
  | char :: rest => if char = ' ' then rest else char :: rest

def parseLine : List Char → Line
  | [] => .blank
  | char :: rest =>
      if char = ':' then .comment rest
      else
        let line := char :: rest
        .field (line.takeWhile (· != ':')) (dropSpace (line.dropWhile (· != ':')).tail)

theorem parseLine_comment (text : List Char) : parseLine (':' :: text) = .comment text := rfl

theorem parseLine_of_ne_colon {char : Char} (other : char ≠ ':') (rest : List Char) :
    parseLine (char :: rest) = .field ((char :: rest).takeWhile (· != ':'))
      (dropSpace ((char :: rest).dropWhile (· != ':')).tail) :=
  if_neg other

theorem parseLine_field {name : List Char} (nonempty : name ≠ []) (plain : ':' ∉ name)
    (value : List Char) : parseLine (name ++ ':' :: ' ' :: value) = .field name value := by
  have ends : ∀ char ∈ name, (char != ':') = true := by
    intro char member
    rw [bne_iff_ne]
    intro same
    rw [same] at member
    exact plain member
  have taken : (name ++ ':' :: ' ' :: value).takeWhile (· != ':') = name := by
    rw [List.takeWhile_append_of_pos ends]
    simp
  have dropped : (name ++ ':' :: ' ' :: value).dropWhile (· != ':') = ':' :: ' ' :: value := by
    rw [List.dropWhile_append_of_pos ends]
    simp
  cases name with
  | nil => exact absurd rfl nonempty
  | cons char rest =>
      have other : char ≠ ':' := by
        intro same
        exact plain (List.mem_cons.mpr (Or.inl same.symm))
      rw [List.cons_append] at taken dropped ⊢
      rw [parseLine_of_ne_colon other, taken, dropped]
      rfl

/-- A line that does not begin with a colon is no comment. -/
theorem parseLine_ne_comment {line : List Char} (other : line.head? ≠ some ':')
    (text : List Char) : parseLine line ≠ .comment text := by
  cases line with
  | nil =>
      intro same
      cases same
  | cons char rest =>
      have notColon : char ≠ ':' := by
        intro same
        exact other (by rw [same]; rfl)
      rw [parseLine_of_ne_colon notColon]
      intro same
      cases same

/-! ## The reader -/

/-- A dispatched event. -/
structure Message where
  event : List Char
  data : List Char
  id : List Char
  deriving DecidableEq, Repr

/-- The buffers of the reader, and the reconnection time the stream set last. -/
structure EventSource where
  data : List Char
  event : List Char
  lastId : List Char
  retry : Option Nat
  deriving DecidableEq, Repr

def EventSource.setField (source : EventSource) (name value : List Char) : EventSource :=
  if name = "event".toList then { source with event := value }
  else if name = "data".toList then { source with data := source.data ++ value ++ ['\n'] }
  else if name = "id".toList then
    if '\x00' ∈ value then source else { source with lastId := value }
  else if name = "retry".toList then
    if value.all Char.isDigit then { source with retry := some (Nat.ofDigitChars 10 value 0) }
    else source
  else source

/-- A blank line.  The data buffer ends in the break of its last field, which is dropped. -/
def EventSource.dispatch (source : EventSource) : EventSource × Option Message :=
  ({ source with data := [], event := [] },
    if source.data = [] then none
    else some ⟨source.event, source.data.dropLast, source.lastId⟩)

def EventSource.process (source : EventSource) : Line → EventSource × Option Message
  | .blank => source.dispatch
  | .comment _ => (source, none)
  | .field name value => (source.setField name value, none)

def EventSource.run (source : EventSource) : List Line → EventSource × List Message
  | [] => (source, [])
  | line :: rest =>
      let next := source.process line
      let final := next.1.run rest
      (final.1, next.2.toList ++ final.2)

/-- The messages of a text that arrives, and the buffers after it. -/
def EventSource.receive (source : EventSource) (text : List Char) :
    EventSource × List Message :=
  source.run ((wireLines text).map parseLine)

theorem EventSource.run_cons (source : EventSource) (line : Line) (rest : List Line) :
    source.run (line :: rest) = (((source.process line).1.run rest).1,
      (source.process line).2.toList ++ ((source.process line).1.run rest).2) :=
  rfl

theorem EventSource.run_append (source : EventSource) (left right : List Line) :
    source.run (left ++ right) =
      (((source.run left).1.run right).1,
        (source.run left).2 ++ ((source.run left).1.run right).2) := by
  induction left generalizing source with
  | nil => rfl
  | cons line rest ih =>
      rw [List.cons_append, EventSource.run_cons, EventSource.run_cons, ih, List.append_assoc]

/-- What follows a line feed is read by itself. -/
theorem EventSource.receive_append (source : EventSource) (text rest : List Char) :
    source.receive (text ++ '\n' :: rest) =
      (((source.receive (text ++ ['\n'])).1.receive rest).1,
        (source.receive (text ++ ['\n'])).2 ++
          ((source.receive (text ++ ['\n'])).1.receive rest).2) := by
  unfold EventSource.receive
  rw [wireLines_append, List.map_append, EventSource.run_append]

/-- Part of a text dispatches the first of its messages. -/
theorem EventSource.receive_prefix (source : EventSource) (text more : List Char) :
    (source.receive text).2 <+: (source.receive (text ++ more)).2 := by
  obtain ⟨later, whole⟩ := wireLines_prefix text more
  unfold EventSource.receive
  rw [← whole, List.map_append, EventSource.run_append]
  exact List.prefix_append _ _

theorem EventSource.run_comments (source : EventSource) (comments : List (List Char)) :
    source.run (comments.map .comment) = (source, []) := by
  induction comments with
  | nil => rfl
  | cons comment rest ih =>
      rw [List.map_cons, EventSource.run_cons]
      exact ih

theorem EventSource.run_data (source : EventSource) (values : List (List Char)) :
    source.run (values.map (.field "data".toList)) =
      ({ source with data := source.data ++ unlines values }, []) := by
  induction values generalizing source with
  | nil =>
      unfold unlines
      rw [List.flatMap_nil, List.append_nil]
      rfl
  | cons value rest ih =>
      have appended : source.setField "data".toList value =
          { source with data := source.data ++ value ++ ['\n'] } := rfl
      rw [List.map_cons, EventSource.run_cons]
      dsimp only [EventSource.process]
      rw [ih, appended]
      simp [unlines]

/-! ## How much data a text can carry

A `data` line yields less than it is long, so a text that is broken into more lines than
its writer meant loses data. -/

/-- What a line appends to the data buffer. -/
def Line.dataSize : Line → Nat
  | .field name value => if name = "data".toList then value.length + 1 else 0
  | _ => 0

def dataTotal (lines : List Line) : Nat := (lines.map Line.dataSize).sum

theorem dataTotal_append (left right : List Line) :
    dataTotal (left ++ right) = dataTotal left + dataTotal right := by
  unfold dataTotal
  rw [List.map_append, List.sum_append]

theorem dataTotal_comments (comments : List (List Char)) :
    dataTotal (comments.map .comment) = 0 := by
  induction comments with
  | nil => rfl
  | cons comment rest ih =>
      unfold dataTotal at ih ⊢
      rw [List.map_cons, List.map_cons, List.sum_cons, ih]
      rfl

theorem dataTotal_values (values : List (List Char)) :
    dataTotal (values.map (.field "data".toList)) = (unlines values).length := by
  induction values with
  | nil => rfl
  | cons value rest ih =>
      unfold dataTotal at ih ⊢
      unfold unlines at ih ⊢
      rw [List.map_cons, List.map_cons, List.sum_cons, ih, List.flatMap_cons, List.length_append,
        List.length_append]
      rfl

theorem dataSize_parseLine_le (line : List Char) : (parseLine line).dataSize ≤ line.length := by
  cases line with
  | nil => exact Nat.zero_le _
  | cons char rest =>
      by_cases colon : char = ':'
      · rw [colon, parseLine_comment]
        exact Nat.zero_le _
      · rw [parseLine_of_ne_colon colon]
        unfold Line.dataSize
        dsimp only
        split
        · rename_i named
          have halves := congrArg List.length
            (List.takeWhile_append_dropWhile (p := (· != ':')) (l := char :: rest))
          have four : ("data".toList : List Char).length = 4 := rfl
          have value : ∀ text : List Char, (dropSpace text.tail).length ≤ text.length := by
            intro text
            rcases text with _ | ⟨first, _ | ⟨second, more⟩⟩
            · exact Nat.le_refl _
            · exact Nat.zero_le _
            · unfold dropSpace
              dsimp only [List.tail_cons]
              split <;> simp only [List.length_cons] <;> omega
          have short := value ((char :: rest).dropWhile (· != ':'))
          rw [List.length_append, named, four] at halves
          omega
        · exact Nat.zero_le _

theorem sum_length_splitOn (text : List Char) :
    ((text.splitOn '\n').map fun line => line.length + 1).sum = text.length + 1 := by
  induction text with
  | nil => rfl
  | cons char rest ih =>
      rw [List.splitOn_cons_eq_if_modifyHead]
      split
      · rw [List.map_cons, List.sum_cons, ih, List.length_cons, List.length_nil]
        omega
      · cases shape : rest.splitOn '\n' with
        | nil => exact absurd shape (List.splitOn_ne_nil _ _)
        | cons line more =>
            rw [shape, List.map_cons, List.sum_cons] at ih
            rw [List.modifyHead_cons, List.map_cons, List.sum_cons, List.length_cons,
              List.length_cons]
            omega

theorem sum_length_wireLines_le (text : List Char) :
    ((wireLines text).map fun line => line.length + 1).sum ≤ text.length := by
  have whole := sum_length_splitOn (normalise text)
  have shorter := length_unifyBreaks_le false text
  have parts := List.dropLast_append_getLast (List.splitOn_ne_nil '\n' (normalise text))
  rw [← parts, List.map_append, List.sum_append, List.map_singleton, List.sum_singleton] at whole
  unfold wireLines
  unfold normalise at whole ⊢
  omega

/-- Lines hold less data than text. -/
theorem dataTotal_wireLines_le (text : List Char) :
    dataTotal ((wireLines (text ++ ['\n'])).map parseLine) ≤ text.length := by
  have bounded : ∀ lines : List (List Char), dataTotal (lines.map parseLine) + lines.length ≤
      (lines.map fun line => line.length + 1).sum := by
    intro lines
    induction lines with
    | nil => exact Nat.le_refl _
    | cons line rest ih =>
        have here := dataSize_parseLine_le line
        unfold dataTotal at ih ⊢
        simp only [List.map_cons, List.sum_cons, List.length_cons]
        omega
  have lines := bounded (wireLines (text ++ ['\n']))
  have total := sum_length_wireLines_le (text ++ ['\n'])
  obtain ⟨first, more, shape⟩ := exists_wireLines List.not_mem_nil List.not_mem_nil text
  have positive : 0 < (wireLines (text ++ ['\n'])).length := by
    rw [List.nil_append] at shape
    rw [shape]
    exact Nat.succ_pos _
  rw [List.length_append, List.length_singleton] at total
  omega

end RustZero.Lib.EventStream
