import Mathlib
import RustZero.Lib.Readers
import RustZero.Lib.Separated

/-!
# JSON texts

JSON values as they are written without white space, and read back.  A number is the token it is
written as.

* `Json.write` takes the way strings are written as a parameter; `WritesStrings` says that what is
  written for a string is a JSON string that stands for it.
* `Json.parse_write`: a value is read back.
* `Json.line_free`: what is written has no line feed, for a JSON string has no raw control
  character.
-/

namespace RustZero.Lib

/-! ## Strings -/

def hexDigitValue (char : Char) : Option Nat :=
  if char.isDigit then some (char.toNat - 48)
  else if 'a' ≤ char ∧ char ≤ 'f' then some (char.toNat - 87)
  else if 'A' ≤ char ∧ char ≤ 'F' then some (char.toNat - 55)
  else none

/-- The character behind a backslash and `u`; surrogates are none. -/
def hexChar (first second third fourth : Char) : Option Char := do
  let first ← hexDigitValue first
  let second ← hexDigitValue second
  let third ← hexDigitValue third
  let fourth ← hexDigitValue fourth
  let code := ((first * 16 + second) * 16 + third) * 16 + fourth
  if 0xd800 ≤ code ∧ code ≤ 0xdfff then none else some (Char.ofNat code)

/-- The character behind a backslash. -/
def unescapedChar (letter : Char) : Option Char :=
  [('"', '"'), ('\\', '\\'), ('/', '/'), ('b', '\x08'), ('f', '\x0c'), ('n', '\n'), ('r', '\r'),
    ('t', '\t')].lookup letter

/-- The characters of a string up to its closing quote, none of them a raw control character. -/
def readChars : Reader Char (List Char)
  | [] => none
  | '"' :: rest => some ([], rest)
  | '\\' :: 'u' :: first :: second :: third :: fourth :: rest => do
      let char ← hexChar first second third fourth
      let (text, rest) ← readChars rest
      some (char :: text, rest)
  | '\\' :: letter :: rest => do
      let char ← unescapedChar letter
      let (text, rest) ← readChars rest
      some (char :: text, rest)
  | char :: rest =>
      if char.toNat < 32 then none
      else do
        let (text, rest) ← readChars rest
        some (char :: text, rest)

def readString (text : List Char) : Option (String × List Char) :=
  match text with
  | '"' :: rest => (readChars rest).map fun read => (String.ofList read.1, read.2)
  | _ => none

/-- What is written for a string is a JSON string that stands for it. -/
def WritesStrings (string : String → List Char) : Prop :=
  ∀ text, Reads readString (string text) text

/-! ## Numbers -/

def isNumberChar (char : Char) : Bool :=
  char.isDigit || ['+', '-', '.', 'e', 'E'].contains char

/-- Digits, and nothing else. -/
def areDigits (text : List Char) : Bool :=
  !text.isEmpty && text.all Char.isDigit

/-- Nothing, or an exponent. -/
def isExponent : List Char → Bool
  | [] => true
  | mark :: rest =>
      (mark == 'e' || mark == 'E') &&
        match rest with
        | '+' :: digits => areDigits digits
        | '-' :: digits => areDigits digits
        | digits => areDigits digits

/-- Nothing, or a fraction, and an exponent. -/
def isFraction : List Char → Bool
  | '.' :: rest =>
      let (digits, rest) := readWhile Char.isDigit rest
      !digits.isEmpty && isExponent rest
  | rest => isExponent rest

/-- An integer without leading zeros, a fraction and an exponent. -/
def isUnsigned (text : List Char) : Bool :=
  let (digits, rest) := readWhile Char.isDigit text
  (digits == ['0'] || (!digits.isEmpty && digits.head? != some '0')) && isFraction rest

def isNumber (token : List Char) : Bool :=
  token.all isNumberChar &&
    match token with
    | '-' :: rest => isUnsigned rest
    | rest => isUnsigned rest

/-- The token of a number. -/
abbrev NumberToken := { token : List Char // isNumber token = true }

/-! ## Values -/

inductive Json where
  | null
  | bool (value : Bool)
  | number (token : NumberToken)
  | string (text : String)
  | array (items : List Json)
  | object (entries : List (String × Json))

namespace Json

mutual

/-- The text of a value without white space. -/
def write (string : String → List Char) : Json → List Char
  | null => "null".toList
  | bool true => "true".toList
  | bool false => "false".toList
  | number token => token.1
  | Json.string text => string text
  | array items => '[' :: (writeItems string items ++ [']'])
  | object entries => '\x7b' :: (writeEntries string entries ++ ['\x7d'])

def writeItems (string : String → List Char) : List Json → List Char
  | [] => []
  | [item] => write string item
  | item :: items => write string item ++ ',' :: writeItems string items

def writeEntries (string : String → List Char) : List (String × Json) → List Char
  | [] => []
  | [(key, value)] => string key ++ ':' :: write string value
  | (key, value) :: entries =>
      string key ++ ':' :: write string value ++ ',' :: writeEntries string entries

end

def readNumber (text : List Char) : Option (Json × List Char) :=
  let (token, rest) := readWhile isNumberChar text
  if valid : isNumber token = true then some (number ⟨token, valid⟩, rest) else none

/-- A literal, and the value it stands for. -/
def readLiteral (literal : String) (value : Json) (text : List Char) :
    Option (Json × List Char) :=
  (expect literal.toList text).map fun rest => (value, rest)

/-- A key and its value. -/
def readEntry (value : Reader Char Json) : Reader Char (String × Json) := fun text => do
  let (key, text) ← readString text
  let text ← expect [':'] text
  let (value, text) ← value text
  some ((key, value), text)

/-- Nothing and the end, or values up to the end. -/
def readAll {α : Type} (item : Reader Char α) (close : Char) : Reader Char (List α) := fun text =>
  match expect [close] text with
  | some text => some ([], text)
  | none => readSeparated item ',' close text.length text

/-- A value of so many levels at most. -/
def readValue : (depth : Nat) → Reader Char Json
  | 0, _ => none
  | depth + 1, text =>
      match text with
      | '"' :: _ => (readString text).map fun read => (string read.1, read.2)
      | '[' :: rest => (readAll (readValue depth) ']' rest).map fun read => (array read.1, read.2)
      | '\x7b' :: rest =>
          (readAll (readEntry (readValue depth)) '\x7d' rest).map fun read =>
            (object read.1, read.2)
      | 'n' :: _ => readLiteral "null" null text
      | 't' :: _ => readLiteral "true" (bool true) text
      | 'f' :: _ => readLiteral "false" (bool false) text
      | _ => readNumber text

def parse (text : List Char) : Option Json :=
  match readValue text.length text with
  | some (value, []) => some value
  | _ => none

/-! ## What is written -/

variable {string : String → List Char}

theorem writeItems_cons (item second : Json) (items : List Json) :
    writeItems string (item :: second :: items) =
      write string item ++ ',' :: writeItems string (second :: items) := rfl

theorem writeItems_eq (items : List Json) :
    writeItems string items = [','].intercalate (items.map (write string)) := by
  induction items with
  | nil => rfl
  | cons item items ih =>
      cases items with
      | nil => exact (List.append_nil _).symm
      | cons second items =>
          rw [writeItems_cons, ih]
          simp only [List.map_cons, intercalate_cons, List.flatMap_cons, List.cons_append]

/-- How an entry is written. -/
def writeEntry (string : String → List Char) (entry : String × Json) : List Char :=
  string entry.1 ++ ':' :: write string entry.2

theorem writeEntries_cons (entry second : String × Json) (entries : List (String × Json)) :
    writeEntries string (entry :: second :: entries) =
      writeEntry string entry ++ ',' :: writeEntries string (second :: entries) := by
  obtain ⟨key, value⟩ := entry
  rfl

theorem writeEntries_eq (entries : List (String × Json)) :
    writeEntries string entries = [','].intercalate (entries.map (writeEntry string)) := by
  induction entries with
  | nil => rfl
  | cons entry entries ih =>
      cases entries with
      | nil => exact (List.append_nil _).symm
      | cons second entries =>
          rw [writeEntries_cons, ih]
          simp only [List.map_cons, intercalate_cons, List.flatMap_cons, List.cons_append]

theorem write_number (token : NumberToken) : write string (number token) = token.1 := rfl

theorem write_array (items : List Json) :
    write string (array items) =
      '[' :: ([','].intercalate (items.map (write string)) ++ [']']) := by
  rw [← writeItems_eq]
  rfl

theorem write_object (entries : List (String × Json)) :
    write string (object entries) =
      '\x7b' :: ([','].intercalate (entries.map (writeEntry string)) ++ ['\x7d']) := by
  rw [← writeEntries_eq]
  rfl

/-! ## Strings are read without control characters -/

theorem hexDigitValue_line : hexDigitValue '\n' = none := by
  decide

theorem hexChar_line {first second third fourth char : Char}
    (read : hexChar first second third fourth = some char) :
    '\n' ∉ [first, second, third, fourth] := by
  obtain ⟨_, read₁, rest⟩ := Option.bind_eq_some_iff.mp read
  obtain ⟨_, read₂, rest⟩ := Option.bind_eq_some_iff.mp rest
  obtain ⟨_, read₃, rest⟩ := Option.bind_eq_some_iff.mp rest
  obtain ⟨_, read₄, rest⟩ := Option.bind_eq_some_iff.mp rest
  have other {digit : Char} {value : Nat} (read : hexDigitValue digit = some value) :
      '\n' ≠ digit := by
    intro same
    subst same
    cases hexDigitValue_line.symm.trans read
  simp only [List.mem_cons, List.not_mem_nil, or_false, not_or]
  exact ⟨other read₁, other read₂, other read₃, other read₄⟩

theorem unescapedChar_line {letter char : Char} (read : unescapedChar letter = some char) :
    '\n' ≠ letter := by
  intro same
  subst same
  cases read

/-- What was read of a string has no line feed. -/
theorem readChars_line {text value rest : List Char} (read : readChars text = some (value, rest)) :
    ∃ front, text = front ++ rest ∧ '\n' ∉ front := by
  fun_induction readChars text generalizing value rest with
  | case1 => cases read
  | case2 text =>
      cases read
      exact ⟨['"'], rfl, by decide⟩
  | case3 first second third fourth text ih =>
      obtain ⟨char, hex, later⟩ := Option.bind_eq_some_iff.mp read
      obtain ⟨⟨value', rest'⟩, later, same⟩ := Option.bind_eq_some_iff.mp later
      cases same
      obtain ⟨front, rfl, free⟩ := ih later
      refine ⟨'\\' :: 'u' :: first :: second :: third :: fourth :: front, rfl, ?_⟩
      have digits := hexChar_line hex
      simp only [List.mem_cons, List.not_mem_nil, or_false, not_or] at digits ⊢
      exact ⟨by decide, by decide, digits.1, digits.2.1, digits.2.2.1, digits.2.2.2, free⟩
  | case4 letter text _ ih =>
      obtain ⟨char, escaped, later⟩ := Option.bind_eq_some_iff.mp read
      obtain ⟨⟨value', rest'⟩, later, same⟩ := Option.bind_eq_some_iff.mp later
      cases same
      obtain ⟨front, rfl, free⟩ := ih later
      refine ⟨'\\' :: letter :: front, rfl, ?_⟩
      simp only [List.mem_cons, not_or]
      exact ⟨by decide, unescapedChar_line escaped, free⟩
  | case5 => cases read
  | case6 char text _ _ _ printable ih =>
      obtain ⟨⟨value', rest'⟩, later, same⟩ := Option.bind_eq_some_iff.mp read
      cases same
      obtain ⟨front, rfl, free⟩ := ih later
      refine ⟨char :: front, rfl, ?_⟩
      rw [List.mem_cons, not_or]
      refine ⟨?_, free⟩
      intro same
      subst same
      exact printable (by decide)

theorem string_begins (writes : WritesStrings string) (text : String) :
    ∃ chars, string text = '"' :: chars := by
  have read := writes text []
  rw [List.append_nil, readString.eq_def] at read
  split at read
  case h_1 chars begins => exact ⟨chars, begins⟩
  case h_2 => cases read

theorem string_line (writes : WritesStrings string) (text : String) : '\n' ∉ string text := by
  obtain ⟨chars, begins⟩ := string_begins writes text
  have read := writes text []
  rw [List.append_nil, begins, readString, Option.map_eq_some_iff] at read
  obtain ⟨⟨value, rest⟩, read, same⟩ := read
  cases same
  obtain ⟨front, whole, free⟩ := readChars_line read
  rw [List.append_nil] at whole
  rw [begins, whole, List.mem_cons, not_or]
  exact ⟨by decide, free⟩

/-! ## Values are read back -/

/-- The characters that a value does not begin with. -/
def Begins (text : List Char) : Prop :=
  ∃ first rest, text = first :: rest ∧ first ≠ ']' ∧ first ≠ '\x7d'

theorem number_chars (token : NumberToken) :
    token.1 ≠ [] ∧ ∀ char ∈ token.1, isNumberChar char = true := by
  obtain ⟨token, valid⟩ := token
  refine ⟨?_, List.all_eq_true.mp (Bool.and_eq_true_iff.mp valid).1⟩
  intro none
  cases none
  exact absurd valid (by decide)

theorem string_begins_with_quote (writes : WritesStrings string) (text : String) :
    Begins (string text) := by
  obtain ⟨chars, begins⟩ := string_begins writes text
  exact ⟨'"', chars, begins, by decide, by decide⟩

theorem write_begins (writes : WritesStrings string) (value : Json) :
    Begins (write string value) := by
  cases value with
  | null => exact ⟨'n', _, rfl, by decide, by decide⟩
  | bool value =>
      cases value with
      | true => exact ⟨'t', _, rfl, by decide, by decide⟩
      | false => exact ⟨'f', _, rfl, by decide, by decide⟩
  | number token =>
      obtain ⟨some_char, chars⟩ := number_chars token
      rw [write_number]
      cases text : token.1 with
      | nil => exact (some_char text).elim
      | cons first rest =>
          rw [text] at chars
          have own := chars first List.mem_cons_self
          refine ⟨first, rest, rfl, ?_, ?_⟩
          · intro same
            subst same
            exact absurd own (by decide)
          · intro same
            subst same
            exact absurd own (by decide)
  | string text => exact string_begins_with_quote writes text
  | array items => exact ⟨'[', _, rfl, by decide, by decide⟩
  | object entries => exact ⟨'\x7b', _, rfl, by decide, by decide⟩

/-- Values that are written one after the other are read, where none of them begins like the
end. -/
theorem readAll_written {α : Type} {item : Reader Char α} {writeOne : α → List Char} {close : Char}
    (differ : ',' ≠ close) {values : List α}
    (begins : ∀ value ∈ values, ∃ first rest, writeOne value = first :: rest ∧ first ≠ close)
    (each : ∀ value ∈ values, ∀ next rest, next = ',' ∨ next = close →
      item (writeOne value ++ next :: rest) = some (value, next :: rest)) (rest : List Char) :
    readAll item close ([','].intercalate (values.map writeOne) ++ close :: rest) =
      some (values, rest) := by
  rw [readAll]
  cases values with
  | nil =>
      have ended : expect [close] (close :: rest) = some rest := expect_append [close] rest
      rw [List.map_nil, List.intercalate_nil, List.nil_append, ended]
  | cons value values =>
      obtain ⟨first, others, text, other⟩ := begins value List.mem_cons_self
      have unended : expect [close] ([','].intercalate ((value :: values).map writeOne) ++
          close :: rest) = none := by
        apply expect_of_head_ne
        rw [List.map_cons, intercalate_cons, text]
        intro same
        exact other (Option.some.inj same)
      rw [unended]
      have enough : (value :: values).length ≤
          ([','].intercalate ((value :: values).map writeOne) ++ close :: rest).length := by
        have long := length_le_intercalate ',' ((value :: values).map writeOne)
        rw [List.length_map] at long
        have ended : (close :: rest).length = rest.length + 1 := rfl
        rw [List.length_append, ended]
        omega
      have read := readSeparated_reads differ (List.cons_ne_nil value values) enough each rest
      rw [List.append_assoc] at read
      exact read

theorem readNumber_written (token : NumberToken) {rest : List Char}
    (ends : ∀ char ∈ rest.head?, isNumberChar char = false) :
    readNumber (token.1 ++ rest) = some (number token, rest) := by
  rw [readNumber, readWhile_append (number_chars token).2 ends]
  exact dif_pos token.2

theorem readEntry_written (writes : WritesStrings string) {value : Reader Char Json}
    {entry : String × Json} {rest : List Char}
    (read : value (write string entry.2 ++ rest) = some (entry.2, rest)) :
    readEntry value (writeEntry string entry ++ rest) = some (entry, rest) := by
  have key := writes entry.1 (':' :: (write string entry.2 ++ rest))
  have colon : expect [':'] (':' :: (write string entry.2 ++ rest)) =
      some (write string entry.2 ++ rest) := expect_append [':'] _
  rw [readEntry, writeEntry, List.append_assoc, List.cons_append]
  simp only [key, colon, read, Option.bind_eq_bind, Option.bind_some]

theorem readValue_quote (depth : Nat) (rest : List Char) :
    readValue (depth + 1) ('"' :: rest) =
      (readString ('"' :: rest)).map fun read => (Json.string read.1, read.2) := rfl

theorem readValue_array (depth : Nat) (rest : List Char) :
    readValue (depth + 1) ('[' :: rest) =
      (readAll (readValue depth) ']' rest).map fun read => (array read.1, read.2) := rfl

theorem readValue_object (depth : Nat) (rest : List Char) :
    readValue (depth + 1) ('\x7b' :: rest) =
      (readAll (readEntry (readValue depth)) '\x7d' rest).map fun read =>
        (object read.1, read.2) := rfl

/-- A number does not begin like another value. -/
theorem readValue_number (token : NumberToken) (depth : Nat) (rest : List Char) :
    readValue (depth + 1) (token.1 ++ rest) = readNumber (token.1 ++ rest) := by
  obtain ⟨some_char, chars⟩ := number_chars token
  cases text : token.1 with
  | nil => exact (some_char text).elim
  | cons first others =>
      rw [text] at chars
      have own := chars first List.mem_cons_self
      rw [List.cons_append, readValue]
      all_goals
        intro tail same
        rw [(List.cons.inj same).1] at own
        exact absurd own (by decide)

/-- What is read of a literal. -/
theorem readLiteral_written (literal : String) (value : Json) (rest : List Char) :
    readLiteral literal value (literal.toList ++ rest) = some (value, rest) := by
  rw [readLiteral, expect_append]
  rfl

theorem readValue_string (writes : WritesStrings string) (text : String) (depth : Nat)
    (rest : List Char) :
    readValue (depth + 1) (string text ++ rest) = some (.string text, rest) := by
  have read := writes text rest
  obtain ⟨chars, begins⟩ := string_begins writes text
  rw [begins, List.cons_append] at read ⊢
  rw [readValue_quote, read]
  rfl

/-- An item is shorter than the array that it is in. -/
theorem item_shorter (string : String → List Char) {items : List Json} {item : Json}
    (member : item ∈ items) :
    (write string item).length < (write string (array items)).length := by
  have part : (write string item).length ≤ ([','].intercalate (items.map (write string))).length :=
    length_le_of_mem_intercalate (List.mem_map_of_mem member)
  rw [write_array, List.length_cons, List.length_append]
  omega

theorem entry_shorter (string : String → List Char) {entries : List (String × Json)}
    {entry : String × Json} (member : entry ∈ entries) :
    (write string entry.2).length < (write string (object entries)).length := by
  have part : (writeEntry string entry).length ≤
      ([','].intercalate (entries.map (writeEntry string))).length :=
    length_le_of_mem_intercalate (List.mem_map_of_mem member)
  rw [writeEntry, List.length_append, List.length_cons] at part
  rw [write_object, List.length_cons, List.length_append]
  omega

/-- A value is read back by a reader of as many levels as its text is long. -/
theorem readValue_written (writes : WritesStrings string) {depth : Nat} {value : Json}
    (deep : (write string value).length ≤ depth) {rest : List Char}
    (ends : ∀ char ∈ rest.head?, isNumberChar char = false) :
    readValue depth (write string value ++ rest) = some (value, rest) := by
  -- An item is shorter than the value it is in, so the induction is on the length.
  induction depth generalizing value rest with
  | zero =>
      obtain ⟨first, others, text, _⟩ := write_begins writes value
      rw [text] at deep
      cases deep
  | succ depth ih =>
      cases value with
      | null => exact readLiteral_written "null" null rest
      | bool value =>
          cases value with
          | true => exact readLiteral_written "true" (bool true) rest
          | false => exact readLiteral_written "false" (bool false) rest
      | number token =>
          rw [write_number, readValue_number]
          exact readNumber_written token ends
      | string text => exact readValue_string writes text depth rest
      | array items =>
          have begins : ∀ item ∈ items, ∃ first rest, write string item = first :: rest ∧
              first ≠ ']' := by
            intro item _
            obtain ⟨first, others, text, other, _⟩ := write_begins writes item
            exact ⟨first, others, text, other⟩
          have each : ∀ item ∈ items, ∀ next rest, next = ',' ∨ next = ']' →
              readValue depth (write string item ++ next :: rest) = some (item, next :: rest) := by
            intro item member next rest follows
            have shorter := item_shorter string member
            apply ih
            · omega
            · intro char same
              cases same
              rcases follows with rfl | rfl
              · decide
              · decide
          have read := readAll_written (by decide) begins each rest
          rw [write_array, List.cons_append, List.append_assoc, List.singleton_append,
            readValue_array, read]
          rfl
      | object entries =>
          have begins : ∀ entry ∈ entries, ∃ first rest, writeEntry string entry = first :: rest ∧
              first ≠ '\x7d' := by
            intro entry _
            obtain ⟨chars, text⟩ := string_begins writes entry.1
            refine ⟨'"', _, by rw [writeEntry, text]; rfl, by decide⟩
          have each : ∀ entry ∈ entries, ∀ next rest, next = ',' ∨ next = '\x7d' →
              readEntry (readValue depth) (writeEntry string entry ++ next :: rest) =
                some (entry, next :: rest) := by
            intro entry member next rest follows
            have shorter := entry_shorter string member
            apply readEntry_written writes
            apply ih
            · omega
            · intro char same
              cases same
              rcases follows with rfl | rfl
              · decide
              · decide
          have read := readAll_written (by decide) begins each rest
          rw [write_object, List.cons_append, List.append_assoc, List.singleton_append,
            readValue_object, read]
          rfl

/-- A value is read back from its text. -/
theorem parse_write (writes : WritesStrings string) (value : Json) :
    parse (write string value) = some value := by
  have read : readValue (write string value).length (write string value ++ []) =
      some (value, []) := by
    apply readValue_written writes (le_refl _)
    intro char none
    cases none
  rw [List.append_nil] at read
  rw [parse, read]

/-- What is written has no line feed. -/
theorem line_free (writes : WritesStrings string) (value : Json) :
    '\n' ∉ write string value := by
  induction long : (write string value).length using Nat.strong_induction_on generalizing value with
  | _ length ih =>
      cases value with
      | null =>
          change '\n' ∉ "null".toList
          decide
      | bool value =>
          cases value with
          | true =>
              change '\n' ∉ "true".toList
              decide
          | false =>
              change '\n' ∉ "false".toList
              decide
      | number token =>
          rw [write_number]
          intro inside
          exact absurd ((number_chars token).2 _ inside) (by decide)
      | string text => exact string_line writes text
      | array items =>
          rw [write_array]
          simp only [List.mem_cons, List.mem_append, List.not_mem_nil, or_false, not_or]
          refine ⟨by decide, ?_, by decide⟩
          intro inside
          rcases mem_intercalate inside with same | ⟨part, listed, inside⟩
          · cases same
          · obtain ⟨item, member, rfl⟩ := List.mem_map.mp listed
            exact ih _ (long ▸ item_shorter string member) item rfl inside
      | object entries =>
          rw [write_object]
          simp only [List.mem_cons, List.mem_append, List.not_mem_nil, or_false, not_or]
          refine ⟨by decide, ?_, by decide⟩
          intro inside
          rcases mem_intercalate inside with same | ⟨part, listed, inside⟩
          · cases same
          · obtain ⟨entry, member, rfl⟩ := List.mem_map.mp listed
            rw [writeEntry, List.mem_append, List.mem_cons] at inside
            rcases inside with key | colon | value
            · exact string_line writes entry.1 key
            · cases colon
            · exact ih _ (long ▸ entry_shorter string member) entry.2 rfl value

end Json

/-! ## A way to write strings -/

/-- The characters with an escape of two characters. -/
def shortEscapes : List (Char × Char) :=
  [('"', '"'), ('\\', '\\'), ('\x08', 'b'), ('\x0c', 'f'), ('\n', 'n'), ('\r', 'r'), ('\t', 't')]

def hexDigitOf (value : Nat) : Char :=
  if value < 10 then Char.ofNat (48 + value) else Char.ofNat (87 + value)

def escapeChar (char : Char) : List Char :=
  match shortEscapes.lookup char with
  | some letter => ['\\', letter]
  | none =>
      if char.toNat < 32 then
        ['\\', 'u', '0', '0', hexDigitOf (char.toNat / 16), hexDigitOf (char.toNat % 16)]
      else [char]

/-- A string with the escapes it needs, and no others. -/
def quote (text : String) : List Char :=
  '"' :: (text.toList.flatMap escapeChar ++ ['"'])

theorem hexChar_control {code : Nat} (control : code < 32) :
    hexChar '0' '0' (hexDigitOf (code / 16)) (hexDigitOf (code % 16)) = some (Char.ofNat code) := by
  have all : ∀ code < 32, hexChar '0' '0' (hexDigitOf (code / 16)) (hexDigitOf (code % 16)) =
      some (Char.ofNat code) := by decide +kernel
  exact all code control

theorem unescapedChar_short {char letter : Char}
    (found : shortEscapes.lookup char = some letter) :
    unescapedChar letter = some char ∧ letter ≠ 'u' := by
  have all : ∀ code ∈ shortEscapes, unescapedChar code.2 = some code.1 ∧ code.2 ≠ 'u' := by
    decide +kernel
  obtain ⟨before, after, same, _⟩ := List.lookup_eq_some_iff.mp found
  exact all (char, letter) (same ▸ List.mem_append_right _ List.mem_cons_self)

theorem readChars_escapeChar (char : Char) (rest : List Char) :
    readChars (escapeChar char ++ rest) =
      (readChars rest).map fun read => (char :: read.1, read.2) := by
  rw [escapeChar]
  split
  case h_1 letter found =>
    obtain ⟨back, other⟩ := unescapedChar_short found
    rw [List.cons_append, List.cons_append, List.nil_append, readChars]
    · rw [back]
      cases readChars rest with
      | none => rfl
      | some read => rfl
    · intro first second third fourth tail same
      exact (other same).elim
  case h_2 plain =>
    split
    case isTrue control =>
      simp only [List.cons_append, List.nil_append]
      rw [readChars, hexChar_control control, Char.ofNat_toNat]
      cases readChars rest with
      | none => rfl
      | some read => rfl
    case isFalse printable =>
      have other : ∀ code ∈ shortEscapes, char ≠ code.1 := by
        intro code member same
        have none := List.lookup_eq_none_iff.mp plain code member
        rw [same, bne_self_eq_false] at none
        cases none
      rw [List.singleton_append, readChars, if_neg printable]
      · cases readChars rest with
        | none => rfl
        | some read => rfl
      · intro same
        exact other ('"', '"') (by decide) same
      · intro first second third fourth tail same
        exact (other ('\\', '\\') (by decide) same).elim
      · intro letter tail same
        exact (other ('\\', '\\') (by decide) same).elim

theorem quote_writes : WritesStrings quote := by
  intro text rest
  have read (chars : List Char) : readChars (chars.flatMap escapeChar ++ '"' :: rest) =
      some (chars, rest) := by
    induction chars with
    | nil => rfl
    | cons char chars ih =>
        rw [List.flatMap_cons, List.append_assoc, readChars_escapeChar, ih]
        rfl
  have all := read text.toList
  rw [quote, List.cons_append, List.append_assoc, List.singleton_append, readString, all]
  simp

end RustZero.Lib
