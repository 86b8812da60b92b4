import RustZero.Lib.Utf8
import RustZero.Transcode

/-!
# Captures of a path template

`gateway/src/transcode.rs`, `match_template` and `percent_decode`: which texts the variables of
a template are bound to.  A segment of a path stands for a text when each of its characters is
there itself, where the grammar of paths allows it, or as the escapes of its bytes.

The decoder is the one of query strings, so a plus is a space to it, and it passes on a percent
sign that has fewer than two bytes after it.  The path is trimmed of its slashes before it is
split, which takes empty segments from its ends.
-/

namespace RustZero.Transcode

open Std Lib Hash Gateway

/-! ## Segments of a path -/

/-- The characters of a segment that stand for themselves. -/
def isPathChar (char : Char) : Bool :=
  char.isAlphanum ||
    ['-', '.', '_', '~', '!', '$', '&', '\x27', '(', ')', '*', '+', ',', ';', '=', ':',
      '@'].contains char

/-- Escapes of some bytes. -/
inductive Escapes : List UInt8 → List UInt8 → Prop
  | nil : Escapes [] []
  | cons (high low upper lower : UInt8) {escapes bytes : List UInt8}
      (first : hexDigit high = some upper) (second : hexDigit low = some lower)
      (rest : Escapes escapes bytes) :
      Escapes (37 :: high :: low :: escapes) ((16 * upper + lower) :: bytes)

/-- The bytes of a segment that stand for a text. -/
inductive Encodes : List UInt8 → List Char → Prop
  | nil : Encodes [] []
  | plain (char : Char) {encoded : List UInt8} {text : List Char}
      (allowed : isPathChar char = true) (rest : Encodes encoded text) :
      Encodes (UInt8.ofNat char.toNat :: encoded) (char :: text)
  | escaped (char : Char) {escapes encoded : List UInt8} {text : List Char}
      (escape : Escapes escapes (String.utf8EncodeChar char)) (rest : Encodes encoded text) :
      Encodes (escapes ++ encoded) (char :: text)

/-- The segment stands for some text. -/
def Encoded (segment : String) : Prop := ∃ text : String, Encodes (asBytes segment) text.toList

/-- What follows a percent sign begins with two hexadecimal digits. -/
def TwoDigits : List UInt8 → Prop
  | high :: low :: _ => (hexDigit high).isSome ∧ (hexDigit low).isSome
  | _ => False

/-- Some percent sign is not followed by two hexadecimal digits. -/
def Malformed (segment : String) : Prop :=
  ∃ before after, asBytes segment = before ++ 37 :: after ∧ ¬TwoDigits after

/-- Percent signs that are followed by less than two bytes, or by a plus sign and a digit, pass
as well. -/
def Lenient (bytes : List UInt8) : Prop :=
  ∀ before high low after, bytes = before ++ 37 :: high :: low :: after →
    (fromStrRadix high low).isSome

/-- The bytes with their escapes resolved; all that is none stays. -/
def unescaped : List UInt8 → List UInt8
  | first :: high :: low :: rest =>
      if first = 37 then (fromStrRadix high low).getD 0 :: unescaped rest
      else plainByte first :: unescaped (high :: low :: rest)
  | first :: rest => plainByte first :: unescaped rest
  | [] => []

/-- A segment that binds a variable all the same. -/
structure Passes (segment : String) : Prop where
  lenient : Lenient (asBytes segment)
  utf8 : ∃ text, asBytes text = unescaped (asBytes segment)

def pathOf (segments : List String) : String :=
  String.ofList ('/' :: ['/'].intercalate (segments.map String.toList))

/-- Trimming leaves the segments as they are. -/
def Kept (segments : List String) : Prop :=
  segments.length = 1 ∨ (segments.head? ≠ some "" ∧ segments.getLast? ≠ some "")

/-- The segments of a template beside those of a path. -/
def pairsOf (template : String) (segments : List String) : List (String × String) :=
  (split '/' (trimSlashes template)).zip segments

/-- A path that agrees with a template but for what its variables stand for. -/
structure Fits (template : String) (segments : List String) : Prop where
  some : segments ≠ []
  slash : ∀ segment ∈ segments, '/' ∉ segment.toList
  length : (split '/' (trimSlashes template)).length = segments.length
  literals : ∀ pair ∈ pairsOf template segments, variableName pair.1 = none → pair.1 = pair.2

/-- A variable and its segment; a later variable of the same name would bind it again. -/
structure BoundAt (pairs : List (String × String)) (name actual : String) : Prop where
  here : ∃ before expected after, pairs = before ++ (expected, actual) :: after ∧
    variableName expected = some name ∧ ∀ later ∈ after, variableName later.1 ≠ some name

/-- The variables are bound to the texts that their segments stand for, and a malformed segment
is rejected. -/
structure DecodesExactly (template : String) (segments : List String) : Prop where
  bound : (∀ pair ∈ pairsOf template segments, variableName pair.1 ≠ none → Encoded pair.2) →
    ∀ name actual, BoundAt (pairsOf template segments) name actual →
      ∀ text : String, Encodes (asBytes actual) text.toList →
        ∃ captures, matchTemplate template (pathOf segments) = some captures ∧
          captures[name]? = some text
  rejected : ∀ pair ∈ pairsOf template segments, variableName pair.1 ≠ none → Malformed pair.2 →
    matchTemplate template (pathOf segments) = none

/-! ## Decoding -/

section Decoding

variable {bytes encoded : List UInt8} {text : List Char}

theorem asBytes_eq (text : String) : asBytes text = text.toList.flatMap String.utf8EncodeChar :=
  utf8_eq_flatMap text

theorem fromUtf8_eq_some {text : String} : fromUtf8 bytes = some text ↔ asBytes text = bytes :=
  fromUTF8?_eq_some

theorem decodeBytes_plain {first : UInt8} (plain : first ≠ 37) (rest : List UInt8) :
    decodeBytes (first :: rest) = (plainByte first :: ·) <$> decodeBytes rest := by
  cases rest with
  | nil => rfl
  | cons high rest =>
      cases rest with
      | nil => rfl
      | cons low rest => rw [decodeBytes, if_neg plain]

theorem hexDigit_ne_plus {byte value : UInt8} (digit : hexDigit byte = some value) : byte ≠ 43 := by
  intro plus
  have none : hexDigit 43 = none := by decide
  rw [plus, none] at digit
  cases digit

theorem fromStrRadix_digits {high low upper lower : UInt8} (first : hexDigit high = some upper)
    (second : hexDigit low = some lower) : fromStrRadix high low = some (16 * upper + lower) := by
  rw [fromStrRadix, if_neg (hexDigit_ne_plus first), first, second]
  rfl

theorem decodeBytes_escapes {escapes bytes : List UInt8} (escape : Escapes escapes bytes)
    (rest : List UInt8) :
    decodeBytes (escapes ++ rest) = (bytes ++ ·) <$> decodeBytes rest := by
  induction escape with
  | nil => exact (id_map (decodeBytes rest)).symm
  | cons high low upper lower first second _ ih =>
      simp only [List.cons_append, decodeBytes, if_true]
      rw [fromStrRadix_digits first second, ih]
      cases decodeBytes rest with
      | error error => rfl
      | ok decoded => rfl

theorem Escapes.plus {escapes bytes : List UInt8} (escape : Escapes escapes bytes) :
    43 ∉ escapes := by
  induction escape with
  | nil => exact List.not_mem_nil
  | cons high low upper lower first second _ ih =>
      intro member
      rcases List.mem_cons.mp member with percent | member
      · exact absurd percent (by decide)
      · rcases List.mem_cons.mp member with plus | member
        · exact hexDigit_ne_plus first plus.symm
        · rcases List.mem_cons.mp member with plus | later
          · exact hexDigit_ne_plus second plus.symm
          · exact ih later

theorem isPathChar_lt {char : Char} (allowed : isPathChar char = true) :
    char.toNat < 128 ∧ char ≠ '%' := by
  rcases Bool.or_eq_true_iff.mp allowed with letter | listed
  · simp only [Char.isAlphanum, Char.isAlpha, Char.isUpper, Char.isLower, Char.isDigit,
      Bool.or_eq_true, Bool.and_eq_true, decide_eq_true_eq, ge_iff_le,
      UInt32.le_iff_toNat_le] at letter
    change ((65 ≤ char.toNat ∧ char.toNat ≤ 90) ∨ (97 ≤ char.toNat ∧ char.toNat ≤ 122)) ∨
      (48 ≤ char.toNat ∧ char.toNat ≤ 57) at letter
    refine ⟨by omega, ?_⟩
    intro percent
    have code : char.toNat = 37 := percent ▸ rfl
    omega
  · have member := List.contains_iff_mem.mp listed
    have all : ∀ char ∈ ['-', '.', '_', '~', '!', '$', '&', '\x27', '(', ')', '*', '+', ',', ';',
        '=', ':', '@'], char.toNat < 128 ∧ char ≠ '%' := by
      simp
    exact all char member

theorem ofNat_eq_iff (char other : Char) (ascii : char.toNat < 128) (small : other.toNat < 128) :
    UInt8.ofNat char.toNat = UInt8.ofNat other.toNat ↔ char = other := by
  rw [← UInt8.toNat_inj, UInt8.toNat_ofNat', UInt8.toNat_ofNat',
    Nat.mod_eq_of_lt (by omega), Nat.mod_eq_of_lt (by omega), Char.toNat_inj]

/-- The decoder reads a segment as its text exactly if no plus stands for itself. -/
theorem Encodes.decodeBytes (encodes : Encodes encoded text) :
    ∃ read : List Char, Transcode.decodeBytes encoded =
        .ok (read.flatMap String.utf8EncodeChar) ∧ (read = text ↔ 43 ∉ encoded) := by
  induction encodes with
  | nil => exact ⟨[], rfl, by simp⟩
  | plain char allowed rest ih =>
      obtain ⟨read, decoded, same⟩ := ih
      obtain ⟨ascii, percent⟩ := isPathChar_lt allowed
      have plain : UInt8.ofNat char.toNat ≠ 37 :=
        (ofNat_eq_iff char '%' ascii (by decide)).not.mpr percent
      have plus : UInt8.ofNat char.toNat = 43 ↔ char = '+' :=
        ofNat_eq_iff char '+' ascii (by decide)
      by_cases isPlus : char = '+'
      · refine ⟨' ' :: read, ?_, ?_⟩
        · rw [decodeBytes_plain plain, decoded, plainByte, if_pos (plus.mpr isPlus)]
          rfl
        · rw [isPlus]
          simp
      · refine ⟨char :: read, ?_, ?_⟩
        · rw [decodeBytes_plain plain, decoded, plainByte, if_neg (plus.not.mpr isPlus),
            List.flatMap_cons, utf8EncodeChar_ascii ascii]
          rfl
        · have other : ¬43 = UInt8.ofNat char.toNat := fun same => isPlus (plus.mp same.symm)
          rw [List.cons.injEq, same, List.mem_cons]
          simp [other]
  | escaped char escape rest ih =>
      obtain ⟨read, decoded, same⟩ := ih
      refine ⟨char :: read, ?_, ?_⟩
      · rw [decodeBytes_escapes escape, decoded]
        rfl
      · rw [List.cons.injEq, same, List.mem_append]
        simp [escape.plus]

theorem percentDecode_of_encodes {segment : String} {text : String}
    (encodes : Encodes (asBytes segment) text.toList) :
    ∃ read, percentDecode segment = .ok read ∧ (read = text ↔ 43 ∉ asBytes segment) := by
  obtain ⟨read, decoded, same⟩ := encodes.decodeBytes
  have utf8 : fromUtf8 (read.flatMap String.utf8EncodeChar) = some (String.ofList read) := by
    rw [fromUtf8_eq_some, asBytes_eq, String.toList_ofList]
  refine ⟨String.ofList read, ?_, ?_⟩
  · rw [percentDecode, decoded]
    change okOr (fromUtf8 _) _ = _
    rw [utf8]
    rfl
  · rw [← same, ← String.toList_inj, String.toList_ofList]

theorem fromStrRadix_percent (low : UInt8) : fromStrRadix 37 low = none := by
  have none : hexDigit 37 = none := by decide
  rw [fromStrRadix, if_neg (by decide), none]
  rfl

theorem fromStrRadix_percent_low (high : UInt8) : fromStrRadix high 37 = none := by
  have none : hexDigit 37 = none := by decide
  rw [fromStrRadix, none]
  split
  · rfl
  · cases hexDigit high <;> rfl

theorem lenient_plain {first : UInt8} (plain : first ≠ 37) (rest : List UInt8) :
    Lenient (first :: rest) ↔ Lenient rest := by
  constructor
  · intro lenient before high low after split
    exact lenient (first :: before) high low after (by rw [split]; rfl)
  · intro lenient before high low after split
    cases before with
    | nil => exact absurd (List.cons.inj split).1 plain
    | cons _ before => exact lenient before high low after (List.cons.inj split).2

theorem lenient_escape (high low : UInt8) (rest : List UInt8) :
    Lenient (37 :: high :: low :: rest) ↔ (fromStrRadix high low).isSome ∧ Lenient rest := by
  constructor
  · intro lenient
    refine ⟨lenient [] high low rest rfl, ?_⟩
    intro before high' low' after split
    exact lenient (37 :: high :: low :: before) high' low' after (by rw [split]; rfl)
  · intro held before high' low' after split
    obtain ⟨read, lenient⟩ := held
    -- a percent sign is no digit, so it is not inside of the first escape
    cases before with
    | nil =>
        simp only [List.nil_append, List.cons.injEq, true_and] at split
        obtain ⟨sameHigh, sameLow, _⟩ := split
        exact sameHigh ▸ sameLow ▸ read
    | cons _ before =>
        cases before with
        | nil =>
            simp only [List.cons_append, List.nil_append, List.cons.injEq] at split
            rw [split.2.1, fromStrRadix_percent] at read
            cases read
        | cons _ before =>
            cases before with
            | nil =>
                simp only [List.cons_append, List.nil_append, List.cons.injEq] at split
                rw [split.2.2.1, fromStrRadix_percent_low] at read
                cases read
            | cons _ before =>
                simp only [List.cons_append, List.cons.injEq] at split
                exact lenient before high' low' after split.2.2.2

theorem lenient_short {bytes : List UInt8} (few : bytes.length ≤ 2) : Lenient bytes := by
  intro before high low after split
  rw [split, List.length_append] at few
  simp only [List.length_cons] at few
  omega

/-- The loop fails at the first percent sign that is not lenient. -/
theorem decodeBytes_cases (bytes : List UInt8) :
    (Lenient bytes ∧ decodeBytes bytes = .ok (unescaped bytes)) ∨
      (¬Lenient bytes ∧ ∃ error, decodeBytes bytes = .error error) := by
  induction bytes using unescaped.induct with
  | case1 high low rest ih =>
      rw [lenient_escape, decodeBytes, if_pos rfl, unescaped, if_pos rfl]
      cases read : fromStrRadix high low with
      | none => exact .inr ⟨by simp, _, rfl⟩
      | some byte =>
          rcases ih with ⟨lenient, decoded⟩ | ⟨rough, error, failed⟩
          · refine .inl ⟨⟨rfl, lenient⟩, ?_⟩
            rw [decoded]
            rfl
          · refine .inr ⟨fun held => rough held.2, error, ?_⟩
            rw [failed]
            rfl
  | case2 first high low rest plain ih =>
      rw [lenient_plain plain, decodeBytes_plain plain, unescaped, if_neg plain]
      rcases ih with ⟨lenient, decoded⟩ | ⟨rough, error, failed⟩
      · exact .inl ⟨lenient, by rw [decoded]; rfl⟩
      · exact .inr ⟨rough, error, by rw [failed]; rfl⟩
  | case3 first rest short _ =>
      cases rest with
      | nil => exact .inl ⟨lenient_short (by simp), rfl⟩
      | cons second rest =>
          cases rest with
          | nil => exact .inl ⟨lenient_short (by simp), rfl⟩
          | cons third rest => exact absurd rfl (short second third rest)
  | case4 => exact .inl ⟨lenient_short (by simp), rfl⟩

/-- A segment is bound exactly if it passes. -/
theorem percentDecode_cases (segment : String) :
    (Passes segment ∧ ∃ value, percentDecode segment = .ok value) ∨
      (¬Passes segment ∧ ∃ error, percentDecode segment = .error error) := by
  rcases decodeBytes_cases (asBytes segment) with ⟨lenient, decoded⟩ | ⟨rough, error, failed⟩
  · cases read : fromUtf8 (unescaped (asBytes segment)) with
    | none =>
        right
        refine ⟨?_, .invalidRequest "path/query value is not UTF-8", ?_⟩
        · intro passes
          obtain ⟨text, same⟩ := passes.utf8
          rw [fromUtf8_eq_some.mpr same] at read
          cases read
        · rw [percentDecode, decoded]
          change okOr (fromUtf8 _) _ = _
          rw [read]
          rfl
    | some text =>
        left
        refine ⟨⟨lenient, text, fromUtf8_eq_some.mp read⟩, text, ?_⟩
        rw [percentDecode, decoded]
        change okOr (fromUtf8 _) _ = _
        rw [read]
        rfl
  · right
    refine ⟨fun passes => rough passes.lenient, error, ?_⟩
    rw [percentDecode, failed]
    rfl

end Decoding

/-! ## Trimming -/

section Trimming

variable {segments : List (List Char)}

def slashes (text : List Char) : Nat := text.count '/'

def trimmed (text : List Char) : List Char :=
  ((text.dropWhile (· == '/')).reverse.dropWhile (· == '/')).reverse

theorem length_splitOn (text : List Char) : (text.splitOn '/').length = slashes text + 1 := by
  induction text with
  | nil => rfl
  | cons first rest ih =>
      rw [List.splitOn_cons_eq_if_modifyHead, slashes, List.count_cons]
      split
      · simp [ih, slashes]
      · simp [ih, slashes]

theorem slashes_dropWhile_le (text : List Char) :
    slashes (text.dropWhile (· == '/')) ≤ slashes text :=
  (List.dropWhile_sublist _).count_le _

theorem slashes_dropWhile_lt {text : List Char} (slash : text.head? = some '/') :
    slashes (text.dropWhile (· == '/')) < slashes text := by
  cases text with
  | nil => cases slash
  | cons first rest =>
      cases slash
      have fewer := slashes_dropWhile_le rest
      simp only [slashes, List.dropWhile_cons, beq_self_eq_true, if_true,
        List.count_cons_self] at fewer ⊢
      omega

/-- A slash at an end is lost. -/
theorem slashes_trimmed_lt {text : List Char}
    (ends : text.head? = some '/' ∨ text.getLast? = some '/') :
    slashes (trimmed text) < slashes text := by
  have inner := slashes_dropWhile_le text
  rcases ends with first | last
  · have less := slashes_dropWhile_lt first
    have outer := slashes_dropWhile_le (text.dropWhile (· == '/')).reverse
    simp only [slashes, trimmed, List.count_reverse] at *
    omega
  · obtain ⟨before, split⟩ := List.dropWhile_suffix (l := text) (· == '/')
    by_cases none : text.dropWhile (· == '/') = []
    · have member := List.mem_of_getLast? last
      have positive := List.count_pos_iff.mpr member
      simp only [slashes, trimmed, none]
      exact positive
    · have ending : (text.dropWhile (· == '/')).getLast? = some '/' := by
        rw [← split, List.getLast?_append_of_ne_nil _ none] at last
        exact last
      have first : (text.dropWhile (· == '/')).reverse.head? = some '/' := by
        rw [List.head?_reverse, ending]
      have less := slashes_dropWhile_lt first
      simp only [slashes, trimmed, List.count_reverse] at *
      omega

theorem trimmed_cons (text : List Char) : trimmed ('/' :: text) = trimmed text := by
  rw [trimmed, List.dropWhile_cons_of_pos (by rfl), trimmed]

theorem trimmed_of_ends {text : List Char} (first : text.head? ≠ some '/')
    (last : text.getLast? ≠ some '/') : trimmed text = text := by
  have kept (text : List Char) (first : text.head? ≠ some '/') :
      text.dropWhile (· == '/') = text := by
    cases text with
    | nil => rfl
    | cons head rest =>
        refine List.dropWhile_cons_of_neg ?_
        intro slash
        rw [beq_iff_eq] at slash
        exact first (by rw [slash]; rfl)
  rw [trimmed, kept text first, kept _ (by rwa [List.head?_reverse]), List.reverse_reverse]

theorem head?_intercalate (slash : ∀ segment ∈ segments, '/' ∉ segment) :
    (['/'].intercalate segments).head? = some '/' ↔
      2 ≤ segments.length ∧ segments.head? = some [] := by
  cases segments with
  | nil => simp [List.intercalate]
  | cons first rest =>
      have here := slash first List.mem_cons_self
      cases rest with
      | nil =>
          constructor
          · intro leads
            exact absurd (List.mem_of_mem_head? leads) (by simpa [List.intercalate] using here)
          · intro held
            exact absurd held.1 (by simp)
      | cons second rest =>
          rw [List.intercalate_cons_cons, List.append_assoc, List.singleton_append]
          cases first with
          | nil => simp
          | cons char first =>
              have other : char ≠ '/' := fun same => here (same ▸ List.mem_cons_self)
              simp [other]

theorem getLast?_intercalate (slash : ∀ segment ∈ segments, '/' ∉ segment) :
    (['/'].intercalate segments).getLast? = some '/' ↔
      2 ≤ segments.length ∧ segments.getLast? = some [] := by
  induction segments with
  | nil => simp [List.intercalate]
  | cons first rest ih =>
      obtain ⟨here, later⟩ := List.forall_mem_cons.mp slash
      cases rest with
      | nil =>
          constructor
          · intro ends
            exact absurd (List.mem_of_getLast? ends) (by simpa [List.intercalate] using here)
          · intro held
            exact absurd held.1 (by simp)
      | cons second rest =>
          have tail := ih later
          rw [List.intercalate_cons_cons, List.append_assoc, List.singleton_append,
            List.getLast?_append_of_ne_nil _ (List.cons_ne_nil _ _)]
          cases inner : ['/'].intercalate (second :: rest) with
          | nil =>
              cases rest with
              | nil =>
                  have none : second = [] := by simpa [List.intercalate] using inner
                  simp [none]
              | cons third rest =>
                  rw [List.intercalate_cons_cons] at inner
                  simp at inner
          | cons char others =>
              rw [List.getLast?_cons_cons, ← inner, tail]
              cases rest with
              | nil =>
                  have some : second ≠ [] := by
                    intro none
                    rw [none] at inner
                    simp [List.intercalate] at inner
                  simp [some]
              | cons third rest => simp

theorem kept_iff {segments : List String} (slash : ∀ segment ∈ segments, '/' ∉ segment.toList)
    (some : segments ≠ []) :
    Kept segments ↔
      (['/'].intercalate (segments.map String.toList)).head? ≠ .some '/' ∧
        (['/'].intercalate (segments.map String.toList)).getLast? ≠ .some '/' := by
  have each : ∀ segment ∈ segments.map String.toList, '/' ∉ segment := by
    intro segment member
    obtain ⟨text, held, same⟩ := List.mem_map.mp member
    exact same ▸ slash text held
  have empty (found : Option String) : found.map String.toList = .some [] ↔ found = .some "" := by
    cases found with
    | none => simp
    | some text => simp
  have positive := List.length_pos_iff.mpr some
  rw [Ne, head?_intercalate each, Ne, getLast?_intercalate each, List.length_map, List.head?_map,
    List.getLast?_map, empty, empty, Kept]
  constructor
  · intro kept
    rcases kept with single | ends
    · exact ⟨fun held => by omega, fun held => by omega⟩
    · exact ⟨fun held => ends.1 held.2, fun held => ends.2 held.2⟩
  · intro held
    by_cases single : segments.length = 1
    · exact .inl single
    · exact .inr ⟨fun none => held.1 ⟨by omega, none⟩, fun none => held.2 ⟨by omega, none⟩⟩

theorem split_pathOf {segments : List String} (some : segments ≠ [])
    (slash : ∀ segment ∈ segments, '/' ∉ segment.toList) :
    (Kept segments → split '/' (trimSlashes (pathOf segments)) = segments) ∧
      (¬Kept segments →
        (split '/' (trimSlashes (pathOf segments))).length < segments.length) := by
  have parts : (['/'].intercalate (segments.map String.toList)).splitOn '/' =
      segments.map String.toList := by
    refine List.splitOn_intercalate '/' ?_ (by simpa using some)
    intro part member
    obtain ⟨text, held, same⟩ := List.mem_map.mp member
    exact same ▸ slash text held
  have trims : split '/' (trimSlashes (pathOf segments)) =
      ((trimmed (['/'].intercalate (segments.map String.toList))).splitOn '/').map
        String.ofList := by
    rw [split, trimSlashes, pathOf, String.toList_ofList, String.toList_ofList, ← trimmed,
      trimmed_cons]
  constructor
  · intro kept
    obtain ⟨first, last⟩ := (kept_iff slash some).mp kept
    rw [trims, trimmed_of_ends first last, parts, List.map_map]
    exact List.map_id'' (fun text => String.ofList_toList) segments
  · intro lost
    rw [kept_iff slash some, not_and_or, not_not, not_not] at lost
    have fewer := slashes_trimmed_lt lost
    have whole := congrArg List.length parts
    rw [length_splitOn, List.length_map] at whole
    rw [trims, List.length_map, length_splitOn]
    omega

end Trimming

/-! ## Matching -/

section Matching

variable {pairs : List (String × String)} {captures : Captures}

/-- The literals agree. -/
def Agree (pairs : List (String × String)) : Prop :=
  ∀ pair ∈ pairs, variableName pair.1 = none → pair.1 = pair.2

theorem matchSegments_eq_none (agree : Agree pairs) :
    matchSegments pairs captures = none ↔
      ∃ pair ∈ pairs, variableName pair.1 ≠ none ∧ ¬Passes pair.2 := by
  induction pairs generalizing captures with
  | nil => simp [matchSegments]
  | cons pair rest ih =>
      obtain ⟨expected, actual⟩ := pair
      obtain ⟨here, later⟩ := List.forall_mem_cons.mp agree
      rw [matchSegments, List.exists_mem_cons_iff]
      cases named : variableName expected with
      | none =>
          have same : expected = actual := here named
          simp only [if_pos same, ih later, ne_eq, not_true_eq_false, false_and, false_or]
      | some name =>
          rcases percentDecode_cases actual with ⟨passes, value, decoded⟩ | ⟨fails, error, failed⟩
          · rw [decoded]
            change matchSegments rest (captures.insert name value) = none ↔ _
            rw [ih later]
            simp [passes]
          · rw [failed]
            simp [fails, Except.toOption]

/-- A variable is bound to what its segment is read as, unless it is bound again. -/
theorem matchSegments_getElem? {result : Captures} {name : String}
    (matched : matchSegments pairs captures = some result)
    (unbound : ∀ pair ∈ pairs, variableName pair.1 ≠ some name) :
    result[name]? = captures[name]? := by
  induction pairs generalizing captures with
  | nil =>
      cases matched
      rfl
  | cons pair rest ih =>
      obtain ⟨expected, actual⟩ := pair
      obtain ⟨here, later⟩ := List.forall_mem_cons.mp unbound
      rw [matchSegments] at matched
      cases named : variableName expected with
      | none =>
          rw [named] at matched
          simp only [Option.ite_none_right_eq_some] at matched
          exact ih matched.2 later
      | some other =>
          rw [named] at matched
          obtain ⟨value, _, matched⟩ := Option.bind_eq_some_iff.mp matched
          rw [ih matched later, ExtTreeMap.getElem?_insert]
          have differs : other ≠ name := by
            intro same
            exact here (same ▸ named)
          simp [differs]

theorem matchSegments_bound {result : Captures} {name actual : String}
    (matched : matchSegments pairs captures = some result) (bound : BoundAt pairs name actual) :
    ∃ value, percentDecode actual = .ok value ∧ result[name]? = some value := by
  obtain ⟨before, expected, after, split, named, unbound⟩ := bound.here
  subst split
  clear bound
  induction before generalizing captures with
  | nil =>
      rw [List.nil_append, matchSegments, named] at matched
      obtain ⟨value, decoded, matched⟩ := Option.bind_eq_some_iff.mp matched
      refine ⟨value, ?_, ?_⟩
      · cases read : percentDecode actual with
        | error error =>
            rw [read] at decoded
            cases decoded
        | ok other =>
            rw [read] at decoded
            cases decoded
            rfl
      · rw [matchSegments_getElem? matched unbound, ExtTreeMap.getElem?_insert]
        simp
  | cons pair before ih =>
      obtain ⟨expected', actual'⟩ := pair
      rw [List.cons_append, matchSegments] at matched
      cases named' : variableName expected' with
      | none =>
          rw [named'] at matched
          simp only [Option.ite_none_right_eq_some] at matched
          exact ih matched.2
      | some other =>
          rw [named'] at matched
          obtain ⟨value, _, matched⟩ := Option.bind_eq_some_iff.mp matched
          exact ih matched

end Matching

section Exactness

variable {template : String} {segments : List String}

theorem matchTemplate_of_kept (fits : Fits template segments) (kept : Kept segments) :
    matchTemplate template (pathOf segments) = matchSegments (pairsOf template segments) ∅ := by
  have same := (split_pathOf fits.some fits.slash).1 kept
  simp only [matchTemplate, same]
  exact if_neg (not_not.mpr fits.length)

theorem matchTemplate_of_lost (fits : Fits template segments) (lost : ¬Kept segments) :
    matchTemplate template (pathOf segments) = none := by
  have fewer := (split_pathOf fits.some fits.slash).2 lost
  have length := fits.length
  simp only [matchTemplate]
  refine if_pos ?_
  omega

theorem Encoded.passes {segment : String} (encoded : Encoded segment) : Passes segment := by
  obtain ⟨text, encodes⟩ := encoded
  obtain ⟨read, decoded, _⟩ := percentDecode_of_encodes encodes
  rcases percentDecode_cases segment with ⟨passes, _⟩ | ⟨_, error, failed⟩
  · exact passes
  · rw [decoded] at failed
    cases failed

/-- Where the segments stand for texts, no slash is lost and the variables' segments have no
plus; where one is malformed, a slash is lost or some segment does not pass. -/
structure Readable (template : String) (segments : List String) : Prop where
  encoded : (∀ pair ∈ pairsOf template segments, variableName pair.1 ≠ none → Encoded pair.2) →
    ∀ name actual, BoundAt (pairsOf template segments) name actual →
      Kept segments ∧ 43 ∉ asBytes actual
  malformed :
    (∃ pair ∈ pairsOf template segments, variableName pair.1 ≠ none ∧ Malformed pair.2) →
      ¬Kept segments ∨
        ∃ pair ∈ pairsOf template segments, variableName pair.1 ≠ none ∧ ¬Passes pair.2

/-- Where the decoder reads the segments of a path as their grammar has it. -/
theorem decodes_exactly_iff (template : String) (segments : List String)
    (fits : Fits template segments) :
    DecodesExactly template segments ↔ Readable template segments := by
  constructor
  · intro exact
    refine ⟨?_, ?_⟩
    · intro encoded name actual bound
      obtain ⟨before, expected, after, split, named, _⟩ := bound.here
      have member : (expected, actual) ∈ pairsOf template segments := by
        rw [split]
        simp
      obtain ⟨text, encodes⟩ := encoded _ member (by simp [named])
      obtain ⟨captures, matched, here⟩ := exact.bound encoded name actual bound text encodes
      have kept : Kept segments := by
        by_contra lost
        rw [matchTemplate_of_lost fits lost] at matched
        cases matched
      refine ⟨kept, ?_⟩
      rw [matchTemplate_of_kept fits kept] at matched
      obtain ⟨value, decoded, there⟩ := matchSegments_bound matched bound
      obtain ⟨read, decoded', same⟩ := percentDecode_of_encodes encodes
      rw [decoded, Except.ok.injEq] at decoded'
      rw [here, Option.some.injEq] at there
      exact same.mp (decoded' ▸ there.symm)
    · intro held
      obtain ⟨pair, member, named, malformed⟩ := held
      have rejected := exact.rejected pair member named malformed
      by_cases kept : Kept segments
      · rw [matchTemplate_of_kept fits kept, matchSegments_eq_none fits.literals] at rejected
        exact .inr rejected
      · exact .inl kept
  · intro readable
    refine ⟨?_, ?_⟩
    · intro encoded name actual bound text encodes
      obtain ⟨kept, plus⟩ := readable.encoded encoded name actual bound
      rw [matchTemplate_of_kept fits kept]
      cases matched : matchSegments (pairsOf template segments) ∅ with
      | none =>
          obtain ⟨pair, member, named, fails⟩ :=
            (matchSegments_eq_none fits.literals).mp matched
          exact absurd (encoded pair member named).passes fails
      | some captures =>
          obtain ⟨value, decoded, here⟩ := matchSegments_bound matched bound
          obtain ⟨read, decoded', same⟩ := percentDecode_of_encodes encodes
          rw [decoded, Except.ok.injEq] at decoded'
          exact ⟨captures, rfl, by rw [here, decoded', same.mpr plus]⟩
    · intro pair member named malformed
      rcases readable.malformed ⟨pair, member, named, malformed⟩ with lost | fails
      · exact matchTemplate_of_lost fits lost
      · by_cases kept : Kept segments
        · rw [matchTemplate_of_kept fits kept]
          exact (matchSegments_eq_none fits.literals).mpr fails
        · exact matchTemplate_of_lost fits kept

end Exactness

theorem fits_item (segment : String) (slash : '/' ∉ segment.toList) :
    Fits "/\x7bid\x7d" [segment] := by
  have pairs : pairsOf "/\x7bid\x7d" [segment] = [("\x7bid\x7d", segment)] := rfl
  refine ⟨by simp, ?_, rfl, ?_⟩
  · intro other member
    rw [List.mem_singleton.mp member]
    exact slash
  · intro pair member named
    rw [pairs, List.mem_singleton] at member
    have named' : variableName "\x7bid\x7d" = some "id" := rfl
    rw [member, named'] at named
    cases named

/-- The characters of a name stand for themselves. -/
theorem decodes_exactly_name : DecodesExactly "/\x7bid\x7d" ["a-b"] := by
  have bytes : asBytes "a-b" = [97, 45, 98] := rfl
  refine (decodes_exactly_iff "/\x7bid\x7d" ["a-b"] (fits_item "a-b" (by decide))).mpr ⟨?_, ?_⟩
  · intro _ name actual bound
    obtain ⟨before, expected, after, split, _, _⟩ := bound.here
    have member : (expected, actual) ∈ pairsOf "/\x7bid\x7d" ["a-b"] := by
      rw [split]
      simp
    have pairs : pairsOf "/\x7bid\x7d" ["a-b"] = [("\x7bid\x7d", "a-b")] := rfl
    rw [pairs, List.mem_singleton] at member
    cases member
    exact ⟨.inl rfl, by rw [bytes]; decide⟩
  · intro held
    obtain ⟨pair, member, _, before, after, split, _⟩ := held
    have pairs : pairsOf "/\x7bid\x7d" ["a-b"] = [("\x7bid\x7d", "a-b")] := rfl
    rw [pairs, List.mem_singleton] at member
    rw [member, bytes] at split
    have percent : (37 : UInt8) ∈ [97, 45, 98] := by
      rw [split]
      simp
    exact absurd percent (by decide)

/-- A plus stands for itself and is read as a space; a lone percent sign is bound. -/
theorem decoder_misreads_segments :
    ¬DecodesExactly "/\x7bid\x7d" ["a+b"] ∧ ¬DecodesExactly "/\x7bid\x7d" ["100%"] := by
  have named : variableName "\x7bid\x7d" = some "id" := rfl
  refine ⟨?_, ?_⟩
  · intro exact
    have encodes : Encodes (asBytes "a+b") "a+b".toList :=
      .plain 'a' (by decide) (.plain '+' (by decide) (.plain 'b' (by decide) .nil))
    have bound : BoundAt (pairsOf "/\x7bid\x7d" ["a+b"]) "id" "a+b" :=
      ⟨[], "\x7bid\x7d", [], rfl, named, by simp⟩
    obtain ⟨captures, matched, here⟩ := exact.bound (by
      intro pair member _
      have pairs : pairsOf "/\x7bid\x7d" ["a+b"] = [("\x7bid\x7d", "a+b")] := rfl
      rw [pairs, List.mem_singleton] at member
      exact member ▸ ⟨"a+b", encodes⟩) "id" "a+b" bound "a+b" encodes
    have reads : (matchTemplate "/\x7bid\x7d" (pathOf ["a+b"])).bind (·["id"]?) = some "a b" := by
      decide +kernel
    rw [matched, Option.bind_some, here] at reads
    exact absurd reads (by decide)
  · intro exact
    have rejected := exact.rejected ("\x7bid\x7d", "100%") List.mem_cons_self (by simp [named])
      ⟨[49, 48, 48], [], rfl, fun digits => digits⟩
    have accepted : (matchTemplate "/\x7bid\x7d" (pathOf ["100%"])).isSome = true := by
      decide +kernel
    rw [rejected] at accepted
    cases accepted

end RustZero.Transcode
