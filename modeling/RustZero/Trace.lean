import Mathlib
import RustZero.Lib.Separated
import RustZero.Lib.Utf8
import RustZero.Transcode

/-!
# W3C trace contexts

`TraceContext` of `core/src/trace.rs`: identifiers from the clock and a counter, `traceparent`
in lower-case hexadecimal, and `parse`, which checks lengths in bytes, slices two bytes at a time
and leaves the digits to `u8::from_str_radix`.

* A text is read by its bytes; a slice that cuts a character panics, which is `none`.
* `Grammar` is the grammar of version 00, and `Tolerated` says where `parse` reads more.
-/

namespace RustZero.Trace

open Lib
open RustZero.Transcode (fromStrRadix hexDigit)

abbrev Bytes := List UInt8

/-- `[u8; n]`. -/
abbrev Id (n : Nat) := { bytes : Bytes // bytes.length = n }

namespace Id

def zero (n : Nat) : Id n := ⟨List.replicate n 0, List.length_replicate⟩

def cons {n : Nat} (byte : UInt8) (id : Id n) : Id (n + 1) :=
  ⟨byte :: id.1, congrArg Nat.succ id.2⟩

end Id

/-- The low bit says that the trace is sampled. -/
structure TraceFlags where
  bits : UInt8
  deriving DecidableEq

def TraceFlags.isSampled (flags : TraceFlags) : Bool :=
  flags.bits &&& 1 == 1

structure TraceContext where
  traceId : Id 16
  spanId : Id 8
  parentSpanId : Option (Id 8)
  flags : TraceFlags
  deriving DecidableEq

structure TraceContextError where

/-! ## Hexadecimal -/

/-- A lower-case digit, as a byte. -/
def hexByte (value : Nat) : UInt8 :=
  if value < 10 then UInt8.ofNat (48 + value) else UInt8.ofNat (87 + value)

/-- `{byte:02x}`. -/
def hexBytes (byte : UInt8) : Bytes :=
  [hexByte (byte.toNat / 16), hexByte (byte.toNat % 16)]

/-- `encode_hex`. -/
def encodeHex (bytes : Bytes) : String :=
  String.ofList ((bytes.flatMap hexBytes).map fun digit => Char.ofNat digit.toNat)

/-- A byte inside a character of UTF-8. -/
def isContinuation (byte : UInt8) : Bool :=
  128 ≤ byte && byte < 192

/-- `str::is_char_boundary`. -/
def isCharBoundary (text : Bytes) (index : Nat) : Bool :=
  index == 0 || index == text.length || text[index]?.any fun byte => !isContinuation byte

/-- `&text[start..stop]`; `none` is a panic. -/
def strSlice (text : Bytes) (start stop : Nat) : Option Bytes :=
  if start ≤ stop ∧ isCharBoundary text start = true ∧ isCharBoundary text stop = true then
    some ((text.take stop).drop start)
  else none

/-- `u8::from_str_radix(_, 16)` on two bytes. -/
def pairValue : Bytes → Option UInt8
  | [high, low] => fromStrRadix high low
  | _ => none

/-- The loop of `decode_hex`, from an index on. -/
def decodeHexFrom (value : Bytes) : (index count : Nat) →
    Option (Except TraceContextError (Id count))
  | _, 0 => some (.ok ⟨[], rfl⟩)
  | index, count + 1 =>
      match strSlice value (index * 2) (index * 2 + 2) with
      | none => none
      | some pair =>
          match pairValue pair with
          | none => some (.error ⟨⟩)
          | some byte =>
              (decodeHexFrom value (index + 1) count).map fun rest => rest.map (Id.cons byte)

def decodeHex (n : Nat) (value : Bytes) : Option (Except TraceContextError (Id n)) :=
  decodeHexFrom value 0 n

/-! ## Contexts -/

namespace TraceContext

/-- `parse` on the parts of a value that has the right shape. -/
def parseParts (trace span flags : Bytes) : Option (Except TraceContextError TraceContext) :=
  match decodeHex 16 trace with
  | none => none
  | some (.error error) => some (.error error)
  | some (.ok traceId) =>
      match decodeHex 8 span with
      | none => none
      | some (.error error) => some (.error error)
      | some (.ok spanId) =>
          match pairValue flags with
          | none => some (.error ⟨⟩)
          | some bits =>
              if traceId = Id.zero 16 ∨ spanId = Id.zero 8 then some (.error ⟨⟩)
              else some (.ok ⟨traceId, spanId, none, ⟨bits⟩⟩)

/-- `TraceContext::parse`; `none` is a panic. -/
def parse (value : String) : Option (Except TraceContextError TraceContext) :=
  match (utf8 value).splitOn 45 with
  | [version, trace, span, flags] =>
      if version ≠ utf8 "00" ∨ trace.length ≠ 32 ∨ span.length ≠ 16 ∨ flags.length ≠ 2 then
        some (.error ⟨⟩)
      else parseParts trace span flags
  | _ => some (.error ⟨⟩)

def traceparent (context : TraceContext) : String :=
  "00-" ++ encodeHex context.traceId.1 ++ "-" ++ encodeHex context.spanId.1 ++ "-" ++
    encodeHex [context.flags.bits]

end TraceContext

/-! ## Identifiers -/

/-- `to_be_bytes` of a number that has `count` bytes. -/
def toBeBytes (count number : Nat) : Id count :=
  ⟨((List.range count).reverse.map fun index => UInt8.ofNat (number >>> (8 * index))),
    by rw [List.length_map, List.length_reverse, List.length_range]⟩

/-- An identifier without a set bit becomes one. -/
def orOne {n : Nat} (id : Id (n + 1)) : Id (n + 1) :=
  if id = Id.zero (n + 1) then
    ⟨List.replicate n 0 ++ [1], by rw [List.length_append, List.length_replicate]; rfl⟩
  else id

/-- `next_trace_id`, at a time and with the counter that `fetch_add` gives. -/
def nextTraceId (time sequence : Nat) : Id 16 :=
  orOne ⟨(toBeBytes 16 time).1.take 8 ++
      List.zipWith (· ^^^ ·) ((toBeBytes 16 time).1.drop 8) (toBeBytes 8 sequence).1, by
    simp only [toBeBytes, List.length_append, List.length_take, List.length_zipWith,
      List.length_drop, List.length_map, List.length_reverse, List.length_range]
    rfl⟩

/-- `next_span_id`, with the counter that `fetch_add` gives. -/
def nextSpanId (sequence : Nat) : Id 8 :=
  orOne (toBeBytes 8 sequence)

namespace TraceContext

/-- `TraceContext::root`; the identifiers take two values of the counter. -/
def root (time first second : Nat) (flags : TraceFlags) : TraceContext :=
  ⟨nextTraceId time first, nextSpanId second, none, flags⟩

def child (context : TraceContext) (sequence : Nat) : TraceContext :=
  ⟨context.traceId, nextSpanId sequence, some context.spanId, context.flags⟩

end TraceContext

/-! ## The grammar, and what is read beyond it -/

/-- A lower-case hexadecimal digit. -/
def isLowerHex (byte : UInt8) : Bool :=
  (48 ≤ byte && byte ≤ 57) || (97 ≤ byte && byte ≤ 102)

def isUpperHex (byte : UInt8) : Bool :=
  65 ≤ byte && byte ≤ 70

/-- Two bytes at a time are read as numbers. -/
inductive Reads : Bytes → Bytes → Prop
  | nil : Reads [] []
  | cons {high low byte : UInt8} {digits bytes : Bytes}
      (pair : fromStrRadix high low = some byte) (rest : Reads digits bytes) :
      Reads (high :: low :: digits) (byte :: bytes)

/-- Behind pairs that are read, a pair ends inside a character. -/
inductive CutsCharacter : Bytes → Prop
  | here {high low next : UInt8} {after : Bytes} (inside : isContinuation next = true) :
      CutsCharacter (high :: low :: next :: after)
  | later {high low byte : UInt8} {digits : Bytes} (pair : fromStrRadix high low = some byte)
      (rest : CutsCharacter digits) : CutsCharacter (high :: low :: digits)

/-- The lengths and the dashes of version 00. -/
structure Shaped (value : String) (trace span flags : Bytes) : Prop where
  text : utf8 value = utf8 "00-" ++ (trace ++ 45 :: (span ++ 45 :: flags))
  trace_length : trace.length = 32
  span_length : span.length = 16
  flags_length : flags.length = 2
  noDash : 45 ∉ trace ∧ 45 ∉ span ∧ 45 ∉ flags

/-- Lower-case digits that are not all zero. -/
structure Identifies (digits : Bytes) : Prop where
  lower : ∀ digit ∈ digits, isLowerHex digit = true
  nonzero : ∃ digit ∈ digits, digit ≠ 48

/-- The grammar of version 00. -/
def Grammar (value : String) : Prop :=
  ∃ trace span flags, utf8 value = utf8 "00-" ++ (trace ++ 45 :: (span ++ 45 :: flags)) ∧
    (trace.length = 32 ∧ Identifies trace) ∧ (span.length = 16 ∧ Identifies span) ∧
    flags.length = 2 ∧ ∀ digit ∈ flags, isLowerHex digit = true

/-- `parse` returns, accepts the value exactly if it is in the grammar, and then the context has
the value as its `traceparent`. -/
structure ParsesExactly (value : String) : Prop where
  returns : TraceContext.parse value ≠ none
  accepts : (∃ context, TraceContext.parse value = some (.ok context)) ↔ Grammar value
  reproduces : ∀ context, TraceContext.parse value = some (.ok context) →
    context.traceparent = value

/-- Something of the digits is neither zero nor a sign. -/
def Significant (digits : Bytes) : Prop :=
  ∃ digit ∈ digits, digit ≠ 48 ∧ digit ≠ 43

/-- Whatever is read beyond the grammar: characters that are cut, capitals and signs. -/
structure Strict (trace span flags : Bytes) : Prop where
  trace_whole : ¬CutsCharacter trace
  span_whole : (∃ bytes, Reads trace bytes) → ¬CutsCharacter span
  plain : (∃ bytes, Reads trace bytes) → (∃ bytes, Reads span bytes) →
    (∃ bytes, Reads flags bytes) → Significant trace → Significant span →
      ∀ digit ∈ trace ++ (span ++ flags), isUpperHex digit = false ∧ digit ≠ 43

/-! ## Digits -/

/-- What `hexDigit` reads. -/
structure DigitSpec (digit value : UInt8) : Prop where
  small : value.toNat < 16
  zero : value = 0 ↔ digit = 48
  ascii : isContinuation digit = false
  notSign : digit ≠ 43
  notDash : digit ≠ 45
  known : isUpperHex digit = true ∨ digit = hexByte value.toNat

/-- A digit is read in one of three ranges. -/
theorem hexDigit_ranges {digit value : UInt8} (read : hexDigit digit = some value) :
    (digit.toNat = value.toNat + 48 ∧ value.toNat < 10) ∨
      (digit.toNat = value.toNat + 55 ∧ 10 ≤ value.toNat ∧ value.toNat < 16) ∨
        (digit.toNat = value.toNat + 87 ∧ 10 ≤ value.toNat ∧ value.toNat < 16) := by
  have less (offset : UInt8) (above : offset.toNat ≤ digit.toNat) :
      (digit - offset).toNat = digit.toNat - offset.toNat :=
    UInt8.toNat_sub_of_le _ _ (UInt8.le_iff_toNat_le.mpr above)
  simp only [hexDigit, UInt8.le_iff_toNat_le, UInt8.reduceToNat] at read
  split at read
  case isTrue decimal =>
    cases read
    have value : (digit - 48).toNat = digit.toNat - 48 := less 48 decimal.1
    omega
  case isFalse =>
    split at read
    case isTrue upper =>
      cases read
      have value : (digit - 55).toNat = digit.toNat - 55 := by
        apply less 55
        exact Nat.le_trans (by decide) upper.1
      omega
    case isFalse =>
      split at read
      case isTrue lower =>
        cases read
        have value : (digit - 87).toNat = digit.toNat - 87 := by
          apply less 87
          exact Nat.le_trans (by decide) lower.1
        omega
      case isFalse => cases read

theorem isUpperHex_iff {digit : UInt8} :
    isUpperHex digit = true ↔ 65 ≤ digit.toNat ∧ digit.toNat ≤ 70 := by
  simp [isUpperHex, UInt8.le_iff_toNat_le]

theorem toNat_hexByte {number : Nat} (small : number < 16) :
    (hexByte number).toNat = if number < 10 then 48 + number else 87 + number := by
  decide +revert

theorem hexDigit_spec {digit value : UInt8} (read : hexDigit digit = some value) :
    DigitSpec digit value := by
  have ranges := hexDigit_ranges read
  have small : value.toNat < 16 := by omega
  refine ⟨small, ?_, ?_, ?_, ?_, ?_⟩
  · rw [← UInt8.toNat_inj, ← UInt8.toNat_inj]
    change value.toNat = 0 ↔ digit.toNat = 48
    omega
  · have ascii : ¬128 ≤ digit := by
      rw [UInt8.le_iff_toNat_le]
      change ¬128 ≤ digit.toNat
      omega
    rw [isContinuation, decide_eq_false ascii, Bool.false_and]
  · rw [ne_eq, ← UInt8.toNat_inj]
    change digit.toNat ≠ 43
    omega
  · rw [ne_eq, ← UInt8.toNat_inj]
    change digit.toNat ≠ 45
    omega
  · rw [isUpperHex_iff, ← UInt8.toNat_inj, toNat_hexByte small]
    split <;> omega

theorem hexDigit_of_lower {digit : UInt8} (lower : isLowerHex digit = true) :
    ∃ value, hexDigit digit = some value ∧ digit ≠ 43 := by
  have all : ∀ index < 256, isLowerHex (UInt8.ofNat index) = true →
      (hexDigit (UInt8.ofNat index)).isSome = true ∧ UInt8.ofNat index ≠ 43 := by
    decide +kernel
  have known := all digit.toNat digit.toNat_lt
  rw [UInt8.ofNat_toNat] at known
  obtain ⟨some, unsigned⟩ := known lower
  obtain ⟨value, read⟩ := Option.isSome_iff_exists.mp some
  exact ⟨value, read, unsigned⟩

theorem hexDigit_hexByte {number : Nat} (small : number < 16) :
    hexDigit (hexByte number) = some (UInt8.ofNat number) := by
  decide +revert

theorem isLowerHex_hexByte {number : Nat} (small : number < 16) :
    isLowerHex (hexByte number) = true ∧ hexByte number ≠ 43 ∧ hexByte number ≠ 45 ∧
      isUpperHex (hexByte number) = false ∧ hexByte number < 128 := by
  decide +revert

/-- What two bytes read as a number are. -/
structure PairSpec (high low byte : UInt8) : Prop where
  ascii : isContinuation high = false ∧ isContinuation low = false
  zero : byte = 0 ↔ (high = 48 ∨ high = 43) ∧ (low = 48 ∨ low = 43)
  plain : isUpperHex high = false → high ≠ 43 → isUpperHex low = false →
    hexBytes byte = [high, low]

theorem toNat_pair {upper lower : UInt8} (first : upper.toNat < 16) (second : lower.toNat < 16) :
    (16 * upper + lower).toNat = 16 * upper.toNat + lower.toNat := by
  rw [UInt8.toNat_add, UInt8.toNat_mul]
  change (16 * upper.toNat % 2 ^ 8 + lower.toNat) % 2 ^ 8 = _
  omega

theorem hexByte_of_known {digit value : UInt8} (spec : DigitSpec digit value)
    (lower : isUpperHex digit = false) : hexByte value.toNat = digit := by
  rcases spec.known with upper | same
  · cases lower.symm.trans upper
  · exact same.symm

theorem fromStrRadix_spec {high low byte : UInt8} (read : fromStrRadix high low = some byte) :
    PairSpec high low byte := by
  rw [fromStrRadix] at read
  split at read
  case isTrue sign =>
    have spec := hexDigit_spec read
    refine ⟨⟨by rw [sign]; rfl, spec.ascii⟩, ?_, ?_⟩
    · rw [spec.zero]
      constructor
      · intro zero
        exact ⟨.inr sign, .inl zero⟩
      · intro zeros
        rcases zeros.2 with zero | wrong
        · exact zero
        · exact (spec.notSign wrong).elim
    · intro _ unsigned _
      exact (unsigned sign).elim
  case isFalse unsigned =>
    obtain ⟨upper, first, further⟩ := Option.bind_eq_some_iff.mp read
    obtain ⟨lower, second, rfl⟩ := Option.map_eq_some_iff.mp further
    have high_spec := hexDigit_spec first
    have low_spec := hexDigit_spec second
    have value := toNat_pair high_spec.small low_spec.small
    refine ⟨⟨high_spec.ascii, low_spec.ascii⟩, ?_, ?_⟩
    · have zeros : 16 * upper + lower = 0 ↔ upper = 0 ∧ lower = 0 := by
        rw [← UInt8.toNat_inj, ← UInt8.toNat_inj, ← UInt8.toNat_inj, value]
        change 16 * upper.toNat + lower.toNat = 0 ↔ upper.toNat = 0 ∧ lower.toNat = 0
        omega
      rw [zeros, high_spec.zero, low_spec.zero, or_iff_left high_spec.notSign,
        or_iff_left low_spec.notSign]
    · intro capital _ capital'
      have small := low_spec.small
      rw [hexBytes, value, show (16 * upper.toNat + lower.toNat) / 16 = upper.toNat by omega,
        show (16 * upper.toNat + lower.toNat) % 16 = lower.toNat by omega,
        hexByte_of_known high_spec capital, hexByte_of_known low_spec capital']

theorem fromStrRadix_hexBytes (byte : UInt8) :
    fromStrRadix (hexByte (byte.toNat / 16)) (hexByte (byte.toNat % 16)) = some byte := by
  have bound := byte.toNat_lt
  have upper : byte.toNat / 16 < 16 := by omega
  have lower : byte.toNat % 16 < 16 := by omega
  rw [fromStrRadix, if_neg (isLowerHex_hexByte upper).2.1, hexDigit_hexByte upper,
    hexDigit_hexByte lower]
  refine congrArg some (UInt8.toNat_inj.mp ?_)
  have first : (UInt8.ofNat (byte.toNat / 16)).toNat = byte.toNat / 16 := by
    rw [UInt8.toNat_ofNat']
    omega
  have second : (UInt8.ofNat (byte.toNat % 16)).toNat = byte.toNat % 16 := by
    rw [UInt8.toNat_ofNat']
    omega
  rw [toNat_pair (by omega) (by omega), first, second]
  omega

/-! ## Fields -/

section

variable {digits bytes other : Bytes}

theorem Reads.not_cuts (reads : Reads digits bytes) : ¬CutsCharacter digits := by
  induction reads with
  | nil =>
      intro cuts
      cases cuts
  | cons pair rest ih =>
      intro cuts
      cases cuts with
      | here inside =>
          cases rest with
          | cons pair' _ => cases inside.symm.trans (fromStrRadix_spec pair').ascii.1
      | later _ further => exact ih further

theorem Reads.unique (reads : Reads digits bytes) (again : Reads digits other) :
    bytes = other := by
  induction reads generalizing other with
  | nil =>
      cases again
      rfl
  | cons pair rest ih =>
      cases again with
      | cons pair' rest' =>
          cases pair.symm.trans pair'
          rw [ih rest']

theorem reads_hexBytes (bytes : Bytes) : Reads (bytes.flatMap hexBytes) bytes := by
  induction bytes with
  | nil => exact .nil
  | cons byte bytes ih => exact .cons (fromStrRadix_hexBytes byte) ih

/-- Without capitals and signs the digits are those of the bytes. -/
theorem Reads.eq_hexBytes (reads : Reads digits bytes)
    (plain : ∀ digit ∈ digits, isUpperHex digit = false ∧ digit ≠ 43) :
    bytes.flatMap hexBytes = digits := by
  induction reads with
  | nil => rfl
  | cons pair rest ih =>
      obtain ⟨high, further⟩ := List.forall_mem_cons.mp plain
      obtain ⟨low, later⟩ := List.forall_mem_cons.mp further
      rw [List.flatMap_cons, ih later, (fromStrRadix_spec pair).plain high.1 high.2 low.1]
      rfl

theorem not_significant_iff :
    ¬Significant digits ↔ ∀ digit ∈ digits, digit = 48 ∨ digit = 43 := by
  simp only [Significant, not_exists, not_and, not_not]
  exact forall₂_congr fun digit _ => or_iff_not_imp_left.symm

/-- All bytes are zero where every digit is a zero or a sign. -/
theorem Reads.zero_iff (reads : Reads digits bytes) :
    (∀ byte ∈ bytes, byte = 0) ↔ ¬Significant digits := by
  rw [not_significant_iff]
  induction reads with
  | nil => exact iff_of_true (List.forall_mem_nil _) (List.forall_mem_nil _)
  | cons pair rest ih =>
      simp only [List.forall_mem_cons]
      rw [(fromStrRadix_spec pair).zero, and_assoc, and_congr_right_iff]
      intro _
      rw [and_congr_right_iff]
      exact fun _ => ih

end

/-! ## The loop of `decode_hex` -/

/-- The three outcomes of the loop on the digits that remain. -/
inductive Decoded {n : Nat} (digits : Bytes) : Option (Except TraceContextError (Id n)) → Prop
  | cut (cuts : CutsCharacter digits) : Decoded digits none
  | invalid (whole : ¬CutsCharacter digits) (unread : ∀ bytes, ¬Reads digits bytes) :
      Decoded digits (some (.error ⟨⟩))
  | read (id : Id n) (reads : Reads digits id.1) : Decoded digits (some (.ok id))

/-- A boundary behind the start of a text is where no character goes on. -/
theorem isCharBoundary_drop {text rest : Bytes} {index : Nat} (later : index ≠ 0)
    (within : index ≤ text.length) (remaining : text.drop index = rest) :
    isCharBoundary text index = rest.head?.all fun byte => !isContinuation byte := by
  subst remaining
  rw [isCharBoundary, List.head?_drop, beq_eq_false_iff_ne.mpr later, Bool.false_or]
  rcases Nat.lt_or_eq_of_le within with less | same
  · rw [beq_eq_false_iff_ne.mpr less.ne, Bool.false_or, List.getElem?_eq_getElem less]
    rfl
  · rw [same, beq_self_eq_true, Bool.true_or, List.getElem?_eq_none le_rfl]
    rfl

theorem decodeHexFrom_decoded {value : Bytes} {index count : Nat}
    (size : value.length = 2 * (index + count))
    (starts : isCharBoundary value (index * 2) = true) :
    Decoded (value.drop (index * 2)) (decodeHexFrom value index count) := by
  induction count generalizing index with
  | zero =>
      have done : value.drop (index * 2) = [] := List.drop_eq_nil_of_le (by omega)
      rw [done]
      exact .read _ .nil
  | succ count ih =>
      obtain ⟨high, low, digits, here⟩ : ∃ high low digits,
          value.drop (index * 2) = high :: low :: digits := by
        rcases remaining : value.drop (index * 2) with _ | ⟨high, _ | ⟨low, digits⟩⟩
        · have lengths := congrArg List.length remaining
          rw [List.length_drop, List.length_nil] at lengths
          omega
        · have lengths := congrArg List.length remaining
          rw [List.length_drop, List.length_singleton] at lengths
          omega
        · exact ⟨high, low, digits, rfl⟩
      have further : value.drop (index * 2 + 2) = digits := by
        rw [← List.drop_drop, here]
        rfl
      have pair : (value.take (index * 2 + 2)).drop (index * 2) = [high, low] := by
        rw [List.drop_take, here, Nat.add_sub_cancel_left]
        rfl
      have stops := isCharBoundary_drop (Nat.succ_ne_zero _) (by omega) further
      rw [decodeHexFrom, strSlice, pair, here]
      cases boundary : isCharBoundary value (index * 2 + 2) with
      | false =>
          rw [if_neg (by simp)]
          rw [boundary] at stops
          cases digits with
          | nil => cases stops
          | cons next after => exact .cut (.here (by simpa using stops))
      | true =>
          rw [if_pos ⟨Nat.le_add_right _ 2, starts, rfl⟩]
          have next : Decoded (value.drop ((index + 1) * 2))
              (decodeHexFrom value (index + 1) count) := ih (by omega) (by rwa [Nat.succ_mul])
          rw [Nat.succ_mul, further] at next
          dsimp only [pairValue]
          cases read : fromStrRadix high low with
          | none =>
              refine .invalid ?_ ?_
              · intro cuts
                cases cuts with
                | here inside =>
                    rw [boundary] at stops
                    simp [inside] at stops
                | later pair _ => cases read.symm.trans pair
              · intro bytes reads
                cases reads with
                | cons pair _ => cases read.symm.trans pair
          | some byte =>
              dsimp only
              generalize decodeHexFrom value (index + 1) count = outcome at next ⊢
              cases next with
              | cut cuts => exact .cut (.later read cuts)
              | invalid whole unread =>
                  refine .invalid ?_ ?_
                  · intro cuts
                    cases cuts with
                    | here inside =>
                        rw [boundary] at stops
                        simp [inside] at stops
                    | later _ cuts => exact whole cuts
                  · intro bytes reads
                    cases reads with
                    | cons _ reads => exact unread _ reads
              | read id reads => exact .read (Id.cons byte id) (.cons read reads)

theorem decodeHex_decoded {n : Nat} {value : Bytes} (size : value.length = 2 * n) :
    Decoded value (decodeHex n value) := by
  have decoded : Decoded (value.drop (0 * 2)) (decodeHexFrom value 0 n) :=
    decodeHexFrom_decoded (by omega) rfl
  rwa [Nat.zero_mul, List.drop_zero] at decoded

/-! ## `parse` by the parts of the value -/

section

variable {value : String} {trace span flags : Bytes} {context : TraceContext}

theorem joined_eq (trace span flags : Bytes) :
    [(45 : UInt8)].intercalate [utf8 "00", trace, span, flags] =
      utf8 "00-" ++ (trace ++ 45 :: (span ++ 45 :: flags)) := by
  have start : utf8 "00-" = utf8 "00" ++ [45] := by rfl
  rw [start]
  simp [List.intercalate]

/-- The shape is what the splitting and the checks of lengths ask for. -/
theorem shaped_iff :
    Shaped value trace span flags ↔
      (utf8 value).splitOn 45 = [utf8 "00", trace, span, flags] ∧ trace.length = 32 ∧
        span.length = 16 ∧ flags.length = 2 := by
  have version : (45 : UInt8) ∉ utf8 "00" := by decide
  rw [splitOn_eq_iff, joined_eq]
  constructor
  · intro shaped
    obtain ⟨first, second, third⟩ := shaped.noDash
    refine ⟨⟨shaped.text, List.cons_ne_nil _ _, ?_⟩, shaped.trace_length, shaped.span_length,
      shaped.flags_length⟩
    simp only [List.forall_mem_cons]
    exact ⟨version, first, second, third, List.forall_mem_nil _⟩
  · intro split
    obtain ⟨⟨text, _, free⟩, trace_length, span_length, flags_length⟩ := split
    simp only [List.forall_mem_cons] at free
    exact ⟨text, trace_length, span_length, flags_length, free.2.1, free.2.2.1, free.2.2.2.1⟩

theorem parse_of_shaped (shaped : Shaped value trace span flags) :
    TraceContext.parse value = TraceContext.parseParts trace span flags := by
  obtain ⟨parts, trace_length, span_length, flags_length⟩ := shaped_iff.mp shaped
  rw [TraceContext.parse, parts]
  dsimp only
  rw [if_neg]
  simp [trace_length, span_length, flags_length]

/-- What does not have the shape is refused. -/
theorem parse_of_not_shaped (other : ∀ trace span flags, ¬Shaped value trace span flags) :
    TraceContext.parse value = some (.error ⟨⟩) := by
  rw [TraceContext.parse]
  split
  case h_1 version trace span flags parts =>
    refine if_pos ?_
    by_contra fits
    simp only [not_or, not_not] at fits
    obtain ⟨rfl, trace_length, span_length, flags_length⟩ := fits
    exact other trace span flags (shaped_iff.mpr ⟨parts, trace_length, span_length, flags_length⟩)
  case h_2 => rfl

theorem Id.eq_zero_iff {n : Nat} (id : Id n) : id = Id.zero n ↔ ∀ byte ∈ id.1, byte = 0 := by
  rw [Subtype.ext_iff, Id.zero, List.eq_replicate_iff]
  exact and_iff_right id.2

/-- What the parts are read as. -/
structure Accepted (trace span flags : Bytes) (context : TraceContext) : Prop where
  traceReads : Reads trace context.traceId.1
  spanReads : Reads span context.spanId.1
  flagsReads : Reads flags [context.flags.bits]
  nonzero : Significant trace ∧ Significant span
  orphan : context.parentSpanId = none

theorem pairValue_eq_some {bits : UInt8} (flags_length : flags.length = 2) :
    pairValue flags = some bits ↔ Reads flags [bits] := by
  obtain ⟨high, low, rfl⟩ := List.length_eq_two.mp flags_length
  constructor
  · intro read
    exact .cons read .nil
  · intro reads
    cases reads with
    | cons pair _ => exact pair

/-- The outcomes of `parse` on the parts. -/
inductive Outcome (trace span flags : Bytes) :
    Option (Except TraceContextError TraceContext) → Prop
  | cut (cuts : CutsCharacter trace ∨ (∃ bytes, Reads trace bytes) ∧ CutsCharacter span) :
      Outcome trace span flags none
  | refused (whole : ¬(CutsCharacter trace ∨ (∃ bytes, Reads trace bytes) ∧ CutsCharacter span))
      (unread : ∀ context, ¬Accepted trace span flags context) :
      Outcome trace span flags (some (.error ⟨⟩))
  | accepted (context : TraceContext) (accepted : Accepted trace span flags context) :
      Outcome trace span flags (some (.ok context))

theorem parseParts_outcome (trace_length : trace.length = 32) (span_length : span.length = 16)
    (flags_length : flags.length = 2) :
    Outcome trace span flags (TraceContext.parseParts trace span flags) := by
  have first : Decoded trace (decodeHex 16 trace) := decodeHex_decoded (by omega)
  have second : Decoded span (decodeHex 8 span) := decodeHex_decoded (by omega)
  rw [TraceContext.parseParts]
  generalize decodeHex 16 trace = traceOutcome at first ⊢
  generalize decodeHex 8 span = spanOutcome at second ⊢
  cases first with
  | cut cuts => exact .cut (.inl cuts)
  | invalid whole unread =>
      refine .refused ?_ fun context accepted => unread _ accepted.traceReads
      intro cuts
      rcases cuts with cuts | ⟨⟨bytes, reads⟩, _⟩
      · exact whole cuts
      · exact unread bytes reads
  | read traceId traceReads =>
      dsimp only
      have notCut : ¬CutsCharacter span →
          ¬(CutsCharacter trace ∨ (∃ bytes, Reads trace bytes) ∧ CutsCharacter span) := by
        intro whole cuts
        rcases cuts with cuts | ⟨_, cuts⟩
        · exact traceReads.not_cuts cuts
        · exact whole cuts
      cases second with
      | cut cuts => exact .cut (.inr ⟨⟨_, traceReads⟩, cuts⟩)
      | invalid whole unread =>
          exact .refused (notCut whole) fun context accepted => unread _ accepted.spanReads
      | read spanId spanReads =>
          dsimp only
          cases read : pairValue flags with
          | none =>
              refine .refused (notCut spanReads.not_cuts) fun context accepted => ?_
              cases read.symm.trans ((pairValue_eq_some flags_length).mpr accepted.flagsReads)
          | some bits =>
              dsimp only
              have traceZero : traceId = Id.zero 16 ↔ ¬Significant trace := by
                rw [Id.eq_zero_iff, traceReads.zero_iff]
              have spanZero : spanId = Id.zero 8 ↔ ¬Significant span := by
                rw [Id.eq_zero_iff, spanReads.zero_iff]
              split
              case isTrue zero =>
                rw [traceZero, spanZero] at zero
                refine .refused (notCut spanReads.not_cuts) fun context accepted => ?_
                rcases zero with zero | zero
                · exact zero accepted.nonzero.1
                · exact zero accepted.nonzero.2
              case isFalse nonzero =>
                rw [traceZero, spanZero] at nonzero
                simp only [not_or, not_not] at nonzero
                exact .accepted _ ⟨traceReads, spanReads,
                  (pairValue_eq_some flags_length).mp read, nonzero, rfl⟩

/-! ## `traceparent` -/

theorem hexBytes_lower (bytes : Bytes) :
    ∀ digit ∈ bytes.flatMap hexBytes, isLowerHex digit = true ∧ digit ≠ 43 ∧ digit ≠ 45 ∧
      isUpperHex digit = false ∧ digit < 128 := by
  intro digit member
  obtain ⟨byte, _, inside⟩ := List.mem_flatMap.mp member
  have bound := byte.toNat_lt
  simp only [hexBytes, List.mem_cons, List.not_mem_nil, or_false] at inside
  rcases inside with rfl | rfl
  · exact isLowerHex_hexByte (by omega)
  · exact isLowerHex_hexByte (by omega)

theorem utf8_encodeHex (bytes : Bytes) : utf8 (encodeHex bytes) = bytes.flatMap hexBytes :=
  utf8_ofList_ascii fun digit member => (hexBytes_lower bytes digit member).2.2.2.2

theorem length_hexBytes (bytes : Bytes) : (bytes.flatMap hexBytes).length = 2 * bytes.length := by
  induction bytes with
  | nil => rfl
  | cons byte bytes ih =>
      rw [List.flatMap_cons, List.length_append, ih, hexBytes, List.length_cons, List.length_cons,
        List.length_cons, List.length_nil]
      omega

theorem traceparent_bytes (context : TraceContext) :
    utf8 context.traceparent = utf8 "00-" ++ (context.traceId.1.flatMap hexBytes ++
      45 :: (context.spanId.1.flatMap hexBytes ++
        45 :: [context.flags.bits].flatMap hexBytes)) := by
  have dash : utf8 "-" = [45] := by rfl
  simp only [TraceContext.traceparent, utf8_append, utf8_encodeHex, dash, List.append_assoc,
    List.cons_append, List.nil_append]

/-- What `traceparent` writes has the shape of version 00. -/
theorem traceparent_shaped (context : TraceContext) :
    Shaped context.traceparent (context.traceId.1.flatMap hexBytes)
      (context.spanId.1.flatMap hexBytes) ([context.flags.bits].flatMap hexBytes) := by
  have free (bytes : Bytes) : (45 : UInt8) ∉ bytes.flatMap hexBytes := by
    intro member
    exact (hexBytes_lower bytes 45 member).2.2.1 rfl
  refine ⟨traceparent_bytes context, ?_, ?_, ?_, free _, free _, free _⟩
  · rw [length_hexBytes, context.traceId.2]
  · rw [length_hexBytes, context.spanId.2]
  · exact length_hexBytes _

/-! ## Which values are parsed exactly -/

theorem Shaped.unique {trace' span' flags' : Bytes} (shaped : Shaped value trace span flags)
    (again : Shaped value trace' span' flags') :
    trace = trace' ∧ span = span' ∧ flags = flags' := by
  have parts := (shaped_iff.mp shaped).1.symm.trans (shaped_iff.mp again).1
  simp only [List.cons.injEq, true_and, and_true] at parts
  exact parts

theorem Identifies.significant {digits : Bytes} (identifies : Identifies digits) :
    Significant digits := by
  obtain ⟨digit, member, nonzero⟩ := identifies.nonzero
  refine ⟨digit, member, nonzero, ?_⟩
  intro sign
  have lower := identifies.lower digit member
  rw [sign] at lower
  cases lower

/-- Lower-case digits are read as what they are written for. -/
theorem reads_of_lower {digits : Bytes} (lower : ∀ digit ∈ digits, isLowerHex digit = true)
    {n : Nat} (size : digits.length = 2 * n) : ∃ id : Id n, Reads digits id.1 := by
  induction n generalizing digits with
  | zero =>
      rw [List.eq_nil_of_length_eq_zero size]
      exact ⟨⟨[], rfl⟩, .nil⟩
  | succ n ih =>
      rcases digits with _ | ⟨high, _ | ⟨low, digits⟩⟩
      · cases size
      · rw [List.length_singleton] at size
        omega
      · simp only [List.forall_mem_cons, List.length_cons] at lower size
        obtain ⟨id, rest⟩ := ih lower.2.2 (by omega)
        obtain ⟨upper, first, unsigned⟩ := hexDigit_of_lower lower.1
        obtain ⟨lower', second, _⟩ := hexDigit_of_lower lower.2.1
        refine ⟨Id.cons (16 * upper + lower') id, .cons ?_ rest⟩
        rw [fromStrRadix, if_neg unsigned, first, second]
        rfl

/-- A value of the grammar has the shape, with identifiers in lower case. -/
theorem Grammar.shaped (grammar : Grammar value) : ∃ trace span flags,
    Shaped value trace span flags ∧ Identifies trace ∧ Identifies span ∧
      ∀ digit ∈ flags, isLowerHex digit = true := by
  have free {digits : Bytes} (lower : ∀ digit ∈ digits, isLowerHex digit = true) :
      (45 : UInt8) ∉ digits := by
    intro member
    cases lower 45 member
  obtain ⟨trace, span, flags, text, traces, spans, flags_length, lower⟩ := grammar
  exact ⟨trace, span, flags, ⟨text, traces.1, spans.1, flags_length, free traces.2.lower,
    free spans.2.lower, free lower⟩, traces.2, spans.2, lower⟩

theorem grammar_iff (shaped : Shaped value trace span flags) :
    Grammar value ↔ Identifies trace ∧ Identifies span ∧
      ∀ digit ∈ flags, isLowerHex digit = true := by
  constructor
  · intro grammar
    obtain ⟨trace', span', flags', shaped', identified⟩ := grammar.shaped
    obtain ⟨rfl, rfl, rfl⟩ := shaped.unique shaped'
    exact identified
  · intro identified
    obtain ⟨traces, spans, lower⟩ := identified
    exact ⟨trace, span, flags, shaped.text, ⟨shaped.trace_length, traces⟩,
      ⟨shaped.span_length, spans⟩, shaped.flags_length, lower⟩

theorem Reads.length_eq {digits bytes : Bytes} (reads : Reads digits bytes) :
    digits.length = 2 * bytes.length := by
  induction reads with
  | nil => rfl
  | cons pair rest ih =>
      rw [List.length_cons, List.length_cons, List.length_cons, ih]
      omega

/-- Parts that are read, with identifiers that are not zero, are accepted. -/
theorem exists_accepted (shaped : Shaped value trace span flags) {traceId spanId bits : Bytes}
    (traceReads : Reads trace traceId) (spanReads : Reads span spanId)
    (flagsReads : Reads flags bits) (nonzero : Significant trace ∧ Significant span) :
    ∃ context, Accepted trace span flags context := by
  have traceSize : traceId.length = 16 := by
    have size := traceReads.length_eq
    rw [shaped.trace_length] at size
    omega
  have spanSize : spanId.length = 8 := by
    have size := spanReads.length_eq
    rw [shaped.span_length] at size
    omega
  obtain ⟨single, rfl⟩ : ∃ single, bits = [single] := by
    have size := flagsReads.length_eq
    rw [shaped.flags_length] at size
    exact List.length_eq_one_iff.mp (by omega)
  exact ⟨⟨⟨traceId, traceSize⟩, ⟨spanId, spanSize⟩, none, ⟨single⟩⟩, traceReads, spanReads,
    flagsReads, nonzero, rfl⟩

/-- An accepted context whose digits are plain is that of the value. -/
theorem Accepted.traceparent_eq {context : TraceContext} (shaped : Shaped value trace span flags)
    (accepted : Accepted trace span flags context)
    (plain : ∀ digit ∈ trace ++ (span ++ flags), isUpperHex digit = false ∧ digit ≠ 43) :
    context.traceparent = value := by
  simp only [List.forall_mem_append] at plain
  apply utf8_injective
  rw [traceparent_bytes, shaped.text, accepted.traceReads.eq_hexBytes plain.1,
    accepted.spanReads.eq_hexBytes plain.2.1, accepted.flagsReads.eq_hexBytes plain.2.2]

/-- Digits that are read and plain are lower-case digits. -/
theorem Reads.lower {digits bytes : Bytes} (reads : Reads digits bytes)
    (plain : ∀ digit ∈ digits, isUpperHex digit = false ∧ digit ≠ 43) :
    ∀ digit ∈ digits, isLowerHex digit = true := by
  intro digit member
  rw [← reads.eq_hexBytes plain] at member
  exact (hexBytes_lower bytes digit member).1

theorem plain_of_lower {digits : Bytes} (lower : ∀ digit ∈ digits, isLowerHex digit = true) :
    ∀ digit ∈ digits, isUpperHex digit = false ∧ digit ≠ 43 := by
  intro digit member
  have all : ∀ index < 256, isLowerHex (UInt8.ofNat index) = true →
      isUpperHex (UInt8.ofNat index) = false ∧ UInt8.ofNat index ≠ 43 := by
    decide +kernel
  have known := all digit.toNat digit.toNat_lt
  rw [UInt8.ofNat_toNat] at known
  exact known (lower digit member)

theorem identifies_of_plain {digits bytes : Bytes} (reads : Reads digits bytes)
    (plain : ∀ digit ∈ digits, isUpperHex digit = false ∧ digit ≠ 43)
    (significant : Significant digits) : Identifies digits := by
  obtain ⟨digit, member, nonzero, _⟩ := significant
  exact ⟨reads.lower plain, digit, member, nonzero⟩

/-- Behind the shape, exactness is strictness. -/
theorem parsesExactly_of_shaped (shaped : Shaped value trace span flags) :
    ParsesExactly value ↔ Strict trace span flags := by
  have parsed := parse_of_shaped shaped
  have outcome := parseParts_outcome shaped.trace_length shaped.span_length shaped.flags_length
  rw [← parsed] at outcome
  generalize result : TraceContext.parse value = returned at outcome
  cases outcome with
  | cut cuts =>
      refine iff_of_false (fun exactly => exactly.returns result) fun strict => ?_
      rcases cuts with cuts | ⟨reads, cuts⟩
      · exact strict.trace_whole cuts
      · exact strict.span_whole reads cuts
  | refused whole unread =>
      rw [not_or] at whole
      refine iff_of_true ⟨?_, ?_, ?_⟩ ⟨whole.1, fun reads cuts => whole.2 ⟨reads, cuts⟩, ?_⟩
      · rw [result]
        exact Option.some_ne_none _
      · rw [result, grammar_iff shaped]
        refine iff_of_false (by simp) fun identified => ?_
        obtain ⟨traces, spans, lower⟩ := identified
        obtain ⟨traceId, traceReads⟩ :=
          reads_of_lower traces.lower (n := 16) (by rw [shaped.trace_length])
        obtain ⟨spanId, spanReads⟩ :=
          reads_of_lower spans.lower (n := 8) (by rw [shaped.span_length])
        obtain ⟨bits, flagsReads⟩ := reads_of_lower lower (n := 1) (by rw [shaped.flags_length])
        obtain ⟨context, accepted⟩ := exists_accepted shaped traceReads spanReads flagsReads
          ⟨traces.significant, spans.significant⟩
        exact unread context accepted
      · intro context wrong
        cases result.symm.trans wrong
      · intro traces spans bits first second
        obtain ⟨traceId, traceReads⟩ := traces
        obtain ⟨spanId, spanReads⟩ := spans
        obtain ⟨flagBits, flagsReads⟩ := bits
        obtain ⟨context, accepted⟩ := exists_accepted shaped traceReads spanReads flagsReads
          ⟨first, second⟩
        exact (unread context accepted).elim
  | accepted context accepted =>
      constructor
      · intro exactly
        obtain ⟨traces, spans, lower⟩ :=
          (grammar_iff shaped).mp (exactly.accepts.mp ⟨context, result⟩)
        refine ⟨accepted.traceReads.not_cuts, fun _ => accepted.spanReads.not_cuts, ?_⟩
        intro _ _ _ _ _
        simp only [List.forall_mem_append]
        exact ⟨plain_of_lower traces.lower, plain_of_lower spans.lower, plain_of_lower lower⟩
      · intro strict
        have plain := strict.plain ⟨_, accepted.traceReads⟩ ⟨_, accepted.spanReads⟩
          ⟨_, accepted.flagsReads⟩ accepted.nonzero.1 accepted.nonzero.2
        have parts := plain
        simp only [List.forall_mem_append] at parts
        refine ⟨by rw [result]; exact Option.some_ne_none _, iff_of_true ⟨context, result⟩ ?_, ?_⟩
        · exact (grammar_iff shaped).mpr
            ⟨identifies_of_plain accepted.traceReads parts.1 accepted.nonzero.1,
              identifies_of_plain accepted.spanReads parts.2.1 accepted.nonzero.2,
              accepted.flagsReads.lower parts.2.2⟩
        · intro other again
          cases result.symm.trans again
          exact accepted.traceparent_eq shaped plain

end

theorem parsesExactly_iff (value : String) :
    ParsesExactly value ↔ ∀ trace span flags, Shaped value trace span flags →
      Strict trace span flags := by
  by_cases some : ∃ trace span flags, Shaped value trace span flags
  · obtain ⟨trace, span, flags, shaped⟩ := some
    rw [parsesExactly_of_shaped shaped]
    constructor
    · intro strict trace' span' flags' shaped'
      obtain ⟨rfl, rfl, rfl⟩ := shaped.unique shaped'
      exact strict
    · intro strict
      exact strict trace span flags shaped
  · have other : ∀ trace span flags, ¬Shaped value trace span flags := by
      intro trace span flags shaped
      exact some ⟨trace, span, flags, shaped⟩
    have result := parse_of_not_shaped other
    refine iff_of_true ⟨?_, ?_, ?_⟩ fun trace span flags shaped =>
      (other trace span flags shaped).elim
    · rw [result]
      exact Option.some_ne_none _
    · rw [result]
      refine iff_of_false (by simp) fun grammar => ?_
      obtain ⟨trace, span, flags, shaped, _⟩ := grammar.shaped
      exact other trace span flags shaped
    · intro context wrong
      cases result.symm.trans wrong

/-! ## Contexts that the functions build -/

inductive Built : TraceContext → Prop
  | root (time first second : Nat) (flags : TraceFlags) :
      Built (.root time first second flags)
  | parse {value : String} {context : TraceContext}
      (parsed : TraceContext.parse value = some (.ok context)) : Built context
  | child {context : TraceContext} (sequence : Nat) (parent : Built context) :
      Built (context.child sequence)

theorem orOne_ne_zero {n : Nat} (id : Id (n + 1)) : orOne id ≠ Id.zero (n + 1) := by
  rw [orOne]
  split
  case isTrue =>
    intro same
    have zero := (Id.eq_zero_iff _).mp same 1 (by simp)
    cases zero
  case isFalse nonzero => exact nonzero

theorem accepted_of_parsed {value : String} {context : TraceContext}
    (parsed : TraceContext.parse value = some (.ok context)) : ∃ trace span flags,
      Shaped value trace span flags ∧ Accepted trace span flags context := by
  by_cases some : ∃ trace span flags, Shaped value trace span flags
  · obtain ⟨trace, span, flags, shaped⟩ := some
    have outcome :=
      parseParts_outcome shaped.trace_length shaped.span_length shaped.flags_length
    rw [← parse_of_shaped shaped, parsed] at outcome
    cases outcome with
    | accepted _ accepted => exact ⟨trace, span, flags, shaped, accepted⟩
  · have other : ∀ trace span flags, ¬Shaped value trace span flags := by
      intro trace span flags shaped
      exact some ⟨trace, span, flags, shaped⟩
    cases (parse_of_not_shaped other).symm.trans parsed

theorem Reads.ne_zero {n : Nat} {digits : Bytes} {id : Id n} (reads : Reads digits id.1) :
    id ≠ Id.zero n ↔ Significant digits := by
  rw [ne_eq, Id.eq_zero_iff, reads.zero_iff, not_not]

/-- No identifier that is built is zero. -/
theorem Built.ne_zero {context : TraceContext} (built : Built context) :
    context.traceId ≠ Id.zero 16 ∧ context.spanId ≠ Id.zero 8 := by
  induction built with
  | root time first second flags => exact ⟨orOne_ne_zero _, orOne_ne_zero _⟩
  | parse parsed =>
      obtain ⟨trace, span, flags, _, accepted⟩ := accepted_of_parsed parsed
      exact ⟨accepted.traceReads.ne_zero.mpr accepted.nonzero.1,
        accepted.spanReads.ne_zero.mpr accepted.nonzero.2⟩
  | child sequence parent ih => exact ⟨ih.1, orOne_ne_zero _⟩

/-- What a context writes is parsed back to it, without its parent. -/
theorem parse_traceparent {context : TraceContext} (trace : context.traceId ≠ Id.zero 16)
    (span : context.spanId ≠ Id.zero 8) :
    TraceContext.parse context.traceparent =
      some (.ok { context with parentSpanId := none }) := by
  have shaped := traceparent_shaped context
  have traceReads := reads_hexBytes context.traceId.1
  have spanReads := reads_hexBytes context.spanId.1
  have flagsReads := reads_hexBytes [context.flags.bits]
  have accepted : Accepted _ _ _ { context with parentSpanId := none } := ⟨traceReads, spanReads,
    flagsReads, ⟨traceReads.ne_zero.mp trace, spanReads.ne_zero.mp span⟩, rfl⟩
  have outcome := parseParts_outcome shaped.trace_length shaped.span_length shaped.flags_length
  rw [parse_of_shaped shaped]
  generalize TraceContext.parseParts _ _ _ = returned at outcome ⊢
  cases outcome with
  | cut cuts =>
      rcases cuts with cuts | ⟨_, cuts⟩
      · exact (traceReads.not_cuts cuts).elim
      · exact (spanReads.not_cuts cuts).elim
  | refused _ unread => exact (unread _ accepted).elim
  | accepted other others =>
      have traces : other.traceId = context.traceId :=
        Subtype.ext (others.traceReads.unique traceReads)
      have spans : other.spanId = context.spanId :=
        Subtype.ext (others.spanReads.unique spanReads)
      have bits : other.flags.bits = context.flags.bits :=
        (List.cons.inj (others.flagsReads.unique flagsReads)).1
      have orphan := others.orphan
      rcases other with ⟨traceId, spanId, parentSpanId, ⟨flags⟩⟩
      cases traces
      cases spans
      cases bits
      cases orphan
      rfl

/-- `parse` is exact but for what it tolerates, and reads back every context that is built. -/
theorem traceparent_exact (value : String) (context : TraceContext) :
    (ParsesExactly value ↔ ∀ trace span flags, Shaped value trace span flags →
      Strict trace span flags) ∧
    (Built context → TraceContext.parse context.traceparent =
      some (.ok { context with parentSpanId := none })) :=
  ⟨parsesExactly_iff value, fun built => parse_traceparent built.ne_zero.1 built.ne_zero.2⟩

/-- A value in capitals. -/
def capitals : String := "00-4BF92F3577B34DA6A3CE929D0E0E4736-00F067AA0BA902B7-01"

/-- A value whose second byte of the trace begins a character. -/
def accented : String := "00-0é00000000000000000000000000000-00f067aa0ba902b7-01"

/-- Capitals are accepted and lost, and a character that is cut is a panic. -/
theorem capitals_accepted :
    ((TraceContext.parse capitals).bind Except.toOption).map TraceContext.traceparent =
        some "00-4bf92f3577b34da6a3ce929d0e0e4736-00f067aa0ba902b7-01" ∧
      ¬ParsesExactly capitals ∧ TraceContext.parse accented = none ∧
      ¬ParsesExactly accented := by
  have read : ((TraceContext.parse capitals).bind Except.toOption).map
      TraceContext.traceparent =
        some "00-4bf92f3577b34da6a3ce929d0e0e4736-00f067aa0ba902b7-01" := by
    decide +kernel
  have panics : TraceContext.parse accented = none := by rfl
  refine ⟨read, ?_, panics, fun exactly => exactly.returns panics⟩
  intro exactly
  obtain ⟨context, found, text⟩ := Option.map_eq_some_iff.mp read
  obtain ⟨result, parsed, accepted⟩ := Option.bind_eq_some_iff.mp found
  cases result with
  | error error => cases accepted
  | ok value =>
      cases accepted
      have same := text.symm.trans (exactly.reproduces _ parsed)
      exact absurd same (by decide +kernel)

end RustZero.Trace
