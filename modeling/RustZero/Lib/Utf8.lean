import Mathlib

/-!
# Texts as bytes

The UTF-8 encoding of a text as a list of bytes: it is compositional, injective, and no text's
encoding starts inside a character of another.  A byte below 128 is a character of its own.
-/

namespace RustZero.Lib

/-- `str::as_bytes`. -/
def utf8 (text : String) : List UInt8 := text.toUTF8.data.toList

theorem toList_loop (bytes : ByteArray) (index : Nat) (read : List UInt8)
    (inside : index ≤ bytes.size) :
    ByteArray.toList.loop bytes index read = read.reverse ++ bytes.data.toList.drop index := by
  induction left : bytes.size - index generalizing index read with
  | zero =>
      have done : ¬index < bytes.size := by omega
      have past : bytes.data.toList.length ≤ index := Nat.le_of_not_lt done
      rw [ByteArray.toList.loop, if_neg done, List.drop_eq_nil_of_le past, List.append_nil]
  | succ left ih =>
      have more : index < bytes.size := by omega
      have within : index < bytes.data.toList.length := more
      have here : bytes.get! index = bytes.data.toList[index] := by
        have below : index < bytes.data.size := more
        simp only [ByteArray.get!, Array.getElem!_eq_getD, Array.getD, below, dif_pos]
        rfl
      rw [ByteArray.toList.loop, if_pos more, ih (index + 1) _ more (by omega), List.reverse_cons,
        List.append_assoc, List.drop_eq_getElem_cons within, here]
      rfl

theorem toList_toUTF8 (text : String) : text.toUTF8.toList = utf8 text :=
  toList_loop text.toUTF8 0 [] (Nat.zero_le _)

theorem utf8_eq_flatMap (text : String) :
    utf8 text = text.toList.flatMap String.utf8EncodeChar := by
  have encoded : text.toByteArray = (text.toList.flatMap String.utf8EncodeChar).toByteArray :=
    String.utf8Encode_toList.symm
  rw [utf8, String.toUTF8_eq_toByteArray, encoded, List.data_toByteArray]

@[simp] theorem utf8_empty : utf8 "" = [] := by
  rw [utf8_eq_flatMap]
  rfl

@[simp] theorem utf8_append (first second : String) :
    utf8 (first ++ second) = utf8 first ++ utf8 second := by
  simp only [utf8_eq_flatMap, String.toList_append, List.flatMap_append]

theorem utf8_injective : Function.Injective utf8 := by
  intro first second same
  have arrays : first.toByteArray = second.toByteArray := ByteArray.ext (Array.toList_inj.mp same)
  exact String.toByteArray_inj.mp arrays

/-- Bytes are read as the text whose bytes they are. -/
theorem fromUTF8?_eq_some {bytes : List UInt8} {text : String} :
    String.fromUTF8? ⟨bytes.toArray⟩ = some text ↔ utf8 text = bytes := by
  unfold String.fromUTF8?
  constructor
  · intro read
    split at read
    · cases read
      rfl
    · cases read
  · intro same
    have array : (⟨bytes.toArray⟩ : ByteArray) = text.toByteArray := by
      rw [← same]
      exact ByteArray.ext (Array.toArray_toList)
    have valid : (⟨bytes.toArray⟩ : ByteArray).IsValidUTF8 := array ▸ text.isValidUTF8
    rw [dif_pos valid]
    exact congrArg some (String.toByteArray_inj.mp array)

/-- What begins with the encoding of a text continues with that of another. -/
theorem utf8_eq_append {first text : String} {rest : List UInt8}
    (same : utf8 text = utf8 first ++ rest) :
    ∃ second, text = first ++ second ∧ utf8 second = rest := by
  have arrays : first.toList.utf8Encode ++ rest.toByteArray = text.toList.utf8Encode := by
    rw [String.utf8Encode_toList, String.utf8Encode_toList]
    refine ByteArray.ext (Array.toList_inj.mp ?_)
    rw [ByteArray.data_append, Array.toList_append, List.data_toByteArray]
    exact same.symm
  obtain ⟨remaining, joined⟩ := List.isPrefix_of_utf8Encode_append_eq_utf8Encode _ arrays
  have whole : text = first ++ String.ofList remaining := by
    refine String.toList_injective ?_
    rw [String.toList_append, String.toList_ofList, joined]
  refine ⟨String.ofList remaining, whole, ?_⟩
  rw [whole, utf8_append] at same
  exact List.append_cancel_left same

theorem utf8EncodeChar_ascii {char : Char} (ascii : char.toNat < 128) :
    String.utf8EncodeChar char = [UInt8.ofNat char.toNat] := by
  have small : char.val.toNat ≤ 127 := Nat.le_of_lt_succ ascii
  rw [String.utf8EncodeChar, if_pos small]
  rfl

/-- The bytes of any other character are at least 128. -/
theorem le_of_mem_utf8EncodeChar {char : Char} (wide : 128 ≤ char.toNat) {byte : UInt8}
    (member : byte ∈ String.utf8EncodeChar char) : 128 ≤ byte := by
  have large {number : Nat} (lower : 128 ≤ number) (upper : number < 256) :
      128 ≤ UInt8.ofNat number := by
    rw [UInt8.le_iff_toNat_le, UInt8.toNat_ofNat', Nat.mod_eq_of_lt upper]
    exact lower
  have beyond : ¬char.val.toNat ≤ 127 := Nat.not_le.mpr wide
  rw [String.utf8EncodeChar, if_neg beyond] at member
  split at member
  case isTrue =>
    simp only [List.mem_cons, List.not_mem_nil, or_false] at member
    rcases member with rfl | rfl <;> apply large <;> omega
  case isFalse =>
    split at member
    case isTrue =>
      simp only [List.mem_cons, List.not_mem_nil, or_false] at member
      rcases member with rfl | rfl | rfl <;> apply large <;> omega
    case isFalse =>
      simp only [List.mem_cons, List.not_mem_nil, or_false] at member
      rcases member with rfl | rfl | rfl | rfl <;> apply large <;> omega

/-- A character below 128 occurs as its byte. -/
theorem mem_utf8_iff {char : Char} (ascii : char.toNat < 128) {text : String} :
    UInt8.ofNat char.toNat ∈ utf8 text ↔ char ∈ text.toList := by
  rw [utf8_eq_flatMap, List.mem_flatMap]
  constructor
  · intro inside
    obtain ⟨other, member, inside⟩ := inside
    by_cases narrow : other.toNat < 128
    · rw [utf8EncodeChar_ascii narrow, List.mem_singleton] at inside
      have same : char.toNat = other.toNat := by
        have numbers := congrArg UInt8.toNat inside
        rw [UInt8.toNat_ofNat', UInt8.toNat_ofNat', Nat.mod_eq_of_lt (by omega),
          Nat.mod_eq_of_lt (by omega)] at numbers
        exact numbers
      rw [← Char.ofNat_toNat char, same, Char.ofNat_toNat]
      exact member
    · have above := le_of_mem_utf8EncodeChar (Nat.not_lt.mp narrow) inside
      rw [UInt8.le_iff_toNat_le, UInt8.toNat_ofNat', Nat.mod_eq_of_lt (by omega)] at above
      exact absurd above (Nat.not_le.mpr ascii)
  · intro member
    refine ⟨char, member, ?_⟩
    rw [utf8EncodeChar_ascii ascii]
    exact List.mem_singleton_self _

/-- A text of bytes below 128. -/
theorem utf8_ofList_ascii {bytes : List UInt8} (ascii : ∀ byte ∈ bytes, byte < 128) :
    utf8 (String.ofList (bytes.map fun byte => Char.ofNat byte.toNat)) = bytes := by
  rw [utf8_eq_flatMap, String.toList_ofList, List.flatMap_map]
  induction bytes with
  | nil => rfl
  | cons byte bytes ih =>
      obtain ⟨here, later⟩ := List.forall_mem_cons.mp ascii
      have small : byte.toNat < 128 := here
      have code : (Char.ofNat byte.toNat).toNat = byte.toNat := by
        rw [Char.toNat_ofNat, if_pos (Or.inl (by omega))]
      rw [List.flatMap_cons, ih later, utf8EncodeChar_ascii (by rw [code]; exact small), code,
        UInt8.ofNat_toNat]
      rfl

/-- A number is written in digits. -/
theorem not_mem_toString {char : Char} (other : char.isDigit = false) (number : Nat) :
    char ∉ (toString number).toList := by
  intro member
  rw [Nat.toString_eq_repr, Nat.repr_eq_ofList_toDigits, String.toList_ofList] at member
  cases other.symm.trans (Nat.isDigit_of_mem_toDigits (by decide) (by decide) member)

end RustZero.Lib
