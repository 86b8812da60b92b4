import Mathlib
import RustZero.Lib.Utf8

/-!
# HTTP messages

What the servers read of a header value and of a status code, and header maps: the name
of a header, in lower case, with its values in order.
-/

namespace RustZero.Http

open Lib

abbrev HeaderValue := List UInt8

abbrev Headers := List (String × HeaderValue)

/-- `HeaderValue::to_str`. -/
def headerText (value : HeaderValue) : Option String :=
  if value.all fun byte => (32 ≤ byte && byte < 127) || byte == 9 then
    some (String.ofList (value.map fun byte => Char.ofNat byte.toNat))
  else none

/-- `StatusCode::is_success`. -/
def isSuccess (status : Nat) : Bool :=
  200 ≤ status && status < 300

/-- `HeaderValue::from_static`. -/
def headerValue (text : String) : HeaderValue :=
  text.toUTF8.toList

theorem headerValue_eq (text : String) : headerValue text = utf8 text :=
  toList_toUTF8 text

/-- What `HeaderValue::to_str` accepts. -/
def visible (byte : UInt8) : Bool :=
  (32 ≤ byte && byte < 127) || byte == 9

theorem ascii_of_visible {byte : UInt8} (seen : visible byte = true) : byte < 128 := by
  simp only [visible, Bool.or_eq_true, Bool.and_eq_true, decide_eq_true_eq, beq_iff_eq] at seen
  rcases seen with ⟨_, below⟩ | tab
  · exact UInt8.lt_trans below (by decide)
  · rw [tab]
    decide

theorem headerText_utf8 {text : String} (plain : ∀ byte ∈ utf8 text, visible byte = true) :
    headerText (utf8 text) = some text := by
  have ascii : ∀ byte ∈ utf8 text, byte < 128 := fun byte member =>
    ascii_of_visible (plain byte member)
  have same := utf8_injective (utf8_ofList_ascii ascii)
  have all : (utf8 text).all visible = true := List.all_eq_true.mpr plain
  exact (if_pos all).trans (congrArg some same)

theorem utf8_of_headerText {value : HeaderValue} {text : String}
    (read : headerText value = some text) :
    utf8 text = value ∧ ∀ byte ∈ value, byte < 128 := by
  unfold headerText at read
  split at read
  case isFalse => cases read
  case isTrue seen =>
    cases read
    have low : ∀ byte ∈ value, byte < 128 := fun byte member =>
      ascii_of_visible (List.all_eq_true.mp seen byte member)
    exact ⟨utf8_ofList_ascii low, low⟩

namespace Headers

def get (headers : Headers) (name : String) : Option HeaderValue :=
  headers.lookup name

/-- The first value of the header, where it is text. -/
def text (headers : Headers) (name : String) : Option String :=
  (headers.get name).bind headerText

theorem text_of_get {headers : Headers} {name text : String}
    (given : headers.get name = some (utf8 text))
    (plain : ∀ byte ∈ utf8 text, visible byte = true) : headers.text name = some text := by
  rw [Headers.text, given, Option.bind_some, headerText_utf8 plain]

def containsKey (headers : Headers) (name : String) : Bool :=
  (headers.get name).isSome

def remove (headers : Headers) (name : String) : Headers :=
  headers.filter fun header => header.1 != name

/-- `HeaderMap::insert`, which replaces every value of the header. -/
def insert (headers : Headers) (name : String) (value : HeaderValue) : Headers :=
  (name, value) :: headers.remove name

@[simp] theorem get_insert_self (headers : Headers) (name : String) (value : HeaderValue) :
    (headers.insert name value).get name = some value := by
  simp [insert, get]

theorem get_remove_of_ne (headers : Headers) {name other : String} (differs : other ≠ name) :
    (headers.remove name).get other = headers.get other := by
  induction headers with
  | nil => rfl
  | cons header rest ih =>
      obtain ⟨key, value⟩ := header
      simp only [remove, get] at ih
      by_cases kept : key = name
      · subst kept
        have skipped : (other == key) = false := by simpa using differs
        simpa [remove, get, List.lookup_cons, skipped] using ih
      · have keep : (key != name) = true := by simpa using kept
        simp only [remove, get, List.filter_cons, keep, if_true, List.lookup_cons, ih]

theorem get_insert_of_ne (headers : Headers) {name other : String} (value : HeaderValue)
    (differs : other ≠ name) : (headers.insert name value).get other = headers.get other := by
  have skipped : (other == name) = false := by simpa using differs
  rw [insert, get, List.lookup_cons, skipped]
  exact headers.get_remove_of_ne differs

theorem containsKey_insert {headers : Headers} (name : String) (value : HeaderValue)
    {other : String} (has : headers.containsKey other = true) :
    (headers.insert name value).containsKey other = true := by
  by_cases same : other = name
  · rw [containsKey, same, get_insert_self]
    rfl
  · rwa [containsKey, get_insert_of_ne _ _ same]

/-- All values of a header, in order. -/
def values (headers : Headers) (name : String) : List HeaderValue :=
  (headers.filter fun header => header.1 = name).map Prod.snd

@[simp] theorem values_nil (name : String) : values [] name = [] := rfl

theorem values_append (left right : Headers) (name : String) :
    values (left ++ right) name = left.values name ++ right.values name := by
  simp [values]

theorem values_remove (headers : Headers) (name other : String) :
    (headers.remove name).values other = if other = name then [] else headers.values other := by
  by_cases same : other = name
  · subst same
    simp [remove, values]
  · have kept : (headers.remove name).filter (fun header => header.1 = other) =
        headers.filter fun header => header.1 = other := by
      rw [remove, List.filter_filter]
      refine List.filter_congr ?_
      intro header _
      by_cases mine : header.1 = other
      · simp [mine, same]
      · simp [mine]
    rw [values, kept, if_neg same, values]

theorem values_insert (headers : Headers) (name other : String) (value : HeaderValue) :
    (headers.insert name value).values other =
      if other = name then [value] else headers.values other := by
  have split : (headers.insert name value).values other =
      values [(name, value)] other ++ (headers.remove name).values other :=
    values_append [(name, value)] (headers.remove name) other
  rw [split, values_remove]
  by_cases same : other = name
  · simp [values, same]
  · simp [values, same, Ne.symm same]

/-- `HeaderMap::get` is the first value. -/
theorem get_eq_head? (headers : Headers) (name : String) :
    headers.get name = (headers.values name).head? := by
  induction headers with
  | nil => rfl
  | cons header rest ih =>
      obtain ⟨key, value⟩ := header
      simp only [get, values, List.lookup_cons, List.filter_cons] at ih ⊢
      by_cases same : name = key
      · subst same
        simp
      · have skipped : (name == key) = false := by simpa using same
        have other : ¬key = name := Ne.symm same
        simp only [skipped, other, decide_false]
        exact ih

theorem containsKey_iff (headers : Headers) (name : String) :
    headers.containsKey name = true ↔ headers.values name ≠ [] := by
  rw [containsKey, get_eq_head?]
  cases headers.values name <;> simp

end Headers

end RustZero.Http
