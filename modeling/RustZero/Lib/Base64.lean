import Mathlib

/-!
# Base64

The standard alphabet with padding: three bytes are four symbols, and the bits of the last
symbol that carry nothing are zero.  `decode_eq_some`: what is decoded is exactly what is encoded.
-/

namespace RustZero.Lib.Base64

/-- The symbol of a value below 64. -/
def symbol (value : Nat) : UInt8 :=
  if value < 26 then UInt8.ofNat (65 + value)
  else if value < 52 then UInt8.ofNat (71 + value)
  else if value < 62 then UInt8.ofNat (value - 4)
  else if value = 62 then 43
  else 47

/-- The value of a symbol. -/
def value (symbol : UInt8) : Option Nat :=
  if 65 ≤ symbol && symbol ≤ 90 then some (symbol.toNat - 65)
  else if 97 ≤ symbol && symbol ≤ 122 then some (symbol.toNat - 71)
  else if 48 ≤ symbol && symbol ≤ 57 then some (symbol.toNat + 4)
  else if symbol = 43 then some 62
  else if symbol = 47 then some 63
  else none

theorem value_symbol {number : Nat} (small : number < 64) :
    value (symbol number) = some number := by
  decide +revert

theorem symbol_ne_pad {number : Nat} (small : number < 64) : symbol number ≠ 61 := by
  decide +revert

theorem symbol_of_value {byte : UInt8} {number : Nat} (read : value byte = some number) :
    number < 64 ∧ symbol number = byte := by
  have all : ∀ index < 256, ∀ number ∈ value (UInt8.ofNat index),
      number < 64 ∧ symbol number = UInt8.ofNat index := by decide +kernel
  have known := all byte.toNat byte.toNat_lt number
  rw [UInt8.ofNat_toNat] at known
  exact known read

def encode : List UInt8 → List UInt8
  | [] => []
  | [a] => [symbol (a.toNat / 4), symbol (a.toNat % 4 * 16), 61, 61]
  | [a, b] =>
      [symbol (a.toNat / 4), symbol (a.toNat % 4 * 16 + b.toNat / 16),
        symbol (b.toNat % 16 * 4), 61]
  | a :: b :: c :: rest =>
      symbol (a.toNat / 4) :: symbol (a.toNat % 4 * 16 + b.toNat / 16) ::
        symbol (b.toNat % 16 * 4 + c.toNat / 64) :: symbol (c.toNat % 64) :: encode rest

/-- The byte of two symbols and a pad. -/
def lastByte (p q : Nat) : Option (List UInt8) :=
  if q % 16 = 0 then some [UInt8.ofNat (p * 4 + q / 16)] else none

/-- The bytes of three symbols and a pad. -/
def lastBytes (p q r : Nat) : Option (List UInt8) :=
  if r % 4 = 0 then some [UInt8.ofNat (p * 4 + q / 16), UInt8.ofNat (q % 16 * 16 + r / 4)]
  else none

def decode : List UInt8 → Option (List UInt8)
  | [] => some []
  | [w, x, 61, 61] => do lastByte (← value w) (← value x)
  | [w, x, y, 61] => do lastBytes (← value w) (← value x) (← value y)
  | w :: x :: y :: z :: rest => do
      let p ← value w
      let q ← value x
      let r ← value y
      let s ← value z
      let others ← decode rest
      some (UInt8.ofNat (p * 4 + q / 16) :: UInt8.ofNat (q % 16 * 16 + r / 4) ::
        UInt8.ofNat (r % 4 * 64 + s) :: others)
  | _ => none

/-- A byte put together from its upper and its lower bits. -/
theorem ofNat_eq (byte : UInt8) {number : Nat} (same : number = byte.toNat) :
    UInt8.ofNat number = byte := by
  rw [same, UInt8.ofNat_toNat]

theorem decode_encode (bytes : List UInt8) : decode (encode bytes) = some bytes := by
  fun_induction encode bytes with
  | case1 => rfl
  | case2 a =>
      have bound := a.toNat_lt
      have first := value_symbol (show a.toNat / 4 < 64 by omega)
      have second := value_symbol (show a.toNat % 4 * 16 < 64 by omega)
      simp only [decode, first, second, Option.bind_eq_bind, Option.bind_some, lastByte]
      rw [if_pos (by omega), ofNat_eq a (by omega)]
  | case3 a b =>
      have bound := a.toNat_lt
      have bound' := b.toNat_lt
      have first := value_symbol (show a.toNat / 4 < 64 by omega)
      have second := value_symbol (show a.toNat % 4 * 16 + b.toNat / 16 < 64 by omega)
      have third := value_symbol (show b.toNat % 16 * 4 < 64 by omega)
      have notPad := symbol_ne_pad (show b.toNat % 16 * 4 < 64 by omega)
      rw [decode]
      · simp only [first, second, third, Option.bind_eq_bind, Option.bind_some, lastBytes]
        rw [if_pos (by omega), ofNat_eq a (by omega), ofNat_eq b (by omega)]
      · exact notPad
  | case4 a b c rest ih =>
      have bound := a.toNat_lt
      have bound' := b.toNat_lt
      have bound'' := c.toNat_lt
      have first := value_symbol (show a.toNat / 4 < 64 by omega)
      have second := value_symbol (show a.toNat % 4 * 16 + b.toNat / 16 < 64 by omega)
      have third := value_symbol (show b.toNat % 16 * 4 + c.toNat / 64 < 64 by omega)
      have fourth := value_symbol (show c.toNat % 64 < 64 by omega)
      have notPad := symbol_ne_pad (show c.toNat % 64 < 64 by omega)
      rw [decode]
      · simp only [first, second, third, fourth, ih, Option.bind_eq_bind, Option.bind_some]
        rw [ofNat_eq a (by omega), ofNat_eq b (by omega), ofNat_eq c (by omega)]
      · intro _ pad
        exact (notPad pad).elim
      · intro pad
        exact (notPad pad).elim

theorem encode_of_decode {text bytes : List UInt8} (read : decode text = some bytes) :
    encode bytes = text := by
  fun_induction decode text generalizing bytes with
  | case1 =>
      cases read
      rfl
  | case2 w x =>
      obtain ⟨p, first, further⟩ := Option.bind_eq_some_iff.mp read
      obtain ⟨q, second, whole⟩ := Option.bind_eq_some_iff.mp further
      obtain ⟨_, rfl⟩ := symbol_of_value first
      obtain ⟨_, rfl⟩ := symbol_of_value second
      rw [lastByte] at whole
      split at whole <;> cases whole
      have value : (UInt8.ofNat (p * 4 + q / 16)).toNat = p * 4 + q / 16 := by
        rw [UInt8.toNat_ofNat']
        omega
      rw [encode, value, show (p * 4 + q / 16) / 4 = p by omega,
        show (p * 4 + q / 16) % 4 * 16 = q by omega]
  | case3 w x y _ =>
      obtain ⟨p, first, further⟩ := Option.bind_eq_some_iff.mp read
      obtain ⟨q, second, further⟩ := Option.bind_eq_some_iff.mp further
      obtain ⟨r, third, whole⟩ := Option.bind_eq_some_iff.mp further
      obtain ⟨_, rfl⟩ := symbol_of_value first
      obtain ⟨_, rfl⟩ := symbol_of_value second
      obtain ⟨_, rfl⟩ := symbol_of_value third
      rw [lastBytes] at whole
      split at whole <;> cases whole
      have upper : (UInt8.ofNat (p * 4 + q / 16)).toNat = p * 4 + q / 16 := by
        rw [UInt8.toNat_ofNat']
        omega
      have lower : (UInt8.ofNat (q % 16 * 16 + r / 4)).toNat = q % 16 * 16 + r / 4 := by
        rw [UInt8.toNat_ofNat']
        omega
      rw [encode, upper, lower, show (p * 4 + q / 16) / 4 = p by omega,
        show (p * 4 + q / 16) % 4 * 16 + (q % 16 * 16 + r / 4) / 16 = q by omega,
        show (q % 16 * 16 + r / 4) % 16 * 4 = r by omega]
  | case4 w x y z rest _ _ ih =>
      obtain ⟨p, first, further⟩ := Option.bind_eq_some_iff.mp read
      obtain ⟨q, second, further⟩ := Option.bind_eq_some_iff.mp further
      obtain ⟨r, third, further⟩ := Option.bind_eq_some_iff.mp further
      obtain ⟨s, fourth, further⟩ := Option.bind_eq_some_iff.mp further
      obtain ⟨others, remaining, whole⟩ := Option.bind_eq_some_iff.mp further
      obtain ⟨_, rfl⟩ := symbol_of_value first
      obtain ⟨_, rfl⟩ := symbol_of_value second
      obtain ⟨_, rfl⟩ := symbol_of_value third
      obtain ⟨_, rfl⟩ := symbol_of_value fourth
      cases whole
      have upper : (UInt8.ofNat (p * 4 + q / 16)).toNat = p * 4 + q / 16 := by
        rw [UInt8.toNat_ofNat']
        omega
      have middle : (UInt8.ofNat (q % 16 * 16 + r / 4)).toNat = q % 16 * 16 + r / 4 := by
        rw [UInt8.toNat_ofNat']
        omega
      have lower : (UInt8.ofNat (r % 4 * 64 + s)).toNat = r % 4 * 64 + s := by
        rw [UInt8.toNat_ofNat']
        omega
      rw [encode, upper, middle, lower, ih remaining, show (p * 4 + q / 16) / 4 = p by omega,
        show (p * 4 + q / 16) % 4 * 16 + (q % 16 * 16 + r / 4) / 16 = q by omega,
        show (q % 16 * 16 + r / 4) % 16 * 4 + (r % 4 * 64 + s) / 64 = r by omega,
        show (r % 4 * 64 + s) % 64 = s by omega]
  | case5 => cases read

/-- What is decoded is exactly what is encoded. -/
theorem decode_eq_some {text bytes : List UInt8} :
    decode text = some bytes ↔ text = encode bytes := by
  constructor
  · intro read
    exact (encode_of_decode read).symm
  · intro same
    rw [same, decode_encode]

end RustZero.Lib.Base64
