import Mathlib

/-!
# Decimal numerals

Lists of decimal digits and the numbers they are read as.

* `ofDigitChars_cons_zero` and `ofDigitChars_lt_pow`: the first digit is the most significant.
* `digits_lt_iff`: numerals of one length compare as texts the way their numbers do.
* `padded` writes a number with a fixed number of digits.
-/

namespace RustZero.Lib

section Digits

variable {left right : List Char} {width number other : Nat}

theorem ofDigitChars_cons_zero (digit : Char) (text : List Char) :
    Nat.ofDigitChars 10 (digit :: text) 0 =
      10 ^ text.length * (digit.toNat - 48) + Nat.ofDigitChars 10 text 0 := by
  rw [Nat.ofDigitChars_cons, Nat.ofDigitChars_eq_ofDigitChars_zero, Nat.mul_zero,
    Nat.zero_add]
  rfl

theorem digit_range {digit : Char} (isDigit : digit.isDigit = true) :
    48 ≤ digit.toNat ∧ digit.toNat ≤ 57 := by
  simpa [Char.isDigit, UInt32.le_iff_toNat_le] using isDigit

theorem ofDigitChars_lt_pow {text : List Char} (digits : ∀ digit ∈ text, digit.isDigit = true) :
    Nat.ofDigitChars 10 text 0 < 10 ^ text.length := by
  induction text with
  | nil => exact Nat.one_pos
  | cons digit text ih =>
      have rest := ih fun other member => digits other (List.mem_cons_of_mem _ member)
      have range := digit_range (digits digit List.mem_cons_self)
      have top : 10 ^ text.length * (digit.toNat - 48) ≤ 10 ^ text.length * 9 :=
        Nat.mul_le_mul_left _ (by omega)
      rw [ofDigitChars_cons_zero, List.length_cons, pow_succ]
      omega

/-- Numerals of one length compare as texts the way their numbers do. -/
theorem digits_lt_iff (same : left.length = right.length)
    (leftDigits : ∀ digit ∈ left, digit.isDigit = true)
    (rightDigits : ∀ digit ∈ right, digit.isDigit = true) :
    left < right ↔ Nat.ofDigitChars 10 left 0 < Nat.ofDigitChars 10 right 0 := by
  induction left generalizing right with
  | nil =>
      rw [List.eq_nil_of_length_eq_zero same.symm]
      simp
  | cons first left ih =>
      cases right with
      | nil => cases same
      | cons second right =>
          have same' : left.length = right.length := Nat.succ.inj same
          have leftRest := fun other member => leftDigits other (List.mem_cons_of_mem first member)
          have rightRest := fun other member =>
            rightDigits other (List.mem_cons_of_mem second member)
          have leftBound := ofDigitChars_lt_pow leftRest
          have rightBound := ofDigitChars_lt_pow rightRest
          have firstRange := digit_range (leftDigits first List.mem_cons_self)
          have secondRange := digit_range (rightDigits second List.mem_cons_self)
          rw [List.cons_lt_cons_iff, ih same' leftRest rightRest, ofDigitChars_cons_zero,
            ofDigitChars_cons_zero, same']
          rw [same'] at leftBound
          generalize 10 ^ right.length = unit at leftBound rightBound ⊢
          have order : first < second ↔ first.toNat < second.toNat := Iff.rfl
          rcases lt_trichotomy first.toNat second.toNat with less | equal | greater
          · have step : unit * (first.toNat - 48) + unit ≤ unit * (second.toNat - 48) := by
              rw [← Nat.mul_succ]
              exact Nat.mul_le_mul_left _ (by omega)
            refine iff_of_true (.inl (order.mpr less)) ?_
            omega
          · have eq : first = second := Char.toNat_inj.mp equal
            subst eq
            rw [Nat.add_lt_add_iff_left]
            refine ⟨?_, fun less => .inr ⟨rfl, less⟩⟩
            intro lt
            rcases lt with less | ⟨_, less⟩
            · exact absurd less (lt_irrefl first)
            · exact less
          · have step : unit * (second.toNat - 48) + unit ≤ unit * (first.toNat - 48) := by
              rw [← Nat.mul_succ]
              exact Nat.mul_le_mul_left _ (by omega)
            refine iff_of_false ?_ ?_
            · intro lt
              rcases lt with less | ⟨equal, _⟩
              · have less' := order.mp less
                omega
              · rw [equal] at greater
                exact lt_irrefl _ greater
            · omega

/-- Texts whose first parts are of one length compare by these, and then by the rest. -/
theorem append_lt_append_iff {α : Type*} [LinearOrder α] {left right tail tail' : List α}
    (same : left.length = right.length) :
    left ++ tail < right ++ tail' ↔ left < right ∨ left = right ∧ tail < tail' := by
  induction left generalizing right with
  | nil =>
      rw [List.eq_nil_of_length_eq_zero same.symm]
      simp
  | cons first left ih =>
      cases right with
      | nil => cases same
      | cons second right =>
          rw [List.cons_append, List.cons_append, List.cons_lt_cons_iff, List.cons_lt_cons_iff,
            ih (Nat.succ.inj same), List.cons.injEq]
          tauto

/-- A number in a fixed number of digits. -/
def padded (width number : Nat) : List Char :=
  List.replicate (width - (Nat.toDigits 10 number).length) '0' ++ Nat.toDigits 10 number

theorem padded_digits (width number : Nat) :
    ∀ digit ∈ padded width number, digit.isDigit = true := by
  intro digit member
  rcases List.mem_append.mp member with zero | member
  · rw [List.eq_of_mem_replicate zero]
    rfl
  · exact Nat.isDigit_of_mem_toDigits (by decide) (by decide) member

theorem padded_value (width number : Nat) :
    Nat.ofDigitChars 10 (padded width number) 0 = number := by
  rw [padded, Nat.ofDigitChars_append, Nat.ofDigitChars_replicate_zero, Nat.mul_zero,
    Nat.ofDigitChars_ten_toDigits]

theorem padded_length (positive : 0 < width) (short : number < 10 ^ width) :
    (padded width number).length = width := by
  have digits := (Nat.length_toDigits_le_iff (b := 10) (by decide) positive).mpr short
  rw [padded, List.length_append, List.length_replicate]
  omega

theorem padded_lt_iff (positive : 0 < width) (short : number < 10 ^ width)
    (short' : other < 10 ^ width) : padded width number < padded width other ↔ number < other := by
  have same : (padded width number).length = (padded width other).length := by
    rw [padded_length positive short, padded_length positive short']
  rw [digits_lt_iff same (padded_digits _ _) (padded_digits _ _), padded_value, padded_value]

theorem padded_inj : padded width number = padded width other ↔ number = other := by
  refine ⟨fun same => ?_, fun same => same ▸ rfl⟩
  rw [← padded_value width number, same, padded_value]

end Digits

end RustZero.Lib
