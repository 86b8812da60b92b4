import Mathlib

/-!
# Linear generators

Generators that step a bit vector by a linear map.  A polynomial over two elements is the number
with its coefficients as bits, and names the sum of the iterates at a vector (`combine`).  Where a
polynomial of the degree of the vectors names the sum 0, arithmetic modulo it computes far
iterates: `jump_eq` is the `n`-th one, in as many squarings as `n` has bits.

A vector has the period `n` if it is fixed by `n` steps and by no `n / p` steps
(`minimalPeriod_eq_of_primes`).  If the period of one vector is as long as there are vectors but
0, every vector but 0 leads to every other (`exists_iterate_eq`).
-/

namespace RustZero.Lib

variable {width modulus bits number : Nat} {f : BitVec width → BitVec width}
  {vector : BitVec width}

/-- The map respects the sum of vectors. -/
def XorLinear (f : BitVec width → BitVec width) : Prop :=
  ∀ left right, f (left ^^^ right) = f left ^^^ f right

def odd (number : Nat) : Bool :=
  Nat.beq (number % 2) 1

/-- The sum of the iterates at a vector that the polynomial names. -/
def combine (f : BitVec width → BitVec width) : Nat → Nat → BitVec width → BitVec width
  | 0, _, _ => BitVec.ofNat width 0
  | bits + 1, polynomial, vector =>
      (bif odd polynomial then vector else BitVec.ofNat width 0) ^^^
        combine f bits (polynomial / 2) (f vector)

/-- A polynomial times the unknown. -/
def shift (width modulus polynomial : Nat) : Nat :=
  bif Nat.ble (2 ^ width) (2 * polynomial) then (2 * polynomial) ^^^ modulus else 2 * polynomial

/-- The product of polynomials, of the first one's lowest bits. -/
def product (width modulus : Nat) : Nat → Nat → Nat → Nat
  | 0, _, _ => 0
  | bits + 1, factor, polynomial =>
      (bif odd factor then polynomial else 0) ^^^
        product width modulus bits (factor / 2) (shift width modulus polynomial)

/-- A power of the unknown, with an exponent of so many bits. -/
def jump (width modulus : Nat) : Nat → Nat → Nat
  | 0, _ => 1
  | bits + 1, exponent =>
      let root := jump width modulus bits (exponent / 2)
      let square := product width modulus width root root
      bif odd exponent then shift width modulus square else square

theorem odd_eq (number : Nat) : odd number = number.testBit 0 := by
  rw [Nat.testBit_zero, odd]
  rcases Nat.mod_two_eq_zero_or_one number with even | odd
  · rw [even]
    rfl
  · rw [odd]
    rfl

theorem odd_xor (left right : Nat) : odd (left ^^^ right) = (odd left ^^ odd right) := by
  rw [odd_eq, odd_eq, odd_eq, Nat.testBit_xor]

theorem xor_cond (left right : Bool) (vector : BitVec width) :
    (bif left ^^ right then vector else BitVec.ofNat width 0) =
      (bif left then vector else BitVec.ofNat width 0) ^^^
        (bif right then vector else BitVec.ofNat width 0) := by
  cases left <;> cases right <;> simp

theorem combine_xor (left right : Nat) (vector : BitVec width) :
    combine f bits (left ^^^ right) vector =
      combine f bits left vector ^^^ combine f bits right vector := by
  induction bits generalizing left right vector with
  | zero => exact (BitVec.xor_self).symm
  | succ bits ih =>
      rw [combine, combine, combine, odd_xor, Nat.xor_div_two, ih, xor_cond]
      ac_rfl

theorem combine_zero (vector : BitVec width) : combine f bits 0 vector = BitVec.ofNat width 0 := by
  have twice : combine f bits (0 ^^^ 0) vector =
      combine f bits 0 vector ^^^ combine f bits 0 vector := combine_xor 0 0 vector
  rw [Nat.xor_self, BitVec.xor_self] at twice
  exact twice

namespace XorLinear

variable (linear : XorLinear f)

include linear

theorem zero : f (BitVec.ofNat width 0) = BitVec.ofNat width 0 := by
  have twice := linear (BitVec.ofNat width 0) (BitVec.ofNat width 0)
  rw [BitVec.xor_self, BitVec.xor_self] at twice
  exact twice

theorem combine (polynomial : Nat) (vector : BitVec width) :
    f (combine f bits polynomial vector) = Lib.combine f bits polynomial (f vector) := by
  induction bits generalizing polynomial vector with
  | zero => exact linear.zero
  | succ bits ih =>
      rw [Lib.combine, Lib.combine, linear, ih]
      cases odd polynomial with
      | true => rfl
      | false => rw [cond_false, cond_false, linear.zero]

theorem iterate_combine (steps polynomial : Nat) (vector : BitVec width) :
    f^[steps] (Lib.combine f bits polynomial vector) =
      Lib.combine f bits polynomial (f^[steps] vector) := by
  induction steps with
  | zero => rfl
  | succ steps ih =>
      rw [Function.iterate_succ_apply', Function.iterate_succ_apply', ih, linear.combine]

theorem iterate_zero (steps : Nat) : f^[steps] (BitVec.ofNat width 0) = BitVec.ofNat width 0 :=
  Function.iterate_fixed linear.zero steps

end XorLinear

theorem combine_succ {polynomial : Nat} (short : polynomial < 2 ^ bits) (vector : BitVec width) :
    combine f (bits + 1) polynomial vector = combine f bits polynomial vector := by
  induction bits generalizing polynomial vector with
  | zero =>
      have nothing : polynomial = 0 := Nat.lt_one_iff.mp short
      rw [nothing, combine_zero, combine_zero]
  | succ bits ih =>
      have rest : polynomial / 2 < 2 ^ bits := by
        rw [pow_succ] at short
        omega
      rw [combine, ih rest, combine]

theorem combine_double (polynomial : Nat) (vector : BitVec width) :
    combine f (bits + 1) (2 * polynomial) vector = combine f bits polynomial (f vector) := by
  have even : odd (2 * polynomial) = false := by
    rw [odd, Nat.mul_mod_right]
    rfl
  rw [combine, even, cond_false, BitVec.zero_xor, Nat.mul_div_cancel_left _ Nat.two_pos]

/-- One step of a xorshift generator. -/
theorem xorLinear_shiftLeft (amount : Nat) :
    XorLinear fun vector : BitVec width => vector ^^^ vector <<< amount := by
  intro left right
  dsimp only
  rw [BitVec.shiftLeft_xor_distrib]
  ac_rfl

theorem xorLinear_shiftRight (amount : Nat) :
    XorLinear fun vector : BitVec width => vector ^^^ vector >>> amount := by
  intro left right
  dsimp only
  rw [BitVec.ushiftRight_xor_distrib]
  ac_rfl

theorem XorLinear.comp {g : BitVec width → BitVec width} (outer : XorLinear g)
    (inner : XorLinear f) : XorLinear (g ∘ f) := by
  intro left right
  exact (congrArg g (inner left right)).trans (outer _ _)

/-- The polynomial has the degree of the vectors, and names 0 at this one. -/
structure Annihilates (f : BitVec width → BitVec width) (modulus : Nat) (vector : BitVec width) :
    Prop where
  least : 2 ^ width ≤ modulus
  most : modulus < 2 ^ (width + 1)
  nothing : combine f (width + 1) modulus vector = BitVec.ofNat width 0

section Powers

variable (linear : XorLinear f) (annihilates : Annihilates f modulus vector)

include annihilates

theorem shift_lt {polynomial : Nat} (short : polynomial < 2 ^ width) :
    shift width modulus polynomial < 2 ^ width := by
  have least := annihilates.least
  have most := annihilates.most
  have double : 2 ^ (width + 1) = 2 * 2 ^ width := by rw [pow_succ, Nat.mul_comm]
  rw [shift]
  cases long : Nat.ble (2 ^ width) (2 * polynomial) with
  | true =>
      have one {number : Nat} (lower : 2 ^ width ≤ number) (upper : number < 2 ^ (width + 1)) :
          number / 2 ^ width = 1 := by
        rw [Nat.div_eq_iff (Nat.two_pow_pos width)]
        omega
      rw [cond_true, ← Nat.div_eq_zero_iff_lt (Nat.two_pow_pos width), Nat.xor_div_two_pow,
        one (Nat.le_of_ble_eq_true long) (by omega), one least most, Nat.xor_self]
  | false =>
      have below : ¬2 ^ width ≤ 2 * polynomial := Nat.not_le_of_not_ble_eq_true (by simp [long])
      rw [cond_false]
      omega

theorem combine_shift {polynomial : Nat} (short : polynomial < 2 ^ width) :
    combine f width (shift width modulus polynomial) vector =
      combine f width polynomial (f vector) := by
  have reduced := shift_lt annihilates short
  rw [← combine_double, ← combine_succ reduced, shift]
  cases Nat.ble (2 ^ width) (2 * polynomial) with
  | true => rw [cond_true, combine_xor, annihilates.nothing, BitVec.xor_zero]
  | false => rfl

theorem product_lt {factor polynomial : Nat} (short : polynomial < 2 ^ width) :
    product width modulus bits factor polynomial < 2 ^ width := by
  induction bits generalizing factor polynomial with
  | zero => exact Nat.two_pow_pos width
  | succ bits ih =>
      rw [product]
      cases odd factor with
      | true => exact Nat.xor_lt_two_pow short (ih (shift_lt annihilates short))
      | false =>
          exact Nat.xor_lt_two_pow (Nat.two_pow_pos width) (ih (shift_lt annihilates short))

theorem jump_lt (positive : 0 < width) (exponent : Nat) :
    jump width modulus bits exponent < 2 ^ width := by
  induction bits generalizing exponent with
  | zero => exact Nat.one_lt_two_pow positive.ne'
  | succ bits ih =>
      have square (factor : Nat) : product width modulus width factor
          (jump width modulus bits (exponent / 2)) < 2 ^ width :=
        product_lt annihilates (ih (exponent / 2))
      rw [jump]
      cases odd exponent with
      | true => exact shift_lt annihilates (square _)
      | false => exact square _

include linear

/-- A product names what its factors name one after the other. -/
theorem combine_product {factor polynomial : Nat} (short : polynomial < 2 ^ width) :
    combine f width (product width modulus bits factor polynomial) vector =
      combine f bits factor (combine f width polynomial vector) := by
  induction bits generalizing factor polynomial with
  | zero => exact combine_zero vector
  | succ bits ih =>
      rw [product, combine_xor, ih (shift_lt annihilates short), combine_shift annihilates short,
        ← linear.combine, combine]
      cases odd factor with
      | true => rfl
      | false => rw [cond_false, cond_false, combine_zero]

/-- The iterate that a power of the unknown names. -/
theorem jump_eq (positive : 0 < width) {exponent : Nat} (short : exponent < 2 ^ bits) :
    f^[exponent] vector = combine f width (jump width modulus bits exponent) vector := by
  induction bits generalizing exponent with
  | zero =>
      obtain ⟨rest, rfl⟩ := Nat.exists_eq_succ_of_ne_zero positive.ne'
      have nothing : exponent = 0 := Nat.lt_one_iff.mp short
      rw [nothing, jump, combine]
      exact ((congrArg _ (combine_zero _)).trans BitVec.xor_zero).symm
  | succ bits ih =>
      have half : exponent / 2 < 2 ^ bits := by
        rw [pow_succ] at short
        omega
      have root_lt : jump width modulus bits (exponent / 2) < 2 ^ width :=
        jump_lt annihilates positive (exponent / 2)
      have twice : f^[exponent / 2 + exponent / 2] vector =
          combine f width (product width modulus width (jump width modulus bits (exponent / 2))
            (jump width modulus bits (exponent / 2))) vector := by
        rw [Function.iterate_add_apply, ih half, linear.iterate_combine, ih half,
          combine_product linear annihilates root_lt]
      have square_lt (factor : Nat) : product width modulus width factor
          (jump width modulus bits (exponent / 2)) < 2 ^ width :=
        product_lt annihilates root_lt
      rw [jump]
      cases parity : odd exponent with
      | true =>
          have exponent_eq : exponent = exponent / 2 + exponent / 2 + 1 := by
            rw [odd, Nat.beq_eq] at parity
            omega
          have further := Function.iterate_succ_apply' f (exponent / 2 + exponent / 2) vector
          rw [cond_true, combine_shift annihilates (square_lt _), ← linear.combine, ← twice,
            ← further]
          exact congrArg (f^[·] vector) exponent_eq
      | false =>
          have exponent_eq : exponent = exponent / 2 + exponent / 2 := by
            rw [odd, ← Bool.not_eq_true, Nat.beq_eq] at parity
            omega
          rw [cond_false, ← twice, ← exponent_eq]

end Powers

/-! ## Periods -/

section Periods

open Function

/-- A vector has the period `n` if it is fixed by `n` steps and by no `n / p` steps. -/
theorem minimalPeriod_eq_of_primes {α : Type*} {f : α → α} {start : α} {period : Nat}
    (fixed : IsPeriodicPt f period start)
    (least : ∀ prime, prime.Prime → prime ∣ period → f^[period / prime] start ≠ start) :
    minimalPeriod f start = period := by
  obtain ⟨rest, same⟩ := fixed.minimalPeriod_dvd
  by_contra shorter
  have more : rest ≠ 1 := by
    intro one
    rw [one, Nat.mul_one] at same
    exact shorter same.symm
  have factor : rest.minFac ∣ period := (Nat.minFac_dvd rest).trans ⟨_, same.trans (mul_comm _ _)⟩
  refine least _ (Nat.minFac_prime more) factor ?_
  have smaller : minimalPeriod f start ∣ period / rest.minFac := by
    obtain ⟨others, split⟩ := Nat.minFac_dvd rest
    refine ⟨others, ?_⟩
    rw [Nat.div_eq_iff_eq_mul_left (Nat.minFac_pos rest) factor, mul_assoc, mul_comm others,
      ← split]
    exact same
  exact isPeriodicPt_iff_minimalPeriod_dvd.mpr smaller

variable {start : BitVec width} (linear : XorLinear f) (nonzero : start ≠ BitVec.ofNat width 0)
  (full : minimalPeriod f start = 2 ^ width - 1)

theorem card_bitVec (width : Nat) : Nat.card (BitVec width) = 2 ^ width := by
  have numbered : BitVec width ≃ Fin (2 ^ width) :=
    ⟨BitVec.toFin, BitVec.ofFin, fun _ => rfl, fun _ => rfl⟩
  rw [Nat.card_congr numbered, Nat.card_fin]

include nonzero full

/-- From every iterate the generator returns to the start. -/
theorem exists_return (steps : Nat) : ∃ more, f^[more] (f^[steps] start) = start := by
  have wide : width ≠ 0 := by
    intro none
    subst none
    exact nonzero (Subsingleton.elim _ _)
  have positive : 0 < 2 ^ width - 1 := Nat.sub_pos_of_lt (Nat.one_lt_two_pow wide)
  have later : steps ≤ (2 ^ width - 1) * (steps + 1) := by
    have least := Nat.mul_le_mul_right (steps + 1) positive
    omega
  refine ⟨(2 ^ width - 1) * (steps + 1) - steps, ?_⟩
  rw [← iterate_add_apply, Nat.sub_add_cancel later, ← full]
  exact (isPeriodicPt_minimalPeriod f start).mul_const (steps + 1)

include linear

theorem iterate_ne_zero (steps : Nat) : f^[steps] start ≠ BitVec.ofNat width 0 := by
  intro zero
  obtain ⟨more, returned⟩ := exists_return nonzero full steps
  rw [zero, linear.iterate_zero] at returned
  exact nonzero returned.symm

/-- Every vector but 0 is an iterate. -/
theorem exists_iterate {vector : BitVec width} (other : vector ≠ BitVec.ofNat width 0) :
    ∃ steps, f^[steps] start = vector := by
  have inside : (f^[·] start) '' Set.Iio (2 ^ width - 1) ⊆ {BitVec.ofNat width 0}ᶜ := by
    intro vector iterate
    obtain ⟨steps, -, rfl⟩ := iterate
    exact iterate_ne_zero linear nonzero full steps
  have iterates : ((f^[·] start) '' Set.Iio (2 ^ width - 1)).ncard = 2 ^ width - 1 := by
    rw [Set.InjOn.ncard_image (full ▸ iterate_injOn_Iio_minimalPeriod)]
    simp
  have vectors : ({BitVec.ofNat width 0}ᶜ : Set (BitVec width)).ncard = 2 ^ width - 1 := by
    rw [Set.ncard_compl, Set.ncard_singleton, card_bitVec]
  have all := Set.eq_of_subset_of_ncard_le inside (by rw [iterates, vectors]) (Set.toFinite _)
  have member : vector ∈ ({BitVec.ofNat width 0}ᶜ : Set (BitVec width)) := other
  rw [← all] at member
  obtain ⟨steps, -, same⟩ := member
  exact ⟨steps, same⟩

/-- Every vector but 0 leads to every other. -/
theorem exists_iterate_eq {first second : BitVec width} (one : first ≠ BitVec.ofNat width 0)
    (two : second ≠ BitVec.ofNat width 0) : ∃ steps, f^[steps] first = second := by
  obtain ⟨before, rfl⟩ := exists_iterate linear nonzero full one
  obtain ⟨after, rfl⟩ := exists_iterate linear nonzero full two
  obtain ⟨more, returned⟩ := exists_return nonzero full before
  refine ⟨after + more, ?_⟩
  rw [iterate_add_apply, returned]

end Periods

end RustZero.Lib
