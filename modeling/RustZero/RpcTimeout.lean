import Mathlib

/-!
# gRPC timeouts

`grpc_timeout` and `parse_grpc_timeout` of `rpc/src/stack.rs`: what the client writes in the
`grpc-timeout` header and the server reads there.  Durations are nanoseconds; a header is ASCII, so
its last byte is its last character.

* `amountIn` is the duration in a unit, rounded up; `amountIn_le_iff` says when it has at most
  eight digits, and no sum saturates then.
* `Survives` is what the round trip makes of one duration, `roundTrip_mono` of two.
-/

namespace RustZero.RpcTimeout

/-- The units of a timeout. -/
inductive TimeUnit where
  | nanos
  | micros
  | millis
  | seconds
  | minutes
  | hours
  deriving DecidableEq, Repr

namespace TimeUnit

def letter : TimeUnit → Char
  | nanos => 'n'
  | micros => 'u'
  | millis => 'm'
  | seconds => 'S'
  | minutes => 'M'
  | hours => 'H'

def divisor : TimeUnit → Nat
  | nanos => 1
  | micros => 1000
  | millis => 1000000
  | seconds => 1000000000
  | minutes => 60000000000
  | hours => 3600000000000

/-- In the order in which `grpc_timeout` tries them. -/
def all : List TimeUnit :=
  [nanos, micros, millis, seconds, minutes, hours]

end TimeUnit

def maxAmount : Nat := 99999999

/-- The `value` of the loop, with the `saturating_add` of a `u128`. -/
def amountIn (unit : TimeUnit) (nanos : Nat) : Nat :=
  min (nanos + (unit.divisor - 1)) (2 ^ 128 - 1) / unit.divisor

def grpcTimeout (timeout : Nat) : String :=
  let nanos := max timeout 1
  (TimeUnit.all.findSome? fun unit =>
    if amountIn unit nanos ≤ maxAmount then
      some (toString (amountIn unit nanos) ++ String.singleton unit.letter)
    else none).getD "99999999H"

/-- `str::parse` to a `u64`. -/
def parseU64 (text : List Char) : Option Nat :=
  let digits := if text.head? = some '+' then text.tail else text
  if digits ≠ [] ∧ digits.all Char.isDigit then
    (some (Nat.ofDigitChars 10 digits 0)).filter (· < 2 ^ 64)
  else none

def saturatingMul (left right : Nat) : Nat :=
  min (left * right) (2 ^ 64 - 1)

/-- The `match` of `parse_grpc_timeout`. -/
def inUnit (amount : Nat) : Char → Option Nat
  | 'n' => some amount
  | 'u' => some (amount * 1000)
  | 'm' => some (amount * 1000000)
  | 'S' => some (amount * 1000000000)
  | 'M' => some (saturatingMul amount 60 * 1000000000)
  | 'H' => some (saturatingMul amount 3600 * 1000000000)
  | _ => none

def parseGrpcTimeout (value : String) : Option Nat :=
  value.toList.getLast?.bind fun unit =>
    let amount := value.toList.dropLast
    if amount = [] ∨ 8 < amount.length then none
    else (parseU64 amount).bind (inUnit · unit)

/-! ## One unit -/

section Units

variable {unit : TimeUnit} {nanos amount : Nat}

theorem divisor_pos (unit : TimeUnit) : 0 < unit.divisor := by
  cases unit with
  | nanos => exact Nat.one_pos
  | _ => exact Nat.succ_pos _

theorem divisor_le (unit : TimeUnit) : unit.divisor ≤ 3600000000000 := by
  cases unit with
  | hours => exact Nat.le_refl _
  | _ =>
    rw [TimeUnit.divisor]
    omega

theorem mem_all (unit : TimeUnit) : unit ∈ TimeUnit.all := by
  cases unit with
  | _ => decide

theorem amountIn_le_iff : amountIn unit nanos ≤ maxAmount ↔ nanos ≤ maxAmount * unit.divisor := by
  have positive := divisor_pos unit
  have small := divisor_le unit
  rw [amountIn, ← Nat.lt_succ_iff, Nat.div_lt_iff_lt_mul positive, maxAmount]
  omega

/-- An amount that fits is rounded up. -/
theorem amountIn_eq (fits : amountIn unit nanos ≤ maxAmount) :
    amountIn unit nanos = nanos ⌈/⌉ unit.divisor := by
  have positive := divisor_pos unit
  have small := divisor_le unit
  have short := amountIn_le_iff.mp fits
  rw [maxAmount] at short
  have whole : nanos + (unit.divisor - 1) ≤ 2 ^ 128 - 1 := by
    omega
  rw [amountIn, Nat.min_eq_left whole, Nat.ceilDiv_eq_add_pred_div, Nat.add_sub_assoc positive]

/-- At least as long, and less than one unit longer. -/
theorem amountIn_bounds (fits : amountIn unit nanos ≤ maxAmount) :
    nanos ≤ amountIn unit nanos * unit.divisor ∧
      amountIn unit nanos * unit.divisor < nanos + unit.divisor := by
  have positive := divisor_pos unit
  rw [amountIn_eq fits, Nat.ceilDiv_eq_add_pred_div]
  have divided := Nat.div_add_mod (nanos + unit.divisor - 1) unit.divisor
  have rest := Nat.mod_lt (nanos + unit.divisor - 1) positive
  rw [Nat.mul_comm] at divided
  omega

/-- A whole number of units is kept. -/
theorem amountIn_exact (fits : amountIn unit nanos ≤ maxAmount) (whole : unit.divisor ∣ nanos) :
    amountIn unit nanos * unit.divisor = nanos := by
  obtain ⟨count, same⟩ := whole
  have bounds := amountIn_bounds fits
  have positive := divisor_pos unit
  have upper : amountIn unit nanos * unit.divisor < (count + 1) * unit.divisor := by
    rw [Nat.add_mul, Nat.one_mul, Nat.mul_comm count, ← same]
    exact bounds.2
  have lower : count * unit.divisor ≤ amountIn unit nanos * unit.divisor := by
    rw [Nat.mul_comm count, ← same]
    exact bounds.1
  have least := Nat.le_of_mul_le_mul_right lower positive
  have most := Nat.lt_of_mul_lt_mul_right upper
  rw [Nat.le_antisymm (Nat.le_of_lt_succ most) least, Nat.mul_comm, ← same]

theorem inUnit_letter (unit : TimeUnit) (fits : amount ≤ maxAmount) :
    inUnit amount unit.letter = some (amount * unit.divisor) := by
  rw [maxAmount] at fits
  have minute : saturatingMul amount 60 = amount * 60 := Nat.min_eq_left (by omega)
  have hour : saturatingMul amount 3600 = amount * 3600 := Nat.min_eq_left (by omega)
  cases unit with
  | nanos => rw [TimeUnit.divisor, Nat.mul_one]; rfl
  | micros => rfl
  | millis => rfl
  | seconds => rfl
  | minutes =>
    rw [TimeUnit.divisor, TimeUnit.letter, inUnit, minute, Nat.mul_assoc]
  | hours =>
    rw [TimeUnit.divisor, TimeUnit.letter, inUnit, hour, Nat.mul_assoc]

end Units

/-! ## The text -/

section Text

variable {unit : TimeUnit} {amount timeout later : Nat}

theorem toList_written (unit : TimeUnit) (amount : Nat) :
    (toString amount ++ String.singleton unit.letter).toList =
      Nat.toDigits 10 amount ++ [unit.letter] := by
  rw [String.toList_append, String.toList_singleton, Nat.toString_eq_repr, Nat.repr,
    String.toList_ofList]

theorem toDigits_digits (amount : Nat) :
    ∀ digit ∈ Nat.toDigits 10 amount, digit.isDigit = true := by
  intro digit member
  exact Nat.isDigit_of_mem_toDigits (by decide) (by decide) member

theorem parseU64_toDigits (word : amount < 2 ^ 64) :
    parseU64 (Nat.toDigits 10 amount) = some amount := by
  have digits := toDigits_digits amount
  have unsigned : ¬ (Nat.toDigits 10 amount).head? = some '+' := by
    intro signed
    have digit := digits '+' (List.mem_of_mem_head? signed)
    cases digit
  have all : Nat.toDigits 10 amount ≠ [] ∧ (Nat.toDigits 10 amount).all Char.isDigit :=
    ⟨Nat.toDigits_ne_nil, List.all_eq_true.mpr digits⟩
  rw [parseU64, if_neg unsigned, if_pos all, Nat.ofDigitChars_ten_toDigits]
  exact Option.filter_some_pos (decide_eq_true word)

/-- What is written in a unit is read back in it. -/
theorem parse_written (unit : TimeUnit) (fits : amount ≤ maxAmount) :
    parseGrpcTimeout (toString amount ++ String.singleton unit.letter) =
      some (amount * unit.divisor) := by
  have short : ¬ (Nat.toDigits 10 amount = [] ∨ 8 < (Nat.toDigits 10 amount).length) := by
    rw [not_or, Nat.not_lt]
    refine ⟨Nat.toDigits_ne_nil, ?_⟩
    rw [Nat.length_toDigits_le_iff (by omega) (by omega)]
    exact Nat.lt_succ_of_le fits
  have word : amount < 2 ^ 64 := by
    rw [maxAmount] at fits
    omega
  rw [parseGrpcTimeout, toList_written, List.getLast?_concat, Option.bind_some,
    List.dropLast_concat, if_neg short, parseU64_toDigits word, Option.bind_some,
    inUnit_letter unit fits]

/-! ## The round trip -/

/-- What the round trip of a duration is: written in the finest unit in which it has at most eight
digits, rounded up, and read back as that. -/
structure Survives (timeout : Nat) (unit : TimeUnit) : Prop where
  text : ∃ digits, (grpcTimeout timeout).toList = digits ++ [unit.letter] ∧
    1 ≤ digits.length ∧ digits.length ≤ 8 ∧ ∀ digit ∈ digits, digit.isDigit = true
  fits : timeout ⌈/⌉ unit.divisor ≤ maxAmount
  finest : ∀ other : TimeUnit, timeout ⌈/⌉ other.divisor ≤ maxAmount →
    unit.divisor ≤ other.divisor
  parsed : parseGrpcTimeout (grpcTimeout timeout) =
    some ((timeout ⌈/⌉ unit.divisor) * unit.divisor)
  bounds : timeout ≤ (timeout ⌈/⌉ unit.divisor) * unit.divisor ∧
    (timeout ⌈/⌉ unit.divisor) * unit.divisor < timeout + unit.divisor
  exact : unit.divisor ∣ timeout → (timeout ⌈/⌉ unit.divisor) * unit.divisor = timeout

/-- The longest duration that is written. -/
def longest : Nat :=
  maxAmount * TimeUnit.hours.divisor

theorem ceilDiv_fits : timeout ⌈/⌉ unit.divisor ≤ maxAmount ↔
    amountIn unit timeout ≤ maxAmount := by
  rw [ceilDiv_le_iff_le_mul (divisor_pos unit), amountIn_le_iff, Nat.mul_comm]

theorem all_sorted : TimeUnit.all.Pairwise fun first later => first.divisor ≤ later.divisor := by
  decide

/-- The first unit that fits is the finest. -/
theorem grpcTimeout_text (positive : 0 < timeout) (short : timeout ≤ longest) :
    ∃ unit : TimeUnit, amountIn unit timeout ≤ maxAmount ∧
      (∀ other : TimeUnit, amountIn other timeout ≤ maxAmount → unit.divisor ≤ other.divisor) ∧
      grpcTimeout timeout =
        toString (amountIn unit timeout) ++ String.singleton unit.letter := by
  have begun : max timeout 1 = timeout := Nat.max_eq_left positive
  have hours : amountIn .hours timeout ≤ maxAmount := amountIn_le_iff.mpr short
  rw [grpcTimeout, begun]
  cases found : TimeUnit.all.findSome? fun unit =>
      if amountIn unit timeout ≤ maxAmount then
        some (toString (amountIn unit timeout) ++ String.singleton unit.letter)
      else none with
  | none =>
    have none_ := List.findSome?_eq_none_iff.mp found .hours (mem_all .hours)
    rw [if_pos hours] at none_
    cases none_
  | some text =>
    obtain ⟨finer, unit, coarser, same, written, others⟩ := List.findSome?_eq_some_iff.mp found
    split at written
    case isFalse => cases written
    case isTrue fits =>
      cases written
      refine ⟨unit, fits, ?_, rfl⟩
      intro other alike
      have sorted := all_sorted
      have member := mem_all other
      rw [same] at sorted member
      rcases List.mem_append.mp member with before | after
      · have refused := others other before
        rw [if_pos alike] at refused
        cases refused
      · rcases List.mem_cons.mp after with here | later
        · rw [here]
        · exact (List.pairwise_cons.mp (List.pairwise_append.mp sorted).2.1).1 other later

theorem survives (positive : 0 < timeout) (short : timeout ≤ longest) :
    ∃ unit, Survives timeout unit := by
  obtain ⟨unit, fits, finest, written⟩ := grpcTimeout_text positive short
  have rounded := amountIn_eq fits
  have bounds := amountIn_bounds fits
  have digits : (Nat.toDigits 10 (amountIn unit timeout)).length ≤ 8 := by
    rw [Nat.length_toDigits_le_iff (by omega) (by omega)]
    exact Nat.lt_succ_of_le fits
  refine ⟨unit, ?_, ceilDiv_fits.mpr fits, ?_, ?_, ?_, ?_⟩
  · refine ⟨_, ?_, Nat.length_toDigits_pos, digits, toDigits_digits _⟩
    rw [written, toList_written]
  · intro other alike
    exact finest other (ceilDiv_fits.mp alike)
  · rw [written, parse_written unit fits, rounded]
  · rw [← rounded]
    exact bounds
  · intro whole
    rw [← rounded]
    exact amountIn_exact fits whole

theorem saturates (long : longest < timeout) : grpcTimeout timeout = "99999999H" := by
  have positive : max timeout 1 = timeout := Nat.max_eq_left (Nat.one_le_of_lt long)
  have none_ : (TimeUnit.all.findSome? fun unit =>
      if amountIn unit timeout ≤ maxAmount then
        some (toString (amountIn unit timeout) ++ String.singleton unit.letter)
      else none) = none := by
    rw [List.findSome?_eq_none_iff]
    intro unit _
    refine if_neg ?_
    intro fits
    have within := (amountIn_le_iff.mp fits).trans (Nat.mul_le_mul_left _ (divisor_le unit))
    exact absurd (long.trans_le within) (lt_irrefl _)
  rw [grpcTimeout, positive, none_]
  rfl

theorem parse_saturated : parseGrpcTimeout "99999999H" = some longest := by
  have written : "99999999H" = toString maxAmount ++ String.singleton TimeUnit.hours.letter := by
    decide +kernel
  rw [written]
  exact parse_written .hours (Nat.le_refl _)

/-- A shorter duration does not come back longer. -/
theorem Survives.mono {first second : TimeUnit} (survives : Survives timeout first)
    (survives' : Survives later second) (order : timeout ≤ later) :
    (timeout ⌈/⌉ first.divisor) * first.divisor ≤ (later ⌈/⌉ second.divisor) * second.divisor := by
  by_cases same : later ⌈/⌉ first.divisor ≤ maxAmount
  · have shorter : timeout ⌈/⌉ second.divisor ≤ maxAmount := by
      have fits := survives'.fits
      rw [ceilDiv_le_iff_le_mul (divisor_pos second)] at fits ⊢
      exact order.trans fits
    have equal := Nat.le_antisymm (survives.finest second shorter) (survives'.finest first same)
    rw [← equal]
    refine Nat.mul_le_mul_right _ ?_
    rw [ceilDiv_le_iff_le_mul (divisor_pos first)]
    exact order.trans (le_smul_ceilDiv (divisor_pos first))
  · -- the longer one no longer fits the unit, so it is past all that is written in it
    rw [ceilDiv_le_iff_le_mul (divisor_pos first), not_le] at same
    have most : (timeout ⌈/⌉ first.divisor) * first.divisor ≤ maxAmount * first.divisor :=
      Nat.mul_le_mul_right _ survives.fits
    have above := survives'.bounds.1
    rw [Nat.mul_comm] at same
    omega

theorem Survives.le_longest (survives : Survives timeout unit) :
    (timeout ⌈/⌉ unit.divisor) * unit.divisor ≤ longest :=
  Nat.mul_le_mul survives.fits (divisor_le unit)

theorem roundTrip_mono (positive : 0 < timeout) (order : timeout ≤ later) :
    ∃ short long, parseGrpcTimeout (grpcTimeout timeout) = some short ∧
      parseGrpcTimeout (grpcTimeout later) = some long ∧ short ≤ long := by
  by_cases fits : later ≤ longest
  · obtain ⟨first, survives⟩ := survives positive (order.trans fits)
    obtain ⟨second, survives'⟩ := RpcTimeout.survives (positive.trans_le order) fits
    exact ⟨_, _, survives.parsed, survives'.parsed, survives.mono survives' order⟩
  · have saturated : parseGrpcTimeout (grpcTimeout later) = some longest := by
      rw [saturates (not_le.mp fits)]
      exact parse_saturated
    by_cases within : timeout ≤ longest
    · obtain ⟨unit, survives⟩ := survives positive within
      exact ⟨_, _, survives.parsed, saturated, survives.le_longest⟩
    · rw [saturates (not_le.mp within)]
      exact ⟨_, _, parse_saturated, saturated, le_rfl⟩

end Text

/-- Timeouts up to the longest survive the header, longer ones are cut to it, and no order is
turned around. -/
theorem timeouts_survive :
    (∀ timeout, 0 < timeout → timeout ≤ longest → ∃ unit, Survives timeout unit) ∧
    (∀ timeout, longest < timeout → grpcTimeout timeout = "99999999H" ∧
      parseGrpcTimeout (grpcTimeout timeout) = some longest) ∧
    ∀ timeout later, 0 < timeout → timeout ≤ later →
      ∃ short long, parseGrpcTimeout (grpcTimeout timeout) = some short ∧
        parseGrpcTimeout (grpcTimeout later) = some long ∧ short ≤ long := by
  refine ⟨fun _ => survives, ?_, fun _ _ => roundTrip_mono⟩
  intro timeout long
  rw [saturates long]
  exact ⟨rfl, parse_saturated⟩

example : grpcTimeout 250000000 = "250000u" := by
  decide +kernel

end RustZero.RpcTimeout
