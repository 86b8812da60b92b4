import Mathlib
import RustZero.Lib.Checks

/-!
# JSON web tokens

`core/src/auth.rs`, `decode_jwt_hs256`; `decode_hs256` of `rest/src/auth.rs` is the same
function at the current time.  A token is accepted when its header, signature and
claims can be read and neither time claim rejects it.

The time claims are read with `as_u64`, which yields something for the integers from 0
to 2^64 - 1 alone.  A claim of any other shape is not compared with the clock: a
negative `exp` never expires.

Base64, HMAC and the JSON parser are parameters.  A message to sign is the text whose
bytes are signed; floating JSON numbers are rationals.
-/

namespace RustZero.Auth

open Lib

/-- `URL_SAFE_NO_PAD` and `Hmac<Sha256>`, which takes keys of any length.  `verify_slice` compares
whole tags. -/
structure Crypto where
  encode : List UInt8 → String
  decode : String → Option (List UInt8)
  hmac : List UInt8 → String → List UInt8

/-! ## JSON values -/

inductive Number where
  | posInt (value : UInt64)
  | negInt (value : Int)
  | float (value : ℚ)

inductive Value where
  | null
  | bool (value : Bool)
  | number (value : Number)
  | string (value : String)
  | array (values : List Value)
  | object (members : List (String × Value))

def Value.get (value : Value) (key : String) : Option Value :=
  match value with
  | .object members => members.lookup key
  | _ => none

def Value.asStr : Value → Option String
  | .string value => some value
  | _ => none

def Value.asU64 : Value → Option UInt64
  | .number (.posInt value) => some value
  | _ => none

/-- `serde_json::from_slice`, to a JSON value and to the claims type. -/
structure Json (τ : Type) where
  value : List UInt8 → Option Value
  claims : List UInt8 → Option τ

/-! ## Decoding -/

inductive JwtValidationError where
  | malformed
  | unsupportedAlgorithm
  | invalidSignature
  | expired
  | notYetValid
  | invalidClaims
  deriving DecidableEq, Repr

def saturatingAdd (left right : UInt64) : UInt64 :=
  UInt64.ofNat (min (left.toNat + right.toNat) (2 ^ 64 - 1))

section Decoding

variable {τ : Type} (crypto : Crypto) (json : Json τ)

/-- Up to the claims: three segments, the algorithm and the signature. -/
def signedClaims (token : String) (secrets : List (List UInt8)) :
    Except JwtValidationError (List UInt8 × Value) :=
  match (token.toList.splitOn '.').map String.ofList with
  | [header, claims, signature] => do
      let headerBytes ← okOr (crypto.decode header) .malformed
      let headerValue ← okOr (json.value headerBytes) .malformed
      ensure ((headerValue.get "alg").bind Value.asStr == some "HS256") .unsupportedAlgorithm
      let supplied ← okOr (crypto.decode signature) .malformed
      let canonical := header ++ "." ++ claims
      ensure (secrets.any fun secret => supplied == crypto.hmac secret canonical)
        .invalidSignature
      let claimBytes ← okOr (crypto.decode claims) .malformed
      let claimValue ← okOr (json.value claimBytes) .invalidClaims
      pure (claimBytes, claimValue)
  | _ => .error .malformed

def isExpired (claims : Value) (leewaySeconds nowUnixSeconds : UInt64) : Bool :=
  ((claims.get "exp").bind Value.asU64).any fun expires =>
    decide (saturatingAdd expires leewaySeconds < nowUnixSeconds)

def isNotYetValid (claims : Value) (leewaySeconds nowUnixSeconds : UInt64) : Bool :=
  ((claims.get "nbf").bind Value.asU64).any fun notBefore =>
    decide (saturatingAdd nowUnixSeconds leewaySeconds < notBefore)

def decodeJwtHs256 (token : String) (secrets : List (List UInt8))
    (leewaySeconds nowUnixSeconds : UInt64) : Except JwtValidationError τ := do
  let (claimBytes, claimValue) ← signedClaims crypto json token secrets
  ensure (!isExpired claimValue leewaySeconds nowUnixSeconds) .expired
  ensure (!isNotYetValid claimValue leewaySeconds nowUnixSeconds) .notYetValid
  okOr (json.claims claimBytes) .invalidClaims

end Decoding

/-! ## The time claims -/

def Number.value : Number → ℚ
  | .posInt value => value.toNat
  | .negInt value => value
  | .float value => value

/-- Both time claims, where present, are numbers and hold at the time. -/
structure Value.TimeClaimsHold (claims : Value) (leeway now : UInt64) : Prop where
  exp : ∀ exp, claims.get "exp" = some exp →
    ∃ number, exp = .number number ∧ (now.toNat : ℚ) ≤ number.value + leeway.toNat
  nbf : ∀ nbf, claims.get "nbf" = some nbf →
    ∃ number, nbf = .number number ∧ number.value ≤ (now.toNat : ℚ) + leeway.toNat

/-- A time claim that `as_u64` does not read is a number that holds all the same. -/
structure Value.UnreadClaimsHold (claims : Value) (leeway now : UInt64) : Prop where
  exp : ∀ exp, claims.get "exp" = some exp → exp.asU64 = none →
    ∃ number, exp = .number number ∧ (now.toNat : ℚ) ≤ number.value + leeway.toNat
  nbf : ∀ nbf, claims.get "nbf" = some nbf → nbf.asU64 = none →
    ∃ number, nbf = .number number ∧ number.value ≤ (now.toNat : ℚ) + leeway.toNat

/-- The time claims that `as_u64` does not read are numbers no clock gets past: an `exp` beyond
the last second, an `nbf` before the first. -/
structure Value.UnreadClaimsIdle (claims : Value) : Prop where
  exp : ∀ exp, claims.get "exp" = some exp → exp.asU64 = none →
    ∃ number, exp = .number number ∧ (2 ^ 64 - 1 : ℚ) ≤ number.value
  nbf : ∀ nbf, claims.get "nbf" = some nbf → nbf.asU64 = none →
    ∃ number, nbf = .number number ∧ number.value ≤ 0

theorem asU64_eq_some {value : Value} {read : UInt64} (found : value.asU64 = some read) :
    value = .number (.posInt read) := by
  unfold Value.asU64 at found
  split at found
  · cases found
    rfl
  · cases found

theorem saturatingAdd_toNat (left right : UInt64) :
    (saturatingAdd left right).toNat = min (left.toNat + right.toNat) (2 ^ 64 - 1) := by
  unfold saturatingAdd
  rw [UInt64.toNat_ofNat']
  omega

/-- Saturation does not change the comparison with a time. -/
theorem lt_saturatingAdd_iff (left right time : UInt64) :
    saturatingAdd left right < time ↔ left.toNat + right.toNat < time.toNat := by
  have bound := time.toNat_lt
  rw [UInt64.lt_iff_toNat_lt, saturatingAdd_toNat]
  omega

theorem isExpired_of_read {claims exp : Value} {expires leeway now : UInt64}
    (present : claims.get "exp" = some exp) (read : exp.asU64 = some expires) :
    isExpired claims leeway now = false ↔ now.toNat ≤ expires.toNat + leeway.toNat := by
  unfold isExpired
  rw [present, Option.bind_some, read, Option.any_some, decide_eq_false_iff_not,
    lt_saturatingAdd_iff]
  omega

theorem isExpired_of_unread {claims exp : Value} {leeway now : UInt64}
    (present : claims.get "exp" = some exp) (unread : exp.asU64 = none) :
    isExpired claims leeway now = false := by
  unfold isExpired
  rw [present, Option.bind_some, unread]
  rfl

theorem isNotYetValid_of_read {claims nbf : Value} {notBefore leeway now : UInt64}
    (present : claims.get "nbf" = some nbf) (read : nbf.asU64 = some notBefore) :
    isNotYetValid claims leeway now = false ↔
      notBefore.toNat ≤ now.toNat + leeway.toNat := by
  unfold isNotYetValid
  rw [present, Option.bind_some, read, Option.any_some, decide_eq_false_iff_not,
    lt_saturatingAdd_iff]
  omega

theorem isNotYetValid_of_unread {claims nbf : Value} {leeway now : UInt64}
    (present : claims.get "nbf" = some nbf) (unread : nbf.asU64 = none) :
    isNotYetValid claims leeway now = false := by
  unfold isNotYetValid
  rw [present, Option.bind_some, unread]
  rfl

/-- Nothing is expired at second zero. -/
theorem isExpired_zero (claims : Value) : isExpired claims 0 0 = false := by
  unfold isExpired
  cases (claims.get "exp").bind Value.asU64 with
  | none => rfl
  | some expires =>
      rw [Option.any_some, decide_eq_false_iff_not, lt_saturatingAdd_iff]
      exact Nat.not_lt_zero _

/-- Everything has begun at the last second. -/
theorem isNotYetValid_last (claims : Value) :
    isNotYetValid claims 0 (UInt64.ofNat (2 ^ 64 - 1)) = false := by
  unfold isNotYetValid
  cases (claims.get "nbf").bind Value.asU64 with
  | none => rfl
  | some notBefore =>
      have bound := notBefore.toNat_lt
      have last : (UInt64.ofNat (2 ^ 64 - 1)).toNat = 2 ^ 64 - 1 := rfl
      have zero : (0 : UInt64).toNat = 0 := rfl
      rw [Option.any_some, decide_eq_false_iff_not, lt_saturatingAdd_iff, last, zero]
      omega

/-- What is checked is enforced: only the unread claims are left. -/
theorem timeClaimsHold_iff {claims : Value} {leeway now : UInt64}
    (unexpired : isExpired claims leeway now = false)
    (begun : isNotYetValid claims leeway now = false) :
    claims.TimeClaimsHold leeway now ↔ claims.UnreadClaimsHold leeway now := by
  constructor
  · intro hold
    exact ⟨fun exp present _ => hold.exp exp present, fun nbf present _ => hold.nbf nbf present⟩
  · intro unread
    constructor
    · intro exp present
      cases read : exp.asU64 with
      | none => exact unread.exp exp present read
      | some expires =>
          refine ⟨.posInt expires, asU64_eq_some read, ?_⟩
          have bound := (isExpired_of_read present read).mp unexpired
          have size : (Number.posInt expires).value = expires.toNat := rfl
          rw [size]
          exact_mod_cast bound
    · intro nbf present
      cases read : nbf.asU64 with
      | none => exact unread.nbf nbf present read
      | some notBefore =>
          refine ⟨.posInt notBefore, asU64_eq_some read, ?_⟩
          have bound := (isNotYetValid_of_read present read).mp begun
          have size : (Number.posInt notBefore).value = notBefore.toNat := rfl
          rw [size]
          exact_mod_cast bound

theorem Value.UnreadClaimsIdle.hold {claims : Value} (idle : claims.UnreadClaimsIdle)
    (leeway now : UInt64) : claims.UnreadClaimsHold leeway now := by
  have last : (now.toNat : ℚ) ≤ 2 ^ 64 - 1 := by
    have bound := now.toNat_lt
    have whole : now.toNat + 1 ≤ 2 ^ 64 := bound
    have cast : ((now.toNat + 1 : ℕ) : ℚ) ≤ ((2 ^ 64 : ℕ) : ℚ) := by exact_mod_cast whole
    push_cast at cast
    linarith
  constructor
  · intro exp present unread
    obtain ⟨number, shape, late⟩ := idle.exp exp present unread
    refine ⟨number, shape, ?_⟩
    have positive : (0 : ℚ) ≤ leeway.toNat := Nat.cast_nonneg _
    linarith
  · intro nbf present unread
    obtain ⟨number, shape, early⟩ := idle.nbf nbf present unread
    refine ⟨number, shape, ?_⟩
    have positive : (0 : ℚ) ≤ leeway.toNat := Nat.cast_nonneg _
    have time : (0 : ℚ) ≤ now.toNat := Nat.cast_nonneg _
    linarith

section Accepted

variable {τ : Type} {crypto : Crypto} {json : Json τ} {token : String}
  {secrets : List (List UInt8)}

/-- What it takes to be accepted. -/
theorem decode_eq_ok {leeway now : UInt64} {claims : τ} :
    decodeJwtHs256 crypto json token secrets leeway now = .ok claims ↔
      ∃ bytes value, signedClaims crypto json token secrets = .ok (bytes, value) ∧
        isExpired value leeway now = false ∧ isNotYetValid value leeway now = false ∧
        json.claims bytes = some claims := by
  unfold decodeJwtHs256
  constructor
  · intro accepted
    obtain ⟨⟨bytes, value⟩, signed, timed⟩ := bind_eq_ok accepted
    obtain ⟨_, unexpired, rest⟩ := bind_eq_ok timed
    obtain ⟨_, begun, read⟩ := bind_eq_ok rest
    refine ⟨bytes, value, signed, ?_, ?_, okOr_eq_ok.mp read⟩
    · simpa using ensure_eq_ok.mp unexpired
    · simpa using ensure_eq_ok.mp begun
  · intro ⟨bytes, value, signed, unexpired, begun, read⟩
    rw [signed]
    simp only [bind, Except.bind, unexpired, begun, ensure, read, okOr]
    rfl

/-- The time claims of an accepted token hold exactly when those that `as_u64` does not read do;
they hold whenever it is accepted exactly when no clock gets past the unread ones. -/
theorem jwt_time_claims (crypto : Crypto) (json : Json τ) (token : String)
    (secrets : List (List UInt8)) (leeway now : UInt64) (claims : τ)
    (accepted : decodeJwtHs256 crypto json token secrets leeway now = .ok claims) :
    ∃ bytes value, signedClaims crypto json token secrets = .ok (bytes, value) ∧
      (value.TimeClaimsHold leeway now ↔ value.UnreadClaimsHold leeway now) ∧
      ((∀ leeway now claims, decodeJwtHs256 crypto json token secrets leeway now = .ok claims →
          value.TimeClaimsHold leeway now) ↔ value.UnreadClaimsIdle) := by
  obtain ⟨bytes, value, signed, unexpired, begun, read⟩ := decode_eq_ok.mp accepted
  refine ⟨bytes, value, signed, timeClaimsHold_iff unexpired begun, ?_⟩
  constructor
  · intro always
    constructor
    · intro exp present unread
      -- at the last second nothing but `exp` could reject the token
      have late := always 0 (UInt64.ofNat (2 ^ 64 - 1)) claims (decode_eq_ok.mpr
        ⟨bytes, value, signed, isExpired_of_unread present unread, isNotYetValid_last value, read⟩)
      obtain ⟨number, shape, bound⟩ := late.exp exp present
      refine ⟨number, shape, ?_⟩
      have last : (UInt64.ofNat (2 ^ 64 - 1)).toNat = 2 ^ 64 - 1 := rfl
      have zero : (0 : UInt64).toNat = 0 := rfl
      rw [last, zero] at bound
      norm_num at bound ⊢
      exact bound
    · intro nbf present unread
      have early := always 0 0 claims (decode_eq_ok.mpr
        ⟨bytes, value, signed, isExpired_zero value, isNotYetValid_of_unread present unread, read⟩)
      obtain ⟨number, shape, bound⟩ := early.nbf nbf present
      refine ⟨number, shape, ?_⟩
      have zero : (0 : UInt64).toNat = 0 := rfl
      rw [zero] at bound
      simpa using bound
  · intro idle otherLeeway otherNow otherClaims otherAccepted
    rcases decode_eq_ok.mp otherAccepted with
      ⟨otherBytes, otherValue, otherSigned, otherUnexpired, otherBegun, _⟩
    rw [signed] at otherSigned
    cases otherSigned
    exact (timeClaimsHold_iff otherUnexpired otherBegun).mpr (idle.hold otherLeeway otherNow)

end Accepted

/-! ## Two tokens -/

def bytesOf (text : String) : List UInt8 := text.toUTF8.data.toList

/-- A token signed with the key `secret`: its claims as a segment, as text and as JSON, and its
signature as a segment and as bytes. -/
structure Sample where
  claims : String
  text : String
  value : Value
  signature : String
  tag : List UInt8

def sampleHeader : String := "eyJhbGciOiJIUzI1NiIsInR5cCI6IkpXVCJ9"

def sampleHeaderText : String := "\x7b\"alg\":\"HS256\",\"typ\":\"JWT\"\x7d"

def Sample.token (sample : Sample) : String :=
  sampleHeader ++ "." ++ sample.claims ++ "." ++ sample.signature

def Sample.crypto (sample : Sample) : Crypto where
  encode bytes := if bytes = sample.tag then sample.signature else ""
  decode segment :=
    if segment = sampleHeader then some (bytesOf sampleHeaderText)
    else if segment = sample.claims then some (bytesOf sample.text)
    else if segment = sample.signature then some sample.tag
    else none
  hmac key message :=
    if key = bytesOf "secret" ∧ message = sampleHeader ++ "." ++ sample.claims then sample.tag
    else []

def Sample.json (sample : Sample) : Json Value :=
  let value (bytes : List UInt8) :=
    if bytes = bytesOf sampleHeaderText then
      some (.object [("alg", .string "HS256"), ("typ", .string "JWT")])
    else if bytes = bytesOf sample.text then some sample.value
    else none
  ⟨value, value⟩

def Sample.decode (sample : Sample) (now : UInt64) : Except JwtValidationError Value :=
  decodeJwtHs256 sample.crypto sample.json sample.token [bytesOf "secret"] 0 now

def expiresLater : Sample where
  claims := "eyJleHAiOjIwMDB9"
  text := "\x7b\"exp\":2000\x7d"
  value := .object [("exp", .number (.posInt 2000))]
  signature := "C9ScozzNBtP8ZYA6zbYSXCi11u2aIKVg91jaiDKRTRY"
  tag := [11, 212, 156, 163, 60, 205, 6, 211, 252, 101, 128, 58, 205, 182, 18, 92, 40, 181, 214,
    237, 154, 32, 165, 96, 247, 88, 218, 136, 50, 145, 77, 22]

def expiresNegative : Sample where
  claims := "eyJleHAiOi0xfQ"
  text := "\x7b\"exp\":-1\x7d"
  value := .object [("exp", .number (.negInt (-1)))]
  signature := "6OmtPnnsuKHnKO16rUJFWCHKQkXQh4VOFspM9UpdmlM"
  tag := [232, 233, 173, 62, 121, 236, 184, 161, 231, 40, 237, 122, 173, 66, 69, 88, 33, 202, 66,
    69, 208, 135, 133, 78, 22, 202, 76, 245, 74, 93, 154, 83]

set_option maxRecDepth 20000 in
theorem signedClaims_expiresLater :
    signedClaims expiresLater.crypto expiresLater.json expiresLater.token [bytesOf "secret"] =
      .ok (bytesOf expiresLater.text, expiresLater.value) :=
  rfl

set_option maxRecDepth 20000 in
theorem signedClaims_expiresNegative :
    signedClaims expiresNegative.crypto expiresNegative.json expiresNegative.token
      [bytesOf "secret"] = .ok (bytesOf expiresNegative.text, expiresNegative.value) :=
  rfl

/-- An `exp` that is read. -/
theorem jwt_time_claims_later : expiresLater.value.TimeClaimsHold 0 1000 := by
  have unexpired : isExpired expiresLater.value 0 1000 = false := by decide +kernel
  have begun : isNotYetValid expiresLater.value 0 1000 = false := by decide +kernel
  have accepted : expiresLater.decode 1000 = .ok expiresLater.value :=
    decode_eq_ok.mpr ⟨_, _, signedClaims_expiresLater, unexpired, begun, rfl⟩
  obtain ⟨bytes, value, signed, iff, _⟩ := jwt_time_claims _ _ _ _ _ _ _ accepted
  rw [signedClaims_expiresLater] at signed
  cases signed
  apply iff.mpr
  constructor
  · intro exp present unread
    cases present
    cases unread
  · intro nbf present
    cases present

/-- A token that expired before the first second is accepted in the year 2023. -/
theorem negative_exp_accepted :
    expiresNegative.decode 1700000000 = .ok expiresNegative.value ∧
      signedClaims expiresNegative.crypto expiresNegative.json expiresNegative.token
        [bytesOf "secret"] = .ok (bytesOf expiresNegative.text, expiresNegative.value) ∧
      ¬expiresNegative.value.TimeClaimsHold 0 1700000000 := by
  have unexpired : isExpired expiresNegative.value 0 1700000000 = false := by decide +kernel
  have begun : isNotYetValid expiresNegative.value 0 1700000000 = false := by decide +kernel
  refine ⟨decode_eq_ok.mpr ⟨_, _, signedClaims_expiresNegative, unexpired, begun, rfl⟩,
    signedClaims_expiresNegative, ?_⟩
  intro hold
  obtain ⟨number, shape, bound⟩ := hold.exp _ rfl
  cases shape
  have time : (1700000000 : UInt64).toNat = 1700000000 := rfl
  have zero : (0 : UInt64).toNat = 0 := rfl
  rw [time, zero] at bound
  norm_num [Number.value] at bound

end RustZero.Auth
