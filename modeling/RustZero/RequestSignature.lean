import Mathlib
import RustZero.Lib.Checks
import RustZero.Auth

/-!
# Request signatures

`core/src/auth.rs`, `sign_request` and `RequestSignatureVerifier`.  What is signed is the
time, the method in upper case and the target, each on a line; only the target may have
line breaks of its own, so the text determines all three.

Base64 and HMAC are parameters; `Crypto.Ideal` is what is assumed of them.
-/

namespace RustZero.Auth

open Lib
open Std (ExtTreeMap)

inductive AuthFailure where
  | missingCredentials
  | malformedCredentials
  | invalidCredentials
  | expiredCredentials
  | notYetValid
  | missingSignature
  | invalidSignature
  | staleSignature
  deriving DecidableEq, Repr

def AuthFailure.code : AuthFailure → String
  | .missingCredentials => "auth_missing_credentials"
  | .malformedCredentials => "auth_malformed_credentials"
  | .invalidCredentials => "auth_invalid_credentials"
  | .expiredCredentials => "auth_expired_credentials"
  | .notYetValid => "auth_not_yet_valid"
  | .missingSignature => "auth_missing_signature"
  | .invalidSignature => "auth_invalid_signature"
  | .staleSignature => "auth_stale_signature"

def AuthFailure.message : AuthFailure → String
  | .missingCredentials => "authentication credentials are required"
  | .malformedCredentials => "authentication credentials are malformed"
  | .invalidCredentials => "authentication credentials are invalid"
  | .expiredCredentials => "authentication credentials have expired"
  | .notYetValid => "authentication credentials are not yet valid"
  | .missingSignature => "request signature is required"
  | .invalidSignature => "request signature is invalid"
  | .staleSignature => "request signature timestamp is outside the allowed window"

structure RequestSignature where
  keyId : String
  timestamp : Int64
  signature : String
  deriving DecidableEq

structure Duration where
  secs : UInt64
  nanos : Nat
  deriving DecidableEq

def Duration.isZero (duration : Duration) : Bool := duration.secs == 0 && duration.nanos == 0

/-- `str::to_ascii_uppercase`. -/
def toAsciiUppercase (text : String) : String := String.ofList (text.toList.map Char.toUpper)

def canonical (timestamp : Int64) (method target : String) : String :=
  toString timestamp.toInt ++ "\n" ++ toAsciiUppercase method ++ "\n" ++ target

def signRequest (crypto : Crypto) (keyId : String) (secret : List UInt8) (timestamp : Int64)
    (method target : String) : Except AuthFailure RequestSignature :=
  if secret = [] ∨ method = "" ∨ target = "" then .error .invalidSignature
  else
    let tag := crypto.hmac secret (canonical timestamp method target)
    .ok ⟨keyId, timestamp, crypto.encode tag⟩

/-- Only `new` makes one, so its keys and its window are not empty. -/
structure RequestSignatureVerifier where
  keys : ExtTreeMap String (List UInt8)
  maxClockSkew : Duration
  someKey : keys.isEmpty = false
  named : ∀ entry ∈ keys.toList, entry.1 ≠ "" ∧ entry.2 ≠ []
  window : maxClockSkew.isZero = false

def RequestSignatureVerifier.new (keys : List (String × List UInt8)) (maxClockSkew : Duration) :
    Except AuthFailure RequestSignatureVerifier :=
  if window : maxClockSkew.isZero = false then
    let collected : ExtTreeMap String (List UInt8) := .ofList keys
    if someKey : collected.isEmpty = false then
      if named : ∀ entry ∈ collected.toList, entry.1 ≠ "" ∧ entry.2 ≠ [] then
        .ok ⟨collected, maxClockSkew, someKey, named, window⟩
      else .error .invalidSignature
    else .error .invalidSignature
  else .error .invalidSignature

/-- `i64::abs_diff`: the difference of the two's complements, the smaller one subtracted. -/
def absDiff (left right : Int64) : UInt64 :=
  if left < right then right.toUInt64 - left.toUInt64 else left.toUInt64 - right.toUInt64

def RequestSignatureVerifier.verify (crypto : Crypto) (verifier : RequestSignatureVerifier)
    (signature : RequestSignature) (method target : String) (nowUnixSeconds : Int64) :
    Except AuthFailure Unit := do
  ensure (!decide (verifier.maxClockSkew.secs < absDiff nowUnixSeconds signature.timestamp))
    .staleSignature
  let secret ← okOr verifier.keys[signature.keyId]? .invalidSignature
  let supplied ← okOr (crypto.decode signature.signature) .invalidSignature
  ensure (supplied == crypto.hmac secret (canonical signature.timestamp method target))
    .invalidSignature

/-! ## The canonical text -/

/-- Distinct keys and texts have distinct tags, and encoded bytes are decoded to themselves. -/
structure Crypto.Ideal (crypto : Crypto) : Prop where
  decode_encode : ∀ bytes, crypto.decode (crypto.encode bytes) = some bytes
  injective : ∀ key other message text,
    crypto.hmac key message = crypto.hmac other text → key = other ∧ message = text

def EqIgnoreAsciiCase (left right : String) : Prop :=
  left.toList.map Char.toLower = right.toList.map Char.toLower

instance decidableEqIgnoreAsciiCase (left right : String) :
    Decidable (EqIgnoreAsciiCase left right) :=
  inferInstanceAs (Decidable (_ = _))

theorem toAsciiUppercase_eq_iff (left right : String) :
    toAsciiUppercase left = toAsciiUppercase right ↔ EqIgnoreAsciiCase left right := by
  unfold toAsciiUppercase EqIgnoreAsciiCase
  rw [String.ofList_inj]
  have lower : Char.toLower ∘ Char.toUpper = Char.toLower :=
    funext Char.toLower_toUpper_eq_toLower
  have upper : Char.toUpper ∘ Char.toLower = Char.toUpper :=
    funext Char.toUpper_toLower_eq_toUpper
  constructor
  · intro same
    have lowered := congrArg (List.map Char.toLower) same
    rw [List.map_map, List.map_map, lower] at lowered
    exact lowered
  · intro same
    have raised := congrArg (List.map Char.toUpper) same
    rw [List.map_map, List.map_map, upper] at raised
    exact raised

theorem toUpper_ne_break {char : Char} (other : char ≠ '\n') : char.toUpper ≠ '\n' := by
  intro raised
  have alpha := Char.isAlpha_toUpper_eq_isAlpha char
  rw [raised] at alpha
  have notLower : ¬char.isLower = true := by
    intro lower
    have letter : char.isAlpha = true := by
      unfold Char.isAlpha
      rw [lower, Bool.or_true]
    rw [letter] at alpha
    cases alpha
  rw [Char.toUpper_eq_of_not_isLower notLower] at raised
  exact other raised

theorem toAsciiUppercase_no_break {text : String} (noBreak : '\n' ∉ text.toList) :
    '\n' ∉ (toAsciiUppercase text).toList := by
  unfold toAsciiUppercase
  rw [String.toList_ofList]
  intro member
  obtain ⟨char, inside, raised⟩ := List.mem_map.mp member
  apply toUpper_ne_break _ raised
  intro same
  rw [same] at inside
  exact noBreak inside

theorem repr_no_break (number : Nat) : '\n' ∉ number.repr.toList := by
  intro member
  rw [Nat.toList_repr] at member
  exact absurd (Nat.isDigit_of_mem_toDigits (by decide) (by decide) member) (by decide)

theorem toString_int_no_break (number : Int) : '\n' ∉ (toString number).toList := by
  rw [Int.toString_eq_repr, Int.repr_eq_if]
  split
  · exact repr_no_break _
  · rw [String.toList_append]
    intro member
    rcases List.mem_append.mp member with sign | digit
    · exact absurd sign (by decide +kernel)
    · exact repr_no_break _ digit

/-- The first line of a text and the rest. -/
theorem append_break_inj {left right rest more : List Char} (noBreak : '\n' ∉ left)
    (otherNoBreak : '\n' ∉ right) (same : left ++ '\n' :: rest = right ++ '\n' :: more) :
    left = right ∧ rest = more := by
  have split := congrArg (List.splitOn '\n') same
  rw [List.splitOn_append_cons_self_of_not_mem noBreak,
    List.splitOn_append_cons_self_of_not_mem otherNoBreak] at split
  have first := (List.cons.inj split).1
  rw [first] at same
  exact ⟨first, (List.cons.inj (List.append_cancel_left same)).2⟩

theorem toList_canonical (timestamp : Int64) (method target : String) :
    (canonical timestamp method target).toList =
      (toString timestamp.toInt).toList ++
        '\n' :: ((toAsciiUppercase method).toList ++ '\n' :: target.toList) := by
  unfold canonical
  simp

/-- The lines before the target determine the time and the method. -/
theorem canonical_eq_iff {timestamp other : Int64} {method verb target path : String}
    (noBreak : '\n' ∉ method.toList) (verbNoBreak : '\n' ∉ verb.toList) :
    canonical timestamp method target = canonical other verb path ↔
      timestamp = other ∧ EqIgnoreAsciiCase method verb ∧ target = path := by
  constructor
  · intro same
    have texts := congrArg String.toList same
    rw [toList_canonical, toList_canonical] at texts
    rcases append_break_inj (toString_int_no_break _) (toString_int_no_break _) texts with
      ⟨times, rest⟩
    rcases append_break_inj (toAsciiUppercase_no_break noBreak)
      (toAsciiUppercase_no_break verbNoBreak) rest with ⟨methods, targets⟩
    refine ⟨?_, ?_, String.toList_inj.mp targets⟩
    · rw [String.toList_inj, Int.toString_eq_repr, Int.toString_eq_repr] at times
      exact Int64.toInt_inj.mp (Int.repr_injective times)
    · exact (toAsciiUppercase_eq_iff method verb).mp (String.toList_inj.mp methods)
  · intro ⟨times, methods, targets⟩
    unfold canonical
    rw [times, (toAsciiUppercase_eq_iff method verb).mpr methods, targets]

/-! ## The window -/

theorem toInt_eq (time : Int64) :
    time.toInt = if 2 * time.toUInt64.toNat < 2 ^ 64 then (time.toUInt64.toNat : Int)
      else time.toUInt64.toNat - (2 ^ 64 : Nat) :=
  BitVec.toInt_eq_toNat_cond _

/-- The difference of two times fits, whatever they are. -/
theorem absDiff_toNat (left right : Int64) :
    (absDiff left right).toNat = (left.toInt - right.toInt).natAbs := by
  have leftInt := toInt_eq left
  have rightInt := toInt_eq right
  have leftBound := left.toUInt64.toNat_lt
  have rightBound := right.toUInt64.toNat_lt
  unfold absDiff
  by_cases less : left < right
  · rw [if_pos less, UInt64.toNat_sub]
    rw [Int64.lt_iff_toInt_lt] at less
    split at leftInt <;> split at rightInt <;> omega
  · rw [if_neg less, UInt64.toNat_sub]
    rw [Int64.lt_iff_toInt_lt] at less
    split at leftInt <;> split at rightInt <;> omega

/-! ## Signing and verifying -/

section Verify

variable {crypto : Crypto} {verifier : RequestSignatureVerifier}

/-- What it takes to be accepted. -/
theorem verify_eq_ok {signature : RequestSignature} {method target : String} {now : Int64} :
    verifier.verify crypto signature method target now = .ok () ↔
      (now.toInt - signature.timestamp.toInt).natAbs ≤ verifier.maxClockSkew.secs.toNat ∧
        ∃ secret, verifier.keys[signature.keyId]? = some secret ∧
          crypto.decode signature.signature =
            some (crypto.hmac secret (canonical signature.timestamp method target)) := by
  have window : (!decide (verifier.maxClockSkew.secs < absDiff now signature.timestamp)) = true ↔
      (now.toInt - signature.timestamp.toInt).natAbs ≤ verifier.maxClockSkew.secs.toNat := by
    rw [Bool.not_eq_true', decide_eq_false_iff_not, UInt64.lt_iff_toNat_lt, absDiff_toNat,
      Nat.not_lt]
  unfold RequestSignatureVerifier.verify
  constructor
  · intro accepted
    obtain ⟨_, fresh, afterWindow⟩ := bind_eq_ok accepted
    obtain ⟨secret, registered, afterKey⟩ := bind_eq_ok afterWindow
    obtain ⟨supplied, decoded, verified⟩ := bind_eq_ok afterKey
    refine ⟨window.mp (ensure_eq_ok.mp fresh), secret, okOr_eq_ok.mp registered, ?_⟩
    rw [okOr_eq_ok.mp decoded, beq_iff_eq.mp (ensure_eq_ok.mp verified)]
  · intro ⟨fresh, secret, registered, decoded⟩
    rw [window.mpr fresh, registered, decoded]
    simp [ensure, okOr, bind, Except.bind]

theorem RequestSignatureVerifier.secret_ne_nil {keyId : String} {secret : List UInt8}
    (registered : verifier.keys[keyId]? = some secret) : secret ≠ [] :=
  (verifier.named (keyId, secret) (ExtTreeMap.mem_toList_iff_getElem?_eq_some.mpr registered)).2

/-- A signature is accepted within the window for what was signed and for nothing else; with
another time or under a key of another secret it is not accepted at all.  The difference of two
times does not overflow. -/
theorem signature_binds_request (crypto : Crypto) (ideal : crypto.Ideal)
    (verifier : RequestSignatureVerifier) (keyId : String) (secret : List UInt8)
    (registered : verifier.keys[keyId]? = some secret) (timestamp now : Int64)
    (method verb target path : String) (methodSome : method ≠ "") (targetSome : target ≠ "")
    (noBreak : '\n' ∉ method.toList) (verbNoBreak : '\n' ∉ verb.toList) :
    ∃ signature, signRequest crypto keyId secret timestamp method target = .ok signature ∧
      (verifier.verify crypto signature verb path now = .ok () ↔
        (now.toInt - timestamp.toInt).natAbs ≤ verifier.maxClockSkew.secs.toNat ∧
          EqIgnoreAsciiCase method verb ∧ path = target) ∧
      (∀ other, other ≠ timestamp →
        verifier.verify crypto { signature with timestamp := other } verb path now ≠ .ok ()) ∧
      (∀ other, verifier.keys[other]? ≠ some secret →
        verifier.verify crypto { signature with keyId := other } verb path now ≠ .ok ()) ∧
      (absDiff now timestamp).toNat = (now.toInt - timestamp.toInt).natAbs := by
  have signs : ¬(secret = [] ∨ method = "" ∨ target = "") := by
    intro wrong
    rcases wrong with noSecret | noMethod | noTarget
    · exact RequestSignatureVerifier.secret_ne_nil registered noSecret
    · exact methodSome noMethod
    · exact targetSome noTarget
  refine ⟨_, if_neg signs, ?_, ?_, ?_, absDiff_toNat now timestamp⟩
  · rw [verify_eq_ok]
    dsimp only
    apply and_congr_right
    intro _
    rw [ideal.decode_encode]
    constructor
    · intro ⟨found, isRegistered, same⟩
      have texts := (ideal.injective _ _ _ _ (Option.some.inj same)).2
      obtain ⟨_, methods, targets⟩ := (canonical_eq_iff noBreak verbNoBreak).mp texts
      exact ⟨methods, targets.symm⟩
    · intro ⟨methods, targets⟩
      refine ⟨secret, registered, ?_⟩
      rw [(canonical_eq_iff noBreak verbNoBreak).mpr ⟨rfl, methods, targets.symm⟩]
  · intro other changed accepted
    obtain ⟨_, found, _, same⟩ := verify_eq_ok.mp accepted
    dsimp only at same
    rw [ideal.decode_encode] at same
    have texts := (ideal.injective _ _ _ _ (Option.some.inj same)).2
    exact changed ((canonical_eq_iff noBreak verbNoBreak).mp texts).1.symm
  · intro other changed accepted
    obtain ⟨_, found, isRegistered, same⟩ := verify_eq_ok.mp accepted
    dsimp only at same isRegistered
    rw [ideal.decode_encode] at same
    have keys := (ideal.injective _ _ _ _ (Option.some.inj same)).1
    rw [← keys] at isRegistered
    exact changed isRegistered

end Verify

/-! ## A signed request -/

/-- `HMAC-SHA256` of the text below with the key `secret`. -/
def sampleTag : List UInt8 :=
  [104, 177, 123, 35, 247, 160, 73, 237, 22, 116, 128, 113, 55, 162, 205, 245, 44, 45, 149, 228,
    13, 62, 40, 3, 147, 138, 54, 173, 211, 28, 93, 243]

def sampleSignature : String := "aLF7I_egSe0WdIBxN6LN9SwtleQNPigDk4o2rdMcXfM"

def sampleText : String := "1000\nPOST\n/v1/jobs?a=1"

/-- The real tag and its base64 for the text; elsewhere anything that is ideal. -/
def sampleSigning : Crypto where
  encode bytes :=
    if bytes = sampleTag then sampleSignature
    else String.ofList ('.' :: bytes.map fun byte => Char.ofNat byte.toNat)
  decode text :=
    if text = sampleSignature then some sampleTag
    else some (text.toList.tail.map fun char => UInt8.ofNat char.toNat)
  hmac key message :=
    if key = bytesOf "secret" ∧ message = sampleText then sampleTag
    else List.replicate
      (33 + Encodable.encode (key.map UInt8.toNat, message.toList.map Char.toNat)) 0

theorem sampleSigning_ideal : sampleSigning.Ideal := by
  have first : sampleSignature.toList.head? = some 'a' := by decide +kernel
  have length : sampleTag.length = 32 := rfl
  constructor
  · intro bytes
    unfold sampleSigning
    dsimp only
    by_cases same : bytes = sampleTag
    · rw [if_pos same, if_pos rfl, same]
    · have other : String.ofList ('.' :: bytes.map fun byte => Char.ofNat byte.toNat) ≠
          sampleSignature := by
        intro wrong
        have heads := congrArg (fun text : String => text.toList.head?) wrong
        rw [String.toList_ofList, List.head?_cons, first] at heads
        cases heads
      rw [if_neg same, if_neg other, String.toList_ofList, List.tail_cons, List.map_map]
      have back : ∀ byte : UInt8, UInt8.ofNat (Char.ofNat byte.toNat).toNat = byte := by
        intro byte
        have bound : byte.toNat < 256 := byte.toNat_lt
        rw [Char.toNat_ofNat, if_pos (Or.inl (by omega)), UInt8.ofNat_toNat]
      congr 1
      conv_rhs => rw [← List.map_id bytes]
      apply List.map_congr_left
      intro byte _
      exact back byte
  · intro key other message text same
    unfold sampleSigning at same
    dsimp only at same
    split at same
    · rename_i left
      split at same
      · rename_i right
        exact ⟨left.1.trans right.1.symm, left.2.trans right.2.symm⟩
      · have sizes := congrArg List.length same
        rw [length, List.length_replicate] at sizes
        omega
    · split at same
      · have sizes := congrArg List.length same
        rw [length, List.length_replicate] at sizes
        omega
      · have sizes := congrArg List.length same
        rw [List.length_replicate, List.length_replicate] at sizes
        have codes := Encodable.encode_injective (Nat.add_left_cancel sizes)
        rw [Prod.mk.injEq] at codes
        constructor
        · exact List.map_injective_iff.mpr (fun _ _ => UInt8.toNat_inj.mp) codes.1
        · apply String.toList_inj.mp
          exact List.map_injective_iff.mpr (fun _ _ => Char.toNat_inj.mp) codes.2

def sampleVerifier : RequestSignatureVerifier where
  keys := .ofList [("current", bytesOf "secret")]
  maxClockSkew := ⟨30, 0⟩
  someKey := by decide +kernel
  named := by decide +kernel
  window := by decide +kernel

/-- Twenty seconds later the request is accepted, and another target is not. -/
theorem signature_binds_request_post :
    RequestSignatureVerifier.new [("current", bytesOf "secret")] ⟨30, 0⟩ = .ok sampleVerifier ∧
    ∃ signature, signRequest sampleSigning "current" (bytesOf "secret") 1000 "post"
        "/v1/jobs?a=1" = .ok signature ∧
      sampleVerifier.verify sampleSigning signature "POST" "/v1/jobs?a=1" 1020 = .ok () ∧
      sampleVerifier.verify sampleSigning signature "POST" "/v1/jobs?a=2" 1020 ≠ .ok () := by
  have registered : sampleVerifier.keys["current"]? = some (bytesOf "secret") := by
    decide +kernel
  have same := signature_binds_request sampleSigning sampleSigning_ideal sampleVerifier "current"
    (bytesOf "secret") registered 1000 1020 "post" "POST" "/v1/jobs?a=1" "/v1/jobs?a=1"
    (by decide) (by decide) (by decide +kernel) (by decide +kernel)
  have changed := signature_binds_request sampleSigning sampleSigning_ideal sampleVerifier
    "current" (bytesOf "secret") registered 1000 1020 "post" "POST" "/v1/jobs?a=1" "/v1/jobs?a=2"
    (by decide) (by decide) (by decide +kernel) (by decide +kernel)
  obtain ⟨signature, signed, accepted, _⟩ := same
  obtain ⟨other, otherSigned, rejected, _⟩ := changed
  rw [signed] at otherSigned
  cases otherSigned
  refine ⟨rfl, signature, signed, ?_, ?_⟩
  · apply accepted.mpr
    exact ⟨by decide, by decide +kernel, rfl⟩
  · intro wrong
    exact absurd (rejected.mp wrong).2.2 (by decide)

end RustZero.Auth
