import Mathlib
import RustZero.Lib.Base64
import RustZero.Lib.Checks
import RustZero.Lib.Utf8
import RustZero.RoutePolicies

/-!
# Encrypted content

`ContentEncryptionKey` of `rest/src/content_encryption.rs`: bodies are sealed with AES-256-GCM
into envelopes `RZC1 || nonce || ciphertext || tag` in base64, and the direction, the method, the
Uri and the status are authenticated with them.

* `Crypto` is the cipher and the base64 of the crates, and `Crypto.Ideal` what is relied on:
  exactly what was sealed, under its key, nonce and additional data, can be opened.
* Slices that are out of range panic, which is `none` in `openEnvelope`.
-/

namespace RustZero.ContentEncryption

open Lib

abbrev Bytes := List UInt8

/-- `b"RZC1"`. -/
def MAGIC : Bytes := [82, 90, 67, 49]

def NONCE_LEN : Nat := 12

def TAG_LEN : Nat := 16

inductive ContentEncryptionError where
  | invalidKeyId
  | duplicateKeyId
  | invalidEnvelope
  | authenticationFailed
  | encryptionFailed
  | randomnessUnavailable
  deriving DecidableEq

/-! ## Contexts -/

/-- `http::Method`: the characters of a token. -/
structure Method where
  text : String
  noNul : '\x00' ∉ text.toList

/-- The parts of an `http::Uri`, as it displays them. -/
structure UriParts where
  scheme : Option String
  authority : Option String
  path : String
  query : Option String

/-- What an absolute Uri has in front of its path. -/
def UriParts.origin (uri : UriParts) : String :=
  (uri.scheme.map (· ++ "://")).getD "" ++ uri.authority.getD ""

def UriParts.pathAndQuery (uri : UriParts) : String :=
  uri.path ++ (uri.query.map ("?" ++ ·)).getD ""

/-- `Display for Uri`. -/
def UriParts.text (uri : UriParts) : String :=
  uri.origin ++ uri.pathAndQuery

structure Uri extends UriParts where
  noNul : '\x00' ∉ toUriParts.text.toList

def requestAad (method : Method) (uri : Uri) : Bytes :=
  utf8 ("rust-zero-content-v1\x00request\x00" ++ method.text ++ "\x00" ++ uri.text)

def responseAad (method : Method) (uri : Uri) (status : Nat) : Bytes :=
  utf8 ("rust-zero-content-v1\x00response\x00" ++ method.text ++ "\x00" ++ uri.text ++ "\x00" ++
    toString status)

/-! ## Keys and envelopes -/

structure Nonce where
  bytes : Bytes
  length : bytes.length = NONCE_LEN
  deriving DecidableEq

/-- `ring`'s AES-256-GCM, the tag appended, and the base64 of texts as bytes. -/
structure Crypto where
  sealInPlace : (key : Bytes) → Nonce → (aad plaintext : Bytes) → Option Bytes
  openInPlace : (key : Bytes) → Nonce → (aad ciphertext : Bytes) → Option Bytes
  encode : Bytes → Bytes
  decode : Bytes → Option Bytes

def isKeyIdByte (byte : UInt8) : Bool :=
  (48 ≤ byte && byte ≤ 57) || (65 ≤ byte && byte ≤ 90) || (97 ≤ byte && byte ≤ 122) ||
    byte == 45 || byte == 95 || byte == 46

def isKeyId (id : String) : Bool :=
  !(RoutePolicies.trim id.toList).isEmpty && (utf8 id).length ≤ 128 && (utf8 id).all isKeyIdByte

/-- The id only names the key. -/
structure ContentEncryptionKey where
  id : String
  bytes : Bytes
  named : isKeyId id = true
  length : bytes.length = 32

namespace ContentEncryptionKey

/-- `ContentEncryptionKey::new`; the bytes come as an array. -/
def new (id : String) (bytes : Bytes) (length : bytes.length = 32) :
    Except ContentEncryptionError ContentEncryptionKey :=
  if named : isKeyId id = true then .ok ⟨id, bytes, named, length⟩ else .error .invalidKeyId

/-- `less_safe_key`: `ring` takes 32 bytes. -/
def lessSafeKey (bytes : Bytes) : Except ContentEncryptionError Bytes :=
  if bytes.length = 32 then .ok bytes else .error .encryptionFailed

/-- `seal`, with what the random source gives. -/
def sealEnvelope (crypto : Crypto) (key : ContentEncryptionKey) (aad : Bytes)
    (random : Option Nonce) (plaintext : Bytes) : Except ContentEncryptionError Bytes := do
  let aes ← lessSafeKey key.bytes
  let nonce ← okOr random .randomnessUnavailable
  let ciphertext ← okOr (crypto.sealInPlace aes nonce aad plaintext) .encryptionFailed
  pure (crypto.encode (MAGIC ++ nonce.bytes ++ ciphertext))

/-- `bytes[start..stop]`; `none` is a panic. -/
def slice (bytes : Bytes) (start stop : Nat) : Option Bytes :=
  if start ≤ stop ∧ stop ≤ bytes.length then some ((bytes.take stop).drop start) else none

/-- `open_in_place` on the rest of an envelope. -/
def openCiphertext (crypto : Crypto) (key : ContentEncryptionKey) (aad nonce ciphertext : Bytes) :
    Except ContentEncryptionError Bytes :=
  if length : nonce.length = NONCE_LEN then do
    let aes ← lessSafeKey key.bytes
    okOr (crypto.openInPlace aes ⟨nonce, length⟩ aad ciphertext) .authenticationFailed
  else .error .invalidEnvelope

/-- `open`; `none` is a panic. -/
def openEnvelope (crypto : Crypto) (key : ContentEncryptionKey) (aad encoded : Bytes) :
    Option (Except ContentEncryptionError Bytes) :=
  match crypto.decode encoded with
  | none => some (.error .invalidEnvelope)
  | some envelope =>
      if envelope.length < MAGIC.length + NONCE_LEN + TAG_LEN then
        some (.error .invalidEnvelope)
      else do
        let magic ← slice envelope 0 MAGIC.length
        if magic ≠ MAGIC then some (.error .invalidEnvelope)
        else do
          let nonce ← slice envelope MAGIC.length (MAGIC.length + NONCE_LEN)
          let ciphertext ← slice envelope (MAGIC.length + NONCE_LEN) envelope.length
          some (openCiphertext crypto key aad nonce ciphertext)

def encryptRequest (crypto : Crypto) (key : ContentEncryptionKey) (method : Method) (uri : Uri)
    (random : Option Nonce) (plaintext : Bytes) : Except ContentEncryptionError Bytes :=
  key.sealEnvelope crypto (requestAad method uri) random plaintext

def decryptRequest (crypto : Crypto) (key : ContentEncryptionKey) (method : Method) (uri : Uri)
    (encoded : Bytes) : Option (Except ContentEncryptionError Bytes) :=
  key.openEnvelope crypto (requestAad method uri) encoded

def encryptResponse (crypto : Crypto) (key : ContentEncryptionKey) (method : Method) (uri : Uri)
    (status : Nat) (random : Option Nonce) (plaintext : Bytes) :
    Except ContentEncryptionError Bytes :=
  key.sealEnvelope crypto (responseAad method uri status) random plaintext

def decryptResponse (crypto : Crypto) (key : ContentEncryptionKey) (method : Method) (uri : Uri)
    (status : Nat) (encoded : Bytes) : Option (Except ContentEncryptionError Bytes) :=
  key.openEnvelope crypto (responseAad method uri status) encoded

end ContentEncryptionKey

/-- A direction with what is authenticated in it. -/
inductive Direction where
  | request (method : Method) (uri : Uri)
  | response (method : Method) (uri : Uri) (status : Nat)

namespace Direction

def aad : Direction → Bytes
  | request method uri => requestAad method uri
  | response method uri status => responseAad method uri status

def encrypt (crypto : Crypto) (key : ContentEncryptionKey) (random : Option Nonce)
    (plaintext : Bytes) : Direction → Except ContentEncryptionError Bytes
  | request method uri => key.encryptRequest crypto method uri random plaintext
  | response method uri status => key.encryptResponse crypto method uri status random plaintext

def decrypt (crypto : Crypto) (key : ContentEncryptionKey) (encoded : Bytes) :
    Direction → Option (Except ContentEncryptionError Bytes)
  | request method uri => key.decryptRequest crypto method uri encoded
  | response method uri status => key.decryptResponse crypto method uri status encoded

/-- The same direction, method, text of the Uri, and status. -/
def Same : Direction → Direction → Prop
  | request method uri, request method' uri' => method.text = method'.text ∧ uri.text = uri'.text
  | response method uri status, response method' uri' status' =>
      method.text = method'.text ∧ uri.text = uri'.text ∧ status = status'
  | _, _ => False

/-! ## The authenticated text -/

/-- The parts that are joined by zero characters. -/
def parts : Direction → List (List Char)
  | request method uri =>
      ["rust-zero-content-v1".toList, "request".toList, method.text.toList, uri.text.toList]
  | response method uri status =>
      ["rust-zero-content-v1".toList, "response".toList, method.text.toList, uri.text.toList,
        (toString status).toList]

theorem aad_eq (direction : Direction) :
    direction.aad = utf8 (String.ofList (['\x00'].intercalate direction.parts)) := by
  cases direction with
  | request method uri =>
      refine congrArg utf8 (String.toList_injective ?_)
      simp [parts, List.intercalate, String.toList_append]
  | response method uri status =>
      refine congrArg utf8 (String.toList_injective ?_)
      simp [parts, List.intercalate, String.toList_append]

theorem parts_noNul (direction : Direction) : ∀ part ∈ direction.parts, '\x00' ∉ part := by
  have label : '\x00' ∉ "rust-zero-content-v1".toList := by decide
  cases direction with
  | request method uri =>
      simp only [parts, List.forall_mem_cons]
      exact ⟨label, by decide, method.noNul, uri.noNul, List.forall_mem_nil _⟩
  | response method uri status =>
      simp only [parts, List.forall_mem_cons]
      exact ⟨label, by decide, method.noNul, uri.noNul, not_mem_toString rfl status,
        List.forall_mem_nil _⟩

theorem parts_ne_nil (direction : Direction) : direction.parts ≠ [] := by
  cases direction <;> exact List.cons_ne_nil _ _

theorem parts_eq_iff {first second : Direction} :
    first.parts = second.parts ↔ first.Same second := by
  have other : "request".toList ≠ "response".toList := by decide
  cases first with
  | request method uri =>
      cases second with
      | request method' uri' => simp [parts, Same, String.toList_inj]
      | response method' uri' status' =>
          refine iff_of_false ?_ id
          intro same
          exact other (List.cons.inj (List.cons.inj same).2).1
  | response method uri status =>
      cases second with
      | request method' uri' =>
          refine iff_of_false ?_ id
          intro same
          exact other (List.cons.inj (List.cons.inj same).2).1.symm
      | response method' uri' status' =>
          have digits : toString status = toString status' ↔ status = status' := by
            rw [Nat.toString_eq_repr, Nat.toString_eq_repr]
            exact ⟨fun same => Nat.repr_injective same, congrArg Nat.repr⟩
          simp only [parts, Same, List.cons.injEq, String.toList_inj, digits, true_and, and_true]

/-- The additional data determines the direction and everything in it. -/
theorem aad_eq_iff {first second : Direction} :
    first.aad = second.aad ↔ first.Same second := by
  rw [← parts_eq_iff, aad_eq, aad_eq]
  constructor
  · intro same
    have joined := String.ofList_injective (utf8_injective same)
    have split := congrArg (List.splitOn '\x00') joined
    rwa [List.splitOn_intercalate _ first.parts_noNul first.parts_ne_nil,
      List.splitOn_intercalate _ second.parts_noNul second.parts_ne_nil] at split
  · intro same
    rw [same]

end Direction

/-! ## Sealing and opening -/

/-- A message that was sealed. -/
structure Sealing where
  key : Bytes
  nonce : Nonce
  aad : Bytes
  plaintext : Bytes
  ciphertext : Bytes
  deriving DecidableEq

/-- The cipher opens exactly what was sealed, no two keys or additional data have one ciphertext
under one nonce, and base64 has one text for every list of bytes. -/
structure Crypto.Ideal (crypto : Crypto) (log : Set Sealing) : Prop where
  opens : ∀ key nonce aad ciphertext plaintext,
    crypto.openInPlace key nonce aad ciphertext = some plaintext ↔
      ⟨key, nonce, aad, plaintext, ciphertext⟩ ∈ log
  distinct : ∀ first ∈ log, ∀ second ∈ log, first.nonce = second.nonce →
    first.ciphertext = second.ciphertext → first.key = second.key ∧ first.aad = second.aad
  tagged : ∀ sealing ∈ log, TAG_LEN ≤ sealing.ciphertext.length
  decode_eq : ∀ text bytes, crypto.decode text = some bytes ↔ text = crypto.encode bytes

def envelope (nonce : Nonce) (ciphertext : Bytes) : Bytes :=
  MAGIC ++ nonce.bytes ++ ciphertext

def Sealing.encoded (crypto : Crypto) (sealing : Sealing) : Bytes :=
  crypto.encode (envelope sealing.nonce sealing.ciphertext)

namespace ContentEncryptionKey

variable {crypto : Crypto} {key : ContentEncryptionKey} {aad encoded plaintext : Bytes}

theorem sealEnvelope_eq_ok {random : Option Nonce} :
    key.sealEnvelope crypto aad random plaintext = .ok encoded ↔
      ∃ nonce ciphertext, random = some nonce ∧
        crypto.sealInPlace key.bytes nonce aad plaintext = some ciphertext ∧
        encoded = crypto.encode (envelope nonce ciphertext) := by
  have usable : lessSafeKey key.bytes = .ok key.bytes := if_pos key.length
  constructor
  · intro made
    obtain ⟨aes, prepared, further⟩ := bind_eq_ok made
    cases usable.symm.trans prepared
    obtain ⟨nonce, given, further⟩ := bind_eq_ok further
    obtain ⟨ciphertext, enciphered, whole⟩ := bind_eq_ok further
    exact ⟨nonce, ciphertext, okOr_eq_ok.mp given, okOr_eq_ok.mp enciphered,
      (Except.ok.inj whole).symm⟩
  · intro made
    obtain ⟨nonce, ciphertext, rfl, enciphered, rfl⟩ := made
    have done : okOr (crypto.sealInPlace key.bytes nonce aad plaintext)
        ContentEncryptionError.encryptionFailed = .ok ciphertext := okOr_eq_ok.mpr enciphered
    rw [sealEnvelope, usable]
    simp only [okOr, bind, Except.bind] at done ⊢
    rw [done]
    rfl

theorem slice_append (before middle after : Bytes) :
    slice (before ++ middle ++ after) before.length (before.length + middle.length) =
      some middle := by
  have within : before.length + middle.length ≤ (before ++ middle ++ after).length := by
    simp only [List.length_append]
    omega
  rw [slice, if_pos ⟨Nat.le_add_right _ _, within⟩, ← List.length_append, List.take_left,
    List.drop_left]

theorem openCiphertext_eq (nonce : Nonce) (ciphertext : Bytes) :
    openCiphertext crypto key aad nonce.bytes ciphertext =
      okOr (crypto.openInPlace key.bytes nonce aad ciphertext) .authenticationFailed := by
  have usable : lessSafeKey key.bytes = .ok key.bytes := if_pos key.length
  rw [openCiphertext, dif_pos nonce.length, usable]
  rfl

theorem envelope_length (nonce : Nonce) (ciphertext : Bytes) :
    (envelope nonce ciphertext).length = MAGIC.length + NONCE_LEN + ciphertext.length := by
  rw [envelope, List.length_append, List.length_append, nonce.length]

/-- On an envelope the cipher decides. -/
theorem openEnvelope_envelope {nonce : Nonce} {ciphertext : Bytes}
    (decoded : crypto.decode encoded = some (envelope nonce ciphertext))
    (tagged : TAG_LEN ≤ ciphertext.length) :
    key.openEnvelope crypto aad encoded =
      some (okOr (crypto.openInPlace key.bytes nonce aad ciphertext) .authenticationFailed) := by
  have long : ¬(envelope nonce ciphertext).length < MAGIC.length + NONCE_LEN + TAG_LEN := by
    rw [envelope_length]
    omega
  have magic : slice (envelope nonce ciphertext) 0 MAGIC.length = some MAGIC := by
    have found := slice_append [] MAGIC (nonce.bytes ++ ciphertext)
    rwa [List.nil_append, List.length_nil, Nat.zero_add, ← List.append_assoc] at found
  have second : slice (envelope nonce ciphertext) MAGIC.length (MAGIC.length + NONCE_LEN) =
      some nonce.bytes := by
    have found := slice_append MAGIC nonce.bytes ciphertext
    rwa [nonce.length] at found
  have third : slice (envelope nonce ciphertext) (MAGIC.length + NONCE_LEN)
      (envelope nonce ciphertext).length = some ciphertext := by
    have found := slice_append (MAGIC ++ nonce.bytes) ciphertext []
    rwa [List.append_nil, List.length_append, nonce.length, ← envelope_length] at found
  rw [openEnvelope, decoded]
  simp only [if_neg long, magic, second, third, Option.bind_eq_bind, Option.bind_some, ne_eq,
    not_true_eq_false, if_false, openCiphertext_eq]

theorem envelope_injective {nonce other : Nonce} {ciphertext text : Bytes}
    (same : envelope nonce ciphertext = envelope other text) :
    nonce = other ∧ ciphertext = text := by
  rw [envelope, envelope, List.append_assoc, List.append_assoc] at same
  have rest := List.append_cancel_left same
  obtain ⟨nonces, texts⟩ := List.append_inj rest (nonce.length.trans other.length.symm)
  cases nonce
  cases other
  cases nonces
  exact ⟨rfl, texts⟩

/-- Bytes that are long enough and begin with the magic are an envelope. -/
theorem exists_envelope {bytes rest : Bytes} (whole : bytes = MAGIC ++ rest)
    (long : MAGIC.length + NONCE_LEN + TAG_LEN ≤ bytes.length) :
    ∃ nonce ciphertext, bytes = envelope nonce ciphertext ∧ TAG_LEN ≤ ciphertext.length := by
  rw [whole, List.length_append] at long
  have twelve : (rest.take NONCE_LEN).length = NONCE_LEN := by
    rw [List.length_take]
    omega
  refine ⟨⟨rest.take NONCE_LEN, twelve⟩, rest.drop NONCE_LEN, ?_, ?_⟩
  · rw [envelope, List.append_assoc, List.take_append_drop, whole]
  · rw [List.length_drop]
    omega

/-- What is no envelope is refused as one. -/
theorem openEnvelope_invalid
    (other : ∀ nonce ciphertext, TAG_LEN ≤ ciphertext.length →
      crypto.decode encoded ≠ some (envelope nonce ciphertext)) :
    key.openEnvelope crypto aad encoded = some (.error .invalidEnvelope) := by
  rw [openEnvelope]
  cases decoded : crypto.decode encoded with
  | none => rfl
  | some bytes =>
      dsimp only
      split
      case isTrue => rfl
      case isFalse long =>
        have first : slice bytes 0 MAGIC.length = some (bytes.take MAGIC.length) := by
          rw [slice, if_pos ⟨Nat.zero_le _, by omega⟩, List.drop_zero]
        have magic : bytes.take MAGIC.length ≠ MAGIC := by
          intro same
          have whole : bytes = MAGIC ++ bytes.drop MAGIC.length := by
            have parts := (List.take_append_drop MAGIC.length bytes).symm
            rwa [same] at parts
          obtain ⟨nonce, ciphertext, rfl, tagged⟩ := exists_envelope whole (by omega)
          exact other nonce ciphertext tagged decoded
        simp only [first, Option.bind_eq_bind, Option.bind_some, if_pos magic]

/-- Whatever comes, opening it does not panic, and it returns a plaintext exactly for the
envelopes of what was sealed with the key and the additional data. -/
theorem openEnvelope_returns {log : Set Sealing} (ideal : crypto.Ideal log)
    (key : ContentEncryptionKey) (aad encoded : Bytes) :
    ∃ result, key.openEnvelope crypto aad encoded = some result ∧
      ∀ plaintext, result = .ok plaintext ↔ ∃ nonce ciphertext,
        ⟨key.bytes, nonce, aad, plaintext, ciphertext⟩ ∈ log ∧
          encoded = crypto.encode (envelope nonce ciphertext) := by
  by_cases found : ∃ nonce ciphertext, TAG_LEN ≤ ciphertext.length ∧
      crypto.decode encoded = some (envelope nonce ciphertext)
  · obtain ⟨nonce, ciphertext, tagged, decoded⟩ := found
    refine ⟨_, openEnvelope_envelope decoded tagged, fun plaintext => ?_⟩
    rw [okOr_eq_ok, ideal.opens]
    constructor
    · intro logged
      exact ⟨nonce, ciphertext, logged, (ideal.decode_eq _ _).mp decoded⟩
    · intro made
      obtain ⟨other, text, logged, same⟩ := made
      have again := (ideal.decode_eq encoded (envelope other text)).mpr same
      obtain ⟨rfl, rfl⟩ := envelope_injective (Option.some.inj (again.symm.trans decoded))
      exact logged
  · have other : ∀ nonce ciphertext, TAG_LEN ≤ ciphertext.length →
        crypto.decode encoded ≠ some (envelope nonce ciphertext) := by
      intro nonce ciphertext tagged decoded
      exact found ⟨nonce, ciphertext, tagged, decoded⟩
    refine ⟨_, openEnvelope_invalid other, fun plaintext => ?_⟩
    refine iff_of_false (by intro same; cases same) ?_
    intro made
    obtain ⟨nonce, ciphertext, logged, same⟩ := made
    exact other nonce ciphertext (ideal.tagged _ logged) ((ideal.decode_eq _ _).mpr same)

end ContentEncryptionKey

/-! ## Envelopes and their contexts -/

section

variable {crypto : Crypto} {log : Set Sealing} {key other : ContentEncryptionKey}
  {direction direction' : Direction} {random : Option Nonce} {encoded plaintext : Bytes}

/-- The log has what an encryption seals. -/
def Logged (crypto : Crypto) (log : Set Sealing) (key : ContentEncryptionKey)
    (direction : Direction) (random : Option Nonce) (plaintext : Bytes) : Prop :=
  ∀ nonce ciphertext, random = some nonce →
    crypto.sealInPlace key.bytes nonce direction.aad plaintext = some ciphertext →
      ⟨key.bytes, nonce, direction.aad, plaintext, ciphertext⟩ ∈ log

theorem encrypt_eq_ok :
    direction.encrypt crypto key random plaintext = .ok encoded ↔
      ∃ nonce ciphertext, random = some nonce ∧
        crypto.sealInPlace key.bytes nonce direction.aad plaintext = some ciphertext ∧
        encoded = crypto.encode (envelope nonce ciphertext) := by
  cases direction <;> exact ContentEncryptionKey.sealEnvelope_eq_ok

theorem decrypt_returns (ideal : crypto.Ideal log) (key : ContentEncryptionKey)
    (direction : Direction) (encoded : Bytes) :
    ∃ result, direction.decrypt crypto key encoded = some result ∧
      ∀ plaintext, result = .ok plaintext ↔ ∃ nonce ciphertext,
        ⟨key.bytes, nonce, direction.aad, plaintext, ciphertext⟩ ∈ log ∧
          encoded = crypto.encode (envelope nonce ciphertext) := by
  cases direction <;> exact ContentEncryptionKey.openEnvelope_returns ideal _ _ _

theorem decrypt_eq_ok (ideal : crypto.Ideal log) :
    direction.decrypt crypto key encoded = some (.ok plaintext) ↔ ∃ nonce ciphertext,
      ⟨key.bytes, nonce, direction.aad, plaintext, ciphertext⟩ ∈ log ∧
        encoded = crypto.encode (envelope nonce ciphertext) := by
  obtain ⟨result, returned, exactly⟩ := decrypt_returns ideal key direction encoded
  rw [returned, Option.some.injEq]
  exact exactly plaintext

/-- What is not decrypted is an error. -/
theorem decrypt_error (ideal : crypto.Ideal log)
    (never : ∀ plaintext, direction.decrypt crypto key encoded ≠ some (.ok plaintext)) :
    ∃ error, direction.decrypt crypto key encoded = some (.error error) := by
  obtain ⟨result, returned, _⟩ := decrypt_returns ideal key direction encoded
  cases result with
  | ok plaintext => exact (never plaintext returned).elim
  | error error => exact ⟨error, returned⟩

theorem encode_injective (ideal : crypto.Ideal log) {bytes bytes' : Bytes}
    (same : crypto.encode bytes = crypto.encode bytes') : bytes = bytes' := by
  have first := (ideal.decode_eq _ bytes).mpr rfl
  have second := (ideal.decode_eq _ bytes').mpr same
  exact Option.some.inj (first.symm.trans second)

/-- What was encrypted is decrypted in the same context. -/
theorem decrypt_encrypted (ideal : crypto.Ideal log)
    (logged : Logged crypto log key direction random plaintext)
    (encrypted : direction.encrypt crypto key random plaintext = .ok encoded)
    (same : direction'.Same direction) :
    direction'.decrypt crypto key encoded = some (.ok plaintext) := by
  obtain ⟨nonce, ciphertext, given, enciphered, rfl⟩ := encrypt_eq_ok.mp encrypted
  refine (decrypt_eq_ok ideal).mpr ⟨nonce, ciphertext, ?_, rfl⟩
  rw [Direction.aad_eq_iff.mpr same]
  exact logged nonce ciphertext given enciphered

/-- Only the key and the context that it was encrypted with decrypt an envelope. -/
theorem context_of_decrypted (ideal : crypto.Ideal log)
    (logged : Logged crypto log key direction random plaintext)
    (encrypted : direction.encrypt crypto key random plaintext = .ok encoded) {text : Bytes}
    (decrypted : direction'.decrypt crypto other encoded = some (.ok text)) :
    other.bytes = key.bytes ∧ direction'.Same direction := by
  obtain ⟨nonce, ciphertext, given, enciphered, made⟩ := encrypt_eq_ok.mp encrypted
  obtain ⟨nonce', ciphertext', logged', made'⟩ := (decrypt_eq_ok ideal).mp decrypted
  obtain ⟨rfl, rfl⟩ := ContentEncryptionKey.envelope_injective
    (encode_injective ideal (made.symm.trans made'))
  obtain ⟨keys, aads⟩ := ideal.distinct _ logged' _ (logged _ _ given enciphered) rfl rfl
  exact ⟨keys, Direction.aad_eq_iff.mp aads⟩

/-- Envelopes round-trip, they open with the key and in the context of their encryption only, and
whatever else is offered is an error. -/
theorem envelopes_bound (ideal : crypto.Ideal log) :
    (∀ key direction random plaintext encoded, Logged crypto log key direction random plaintext →
      direction.encrypt crypto key random plaintext = .ok encoded →
        direction.decrypt crypto key encoded = some (.ok plaintext) ∧
          ∀ (other : ContentEncryptionKey) (direction' : Direction),
            (other.bytes ≠ key.bytes ∨ ¬direction'.Same direction) →
              ∃ error, direction'.decrypt crypto other encoded = some (.error error)) ∧
    ∀ (key : ContentEncryptionKey) (direction : Direction) (encoded : Bytes),
      (∀ sealing ∈ log, sealing.key = key.bytes → sealing.aad = direction.aad →
        encoded ≠ sealing.encoded crypto) →
          ∃ error, direction.decrypt crypto key encoded = some (.error error) := by
  refine ⟨?_, ?_⟩
  · intro key direction random plaintext encoded logged encrypted
    have same : direction.Same direction := Direction.aad_eq_iff.mp rfl
    refine ⟨decrypt_encrypted ideal logged encrypted same, ?_⟩
    intro other direction' differs
    refine decrypt_error ideal fun text decrypted => ?_
    obtain ⟨keys, contexts⟩ := context_of_decrypted ideal logged encrypted decrypted
    rcases differs with key' | context
    · exact key' keys
    · exact context contexts
  · intro key direction encoded foreign
    refine decrypt_error ideal fun text decrypted => ?_
    obtain ⟨nonce, ciphertext, logged, made⟩ := (decrypt_eq_ok ideal).mp decrypted
    exact foreign _ logged rfl rfl made

/-- A request, or the response to it with a status. -/
def Direction.of (status : Option Nat) (method : Method) (uri : Uri) : Direction :=
  match status with
  | none => .request method uri
  | some status => .response method uri status

theorem same_of_iff {status : Option Nat} {method : Method} {first second : Uri} :
    (Direction.of status method first).Same (.of status method second) ↔
      first.text = second.text := by
  cases status <;> simp [Direction.of, Direction.Same]

/-- For one path and query, what was encrypted under one Uri is decrypted under another exactly
if the Uris have the same scheme and authority in front. -/
theorem other_form_iff (ideal : crypto.Ideal log) {status : Option Nat} {method : Method}
    {first second : Uri} (samePath : first.pathAndQuery = second.pathAndQuery)
    (logged : Logged crypto log key (.of status method first) random plaintext)
    (encrypted : (Direction.of status method first).encrypt crypto key random plaintext =
      .ok encoded) :
    (Direction.of status method second).decrypt crypto key encoded = some (.ok plaintext) ↔
      second.origin = first.origin := by
  have texts : second.text = first.text ↔ second.origin = first.origin := by
    rw [UriParts.text, UriParts.text, samePath]
    constructor
    · intro same
      have lists := congrArg String.toList same
      rw [String.toList_append, String.toList_append] at lists
      exact String.toList_injective (List.append_cancel_right lists)
    · intro same
      rw [same]
  rw [← texts]
  constructor
  · intro decrypted
    exact same_of_iff.mp (context_of_decrypted ideal logged encrypted decrypted).2
  · intro same
    exact decrypt_encrypted ideal logged encrypted (same_of_iff.mpr same)

end

/-! ## A sealed request -/

def POST : Method := ⟨"POST", by decide⟩

def PUT : Method := ⟨"PUT", by decide⟩

/-- `/records?tenant=one`. -/
def recordsUri : Uri := ⟨⟨none, none, "/records", some "tenant=one"⟩, by decide +kernel⟩

/-- `https://api.test/records?tenant=one`. -/
def absoluteUri : Uri :=
  ⟨⟨some "https", some "api.test", "/records", some "tenant=one"⟩, by decide +kernel⟩

def sampleKey : ContentEncryptionKey :=
  ⟨"primary", List.replicate 32 7, by decide +kernel, rfl⟩

def sampleNonce : Nonce := ⟨[0, 1, 2, 3, 4, 5, 6, 7, 8, 9, 10, 11], rfl⟩

/-- The AES-256-GCM ciphertext and tag of `secret`. -/
def sampleSealing : Sealing where
  key := sampleKey.bytes
  nonce := sampleNonce
  aad := requestAad POST recordsUri
  plaintext := utf8 "secret"
  ciphertext := [107, 228, 138, 2, 120, 125, 53, 58, 247, 56, 127, 202, 52, 255, 130, 57, 233, 32,
    193, 27, 159, 78]

/-- The cipher on the one message, and base64. -/
def sampleCrypto : Crypto where
  sealInPlace key nonce aad plaintext :=
    if ⟨key, nonce, aad, plaintext, sampleSealing.ciphertext⟩ = sampleSealing then
      some sampleSealing.ciphertext
    else none
  openInPlace key nonce aad ciphertext :=
    if ⟨key, nonce, aad, sampleSealing.plaintext, ciphertext⟩ = sampleSealing then
      some sampleSealing.plaintext
    else none
  encode := Base64.encode
  decode := Base64.decode

theorem sampleCrypto_ideal : sampleCrypto.Ideal {sampleSealing} where
  opens := by
    intro key nonce aad ciphertext plaintext
    rw [Set.mem_singleton_iff]
    simp only [sampleCrypto]
    constructor
    · intro opened
      split at opened <;> cases opened
      assumption
    · intro same
      have texts : plaintext = sampleSealing.plaintext := congrArg Sealing.plaintext same
      rw [texts] at same ⊢
      exact if_pos same
  distinct := by
    intro first here second there _ _
    rw [Set.mem_singleton_iff.mp here, Set.mem_singleton_iff.mp there]
    exact ⟨rfl, rfl⟩
  tagged := by
    intro sealing member
    rw [Set.mem_singleton_iff.mp member]
    decide
  decode_eq := fun _ _ => Base64.decode_eq_some

def sampleEnvelope : Bytes :=
  sampleSealing.encoded sampleCrypto

theorem sample_enciphered :
    sampleCrypto.sealInPlace sampleKey.bytes sampleNonce
      (Direction.request POST recordsUri).aad (utf8 "secret") =
        some sampleSealing.ciphertext := by
  simp only [sampleCrypto]
  rw [if_pos]
  rfl

theorem sample_encrypted :
    (Direction.request POST recordsUri).encrypt sampleCrypto sampleKey (some sampleNonce)
      (utf8 "secret") = .ok sampleEnvelope :=
  encrypt_eq_ok.mpr ⟨sampleNonce, sampleSealing.ciphertext, rfl, sample_enciphered, rfl⟩

theorem sample_logged :
    Logged sampleCrypto {sampleSealing} sampleKey (.request POST recordsUri) (some sampleNonce)
      (utf8 "secret") := by
  intro nonce ciphertext given enciphered
  cases given
  cases sample_enciphered.symm.trans enciphered
  rfl

theorem envelopes_bound_sample :
    (Direction.request POST recordsUri).decrypt sampleCrypto sampleKey sampleEnvelope =
        some (.ok (utf8 "secret")) ∧
      ∃ error, (Direction.request PUT recordsUri).decrypt sampleCrypto sampleKey sampleEnvelope =
        some (.error error) := by
  obtain ⟨decrypted, bound⟩ := (envelopes_bound sampleCrypto_ideal).1 sampleKey _ _ _ _
    sample_logged sample_encrypted
  refine ⟨decrypted, bound sampleKey _ (.inr ?_)⟩
  intro same
  have methods : "PUT" = "POST" := same.1
  exact absurd methods (by decide)

theorem other_form_sample :
    (Direction.of none POST recordsUri).decrypt sampleCrypto sampleKey sampleEnvelope =
      some (.ok (utf8 "secret")) :=
  (other_form_iff sampleCrypto_ideal rfl sample_logged sample_encrypted).mpr rfl

/-- What a client sealed under the path is refused where the server sees an absolute Uri. -/
theorem absolute_form_refused :
    recordsUri.pathAndQuery = absoluteUri.pathAndQuery ∧
      (Direction.of none POST recordsUri).encrypt sampleCrypto sampleKey (some sampleNonce)
        (utf8 "secret") = .ok sampleEnvelope ∧
      (Direction.of none POST absoluteUri).decrypt sampleCrypto sampleKey sampleEnvelope =
        some (.error .authenticationFailed) := by
  refine ⟨rfl, sample_encrypted, ?_⟩
  have contexts : ¬(Direction.request POST recordsUri).Same (.request POST absoluteUri) := by
    intro same
    have texts : recordsUri.text = absoluteUri.text := same.2
    exact absurd texts (by decide +kernel)
  have closed : sampleCrypto.openInPlace sampleKey.bytes sampleNonce
      (requestAad POST absoluteUri) sampleSealing.ciphertext = none := by
    simp only [sampleCrypto]
    refine if_neg fun same => contexts ?_
    exact Direction.aad_eq_iff.mp (congrArg Sealing.aad same).symm
  have decoded : sampleCrypto.decode sampleEnvelope =
      some (envelope sampleNonce sampleSealing.ciphertext) := Base64.decode_encode _
  refine (ContentEncryptionKey.openEnvelope_envelope decoded (by decide)).trans ?_
  rw [closed]
  rfl

end RustZero.ContentEncryption
