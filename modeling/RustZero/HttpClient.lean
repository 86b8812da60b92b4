import Mathlib
import RustZero.Http
import RustZero.Lib.Feed

/-!
# Responses of the HTTP client

`rest/src/client.rs`, `HttpClient::decode_json`: the status and the declared length are checked,
then `Response::bytes` collects the whole body, and only then is its length compared with
`max_response_bytes`.

* The body is a feed of chunks; a timeout or a broken connection is the error it fails with.
* `decodeJson … count` is where the call stands after the body was asked `count` times.
* `decode` stands for `serde_json::from_slice`.
-/

namespace RustZero.HttpClient

open Lib Http

universe u v w

/-- The errors of the client; `ε` are those of the transport and `δ` those of the decoder. -/
inductive HttpClientError (ε : Type u) (δ : Type v)
  | invalidServiceName
  | build (error : ε)
  | circuitOpen (service : String)
  | transport (error : ε)
  | status (status : Nat)
  | bodyTooLarge (limit : Nat)
  | decode (error : δ)

/-- A response whose head has arrived. -/
structure Response (ε : Type u) where
  status : Nat
  contentLength : Option Nat
  body : Feed ε UInt8

/-- A call of `decode_json`: the chunks taken, what is held of them, and what it returned. -/
structure Decoding (ε : Type u) (δ : Type v) (τ : Type w) where
  consumed : Nat
  buffered : List UInt8
  result : Option (Except (HttpClientError ε δ) τ)

variable {ε : Type u} {δ : Type v} {τ : Type w}

/-- What follows `response.bytes()`. -/
def finish (limit : Nat) (decode : List UInt8 → Except δ τ) (bytes : List UInt8) :
    Except (HttpClientError ε δ) τ :=
  if limit < bytes.length then .error (.bodyTooLarge limit)
  else (decode bytes).mapError .decode

/-- What precedes it. -/
def start (limit : Nat) (response : Response ε) : Decoding ε δ τ where
  consumed := 0
  buffered := []
  result :=
    if isSuccess response.status = false then some (.error (.status response.status))
    else if response.contentLength.any (limit < ·) then some (.error (.bodyTooLarge limit))
    else none

/-- `response.bytes()` asks for the next chunk. -/
def poll (limit : Nat) (decode : List UInt8 → Except δ τ) (body : Feed ε UInt8)
    (call : Decoding ε δ τ) : Decoding ε δ τ :=
  match call.result with
  | some _ => call
  | none =>
      match body call.consumed with
      | some (.ok chunk) =>
          { call with consumed := call.consumed + 1, buffered := call.buffered ++ chunk }
      | some (.error error) => { call with result := some (.error (.transport error)) }
      | none => { call with result := some (finish limit decode call.buffered) }

/-- The call after the body was asked `count` times. -/
def decodeJson (limit : Nat) (decode : List UInt8 → Except δ τ) (response : Response ε) :
    Nat → Decoding ε δ τ
  | 0 => start limit response
  | count + 1 => poll limit decode response.body (decodeJson limit decode response count)

variable {limit : Nat} {decode : List UInt8 → Except δ τ} {response : Response ε}

/-! ## One poll -/

/-- What a poll can do. -/
inductive Polled (limit : Nat) (decode : List UInt8 → Except δ τ) (body : Feed ε UInt8)
    (call next : Decoding ε δ τ) : Prop
  | idle (result : Except (HttpClientError ε δ) τ) (returned : call.result = some result)
      (same : next = call)
  | chunk (bytes : List UInt8) (reading : call.result = none)
      (item : body call.consumed = some (.ok bytes))
      (taken : next = ⟨call.consumed + 1, call.buffered ++ bytes, none⟩)
  | failed (error : ε) (reading : call.result = none)
      (item : body call.consumed = some (.error error))
      (stopped : next = { call with result := some (.error (.transport error)) })
  | ended (reading : call.result = none) (item : body call.consumed = none)
      (stopped : next = { call with result := some (finish limit decode call.buffered) })

theorem poll_cases (limit : Nat) (decode : List UInt8 → Except δ τ) (body : Feed ε UInt8)
    (call : Decoding ε δ τ) : Polled limit decode body call (poll limit decode body call) := by
  rcases call with ⟨consumed, buffered, result⟩
  cases result with
  | some result => exact .idle result rfl rfl
  | none =>
      rcases item : body consumed with _ | error | bytes
      · refine .ended rfl item ?_
        simp only [poll, item]
      · refine .failed error rfl item ?_
        simp only [poll, item]
      · refine .chunk bytes rfl item ?_
        simp only [poll, item]

/-- Why a call returned that took all there was to take. -/
structure Returned (limit : Nat) (decode : List UInt8 → Except δ τ) (response : Response ε)
    (call : Decoding ε δ τ) (result : Except (HttpClientError ε δ) τ) : Prop where
  exhausted : ∀ chunk, response.body call.consumed ≠ some (.ok chunk)
  ended : response.body call.consumed = none → result = finish limit decode call.buffered
  failed : ∀ error, response.body call.consumed = some (.error error) →
    result = .error (.transport error)

/-- The call holds what it took, and takes a chunk with every poll until it returns. -/
structure Reading (limit : Nat) (decode : List UInt8 → Except δ τ) (response : Response ε)
    (count : Nat) (call : Decoding ε δ τ) : Prop where
  buffered : response.body.first call.consumed = some call.buffered
  paced : call.result = none → call.consumed = count
  stopped : ∀ result, call.result = some result → call.consumed < count
  reason : ∀ result, call.result = some result → Returned limit decode response call result

theorem reading_step {count : Nat} {call : Decoding ε δ τ}
    (before : Reading limit decode response count call) :
    Reading limit decode response (count + 1) (poll limit decode response.body call) := by
  cases poll_cases limit decode response.body call with
  | idle result returned same =>
      rw [same]
      refine ⟨before.buffered, ?_, ?_, before.reason⟩
      · intro reading
        cases returned.symm.trans reading
      · intro other stays
        exact (before.stopped other stays).trans (Nat.lt_succ_self count)
  | chunk bytes reading item taken =>
      have paced := before.paced reading
      rw [taken]
      refine ⟨Feed.first_extend before.buffered item, ?_, ?_, ?_⟩
      · intro _
        rw [paced]
      · intro result wrong
        cases wrong
      · intro result wrong
        cases wrong
  | failed error reading item stopped =>
      have paced := before.paced reading
      rw [stopped]
      refine ⟨before.buffered, ?_, ?_, ?_⟩
      · intro wrong
        cases wrong
      · intro result _
        exact Nat.lt_succ_of_le (Nat.le_of_eq paced)
      · intro result same
        cases same
        refine ⟨?_, ?_, ?_⟩
        · intro chunk other
          cases item.symm.trans other
        · intro other
          cases item.symm.trans other
        · intro other same
          cases item.symm.trans same
          rfl
  | ended reading item stopped =>
      have paced := before.paced reading
      rw [stopped]
      refine ⟨before.buffered, ?_, ?_, ?_⟩
      · intro wrong
        cases wrong
      · intro result _
        exact Nat.lt_succ_of_le (Nat.le_of_eq paced)
      · intro result same
        cases same
        refine ⟨?_, fun _ => rfl, ?_⟩
        · intro chunk other
          cases item.symm.trans other
        · intro other same
          cases item.symm.trans same

/-! ## A whole call -/

/-- The body is read: the checks before `response.bytes()` passed. -/
structure Admitted (limit : Nat) (response : Response ε) : Prop where
  success : isSuccess response.status = true
  announced : response.contentLength.any (limit < ·) = false

theorem decodeJson_reading (admitted : Admitted limit response) (count : Nat) :
    Reading limit decode response count (decodeJson limit decode response count) := by
  induction count with
  | zero =>
      have reading : (start limit response : Decoding ε δ τ).result = none := by
        simp [start, admitted.success, admitted.announced]
      refine ⟨rfl, fun _ => rfl, ?_, ?_⟩
      · intro result returned
        cases reading.symm.trans returned
      · intro result returned
        cases reading.symm.trans returned
  | succ count ih => exact reading_step ih

/-- What was returned stays. -/
theorem decodeJson_returned {count : Nat} {result : Except (HttpClientError ε δ) τ}
    (returned : (decodeJson limit decode response count).result = some result) {later : Nat}
    (le : count ≤ later) :
    decodeJson limit decode response later = decodeJson limit decode response count := by
  induction le with
  | refl => rfl
  | step _ ih =>
      rw [decodeJson, ih, poll, returned]

/-- While the body gives chunks the call takes them. -/
theorem decodeJson_reads (admitted : Admitted limit response) {count : Nat}
    {contents : List UInt8} (given : response.body.first count = some contents) :
    decodeJson limit decode response count = ⟨count, contents, none⟩ := by
  have held : Reading limit decode response count (decodeJson limit decode response count) :=
    decodeJson_reading admitted count
  generalize decodeJson limit decode response count = call at held ⊢
  rcases call with ⟨consumed, buffered, result⟩
  cases result with
  | none =>
      have paced : consumed = count := held.paced rfl
      subst paced
      cases given.symm.trans held.buffered
      rfl
  | some result =>
      have exhausted := (held.reason result rfl).exhausted
      cases given.symm.trans (Feed.first_eq_none exhausted (held.stopped result rfl))

/-- A body that ends is decoded, or found to be too large. -/
theorem decodeJson_ends (admitted : Admitted limit response) {count : Nat}
    {contents : List UInt8} (given : response.body.first count = some contents)
    (ends : response.body count = none) :
    decodeJson limit decode response (count + 1) =
      ⟨count, contents, some (finish limit decode contents)⟩ := by
  rw [decodeJson, decodeJson_reads admitted given, poll]
  simp only [ends]

/-- A body without end is read for ever. -/
theorem decodeJson_endless (admitted : Admitted limit response)
    (endless : ∀ count, ∃ chunk, response.body count = some (.ok chunk)) (count : Nat) :
    (decodeJson limit decode response count).result = none ∧
      (decodeJson limit decode response count).consumed = count := by
  have given : ∃ contents, response.body.first count = some contents := by
    induction count with
    | zero => exact ⟨[], rfl⟩
    | succ count ih =>
        obtain ⟨before, here⟩ := ih
        obtain ⟨chunk, next⟩ := endless count
        exact ⟨before ++ chunk, Feed.first_extend here next⟩
  obtain ⟨contents, here⟩ := given
  rw [decodeJson_reads admitted here]
  exact ⟨rfl, rfl⟩

/-! ## The limit -/

/-- What `max_response_bytes` promises of a body without a declared length. -/
structure BoundsBody (limit : Nat) (decode : List UInt8 → Except δ τ) (response : Response ε) :
    Prop where
  /-- The first chunks that exceed the limit are the last ones taken. -/
  refused : ∀ count, response.body.ExceedsAt limit count → ∃ polls,
    (decodeJson limit decode response polls).consumed = count ∧
      (decodeJson limit decode response polls).result = some (.error (.bodyTooLarge limit))
  /-- Nothing beyond them is held at any time. -/
  frugal : ∀ count contents, response.body.ExceedsAt limit count →
    response.body.first count = some contents → ∀ polls,
      (decodeJson limit decode response polls).buffered <+: contents
  /-- What is decoded, or fails to, is a whole body within the limit. -/
  decoded : ∀ polls outcome,
    (decodeJson limit decode response polls).result = some (Except.mapError .decode outcome) →
      ∃ count contents, response.body.first count = some contents ∧
        response.body count = none ∧ contents.length ≤ limit ∧ decode contents = outcome

theorem finish_within {bytes : List UInt8} (le : bytes.length ≤ limit) :
    (finish limit decode bytes : Except (HttpClientError ε δ) τ) =
      (decode bytes).mapError .decode :=
  if_neg (Nat.not_lt.mpr le)

theorem finish_beyond {bytes : List UInt8} (more : limit < bytes.length) :
    (finish limit decode bytes : Except (HttpClientError ε δ) τ) =
      .error (.bodyTooLarge limit) :=
  if_pos more

theorem mapError_decode_injective {first second : Except δ τ}
    (same : (first.mapError .decode : Except (HttpClientError ε δ) τ) = second.mapError .decode) :
    first = second := by
  cases first <;> cases second <;> cases same <;> rfl

theorem mapError_decode_ne_transport {outcome : Except δ τ} {error : ε} :
    (outcome.mapError .decode : Except (HttpClientError ε δ) τ) ≠ .error (.transport error) := by
  intro same
  cases outcome <;> cases same

theorem mapError_decode_ne_bodyTooLarge {outcome : Except δ τ} :
    (outcome.mapError .decode : Except (HttpClientError ε δ) τ) ≠
      .error (.bodyTooLarge limit) := by
  intro same
  cases outcome <;> cases same

/-- What is returned of a body was decoded from the whole of it, and only within the limit. -/
theorem decodeJson_decoded (admitted : Admitted limit response) {polls : Nat}
    {outcome : Except δ τ}
    (returned : (decodeJson limit decode response polls).result =
      some (Except.mapError .decode outcome)) :
    ∃ count contents, response.body.first count = some contents ∧
      response.body count = none ∧ contents.length ≤ limit ∧ decode contents = outcome := by
  have held : Reading limit decode response polls (decodeJson limit decode response polls) :=
    decodeJson_reading admitted polls
  have reason := held.reason _ returned
  rcases item : response.body (decodeJson limit decode response polls).consumed
    with _ | error | chunk
  · have same := reason.ended item
    refine ⟨_, _, held.buffered, item, ?_⟩
    rcases Nat.lt_or_ge limit (decodeJson limit decode response polls).buffered.length
      with more | le
    · rw [finish_beyond more] at same
      exact (mapError_decode_ne_bodyTooLarge same).elim
    · rw [finish_within le] at same
      exact ⟨le, (mapError_decode_injective same).symm⟩
  · exact (mapError_decode_ne_transport (reason.failed error item)).elim
  · exact (reason.exhausted chunk item).elim

/-- The limit holds of a body exactly when the body ends with the first chunks that exceed it:
nothing is compared before the whole body is there. -/
theorem bounds_body_iff (success : isSuccess response.status = true)
    (chunked : response.contentLength = none) :
    BoundsBody limit decode response ↔
      ∀ count, response.body.ExceedsAt limit count → response.body count = none := by
  have admitted : Admitted limit response := ⟨success, by rw [chunked]; rfl⟩
  constructor
  · intro bounded count exceeding
    obtain ⟨polls, consumed, returned⟩ := bounded.refused count exceeding
    have held : Reading limit decode response polls (decodeJson limit decode response polls) :=
      decodeJson_reading admitted polls
    have reason := held.reason _ returned
    rw [← consumed]
    rcases item : response.body (decodeJson limit decode response polls).consumed
      with _ | error | chunk
    · rfl
    · cases reason.failed error item
    · exact (reason.exhausted chunk item).elim
  · intro ends
    refine ⟨?_, ?_, fun polls outcome => decodeJson_decoded admitted⟩
    · intro count exceeding
      obtain ⟨contents, given, long⟩ := exceeding.exceeds
      refine ⟨count + 1, ?_⟩
      rw [decodeJson_ends admitted given (ends count exceeding), finish_beyond long]
      exact ⟨rfl, rfl⟩
    · intro count contents exceeding given polls
      have reading : Reading limit decode response polls (decodeJson limit decode response polls) :=
        decodeJson_reading admitted polls
      have held := reading.buffered
      rcases Nat.lt_or_ge count (decodeJson limit decode response polls).consumed
        with further | within
      · have stopped : ∀ chunk, response.body count ≠ some (.ok chunk) := by
          intro chunk next
          rw [ends count exceeding] at next
          cases next
        cases held.symm.trans (Feed.first_eq_none stopped further)
      · obtain ⟨part, here, inside⟩ := Feed.first_mono within given
        cases here.symm.trans held
        exact inside

/-- A decoder that takes every body. -/
def acceptAll (_ : List UInt8) : Except Unit Unit :=
  .ok ()

/-- Five bytes in one chunk, and the end. -/
def whole : Response String :=
  ⟨200, none, fun count => if count = 0 then some (.ok [1, 2, 3, 4, 5]) else none⟩

theorem bounds_body_whole :
    BoundsBody 4 acceptAll whole := by
  refine (bounds_body_iff rfl rfl).mpr ?_
  intro count exceeding
  obtain ⟨contents, given, long⟩ := exceeding.exceeds
  cases count with
  | zero =>
      cases given
      cases long
  | succ count => rfl

/-- A byte, a byte, and no end. -/
def drip : Response String :=
  ⟨200, none, fun _ => some (.ok [0x20])⟩

theorem drip_first (count : Nat) :
    drip.body.first count = some (List.replicate count 0x20) := by
  induction count with
  | zero => rfl
  | succ count ih =>
      rw [List.replicate_succ']
      exact Feed.first_extend ih rfl

theorem drip_exceedsAt : drip.body.ExceedsAt 4 5 := by
  refine ⟨⟨_, drip_first 5, by simp⟩, ?_⟩
  intro fewer contents less given
  cases (drip_first fewer).symm.trans given
  rw [List.length_replicate]
  omega

/-- With a limit of four bytes the call never returns, and it holds every byte that came. -/
theorem bounds_body_drip :
    ¬BoundsBody 4 acceptAll drip ∧
      ∀ count, (decodeJson 4 acceptAll drip count).result = none ∧
        (decodeJson 4 acceptAll drip count).buffered.length =
          count := by
  have admitted : Admitted 4 drip := ⟨rfl, rfl⟩
  refine ⟨?_, ?_⟩
  · intro bounded
    obtain ⟨polls, _, returned⟩ := bounded.refused 5 drip_exceedsAt
    rw [decodeJson_reads admitted (drip_first polls)] at returned
    cases returned
  · intro count
    rw [decodeJson_reads admitted (drip_first count)]
    exact ⟨rfl, List.length_replicate⟩

end RustZero.HttpClient
