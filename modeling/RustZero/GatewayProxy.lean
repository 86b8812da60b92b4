import Mathlib
import RustZero.Http

/-!
# Response of the gateway proxy

`gateway/src/lib.rs`, `dispatch_upstream`: what the gateway makes of an upstream's response.
The headers are copied one at a time with `insert_header`, which replaces, so of a header
that the upstream sent several times the last value is left.

The HTTP client is what it answered.  Building a streaming response gives it a content type
if it has none; which one is the parameter `defaultType`.
-/

namespace RustZero.Gateway

open Http

/-- Characters of a header name. -/
def isTokenChar (char : Char) : Bool :=
  char.isAlphanum || "!#$%&'*+-.^_`|~".toList.contains char

/-- `HeaderName::try_from`: a token of bounded length, in lower case. -/
def parseHeaderName (name : String) : Option String :=
  if name ≠ "" ∧ name.toList.all isTokenChar ∧ name.length < 2 ^ 16 then some name.toLower
  else none

/-- `HeaderValue::from_bytes`. -/
def parseHeaderValue (bytes : List UInt8) : Option HeaderValue :=
  if bytes.all fun byte => (32 ≤ byte && byte != 127) || byte == 9 then some bytes else none

/-- A response of the HTTP client, whose types hold valid names and values only. -/
structure UpstreamResponse where
  status : Nat
  headers : Headers
  contentLength : Option Nat
  /-- The body as it arrives; `none` is a failure of the connection. -/
  chunks : List (Option (List UInt8))
  valid : ∀ header ∈ headers, parseHeaderName header.1 = some header.1 ∧
    parseHeaderValue header.2 = some header.2

/-- What `Client::execute` gives. -/
inductive Executed where
  | response (response : UpstreamResponse)
  | timeout
  | unavailable

inductive DownstreamBody where
  | text (message : String)
  | stream (chunks : List (Except String (List UInt8)))

structure DownstreamResponse where
  status : Nat
  headers : Headers
  body : DownstreamBody

def isHopByHop (name : String) : Bool :=
  ["connection", "keep-alive", "proxy-authenticate", "proxy-authorization", "te", "trailer",
    "transfer-encoding", "upgrade"].contains name.toLower

/-- `StatusCode::from_u16`, or else `BAD_GATEWAY`. -/
def downstreamStatus (status : Nat) : Nat :=
  if 100 ≤ status ∧ status < 1000 then status else 502

/-- The stream with its count of the bytes received. -/
def relayBody (limit : Nat) :
    Nat → List (Option (List UInt8)) → List (Except String (List UInt8))
  | _, [] => []
  | received, none :: rest => .error "invalid upstream response" :: relayBody limit received rest
  | received, some chunk :: rest =>
      let received := min (received + chunk.length) (2 ^ 64 - 1)
      let relayed :=
        if limit < received then .error "gateway response body limit exceeded" else .ok chunk
      relayed :: relayBody limit received rest

/-- `insert_header` for a pair of the loop. -/
def insertParsed (headers : Headers) (header : String × List UInt8) : Headers :=
  match parseHeaderName header.1, parseHeaderValue header.2 with
  | some name, some value => headers.insert name value
  | _, _ => headers

/-- `HttpResponseBuilder::streaming` on the headers. -/
def setDefaultType (defaultType : Option HeaderValue) (headers : Headers) : Headers :=
  match defaultType with
  | none => headers
  | some value =>
      if headers.containsKey "content-type" then headers else headers.insert "content-type" value

def dispatchUpstream (defaultType : Option HeaderValue) (responseBodyLimit : Nat) :
    Executed → DownstreamResponse
  | .timeout => ⟨504, [], .text "gateway upstream timed out"⟩
  | .unavailable => ⟨502, [], .text "gateway upstream unavailable"⟩
  | .response response =>
      if response.contentLength.any fun length => responseBodyLimit < length then
        ⟨502, [], .text "gateway response body limit exceeded"⟩
      else
        let headers := response.headers.filter fun header =>
          !isHopByHop header.1 && header.1 != "content-length"
        ⟨downstreamStatus response.status,
          setDefaultType defaultType (headers.foldl insertParsed []),
          .stream (relayBody responseBodyLimit 0 response.chunks)⟩

/-! ## What it is for -/

/-- The headers a proxy passes on. -/
def Forwarded (name : String) : Prop := isHopByHop name = false ∧ name ≠ "content-length"

/-- All values of the headers passed on arrive, in order. -/
def ForwardsHeaders (defaultType : Option HeaderValue) (responseBodyLimit : Nat)
    (response : UpstreamResponse) : Prop :=
  ∀ name, Forwarded name →
    (dispatchUpstream defaultType responseBodyLimit (.response response)).headers.values name =
      response.headers.values name

section Copying

variable {headers : Headers} {name : String}

/-- Of a header that is inserted repeatedly the last value is left. -/
theorem values_foldl_insertParsed
    (valid : ∀ header ∈ headers, parseHeaderName header.1 = some header.1 ∧
      parseHeaderValue header.2 = some header.2) (name : String) :
    (headers.foldl insertParsed []).values name = (headers.values name).getLast?.toList := by
  induction headers using List.reverseRecOn with
  | nil => rfl
  | append_singleton earlier header ih =>
      obtain ⟨key, value⟩ := header
      have inserted : insertParsed (earlier.foldl insertParsed []) (key, value) =
          (earlier.foldl insertParsed []).insert key value := by
        obtain ⟨parsedName, parsedValue⟩ := valid (key, value) (by simp)
        simp only [insertParsed, parsedName, parsedValue]
      rw [List.foldl_append, List.foldl_cons, List.foldl_nil, inserted, Headers.values_insert,
        Headers.values_append]
      by_cases same : name = key
      · subst same
        simp [Headers.values]
      · have other : ¬key = name := Ne.symm same
        rw [if_neg same, ih fun header member => valid header (by simp [member])]
        simp [Headers.values, other]

theorem toList_getLast?_eq {α : Type} (values : List α) :
    values.getLast?.toList = values ↔ values.length ≤ 1 := by
  constructor
  · intro same
    rw [← same]
    cases values.getLast? <;> simp
  · intro few
    cases values with
    | nil => rfl
    | cons first rest =>
        have none : rest = [] := List.length_eq_zero_iff.mp (by simpa using few)
        rw [none]
        rfl

/-- The filter passes all values of the headers that are forwarded. -/
theorem values_forwarded (forwarded : Forwarded name) :
    Headers.values
        (headers.filter fun header => !isHopByHop header.1 && header.1 != "content-length") name =
      headers.values name := by
  simp only [Headers.values, List.filter_filter]
  congr 1
  refine List.filter_congr ?_
  intro header _
  by_cases mine : header.1 = name
  · simp [mine, forwarded.1, forwarded.2]
  · simp [mine]

theorem values_setDefaultType (defaultType : Option HeaderValue) :
    (setDefaultType defaultType headers).values name =
      if name = "content-type" ∧ headers.values name = [] then defaultType.toList
      else headers.values name := by
  cases defaultType with
  | none =>
      by_cases mine : name = "content-type" ∧ headers.values name = []
      · simp [setDefaultType, mine]
      · simp [setDefaultType, mine]
  | some value =>
      simp only [setDefaultType]
      by_cases present : headers.containsKey "content-type" = true
      · have listed := (headers.containsKey_iff "content-type").mp present
        have differs : ¬(name = "content-type" ∧ headers.values name = []) := by
          intro held
          rw [held.1] at held
          exact listed held.2
        rw [if_pos present, if_neg differs]
      · have none : headers.values "content-type" = [] := by
          by_contra listed
          exact present ((headers.containsKey_iff "content-type").mpr listed)
        rw [if_neg present, Headers.values_insert]
        by_cases same : name = "content-type"
        · subst same
          simp [none]
        · simp [same]

end Copying

/-- A response is relayed with all its headers exactly if none of them comes twice and the
default content type is not needed; one that is too long is not relayed. -/
theorem forwards_headers_iff (defaultType : Option HeaderValue) (responseBodyLimit : Nat)
    (response : UpstreamResponse) :
    ForwardsHeaders defaultType responseBodyLimit response ↔
      if response.contentLength.any fun length => responseBodyLimit < length then
        ∀ name, Forwarded name → response.headers.values name = []
      else
        (∀ name, Forwarded name → (response.headers.values name).length ≤ 1) ∧
          (defaultType = none ∨ response.headers.values "content-type" ≠ []) := by
  unfold ForwardsHeaders
  simp only [dispatchUpstream]
  split
  · refine forall₂_congr ?_
    intro name _
    exact eq_comm
  · have copied {name : String} (forwarded : Forwarded name) :
        ((response.headers.filter fun header =>
            !isHopByHop header.1 && header.1 != "content-length").foldl insertParsed []).values
              name =
          (response.headers.values name).getLast?.toList := by
      rw [values_foldl_insertParsed, values_forwarded forwarded]
      intro header member
      exact response.valid header (List.mem_filter.mp member).1
    have emptied {name : String} : (response.headers.values name).getLast?.toList = [] ↔
        response.headers.values name = [] := by
      rw [Option.toList_eq_nil_iff, List.getLast?_eq_none_iff]
    constructor
    · intro forwards
      refine ⟨?_, ?_⟩
      · intro name forwarded
        have same := forwards name forwarded
        rw [values_setDefaultType, copied forwarded] at same
        simp only [emptied] at same
        split at same
        · rename_i none
          rw [none.2]
          exact Nat.zero_le 1
        · exact (toList_getLast?_eq _).mp same
      · by_contra held
        push Not at held
        obtain ⟨some, none⟩ := held
        have forwarded : Forwarded "content-type" := ⟨by decide +kernel, by decide⟩
        have same := forwards _ forwarded
        rw [values_setDefaultType, copied forwarded, if_pos ⟨rfl, emptied.mpr none⟩, none,
          Option.toList_eq_nil_iff] at same
        exact some same
    · intro held name forwarded
      obtain ⟨single, typed⟩ := held
      have same := (toList_getLast?_eq _).mpr (single name forwarded)
      rw [values_setDefaultType, copied forwarded]
      simp only [emptied]
      split
      · rename_i none
        obtain ⟨here, none⟩ := none
        rcases typed with absent | present
        · rw [absent, none]
          rfl
        · exact absurd (here ▸ none) present
      · exact same

/-- The bytes that a stream lets through. -/
def passedBytes (chunks : List (Except String (List UInt8))) : Nat :=
  (chunks.map fun chunk => chunk.toOption.elim 0 List.length).sum

theorem passedBytes_cons (chunk : Except String (List UInt8))
    (rest : List (Except String (List UInt8))) :
    passedBytes (chunk :: rest) = chunk.toOption.elim 0 List.length + passedBytes rest := by
  simp [passedBytes]

theorem passedBytes_error (message : String) (rest : List (Except String (List UInt8))) :
    passedBytes (.error message :: rest) = passedBytes rest := by
  rw [passedBytes_cons]
  exact Nat.zero_add _

theorem relayBody_exceeded {limit received : Nat} (exceeded : limit < received)
    (bounded : received < 2 ^ 64) (chunks : List (Option (List UInt8))) :
    passedBytes (relayBody limit received chunks) = 0 := by
  induction chunks generalizing received with
  | nil => rfl
  | cons chunk rest ih =>
      cases chunk with
      | none =>
          rw [relayBody, passedBytes_error]
          exact ih exceeded bounded
      | some bytes =>
          have further : limit < min (received + bytes.length) (2 ^ 64 - 1) := by omega
          simp only [relayBody]
          rw [if_pos further, passedBytes_error]
          exact ih further (by omega)

/-- The stream never lets more through than the limit, unless that is the greatest number. -/
theorem relayBody_le {limit : Nat} (below : limit < 2 ^ 64 - 1) {received : Nat}
    (within : received ≤ limit) (chunks : List (Option (List UInt8))) :
    received + passedBytes (relayBody limit received chunks) ≤ limit := by
  induction chunks generalizing received with
  | nil => exact within
  | cons chunk rest ih =>
      cases chunk with
      | none =>
          rw [relayBody, passedBytes_error]
          exact ih within
      | some bytes =>
          simp only [relayBody]
          by_cases exceeded : limit < min (received + bytes.length) (2 ^ 64 - 1)
          · rw [if_pos exceeded, passedBytes_error, relayBody_exceeded exceeded (by omega)]
            exact within
          · have same : min (received + bytes.length) (2 ^ 64 - 1) = received + bytes.length := by
              omega
            rw [if_neg exceeded, passedBytes_cons, same]
            have later := ih (same ▸ Nat.le_of_not_lt exceeded)
            rw [← Nat.add_assoc]
            exact later

/-- A response that sets two cookies. -/
def twoCookies : UpstreamResponse where
  status := 200
  headers := [("content-type", headerValue "text/plain"), ("set-cookie", headerValue "a=1"),
    ("set-cookie", headerValue "b=2")]
  contentLength := none
  chunks := []
  valid := by decide +kernel

/-- The second cookie replaces the first. -/
theorem dispatch_loses_cookie :
    ¬ForwardsHeaders (some (headerValue "application/octet-stream")) 1024 twoCookies := by
  intro forwards
  have same := forwards "set-cookie" ⟨by decide +kernel, by decide⟩
  revert same
  decide +kernel

end RustZero.Gateway
