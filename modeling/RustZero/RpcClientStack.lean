import RustZero.Lib.Latch
import RustZero.Lib.Lts
import RustZero.Lib.Phases
import RustZero.Lib.Utf8
import RustZero.RpcServerStack

/-!
# The client stack of gRPC calls

`RpcClientStackService` of `rpc/src/stack.rs`: a call is given credentials, a trace context and a
deadline, and runs behind the circuit breaker of the dependency.

* `prepare` is what the stack writes into the headers, and `hop_received` what the server stack
  of the callee reads out of them.
* A call holds its permit in the future and then in `RpcCircuitBody`, which is a latch: the first
  event that says what came of the call takes the permit out.  `circuit_accounted` compares the
  breaker with the calls.
-/

namespace RustZero.Rpc.Client

open Lib Http Stack
open Breaker (CircuitOutcome)
open ServerBreaker (BreakerMode CircuitBreaker count counters_of_acquire)
open Discov (isWhitespace)
open RoutePolicies (bearerToken trim)
open RpcTimeout (grpcTimeout parseGrpcTimeout)
open Trace (TraceContext TraceFlags Built)

/-! ## Header values -/

theorem visible_of_chars {text : String}
    (plain : ∀ char ∈ text.toList, 32 ≤ char.toNat ∧ char.toNat < 127) :
    ∀ byte ∈ utf8 text, visible byte = true := by
  intro byte member
  rw [utf8_eq_flatMap, List.mem_flatMap] at member
  obtain ⟨char, inside, member⟩ := member
  obtain ⟨above, below⟩ := plain char inside
  rw [utf8EncodeChar_ascii (by omega), List.mem_singleton] at member
  subst member
  have small : (UInt8.ofNat char.toNat).toNat = char.toNat := by
    rw [UInt8.toNat_ofNat', Nat.mod_eq_of_lt (by omega)]
  simp only [visible, Bool.or_eq_true, Bool.and_eq_true, decide_eq_true_eq]
  refine .inl ⟨?_, ?_⟩
  · rw [UInt8.le_iff_toNat_le, small]
    exact above
  · rw [UInt8.lt_iff_toNat_lt, small]
    exact below

theorem visible_traceparent (context : TraceContext) :
    ∀ byte ∈ utf8 context.traceparent, visible byte = true := by
  have digits (bytes : List UInt8) :
      ∀ digit ∈ bytes.flatMap Trace.hexBytes, visible digit = true := by
    intro digit member
    have lower := (Trace.hexBytes_lower bytes digit member).1
    simp only [Trace.isLowerHex, Bool.or_eq_true, Bool.and_eq_true, decide_eq_true_eq,
      UInt8.le_iff_toNat_le, UInt8.reduceToNat] at lower
    simp only [visible, Bool.or_eq_true, Bool.and_eq_true, decide_eq_true_eq,
      UInt8.le_iff_toNat_le, UInt8.lt_iff_toNat_lt, UInt8.reduceToNat]
    omega
  have start : ∀ byte ∈ utf8 "00-", visible byte = true := by decide +kernel
  intro byte member
  rw [Trace.traceparent_bytes] at member
  rcases List.mem_append.mp member with front | member
  · exact start byte front
  rcases List.mem_append.mp member with trace | member
  · exact digits _ byte trace
  rcases List.mem_cons.mp member with dash | member
  · rw [dash]
    rfl
  rcases List.mem_append.mp member with span | member
  · exact digits _ byte span
  rcases List.mem_cons.mp member with dash | flags
  · rw [dash]
    rfl
  · exact digits _ byte flags

theorem visible_grpcTimeout {timeout : Nat} (positive : 0 < timeout) :
    ∀ byte ∈ utf8 (grpcTimeout timeout), visible byte = true := by
  rcases Nat.lt_or_ge RpcTimeout.longest timeout with long | short
  · rw [RpcTimeout.saturates long]
    decide +kernel
  · obtain ⟨unit, survives⟩ := RpcTimeout.survives positive short
    obtain ⟨digits, text, _, _, all⟩ := survives.text
    refine visible_of_chars ?_
    intro char member
    rw [text] at member
    rcases List.mem_append.mp member with digit | letter
    · have numeral := all char digit
      simp only [Char.isDigit, Bool.and_eq_true, decide_eq_true_eq, ge_iff_le,
        UInt32.le_iff_toNat_le] at numeral
      have low : (48 : Nat) ≤ char.toNat := numeral.1
      have high : char.toNat ≤ 57 := numeral.2
      omega
    · rw [List.mem_singleton] at letter
      subst letter
      cases unit <;> decide

/-! ## What a call is given -/

/-- `BearerToken::new`: the value of the header, where it is accepted as one. -/
def BearerToken.new (token : String) : HeaderValue :=
  utf8 ("Bearer " ++ token)

/-- What `RpcClientStackBuilder` configures; a token is its header value. -/
structure Config where
  token : Option HeaderValue
  /-- In nanoseconds. -/
  defaultTimeout : Option { timeout : Nat // 0 < timeout }
  breaker : Bool

structure Outgoing where
  headers : Headers
  /-- The context in the extensions, if there is one. -/
  trace : Option { context : TraceContext // Built context }

/-- `traceparent` of the headers. -/
def parentOf (headers : Headers) : Option TraceContext :=
  match (headers.text "traceparent").bind TraceContext.parse with
  | some (.ok parent) => some parent
  | _ => none

/-- The context of a call; identifiers take a time and values of the counter. -/
def traceOf (parent : Option TraceContext) (time first second : Nat) : TraceContext :=
  match parent with
  | some parent => parent.child first
  | none => .root time first second ⟨1⟩

def authorize (config : Config) (headers : Headers) : Headers :=
  match config.token with
  | some token => headers.insert "authorization" token
  | none => headers

def setDeadline (config : Config) (headers : Headers) : Headers :=
  if headers.containsKey "grpc-timeout" then headers
  else match config.defaultTimeout with
    | some timeout => headers.insert "grpc-timeout" (utf8 (grpcTimeout timeout.1))
    | none => headers

/-- The first part of `call`. -/
def prepare (config : Config) (request : Outgoing) (time first second : Nat) :
    Headers × TraceContext :=
  let headers := authorize config request.headers
  let trace := traceOf (request.trace.map Subtype.val <|> parentOf headers) time first second
  (setDeadline config (headers.insert "traceparent" (utf8 trace.traceparent)), trace)

/-! ## What the callee reads -/

/-- The scheme that `BearerToken` writes. -/
theorem bearerToken_written (token : String) : bearerToken ("Bearer " ++ token) =
    if trim token.toList ≠ [] ∧ (trim token.toList).any isWhitespace = false then
      some (String.ofList (trim token.toList))
    else none := by
  have letters : ("Bearer " ++ token).toList = "Bearer".toList ++ ' ' :: token.toList := by
    rw [String.toList_append]
    rfl
  have spelled : "Bearer".toList = ['B', 'e', 'a', 'r', 'e', 'r'] := rfl
  have words : ∀ char ∈ "Bearer".toList, (!isWhitespace char) = true := by
    rw [spelled]
    simp [isWhitespace]
  have scheme : ("Bearer " ++ token).toList.span (fun char => !isWhitespace char) =
      ("Bearer".toList, ' ' :: token.toList) := by
    rw [letters, List.span_eq_takeWhile_dropWhile, List.takeWhile_append_of_pos words,
      List.dropWhile_append_of_pos words]
    rfl
  have named : Auth.EqIgnoreAsciiCase (String.ofList "Bearer".toList) "bearer" := by
    decide +kernel
  simp only [bearerToken, scheme]
  by_cases whole : trim token.toList ≠ [] ∧ (trim token.toList).any isWhitespace = false
  · rw [if_pos whole]
    exact if_pos ⟨named, whole⟩
  · rw [if_neg whole]
    exact if_neg fun all => whole all.2

theorem headerText_bearer (token : String) : headerText (BearerToken.new token) =
    if (utf8 token).all visible then some ("Bearer " ++ token) else none := by
  have scheme : (utf8 "Bearer ").all visible = true := by decide +kernel
  have all : (utf8 ("Bearer " ++ token)).all visible = (utf8 token).all visible := by
    rw [utf8_append, List.all_append, scheme, Bool.true_and]
  unfold BearerToken.new
  split
  case isTrue plain =>
    rw [← all] at plain
    exact headerText_utf8 (List.all_eq_true.mp plain)
  case isFalse hidden =>
    rw [← all] at hidden
    exact if_neg hidden

theorem built_traceOf {parent : Option TraceContext} (built : ∀ context ∈ parent, Built context)
    (time first second : Nat) : Built (traceOf parent time first second) := by
  cases parent with
  | none => exact .root _ _ _ _
  | some context => exact .child _ (built context rfl)

theorem built_parentOf (headers : Headers) : ∀ context ∈ parentOf headers, Built context := by
  intro context read
  unfold parentOf at read
  split at read
  · rename_i parent parsed
    cases read
    obtain ⟨value, _, parsed⟩ := Option.bind_eq_some_iff.mp parsed
    exact .parse parsed
  · cases read

section Prepare

variable (config : Config) (request : Outgoing) (time first second : Nat)

theorem built_prepare : Built (prepare config request time first second).2 := by
  apply built_traceOf
  intro context member
  cases given : request.trace with
  | none =>
      rw [given] at member
      exact built_parentOf _ context member
  | some parent =>
      rw [given] at member
      cases member
      exact parent.2

theorem get_authorize {name : String} (other : name ≠ "authorization") (headers : Headers) :
    (authorize config headers).get name = headers.get name := by
  unfold authorize
  split
  · exact Headers.get_insert_of_ne _ _ other
  · rfl

theorem get_setDeadline {name : String} (other : name ≠ "grpc-timeout") (headers : Headers) :
    (setDeadline config headers).get name = headers.get name := by
  unfold setDeadline
  split
  · rfl
  · split
    · exact Headers.get_insert_of_ne _ _ other
    · rfl

theorem get_traceparent : (prepare config request time first second).1.get "traceparent" =
    some (utf8 (prepare config request time first second).2.traceparent) := by
  unfold prepare
  rw [get_setDeadline config (by decide), Headers.get_insert_self]

theorem get_authorization (token : HeaderValue) (given : config.token = some token) :
    (prepare config request time first second).1.get "authorization" = some token := by
  unfold prepare
  rw [get_setDeadline config (by decide), Headers.get_insert_of_ne _ _ (by decide), authorize,
    given]
  exact Headers.get_insert_self _ _ _

/-- A deadline that the caller set is kept, and another is the default. -/
theorem get_setDeadline_self (headers : Headers) :
    (setDeadline config headers).get "grpc-timeout" = (headers.get "grpc-timeout" <|>
      config.defaultTimeout.map fun timeout => utf8 (grpcTimeout timeout.1)) := by
  unfold setDeadline
  cases given : headers.get "grpc-timeout" with
  | some value =>
      have contains : headers.containsKey "grpc-timeout" = true := by
        rw [Headers.containsKey, given]
        rfl
      rw [if_pos contains, given]
      rfl
  | none =>
      have lacks : ¬headers.containsKey "grpc-timeout" = true := by
        rw [Headers.containsKey, given]
        exact Bool.false_ne_true
      rw [if_neg lacks]
      cases config.defaultTimeout with
      | some timeout => exact Headers.get_insert_self _ _ _
      | none => exact given

theorem get_grpcTimeout : (prepare config request time first second).1.get "grpc-timeout" =
    (request.headers.get "grpc-timeout" <|>
      config.defaultTimeout.map fun timeout => utf8 (grpcTimeout timeout.1)) := by
  unfold prepare
  rw [get_setDeadline_self, Headers.get_insert_of_ne _ _ (by decide),
    get_authorize config (by decide)]

end Prepare

/-- What reaches the callee of a call through the two stacks. -/
structure Received {τ : Type} (config : Config) (request : Outgoing) (sent : TraceContext)
    (server : Stack.Config τ) (call : Call τ) : Prop where
  /-- The span of the callee is a child of that of the caller. -/
  trace : call.trace.traceId = sent.traceId ∧ call.trace.parentSpanId = some sent.spanId ∧
    call.trace.flags = sent.flags
  /-- The span of the caller is a child of the context it runs in. -/
  parent : ∀ parent, request.trace = some parent → sent.traceId = parent.1.traceId ∧
    sent.parentSpanId = some parent.1.spanId ∧ sent.flags = parent.1.flags
  given : ∀ value, request.headers.get "grpc-timeout" = some value →
    call.request.deadline = (headerText value).bind parseGrpcTimeout
  /-- The default deadline is no earlier than configured, unless it is the longest. -/
  default : request.headers.get "grpc-timeout" = none → ∀ timeout,
    config.defaultTimeout = some timeout → ∃ deadline, call.request.deadline = some deadline ∧
      if timeout.1 ≤ RpcTimeout.longest then
        ∃ unit, RpcTimeout.Survives timeout.1 unit ∧
          deadline = (timeout.1 ⌈/⌉ unit.divisor) * unit.divisor
      else deadline = RpcTimeout.longest
  undated : request.headers.get "grpc-timeout" = none → config.defaultTimeout = none →
    call.request.deadline = none
  /-- The validator is given the token without the blanks around it. -/
  identity : ∀ token, config.token = some (BearerToken.new token) →
    ∀ auth, server.auth = some auth →
      if (utf8 token).all visible ∧ trim token.toList ≠ [] ∧
          (trim token.toList).any isWhitespace = false then
        call.identity = auth (String.ofList (trim token.toList)) ∧
          (call.phase = .refused .unauthenticated ↔
            auth (String.ofList (trim token.toList)) = none)
      else call.phase = .refused .unauthenticated

theorem receive_trace {τ : Type} (server : Stack.Config τ) (now : Nat) (request : Stack.Request)
    (time first second : Nat) : (receive server now request time first second).trace =
      Stack.traceOf request.headers time first second := by
  unfold receive
  split
  · rfl
  · split <;> rfl

theorem receive_request {τ : Type} (server : Stack.Config τ) (now : Nat)
    (request : Stack.Request) (time first second : Nat) :
    (receive server now request time first second).request = request := by
  unfold receive
  split
  · rfl
  · split <;> rfl

/-- Trace, deadline and credentials that the client stack gives a call are what the server stack
of the callee takes it with. -/
theorem hop_received {τ : Type} (config : Config) (request : Outgoing)
    (time first second : Nat) (server : Stack.Config τ) (now : Nat) (path : String)
    (time' first' second' : Nat) :
    Received config request (prepare config request time first second).2 server
      (receive server now ⟨path, (prepare config request time first second).1⟩ time' first'
        second') := by
  have built := built_prepare config request time first second
  have read := Headers.text_of_get (get_traceparent config request time first second)
    (visible_traceparent _)
  have parsed := Trace.parse_traceparent built.ne_zero.1 built.ne_zero.2
  refine ⟨?_, ?_, ?_, ?_, ?_, ?_⟩
  · rw [receive_trace, Stack.traceOf, read, Option.bind_some, parsed]
    exact ⟨rfl, rfl, rfl⟩
  · intro parent given
    unfold prepare
    rw [given]
    exact ⟨rfl, rfl, rfl⟩
  · intro value given
    rw [receive_request, Request.deadline, Headers.text, get_grpcTimeout, given]
    rfl
  · intro none timeout default
    have written := get_grpcTimeout config request time first second
    rw [none, default] at written
    have text := Headers.text_of_get written (visible_grpcTimeout timeout.2)
    rw [receive_request, Request.deadline, text, Option.bind_some]
    rcases Nat.lt_or_ge RpcTimeout.longest timeout.1 with long | short
    · refine ⟨RpcTimeout.longest, ?_, ?_⟩
      · rw [RpcTimeout.saturates long, RpcTimeout.parse_saturated]
      · rw [if_neg (Nat.not_le.mpr long)]
    · obtain ⟨unit, survives⟩ := RpcTimeout.survives timeout.2 short
      refine ⟨_, survives.parsed, ?_⟩
      rw [if_pos short]
      exact ⟨unit, survives, rfl⟩
  · intro none default
    rw [receive_request, Request.deadline, Headers.text, get_grpcTimeout, none, default]
    rfl
  · intro token given auth guarded
    have written := get_authorization config request time first second _ given
    have presented : Request.token ⟨path, (prepare config request time first second).1⟩ =
        if (utf8 token).all visible then bearerToken ("Bearer " ++ token) else none := by
      rw [Request.token, Headers.text, written, Option.bind_some, headerText_bearer]
      split <;> rfl
    unfold receive
    rw [guarded]
    simp only [presented, bearerToken_written]
    by_cases seen : (utf8 token).all visible = true
    · simp only [seen, if_true, true_and]
      split
      case isTrue whole =>
        rw [Option.bind_some]
        cases known : auth (String.ofList (trim token.toList)) with
        | some identity => simp
        | none => simp
      case isFalse => rfl
    · rw [if_neg seen, if_neg fun whole => seen whole.1]
      rfl

/-! ## The circuit breaker -/

/-- What holds the permit of a call; a permit is there or taken. -/
inductive Phase where
  /-- Answered by the stack itself. -/
  | refused
  | future (permit : Option Unit)
  | body (permit : Option Unit)
  | gone
  deriving DecidableEq

/-- `RpcCircuitBody::finish`, and the destructor of a permit: the outcome is recorded if the
permit is still there. -/
def finish (permit : Option Unit) (outcome : CircuitOutcome) :
    Option Unit × Option CircuitOutcome :=
  (none, permit.map fun _ => outcome)

/-- An event of a call: the next phase and the outcome to record. -/
def handle : Phase → Metrics.Event → Option (Phase × Option CircuitOutcome)
  | .future permit, .responded response =>
      match grpcStatus response.grpcStatus with
      | some code =>
          let (permit, recorded) := finish permit (statusOutcome code)
          some (.body permit, recorded)
      | none =>
          if isSuccess response.status then some (.body permit, none)
          else
            let (permit, recorded) := finish permit .failure
            some (.body permit, recorded)
  | .future permit, .failed => some (.gone, (finish permit .failure).2)
  -- nothing catches a panic
  | .future permit, .panicked => some (.gone, (finish permit .cancellation).2)
  | .future permit, .abandoned => some (.gone, (finish permit .cancellation).2)
  | .body permit, .polled poll =>
      match poll with
      | .data | .pending => some (.body permit, none)
      | .trailers status =>
          match grpcStatus status with
          | some code =>
              let (permit, recorded) := finish permit (statusOutcome code)
              some (.body permit, recorded)
          | none => some (.body permit, none)
      | .error =>
          let (permit, recorded) := finish permit .failure
          some (.body permit, recorded)
      | .ended =>
          let (permit, recorded) := finish permit .success
          some (.body permit, recorded)
  | .body permit, .bodyDropped => some (.gone, (finish permit .cancellation).2)
  | _, _ => none

structure Circuit where
  phase : Phase
  seen : List Metrics.Event
  recorded : List CircuitOutcome
  deriving DecidableEq

structure State (σ : Type) where
  breaker : CircuitBreaker σ
  now : Nat
  calls : List Circuit

inductive Action where
  | call
  | event (index : Nat) (event : Metrics.Event)
  | tick (elapsed : Nat)

section System

variable {σ : Type}

/-- `breaker.acquire` and the call of the transport. -/
def start (config : Config) (mode : BreakerMode σ) (s : State σ) : State σ :=
  if config.breaker then
    let (admitted, breaker) := s.breaker.acquire mode s.now
    { s with
      breaker := breaker
      calls := s.calls ++ [⟨if admitted then .future (some ()) else .refused, [], []⟩] }
  else { s with calls := s.calls ++ [⟨.future none, [], []⟩] }

def advance (config : Config) (mode : BreakerMode σ) (s : State σ) : Action → Option (State σ)
  | .call => some (start config mode s)
  | .event index event => do
      let call ← s.calls[index]?
      let (phase, recorded) ← handle call.phase event
      some { s with
        breaker := recorded.elim s.breaker fun outcome =>
          s.breaker.recordOutcome mode s.now outcome
        calls := s.calls.set index
          ⟨phase, call.seen ++ [event], call.recorded ++ recorded.toList⟩ }
  | .tick elapsed => some { s with now := s.now + elapsed }

def system (config : Config) (mode : BreakerMode σ) : Lts (State σ) Action where
  init := ⟨.new mode, 0, []⟩
  step := advance config mode

end System

/-- What the breaker is told of an event. -/
def outcome (event : Metrics.Event) : Option CircuitOutcome :=
  match verdict event with
  | some .panicked => some .cancellation
  | verdict => verdict.map Verdict.outcome

/-- The latch that a call is, under one event. -/
theorem handle_fire {phase next : Phase} {event : Metrics.Event}
    {recorded : Option CircuitOutcome} (handled : handle phase event = some (next, recorded)) :
    ∃ permit, (phase = .future permit ∨ phase = .body permit) ∧
      recorded = (fire outcome permit event).2.map Prod.snd ∧
      (next = .body (fire outcome permit event).1 ∨ next = .gone ∧ (outcome event).isSome) := by
  cases phase with
  | refused => cases handled
  | gone => cases handled
  | future permit =>
      refine ⟨permit, .inl rfl, ?_⟩
      cases event with
      | responded response =>
          simp only [handle] at handled
          split at handled
          case h_1 code found =>
            cases handled
            cases permit <;> simp [fire, finish, outcome, verdict, found, Verdict.outcome]
          case h_2 found =>
            split at handled
            case isTrue success =>
              cases handled
              cases permit <;> simp [fire, outcome, verdict, found, success]
            case isFalse failed =>
              cases handled
              cases permit <;> simp [fire, finish, outcome, verdict, found, failed,
                Verdict.outcome]
      | failed =>
          cases handled
          cases permit <;> simp [fire, finish, outcome, verdict, Verdict.outcome]
      | panicked =>
          cases handled
          cases permit <;> simp [fire, finish, outcome, verdict]
      | abandoned =>
          cases handled
          cases permit <;> simp [fire, finish, outcome, verdict, Verdict.outcome]
      | polled poll => cases handled
      | bodyDropped => cases handled
  | body permit =>
      refine ⟨permit, .inr rfl, ?_⟩
      cases event with
      | polled poll =>
          cases poll with
          | data =>
              cases handled
              cases permit <;> simp [fire, outcome, verdict]
          | pending =>
              cases handled
              cases permit <;> simp [fire, outcome, verdict]
          | trailers status =>
              simp only [handle] at handled
              split at handled
              case h_1 code found =>
                cases handled
                cases permit <;> simp [fire, finish, outcome, verdict, found, Verdict.outcome]
              case h_2 found =>
                cases handled
                cases permit <;> simp [fire, outcome, verdict, found]
          | error =>
              cases handled
              cases permit <;> simp [fire, outcome, verdict, Verdict.outcome]
          | ended =>
              cases handled
              cases permit <;> simp [fire, outcome, verdict, Verdict.outcome, statusOutcome]
      | bodyDropped =>
          cases handled
          cases permit <;> simp [fire, finish, outcome, verdict, Verdict.outcome]
      | responded response => cases handled
      | failed => cases handled
      | panicked => cases handled
      | abandoned => cases handled

/-- The permit that an admitted call is given. -/
def Config.permit (config : Config) : Option Unit :=
  if config.breaker then some () else none

/-- A call between two of its events. -/
structure Sound (config : Config) (call : Circuit) : Prop where
  refused : call.phase = .refused → call.seen = []
  held : ∀ permit, call.phase = .future permit ∨ call.phase = .body permit →
    Latched outcome config.permit permit call.seen
  gone : call.phase = .gone → (settled outcome call.seen).isSome
  recorded : call.recorded =
    if config.breaker then (settled outcome call.seen).toList else []

/-- The breaker agrees with the calls. -/
structure Inv {σ : Type} (config : Config) (s : State σ) : Prop where
  calls : ∀ call ∈ s.calls, Sound config call
  outcomes : ∀ outcome, count s.breaker.counters outcome =
    (s.calls.flatMap Circuit.recorded).count outcome
  rejections : s.breaker.counters.rejections = s.calls.countP fun call => call.phase = .refused

section Steps

variable {σ : Type} {config : Config} {mode : BreakerMode σ} {s s' : State σ}

theorem Sound.fresh {phase : Phase} (here : phase = .refused ∨ phase = .future config.permit) :
    Sound config ⟨phase, [], []⟩ where
  refused := fun _ => rfl
  held := by
    intro permit holds
    rcases here with refused | future
    · rcases holds with holds | holds
      · cases refused.symm.trans holds
      · cases refused.symm.trans holds
    · rcases holds with holds | holds
      · cases future.symm.trans holds
        exact .start
      · cases future.symm.trans holds
  gone := by
    intro gone
    rcases here with refused | future
    · cases refused.symm.trans gone
    · cases future.symm.trans gone
  recorded := by simp

/-- An event of a call. -/
theorem Sound.event {call : Circuit} (sound : Sound config call) {event : Metrics.Event}
    {next : Phase} {recorded : Option CircuitOutcome}
    (handled : handle call.phase event = some (next, recorded)) :
    Sound config ⟨next, call.seen ++ [event], call.recorded ++ recorded.toList⟩ ∧
      call.phase ≠ .refused ∧ next ≠ .refused := by
  obtain ⟨permit, here, out, moved⟩ := handle_fire handled
  have latched := sound.held permit here
  obtain ⟨after, given⟩ := latched.fire event
  refine ⟨⟨?_, ?_, ?_, ?_⟩, ?_, ?_⟩
  · intro refused
    rcases moved with body | ⟨gone, _⟩
    · cases body.symm.trans refused
    · cases gone.symm.trans refused
  · intro holder holds
    rcases moved with body | ⟨gone, _⟩
    · rcases holds with holds | holds
      · cases body.symm.trans holds
      · cases body.symm.trans holds
        exact after
    · rcases holds with holds | holds
      · cases gone.symm.trans holds
      · cases gone.symm.trans holds
  · intro ended
    rcases moved with body | ⟨_, decided⟩
    · cases body.symm.trans ended
    · rw [settled_concat]
      cases settled outcome call.seen with
      | none => exact decided
      | some first => rfl
  · rw [sound.recorded, out, given, settled_concat, Config.permit]
    cases config.breaker with
    | false => cases settled outcome call.seen <;> rfl
    | true =>
        cases settled outcome call.seen with
        | some first => rfl
        | none => cases outcome event <;> rfl
  · intro refused
    rcases here with future | body
    · cases future.symm.trans refused
    · cases body.symm.trans refused
  · intro refused
    rcases moved with body | ⟨gone, _⟩
    · cases body.symm.trans refused
    · cases gone.symm.trans refused

theorem Inv.start (inv : Inv config s) (mode : BreakerMode σ) :
    Inv config (start config mode s) := by
  unfold Client.start
  split
  case isTrue installed =>
    cases acquired : s.breaker.acquire mode s.now with
    | mk admits breaker =>
        have counters := counters_of_acquire acquired
        refine ⟨?_, ?_, ?_⟩
        · intro call member
          rcases List.mem_append.mp member with old | new
          · exact inv.calls call old
          · rw [List.mem_singleton.mp new]
            refine .fresh ?_
            cases admits with
            | true => exact .inr (by simp [Config.permit, installed])
            | false => exact .inl rfl
        · intro outcome
          have same : count breaker.counters outcome = count s.breaker.counters outcome := by
            rw [counters]
            cases outcome <;> rfl
          simpa [same] using inv.outcomes outcome
        · have before := inv.rejections
          simp only [counters, before, List.countP_append, List.countP_singleton]
          cases admits <;> simp
  case isFalse without =>
    refine ⟨?_, ?_, ?_⟩
    · intro call member
      rcases List.mem_append.mp member with old | new
      · exact inv.calls call old
      · rw [List.mem_singleton.mp new]
        exact .fresh (.inr (by simp [Config.permit, without]))
    · intro outcome
      simpa using inv.outcomes outcome
    · simpa using inv.rejections

theorem Inv.event (inv : Inv config s) {index : Nat} {call : Circuit}
    (found : s.calls[index]? = some call) {event : Metrics.Event} {next : Phase}
    {recorded : Option CircuitOutcome}
    (handled : handle call.phase event = some (next, recorded)) :
    Inv config { s with
      breaker := recorded.elim s.breaker fun outcome =>
        s.breaker.recordOutcome mode s.now outcome
      calls := s.calls.set index
        ⟨next, call.seen ++ [event], call.recorded ++ recorded.toList⟩ } := by
  obtain ⟨sound, before, after⟩ := (inv.calls call (List.mem_of_getElem? found)).event handled
  refine ⟨forall_mem_set sound inv.calls, ?_, ?_⟩
  · intro outcome
    have appends : Circuit.recorded
        ⟨next, call.seen ++ [event], call.recorded ++ recorded.toList⟩ =
          call.recorded ++ recorded.toList := rfl
    have more := flatMap_set_append Circuit.recorded found appends
    refine Eq.trans ?_ (more.count_eq outcome).symm
    rw [List.count_append, ← inv.outcomes outcome]
    cases recorded with
    | none => rfl
    | some told => simp [CircuitBreaker.recordOutcome, List.count_singleton]
  · have total := countP_set_add (fun call => call.phase = .refused) found
      ⟨next, call.seen ++ [event], call.recorded ++ recorded.toList⟩
    have same : (recorded.elim s.breaker fun outcome =>
        s.breaker.recordOutcome mode s.now outcome).counters.rejections =
        s.breaker.counters.rejections := by
      cases recorded with
      | none => rfl
      | some told => cases told <;> rfl
    simp only [before, after, decide_false, Bool.false_eq_true, if_false, Nat.add_zero] at total
    rw [same, inv.rejections, total]

theorem inv_of_reachable (reach : (system config mode).Reachable s) : Inv config s := by
  refine reach.invariant ?_ ?_
  · refine ⟨?_, ?_, rfl⟩
    · intro call member
      cases member
    · intro outcome
      cases outcome <;> rfl
  · intro before action after inv _ taken
    cases action with
    | call =>
        cases taken
        exact inv.start mode
    | event index event =>
        obtain ⟨call, found, taken⟩ := Option.bind_eq_some_iff.mp taken
        obtain ⟨⟨next, recorded⟩, handled, same⟩ := Option.bind_eq_some_iff.mp taken
        cases same
        exact inv.event found handled
    | tick elapsed =>
        cases taken
        exact ⟨inv.calls, inv.outcomes, inv.rejections⟩

/-- In every interleaving of calls the breaker has counted each admitted call once, by its first
event that says what came of it, and each refused call as a rejection. -/
theorem circuit_accounted (config : Config) (mode : BreakerMode σ) (installed : config.breaker)
    (reach : (system config mode).Reachable s) :
    (∀ told, count s.breaker.counters told =
      s.calls.countP fun call => settled outcome call.seen = some told) ∧
    s.breaker.counters.rejections = (s.calls.countP fun call => call.phase = .refused) ∧
    (∀ call ∈ s.calls, call.phase = .refused → call.seen = []) ∧
    ∀ call ∈ s.calls, call.phase = .gone → (settled outcome call.seen).isSome := by
  have inv := inv_of_reachable reach
  refine ⟨?_, inv.rejections, fun call member => (inv.calls call member).refused,
    fun call member => (inv.calls call member).gone⟩
  intro told
  have each (call : Circuit) (member : call ∈ s.calls) :
      call.recorded = (settled outcome call.seen).toList := by
    rw [(inv.calls call member).recorded, if_pos installed]
  rw [inv.outcomes, List.flatMap_congr each, ← List.filterMap_eq_flatMap_toList,
    List.count_eq_countP, List.countP_filterMap]
  congr 1
  funext call
  cases settled outcome call.seen with
  | none => rfl
  | some first => rw [Bool.eq_iff_iff]; simp

end Steps

/-- A call fails in its trailers, one panics, and the open breaker refuses the third. -/
theorem circuit_opens : ∃ s : State Breaker.ConsecutiveState,
    s.calls.map (fun call => settled outcome call.seen) =
      [some .failure, some .cancellation, none] ∧
    s.breaker.counters = ⟨0, 1, 1, 1⟩ ∧
    count s.breaker.counters .failure =
      s.calls.countP fun call => settled outcome call.seen = some .failure := by
  have run : ((system ⟨none, none, true⟩ (.consecutive ⟨1, 60000, 1⟩)).exec
      (system ⟨none, none, true⟩ (.consecutive ⟨1, 60000, 1⟩)).init
      [.call, .call, .event 0 (.responded ⟨200, none⟩), .event 0 (.polled .data),
        .event 0 (.polled (.trailers (some [49, 52]))), .event 1 .panicked, .call,
        .event 0 .bodyDropped]).map (fun s =>
          (s.calls.map fun call => settled outcome call.seen, s.breaker.counters)) =
      some ([some .failure, some .cancellation, none], ⟨0, 1, 1, 1⟩) := by
    decide +kernel
  obtain ⟨s, executed, ends⟩ := Option.map_eq_some_iff.mp run
  obtain ⟨outcomes, counters⟩ := Prod.mk.inj ends
  exact ⟨s, outcomes, counters, (circuit_accounted ⟨none, none, true⟩ _ rfl
    (Lts.reachable_of_exec _ executed)).1 .failure⟩

end RustZero.Rpc.Client
