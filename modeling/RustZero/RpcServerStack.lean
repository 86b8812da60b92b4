import RustZero.RoutePolicies
import RustZero.RpcMetrics
import RustZero.RpcTimeout
import RustZero.ServerBreaker
import RustZero.Trace
import RustZero.TranscodeRequest

/-!
# What the server stack of gRPC calls reads

`RpcServerStackService` of `rpc/src/stack.rs` up to its load shedder: the headers of a call give
it a trace context, a deadline and an identity, and the stack refuses what is not authenticated.

* `receive` is that part of the call.
* `Verdict` is what an event of a running call says about it, and what the circuit breakers of
  both stacks record of it.
-/

namespace RustZero.Rpc.Stack

open Http
open Breaker (CircuitOutcome)
open RoutePolicies (bearerToken)
open RpcTimeout (parseGrpcTimeout)
open Trace (TraceContext TraceFlags)
open Transcode (parseI32)

/-! ## Status codes -/

inductive Code where
  | ok
  | cancelled
  | unknown
  | invalidArgument
  | deadlineExceeded
  | notFound
  | alreadyExists
  | permissionDenied
  | resourceExhausted
  | failedPrecondition
  | aborted
  | outOfRange
  | unimplemented
  | internal
  | unavailable
  | dataLoss
  | unauthenticated
  deriving DecidableEq

/-- In the order of their numbers. -/
def Code.all : List Code :=
  [.ok, .cancelled, .unknown, .invalidArgument, .deadlineExceeded, .notFound, .alreadyExists,
    .permissionDenied, .resourceExhausted, .failedPrecondition, .aborted, .outOfRange,
    .unimplemented, .internal, .unavailable, .dataLoss, .unauthenticated]

/-- `Code::from_i32`. -/
def Code.fromI32 (number : Int) : Code :=
  if 0 ≤ number then Code.all[number.toNat]?.getD .unknown else .unknown

def codeName : Code → String
  | .ok => "ok"
  | .cancelled => "cancelled"
  | .unknown => "unknown"
  | .invalidArgument => "invalid_argument"
  | .deadlineExceeded => "deadline_exceeded"
  | .notFound => "not_found"
  | .alreadyExists => "already_exists"
  | .permissionDenied => "permission_denied"
  | .resourceExhausted => "resource_exhausted"
  | .failedPrecondition => "failed_precondition"
  | .aborted => "aborted"
  | .outOfRange => "out_of_range"
  | .unimplemented => "unimplemented"
  | .internal => "internal"
  | .unavailable => "unavailable"
  | .dataLoss => "data_loss"
  | .unauthenticated => "unauthenticated"

def statusOutcome : Code → CircuitOutcome
  | .cancelled => .cancellation
  | .deadlineExceeded | .internal | .unavailable | .dataLoss | .unimplemented
  | .resourceExhausted => .failure
  | _ => .success

/-- `grpc_status` of the value of the `grpc-status` header. -/
def grpcStatus (value : Option HeaderValue) : Option Code := do
  let text ← headerText (← value)
  let number ← parseI32 text
  some (.fromI32 number)

/-! ## What a call holds -/

/-- `RpcSlowCall`, with the threshold of its `RpcSlowLogConfig`; times in nanoseconds. -/
structure RpcSlowCall where
  threshold : Nat
  method : String
  deadline : Option Nat
  trace : TraceContext
  started : Nat
  deriving DecidableEq

/-- A record of the slow log: the call, the name of its status and whether that is
`DeadlineExceeded`. -/
abbrev SlowRecord := RpcSlowCall × String × Bool

def RpcSlowCall.finish (call : RpcSlowCall) (code : Code) : SlowRecord :=
  (call, codeName code, code = .deadlineExceeded)

/-! ## One call -/

/-- Where a call is. -/
inductive Phase where
  /-- Identified, before the load shedder. -/
  | shedding (slowCall : Option RpcSlowCall)
  /-- Answered by the stack itself. -/
  | refused (code : Code)
  deriving DecidableEq

/-- What `RpcServerStackBuilder` configures. -/
structure Config (τ : Type) where
  auth : Option (String → Option τ)
  /-- The threshold of slow calls. -/
  slowLog : Option Nat

structure Request where
  path : String
  headers : Headers

structure Call (τ : Type) where
  request : Request
  started : Nat
  trace : TraceContext
  identity : Option τ
  phase : Phase
  logged : Option SlowRecord

section Receive

variable {τ : Type}

/-- `traceparent` of the request, or a new trace; identifiers take a time and values of the
counter. -/
def traceOf (headers : Headers) (time first second : Nat) : TraceContext :=
  match (headers.text "traceparent").bind TraceContext.parse with
  | some (.ok parent) => parent.child first
  | _ => .root time first second ⟨1⟩

def Request.deadline (request : Request) : Option Nat :=
  (request.headers.text "grpc-timeout").bind parseGrpcTimeout

def Request.token (request : Request) : Option String :=
  (request.headers.text "authorization").bind bearerToken

def Config.slowCall (config : Config τ) (request : Request) (trace : TraceContext)
    (started : Nat) : Option RpcSlowCall :=
  config.slowLog.map fun threshold =>
    ⟨threshold, request.path, request.deadline, trace, started⟩

/-- `call` up to the load shedder. -/
def receive (config : Config τ) (now : Nat) (request : Request) (time first second : Nat) :
    Call τ :=
  let trace := traceOf request.headers time first second
  let slowCall := config.slowCall request trace now
  let call (identity : Option τ) (phase : Phase) (logged : Option SlowRecord) : Call τ :=
    ⟨request, now, trace, identity, phase, logged⟩
  match config.auth with
  | none => call none (.shedding slowCall) none
  | some auth =>
      match request.token.bind auth with
      | some identity => call (some identity) (.shedding slowCall) none
      | none => call none (.refused .unauthenticated) (slowCall.map (·.finish .unauthenticated))

end Receive

/-! ## Verdicts -/

/-- How a call ended, as the stack sees it. -/
inductive Verdict where
  | status (code : Code)
  | httpError
  | transportError
  | bodyError
  | panicked
  /-- The future was dropped. -/
  | abandoned
  /-- The body was dropped. -/
  | dropped
  deriving DecidableEq

/-- The verdict of an event. -/
def verdict : Metrics.Event → Option Verdict
  | .responded response =>
      (grpcStatus response.grpcStatus).map .status <|>
        if isSuccess response.status then none else some .httpError
  | .failed => some .transportError
  | .panicked => some .panicked
  | .abandoned => some .abandoned
  | .polled poll =>
      match poll with
      | .trailers status => (grpcStatus status).map .status
      | .error => some .bodyError
      | .ended => some (.status .ok)
      | .data | .pending => none
  | .bodyDropped => some .dropped

namespace Verdict

/-- What the breaker records. -/
def outcome : Verdict → CircuitOutcome
  | status code => statusOutcome code
  | httpError | transportError | bodyError | panicked => .failure
  | abandoned | dropped => .cancellation

end Verdict

end RustZero.Rpc.Stack
