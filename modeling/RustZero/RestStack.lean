import RustZero.HttpMetrics
import RustZero.RoutePolicies

/-!
# The standard REST stack

`standard_app!` of `rest/src/server.rs` and the layers it wraps around the routes of an
application.  A layer that is wrapped later is outside the earlier ones, so it sees the
request before them and the response after them.

* `Outcome` is one call of a service: what it ends with, when, and the metric updates it
  makes; the future of a call may also be dropped before it is ready.
* A `Gate` answers a request itself or hands it on, and may change the response of the
  service behind it.  Every layer outside the timeout is one.
* `World` is what a request meets: the limits as they stand, and the application.

Times are nanoseconds.  A call that is ready at the deadline is in time.
-/

namespace RustZero.Rest

open Lib Http
open RoutePolicies (RequestPolicy CompiledPolicy)

structure Request where
  method : String
  path : String
  uri : String
  /-- What `match_pattern` returns. -/
  pattern : Option String
  headers : Headers
  /-- The chunks of the payload, or the text of a payload error. -/
  payload : List (Except String (List UInt8))
  policy : Option RequestPolicy
  requestId : Option HeaderValue
  trace : Option HeaderValue

structure Response where
  status : Nat
  headers : Headers
  /-- `none` is a body that fails while it is read. -/
  body : Option (List UInt8)
  deriving DecidableEq

def Response.plain (status : Nat) (text : String) : Response :=
  ⟨status, [], some (headerValue text)⟩

/-- The response of `InternalError`. -/
def Response.internalError (status : Nat) (text : String) : Response :=
  ⟨status, [("content-type", headerValue "text/plain; charset=utf-8")], some (headerValue text)⟩

inductive Ending where
  | ok (response : Response)
  /-- `Err`, with the response it is turned into outside the stack. -/
  | err (response : Response)
  | panicked
  | never
  deriving DecidableEq

/-- The response the client gets. -/
def Ending.sent : Ending → Option Response
  | .ok response => some response
  | .err response => some response
  | .panicked => none
  | .never => none

def Ending.map (change : Response → Response) : Ending → Ending
  | .ok response => .ok (change response)
  | .err response => .err response
  | .panicked => .panicked
  | .never => .never

structure Outcome where
  ending : Ending
  after : Nat
  updates : List Update
  /-- The updates of a future that is dropped before it is ready. -/
  dropped : List Update

def Outcome.map (change : Response → Response) (outcome : Outcome) : Outcome :=
  { outcome with ending := outcome.ending.map change }

def Outcome.answer (response : Response) : Outcome :=
  ⟨.ok response, 0, [], []⟩

abbrev Service := Request → Outcome

/-- `Condition`. -/
def condition (enabled : Bool) (layer : Service → Service) (service : Service) : Service :=
  if enabled then layer service else service

/-! ## Layers inside the timeout -/

/-- `LoggingMiddleware`, which writes log records alone. -/
def loggingMiddleware (service : Service) : Service :=
  service

def recover (service : Service) : Service := fun request =>
  let outcome := service request
  match outcome.ending with
  | .panicked => { outcome with ending := .err (.internalError 500 "internal server error") }
  | _ => outcome

def defaultSecurityHeaders : List (String × String) :=
  [("content-security-policy", "default-src 'self'; frame-ancestors 'none'"),
    ("x-content-type-options", "nosniff"),
    ("x-frame-options", "DENY"),
    ("referrer-policy", "no-referrer"),
    ("permissions-policy", "camera=(), geolocation=(), microphone=()")]

def addMissing (headers : Headers) (header : String × String) : Headers :=
  if headers.containsKey header.1 then headers
  else headers.insert header.1 (headerValue header.2)

def secured (response : Response) : Response :=
  { response with headers := defaultSecurityHeaders.foldl addMissing response.headers }

def securityHeaders (service : Service) : Service := fun request =>
  (service request).map secured

/-- `format!("\x7b:016x\x7d", id)`. -/
def formatId (id : Nat) : HeaderValue :=
  let digits := Nat.toDigits 16 id
  headerValue (String.ofList (List.replicate (16 - digits.length) '0' ++ digits))

def requestIdOf (nextRequestId : Nat) (request : Request) : HeaderValue :=
  ((request.headers.get "x-request-id").filter fun value =>
    (headerText value).isSome && !value.isEmpty).getD (formatId nextRequestId)

def requestId (nextRequestId : Nat) (service : Service) : Service := fun request =>
  let id := requestIdOf nextRequestId request
  (service { request with requestId := some id }).map fun response =>
    { response with headers := response.headers.insert "x-request-id" id }

/-- `TraceContextMiddleware`; `traceparent` is the context of the call, from the one the
client sent. -/
def traceContext (traceparent : Option String → HeaderValue) (service : Service) : Service :=
  fun request =>
    let context := traceparent (request.headers.text "traceparent")
    (service { request with trace := some context }).map fun response =>
      { response with headers := response.headers.insert "traceparent" context }

def metricsMiddleware (service : Service) : Service := fun request =>
  let path := request.pattern.getD "<unmatched>"
  let outcome := service request
  let seconds : ℚ := outcome.after / 1000000000
  let recorded :=
    match outcome.ending with
    | .ok response => record request.method path response.status seconds
    | .err _ => record request.method path 500 seconds
    | .panicked => []
    | .never => []
  { outcome with
    updates := .enter request.method path :: outcome.updates ++ recorded ++
      [.leave request.method path]
    dropped := .enter request.method path :: outcome.dropped ++ [.leave request.method path] }

def recordProtection (metrics : Bool) (mechanism : String) : List Update :=
  if metrics then [.protection mechanism "rejected"] else []

def Outcome.inTime (duration : Nat) (outcome : Outcome) : Bool :=
  outcome.ending != .never && outcome.after ≤ duration

/-- The timeout of a request, and whether it is a route of server-sent events. -/
def timeoutOf (timeoutMs : Nat) (request : Request) : Nat × Bool :=
  match request.policy with
  | some policy => (policy.timeout.getD timeoutMs * 1000000, policy.sse)
  | none => (timeoutMs * 1000000, false)

def timeout (metrics : Bool) (timeoutMs : Nat) (service : Service) : Service := fun request =>
  let (duration, sse) := timeoutOf timeoutMs request
  let outcome := service request
  if sse || outcome.inTime duration then outcome
  else
    { ending := .err (.internalError 504 "request timed out")
      after := duration
      updates := outcome.dropped ++ recordProtection metrics "timeout"
      dropped := outcome.dropped }

/-! ## Gates -/

structure Gate where
  accept : Request → Except Outcome Request
  respond : Request → Response → Response

def Gate.layer (gate : Gate) (service : Service) : Service := fun request =>
  match gate.accept request with
  | .error outcome => outcome
  | .ok admitted => (service admitted).map (gate.respond admitted)

/-- A gate that counts the requests it refuses. -/
def Gate.protect (metrics : Bool) (mechanism : String) (refusal : Request → Option Response) :
    Gate where
  accept := fun request =>
    match refusal request with
    | some response =>
        .error ⟨.ok response, 0, recordProtection metrics mechanism,
          recordProtection metrics mechanism⟩
    | none => .ok request
  respond := fun _ response => response

structure TokenBucket where
  available : ℚ
  capacity : ℚ
  lastRefill : Nat

/-- The bucket after a call, and the seconds until the next permit when it is empty. -/
def TokenBucket.tryAcquire (bucket : TokenBucket) (now : Nat) (permitsPerSecond : Nat) :
    TokenBucket × Option ℚ :=
  let elapsed : ℚ := ((now - bucket.lastRefill : Nat) : ℚ) / 1000000000
  let available := min (bucket.available + elapsed * permitsPerSecond) bucket.capacity
  if 1 ≤ available then (⟨available - 1, bucket.capacity, now⟩, none)
  else (⟨available, bucket.capacity, now⟩, some ((1 - available) / permitsPerSecond))

def rateLimit (metrics : Bool) (bucket : TokenBucket) (now permitsPerSecond : Nat) : Gate :=
  .protect metrics "rate_limit" fun _ =>
    (bucket.tryAcquire now permitsPerSecond).2.map fun retryAfter =>
      ⟨429, [("retry-after", headerValue (toString (max ⌈retryAfter⌉ 1)))],
        some (headerValue "rate limit exceeded")⟩

/-- `permits` and `reserve` are the permits left of the two semaphores. -/
def concurrencyLimit (metrics : Bool) (permits reserve : Nat) : Gate :=
  .protect metrics "concurrency" fun request =>
    let priority := (request.policy.map RequestPolicy.priority).getD false
    if 0 < permits ∨ (priority ∧ 0 < reserve) then none
    else some (.plain 503 "server is overloaded")

def adaptiveLoadShed (metrics admits : Bool) : Gate :=
  .protect metrics "load_shedder" fun _ =>
    if admits then none else some (.plain 503 "server is overloaded")

def breakerRoute (request : Request) : String :=
  request.method ++ " " ++ request.pattern.getD "<unmatched>"

/-- `admits` is what the breaker of a route decides. -/
def serverCircuitBreaker (metrics : Bool) (admits : String → Bool) : Gate :=
  .protect metrics "circuit_breaker" fun request =>
    if admits (breakerRoute request) then none
    else some (.plain 503 "HTTP route circuit breaker is open")

/-- `str::parse` to a 64-bit `usize`. -/
def parseUsize (text : String) : Option Nat :=
  let digits := if text.toList.head? = some '+' then text.toList.tail else text.toList
  if digits ≠ [] ∧ digits.all Char.isDigit then
    let value := digits.foldl (fun value digit => value * 10 + (digit.toNat - 48)) 0
    if value < 2 ^ 64 then some value else none
  else none

inductive PayloadFailure where
  | error (text : String)
  | tooLarge

/-- The body of a payload, as far as the limit allows. -/
def collect (maxBytes : Nat) : List (Except String (List UInt8)) → List UInt8 →
    Except PayloadFailure (List UInt8)
  | [], body => .ok body
  | .error text :: _, _ => .error (.error text)
  | .ok chunk :: rest, body =>
      if maxBytes < body.length + chunk.length then .error .tooLarge
      else collect maxBytes rest (body ++ chunk)

/-- `str::trim`, comma-separated and without regard to case. -/
def namesGzip (value : String) : Bool :=
  (value.toList.splitOn ',').any fun encoding =>
    decide (Auth.EqIgnoreAsciiCase (String.ofList (RoutePolicies.trim encoding)) "gzip")

def payloadTooLarge (maxBytes : Nat) : Outcome :=
  .answer (.plain 413 ("request body exceeds " ++ toString maxBytes ++ " bytes"))

/-- `expand` reads at most so many bytes of a gzip stream. -/
def requestBodyLimit (maxBodyBytes : Nat) (decompressGzip : Bool)
    (expand : List UInt8 → Nat → Option (List UInt8)) : Gate where
  accept := fun request =>
    let maxBytes := (request.policy.bind RequestPolicy.maxBodyBytes).getD maxBodyBytes
    if ((request.headers.text "content-length").bind parseUsize).any (maxBytes < ·) then
      .error (payloadTooLarge maxBytes)
    else
      match collect maxBytes request.payload [] with
      | .error (.error _) => .error (.answer (.plain 400 "invalid request body"))
      | .error .tooLarge => .error (payloadTooLarge maxBytes)
      | .ok body =>
          if decompressGzip && (request.headers.text "content-encoding").any namesGzip then
            match expand body (maxBytes + 1) with
            | none => .error (.answer (.plain 400 "invalid gzip request body"))
            | some expanded =>
                if maxBytes < expanded.length then .error (payloadTooLarge maxBytes)
                else .ok { request with
                  headers := (request.headers.remove "content-encoding").remove "content-length"
                  payload := [.ok expanded] }
          else .ok { request with payload := [.ok body] }
  respond := fun _ response => response

structure ContentEncryptionKey where
  id : String
  bytes : List UInt8

/-- A key provider, with the cipher. -/
structure ContentKeyProvider where
  currentKey : Option ContentEncryptionKey
  key : String → Option ContentEncryptionKey
  decryptRequest : ContentEncryptionKey → String → String → List UInt8 → Option (List UInt8)
  encryptResponse : ContentEncryptionKey → String → String → Nat → List UInt8 → Option (List UInt8)

structure ContentEncryption where
  provider : Option ContentKeyProvider
  maxRequestBytes : Nat
  maxResponseBytes : Nat

def encryptionAlgorithm : String :=
  "aes-256-gcm-v1"

def emptyResponse (status : Nat) : Response :=
  ⟨status, [], some []⟩

/-- The response with its body encrypted, where it can be. -/
def ContentKeyProvider.sealed (provider : ContentKeyProvider) (maxResponseBytes : Nat)
    (method uri : String) (response : Response) : Option Response :=
  if (response.headers.text "content-type").any
        (fun value => "text/event-stream".toList.isPrefixOf value.toList) ||
      (response.headers.text "content-encoding").any
        (fun value => !decide (Auth.EqIgnoreAsciiCase value "identity")) then none
  else do
    let plaintext ← response.body
    if maxResponseBytes < plaintext.length then none
    else
      let key ← provider.currentKey
      let encoded ← provider.encryptResponse key method uri response.status plaintext
      let headers := (response.headers.remove "content-length").remove "transfer-encoding"
      some ⟨response.status, (headers.insert "x-content-encryption"
        (headerValue encryptionAlgorithm)).insert "x-content-key-id" (headerValue key.id),
        some encoded⟩

def ContentKeyProvider.opened (provider : ContentKeyProvider) (request : Request)
    (encoded : List UInt8) : Except Outcome Request :=
  if request.headers.text "x-content-encryption" ≠ some encryptionAlgorithm then
    .error (.answer (emptyResponse 415))
  else
    match (request.headers.text "x-content-key-id").bind provider.key with
    | none => .error (.answer (emptyResponse 400))
    | some key =>
        match provider.decryptRequest key request.method request.uri encoded with
        | none => .error (.answer (emptyResponse 400))
        | some plaintext =>
            .ok { request with
              headers := ((request.headers.remove "x-content-encryption").remove
                "x-content-key-id").remove "content-length"
              payload := [.ok plaintext] }

def ContentEncryption.gate (encryption : ContentEncryption) : Gate where
  accept := fun request =>
    match encryption.provider with
    | none => .ok request
    | some provider =>
        match collect encryption.maxRequestBytes request.payload [] with
        | .error (.error text) => .error ⟨.err (.internalError 400 text), 0, [], []⟩
        | .error .tooLarge => .error (.answer (emptyResponse 413))
        | .ok encoded =>
            if encoded.isEmpty then .ok { request with payload := [.ok []] }
            else provider.opened request encoded
  respond := fun request response =>
    match encryption.provider with
    | none => response
    | some provider =>
        (provider.sealed encryption.maxResponseBytes request.method request.uri response).getD
          (emptyResponse 500)

/-- Compiled policies, and what they rely on outside the repository: the named middleware
answers a request or hands it on as it is. -/
structure RoutePolicies where
  routes : List CompiledPolicy
  app : RoutePolicies.Application
  middleware : String → Request → Option Ending
  now : UInt64

/-- The body of a rejected request. -/
def unauthorized (failure : Auth.AuthFailure) : Response :=
  ⟨401, [("www-authenticate", headerValue "Bearer"),
    ("content-type", headerValue "application/json")],
    some (headerValue ("\x7b\"code\":\"" ++ failure.code ++ "\",\"message\":\"" ++
      failure.message ++ "\"\x7d"))⟩

def sseHeaders (policy : Option RequestPolicy) (response : Response) : Response :=
  if (policy.map RequestPolicy.sse).getD false then
    { response with
      headers := ((response.headers.insert "content-type"
        (headerValue "text/event-stream")).insert "cache-control"
        (headerValue "no-cache, no-transform")).insert "x-accel-buffering" (headerValue "no") }
  else response

def RoutePolicies.gate (policies : RoutePolicies) : Gate where
  accept := fun request =>
    let pattern := request.pattern.getD request.path
    match RoutePolicies.find policies.routes request.method pattern with
    | none => .ok request
    | some policy =>
        let claims := (policy.jwtSecrets.map fun secrets => RoutePolicies.authenticate policies.app
          ⟨request.method, request.path, request.headers.get "authorization", policies.now⟩
          secrets policy.jwtLeewaySeconds)
        match claims with
        | some (.error failure) => .error (.answer (unauthorized failure))
        | _ =>
            let admitted := { request with policy := some policy.requestPolicy }
            match policy.middleware.findSome? fun name => policies.middleware name admitted with
            | some ending =>
                .error ⟨ending.map (sseHeaders (some policy.requestPolicy)), 0, [], []⟩
            | none => .ok admitted
  respond := fun request response => sseHeaders request.policy response

def corsHeaders : List String :=
  ["access-control-allow-origin", "access-control-allow-credentials",
    "access-control-allow-headers", "access-control-allow-methods",
    "access-control-expose-headers", "access-control-max-age", "vary"]

/-- The middleware of `actix-cors`: it answers preflight requests, and sets its own headers on
other responses. -/
structure Cors where
  answer : Request → Option Response
  augment : Request → Headers → Headers
  answer_options : ∀ request, request.method ≠ "OPTIONS" → answer request = none
  augment_get : ∀ request headers, ∀ name ∉ corsHeaders,
    Headers.get (augment request headers) name = headers.get name

def Cors.gate (cors : Cors) : Gate where
  accept := fun request =>
    match cors.answer request with
    | some response => .error (.answer response)
    | none => .ok request
  respond := fun request response =>
    { response with headers := cors.augment request response.headers }

/-! ## The stack -/

structure RestServerConfig where
  logging : Bool
  recovery : Bool
  securityHeaders : Bool
  requestIds : Bool
  tracing : Bool
  metrics : Bool
  requestTimeoutMs : Nat
  rateLimitRequestsPerSecond : Option Nat
  adaptiveLoadShedding : Bool
  serverCircuitBreaking : Bool
  maxBodyBytes : Nat
  decompressGzip : Bool
  cors : Option Cors
  contentEncryption : Option ContentEncryption
  routePolicies : RoutePolicies
  staticAssets : Option (Request → Response)

/-- How a handler of the application ends, and when. -/
structure Handled where
  ending : Ending
  after : Nat

/-- What a request meets. -/
structure World where
  now : Nat
  nextRequestId : Nat
  traceparent : Option String → HeaderValue
  bucket : TokenBucket
  permits : Nat
  reserve : Nat
  shedderAdmits : Bool
  breakerAdmits : String → Bool
  expand : List UInt8 → Nat → Option (List UInt8)
  /-- The routes of the application. -/
  routes : Request → Option Handled

/-- `App::new` with its routes and its default service. -/
def app (config : RestServerConfig) (world : World) : Service := fun request =>
  match world.routes request with
  | some handled => ⟨handled.ending, handled.after, [], []⟩
  | none =>
      match config.staticAssets with
      | some serve => .answer (serve request)
      | none => .answer (emptyResponse 404)

/-- `ContentEncryption::disabled`. -/
def ContentEncryption.disabled (maxBodyBytes : Nat) : ContentEncryption :=
  ⟨none, maxBodyBytes, maxBodyBytes⟩

/-- The layers in the order of their `wrap` calls. -/
def standardApp (config : RestServerConfig) (world : World) : Service :=
  let service := app config world
  let service := condition config.logging loggingMiddleware service
  let service := condition config.recovery recover service
  let service := condition config.securityHeaders securityHeaders service
  let service := condition config.requestIds (requestId world.nextRequestId) service
  let service := condition config.tracing (traceContext world.traceparent) service
  let service := condition config.metrics metricsMiddleware service
  let service := timeout config.metrics config.requestTimeoutMs service
  let service := condition config.rateLimitRequestsPerSecond.isSome
    (rateLimit config.metrics world.bucket world.now
      (config.rateLimitRequestsPerSecond.getD 1)).layer service
  let service := (concurrencyLimit config.metrics world.permits world.reserve).layer service
  let service := condition config.adaptiveLoadShedding
    (adaptiveLoadShed config.metrics world.shedderAdmits).layer service
  let service := condition config.serverCircuitBreaking
    (serverCircuitBreaker config.metrics world.breakerAdmits).layer service
  let service := (requestBodyLimit config.maxBodyBytes config.decompressGzip world.expand).layer
    service
  let service := (config.contentEncryption.getD (.disabled config.maxBodyBytes)).gate.layer service
  let service := config.routePolicies.gate.layer service
  match config.cors with
  | some cors => cors.gate.layer service
  | none => service

end RustZero.Rest
