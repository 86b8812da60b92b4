import RustZero.RestStack

/-!
# What the standard REST stack covers

The layers that decorate and count responses are wrapped first, inside the timeout and
every gate, so they see what the routes answer and nothing else.

* `outerGates` are the gates of the stack, outermost first, and `standardApp_eq` takes the
  stack apart; `accept` is how a request fares at the gates.
* `served` is what the routes, or the default service, make of an admitted request.
* `Undisturbed` is the condition under which a response is covered: the request is
  admitted and served in time, and the gates hand the response on.
-/

namespace RustZero.Rest

open Lib Http

/-! ## Chains of gates -/

def Gate.pass : Gate :=
  ⟨.ok, fun _ response => response⟩

def Gate.when (enabled : Bool) (gate : Gate) : Gate :=
  if enabled then gate else .pass

def layers (gates : List Gate) (service : Service) : Service :=
  gates.foldr Gate.layer service

/-- The request that reaches the service behind the gates, or what a gate answers. -/
def accept (gates : List Gate) (request : Request) : Except Outcome Request :=
  gates.foldlM (fun request gate => gate.accept request) request

/-- What the gates make of a response to an admitted request. -/
def respond : List Gate → Request → Response → Response
  | [], _, response => response
  | gate :: rest, request, response =>
      match gate.accept request with
      | .ok admitted => gate.respond admitted (respond rest admitted response)
      | .error _ => response

theorem Ending.map_id (ending : Ending) : ending.map (fun response => response) = ending := by
  cases ending <;> rfl

theorem Outcome.map_map (first second : Response → Response) (outcome : Outcome) :
    (outcome.map first).map second = outcome.map fun response => second (first response) := by
  obtain ⟨ending, after, updates, dropped⟩ := outcome
  cases ending <;> rfl

theorem pass_layer (service : Service) : Gate.pass.layer service = service := by
  funext request
  exact congrArg (fun ending => { service request with ending := ending }) (Ending.map_id _)

theorem condition_layer (enabled : Bool) (gate : Gate) (service : Service) :
    condition enabled gate.layer service = (Gate.when enabled gate).layer service := by
  cases enabled
  · exact (pass_layer service).symm
  · rfl

/-- A gate whose answers count nothing but rejections, and those where metrics are on, and
which keeps what the metrics read of a request. -/
structure Gate.Quiet (metrics : Bool) (gate : Gate) : Prop where
  answers : ∀ request outcome, gate.accept request = .error outcome →
    ∀ update ∈ outcome.updates,
      metrics = true ∧ ∃ mechanism, update = .protection mechanism "rejected"
  keeps : ∀ request admitted, gate.accept request = .ok admitted →
    admitted.method = request.method ∧ admitted.uri = request.uri ∧
      admitted.pattern = request.pattern

section Layers

variable {gates : List Gate} {request admitted : Request} {metrics : Bool}

theorem layers_error (quiet : ∀ gate ∈ gates, gate.Quiet metrics) {outcome : Outcome}
    (stopped : accept gates request = .error outcome) (service : Service) :
    ∀ update ∈ (layers gates service request).updates,
      metrics = true ∧ ∃ mechanism, update = .protection mechanism "rejected" := by
  induction gates generalizing request with
  | nil => cases stopped
  | cons gate rest ih =>
      have first := quiet gate List.mem_cons_self
      change ∀ update ∈ (gate.layer (layers rest service) request).updates, _
      rw [accept, List.foldlM_cons] at stopped
      unfold Gate.layer
      cases decided : gate.accept request with
      | error answer =>
          exact first.answers request answer decided
      | ok next =>
          rw [decided] at stopped
          exact ih (fun gate member => quiet gate (List.mem_cons_of_mem _ member)) stopped

theorem layers_ok (passed : accept gates request = .ok admitted) (service : Service) :
    layers gates service request = (service admitted).map (respond gates request) := by
  induction gates generalizing request with
  | nil =>
      cases passed
      exact congrArg (fun ending => { service admitted with ending := ending })
        (Ending.map_id _).symm
  | cons gate rest ih =>
      change gate.layer (layers rest service) request = _
      rw [accept, List.foldlM_cons] at passed
      unfold Gate.layer
      cases decided : gate.accept request with
      | error answer =>
          rw [decided] at passed
          cases passed
      | ok next =>
          rw [decided] at passed
          simp only [ih passed, Outcome.map_map, respond, decided]

theorem admit_keeps (quiet : ∀ gate ∈ gates, gate.Quiet metrics)
    (passed : accept gates request = .ok admitted) :
    admitted.method = request.method ∧ admitted.uri = request.uri ∧
      admitted.pattern = request.pattern := by
  induction gates generalizing request with
  | nil =>
      cases passed
      exact ⟨rfl, rfl, rfl⟩
  | cons gate rest ih =>
      rw [accept, List.foldlM_cons] at passed
      obtain ⟨next, decided, later⟩ := bind_eq_ok passed
      have first := (quiet gate List.mem_cons_self).keeps request next decided
      have others := ih (fun gate member => quiet gate (List.mem_cons_of_mem _ member)) later
      exact ⟨others.1.trans first.1, others.2.1.trans first.2.1, others.2.2.trans first.2.2⟩

theorem admit_append {before after : List Gate}
    (passed : accept (before ++ after) request = .ok admitted) :
    ∃ mid, accept before request = .ok mid ∧ accept after mid = .ok admitted ∧
      ∀ response, respond (before ++ after) request response =
        respond before request (respond after mid response) := by
  induction before generalizing request with
  | nil => exact ⟨request, rfl, passed, fun _ => rfl⟩
  | cons gate rest ih =>
      rw [List.cons_append, accept, List.foldlM_cons] at passed
      obtain ⟨next, decided, later⟩ := bind_eq_ok passed
      obtain ⟨mid, first, second, composed⟩ := ih later
      refine ⟨mid, ?_, second, ?_⟩
      · rw [accept, List.foldlM_cons, decided]
        exact first
      · intro response
        simp only [List.cons_append, respond, decided, composed]

end Layers

/-! ## Decorated responses -/

def requiredHeaders : List String :=
  defaultSecurityHeaders.map Prod.fst ++ ["x-request-id"]

/-- The response carries the security headers and the request id. -/
def Decorated (response : Response) : Prop :=
  ∀ name ∈ requiredHeaders, response.headers.containsKey name = true

instance decidableDecorated (response : Response) : Decidable (Decorated response) :=
  inferInstanceAs (Decidable (∀ name ∈ requiredHeaders, _))

/-- The gate leaves the status and the decoration of a response as they are. -/
def Gate.Transparent (gate : Gate) : Prop :=
  ∀ request response, (gate.respond request response).status = response.status ∧
    ∀ name ∈ requiredHeaders, (gate.respond request response).headers.containsKey name =
      response.headers.containsKey name

theorem decorated_congr {one other : Response}
    (same : ∀ name ∈ requiredHeaders, one.headers.containsKey name =
      other.headers.containsKey name) : Decorated one ↔ Decorated other := by
  refine ⟨fun has name member => ?_, fun has name member => ?_⟩
  · rw [← same name member]
    exact has name member
  · rw [same name member]
    exact has name member

theorem respond_transparent {gates : List Gate} {request admitted : Request}
    (transparent : ∀ gate ∈ gates, gate.Transparent)
    (passed : accept gates request = .ok admitted) (response : Response) :
    (respond gates request response).status = response.status ∧
      ∀ name ∈ requiredHeaders, (respond gates request response).headers.containsKey name =
        response.headers.containsKey name := by
  induction gates generalizing request with
  | nil => exact ⟨rfl, fun _ _ => rfl⟩
  | cons gate rest ih =>
      rw [accept, List.foldlM_cons] at passed
      obtain ⟨next, decided, later⟩ := bind_eq_ok passed
      have inner := ih (fun gate member => transparent gate (List.mem_cons_of_mem _ member)) later
      have outer := transparent gate List.mem_cons_self next (respond rest next response)
      simp only [respond, decided]
      exact ⟨outer.1.trans inner.1,
        fun name member => (outer.2 name member).trans (inner.2 name member)⟩

/-- Gates that leave every response as it is. -/
theorem respond_id {gates : List Gate}
    (same : ∀ gate ∈ gates, gate.respond = fun _ response => response) (request : Request)
    (response : Response) : respond gates request response = response := by
  induction gates generalizing request with
  | nil => rfl
  | cons gate rest ih =>
      unfold respond
      split
      · rw [same gate List.mem_cons_self, ih fun gate member => same gate (.tail _ member)]
      · rfl

theorem when_respond {gate : Gate} (same : gate.respond = fun _ response => response)
    (enabled : Bool) : (Gate.when enabled gate).respond = fun _ response => response := by
  cases enabled
  · rfl
  · exact same

theorem containsKey_insert_of_ne (headers : Headers) {name other : String} (value : HeaderValue)
    (differs : other ≠ name) :
    (headers.insert name value).containsKey other = headers.containsKey other := by
  rw [Headers.containsKey, Headers.get_insert_of_ne _ _ differs, Headers.containsKey]

theorem containsKey_remove_of_ne (headers : Headers) {name other : String}
    (differs : other ≠ name) :
    (headers.remove name).containsKey other = headers.containsKey other := by
  rw [Headers.containsKey, Headers.get_remove_of_ne _ differs, Headers.containsKey]

/-! ## The gates of the stack -/

section Quiet

variable (metrics : Bool)

theorem quiet_pass : Gate.pass.Quiet metrics := by
  refine ⟨fun request outcome decided => (nomatch decided), fun request admitted decided => ?_⟩
  cases decided
  exact ⟨rfl, rfl, rfl⟩

theorem quiet_when {gate : Gate} (quiet : gate.Quiet metrics) (enabled : Bool) :
    (Gate.when enabled gate).Quiet metrics := by
  cases enabled
  · exact quiet_pass metrics
  · exact quiet

theorem mem_recordProtection {mechanism : String} {update : Update}
    (member : update ∈ recordProtection metrics mechanism) :
    metrics = true ∧ update = .protection mechanism "rejected" := by
  cases metrics
  · cases member
  · exact ⟨rfl, List.mem_singleton.mp member⟩

theorem quiet_protect (mechanism : String) (refusal : Request → Option Response) :
    (Gate.protect metrics mechanism refusal).Quiet metrics := by
  refine ⟨fun request outcome decided => ?_, fun request admitted decided => ?_⟩
  all_goals
    unfold Gate.protect at decided
    dsimp only at decided
    split at decided
    all_goals cases decided
  · intro update member
    obtain ⟨on, same⟩ := mem_recordProtection metrics member
    exact ⟨on, mechanism, same⟩
  · exact ⟨rfl, rfl, rfl⟩

theorem quiet_requestBodyLimit (maxBodyBytes : Nat) (decompressGzip : Bool)
    (expand : List UInt8 → Nat → Option (List UInt8)) :
    (requestBodyLimit maxBodyBytes decompressGzip expand).Quiet metrics := by
  refine ⟨fun request outcome decided => ?_, fun request admitted decided => ?_⟩
  all_goals
    unfold requestBodyLimit at decided
    dsimp only at decided
    repeat' split at decided
    all_goals cases decided
  any_goals exact fun update member => nomatch member
  all_goals exact ⟨rfl, rfl, rfl⟩

theorem quiet_contentEncryption (encryption : ContentEncryption) :
    encryption.gate.Quiet metrics := by
  refine ⟨fun request outcome decided => ?_, fun request admitted decided => ?_⟩
  all_goals
    unfold ContentEncryption.gate ContentKeyProvider.opened at decided
    dsimp only at decided
    repeat' split at decided
    all_goals cases decided
  any_goals exact fun update member => nomatch member
  all_goals exact ⟨rfl, rfl, rfl⟩

theorem quiet_routePolicies (policies : RoutePolicies) : policies.gate.Quiet metrics := by
  refine ⟨fun request outcome decided => ?_, fun request admitted decided => ?_⟩
  all_goals
    unfold RoutePolicies.gate at decided
    dsimp only at decided
    repeat' split at decided
    all_goals cases decided
  any_goals exact fun update member => nomatch member
  all_goals exact ⟨rfl, rfl, rfl⟩

theorem quiet_cors (cors : Cors) : cors.gate.Quiet metrics := by
  refine ⟨fun request outcome decided => ?_, fun request admitted decided => ?_⟩
  all_goals
    unfold Cors.gate at decided
    dsimp only at decided
    split at decided
    all_goals cases decided
  · exact fun update member => nomatch member
  · exact ⟨rfl, rfl, rfl⟩

end Quiet

theorem transparent_routePolicies (policies : RoutePolicies) : policies.gate.Transparent := by
  intro request response
  change (sseHeaders request.policy response).status = _ ∧ _
  unfold sseHeaders RoutePolicies.gate
  dsimp only [sseHeaders]
  split
  · refine ⟨rfl, fun name member => ?_⟩
    have own : name ≠ "content-type" ∧ name ≠ "cache-control" ∧ name ≠ "x-accel-buffering" := by
      revert name
      decide
    dsimp only
    rw [containsKey_insert_of_ne _ _ own.2.2, containsKey_insert_of_ne _ _ own.2.1,
      containsKey_insert_of_ne _ _ own.1]
  · exact ⟨rfl, fun _ _ => rfl⟩

theorem transparent_cors (cors : Cors) : cors.gate.Transparent := by
  intro request response
  refine ⟨rfl, fun name member => ?_⟩
  have other : name ∉ corsHeaders := by
    revert name
    decide
  exact congrArg Option.isSome (cors.augment_get request response.headers name other)

/-- The gates outside the content encryption. -/
def outermostGates (config : RestServerConfig) : List Gate :=
  (config.cors.map Cors.gate).toList ++ [config.routePolicies.gate]

def encryptionOf (config : RestServerConfig) : ContentEncryption :=
  config.contentEncryption.getD (.disabled config.maxBodyBytes)

/-- The gates between the content encryption and the timeout. -/
def limitGates (config : RestServerConfig) (world : World) : List Gate :=
  [requestBodyLimit config.maxBodyBytes config.decompressGzip world.expand,
    .when config.serverCircuitBreaking (serverCircuitBreaker config.metrics world.breakerAdmits),
    .when config.adaptiveLoadShedding (adaptiveLoadShed config.metrics world.shedderAdmits),
    concurrencyLimit config.metrics world.permits world.reserve,
    .when config.rateLimitRequestsPerSecond.isSome (rateLimit config.metrics world.bucket world.now
      (config.rateLimitRequestsPerSecond.getD 1))]

/-- Outermost first. -/
def outerGates (config : RestServerConfig) (world : World) : List Gate :=
  outermostGates config ++ (encryptionOf config).gate :: limitGates config world

theorem quiet_outerGates (config : RestServerConfig) (world : World) :
    ∀ gate ∈ outerGates config world, gate.Quiet config.metrics := by
  intro gate member
  simp only [outerGates, outermostGates, limitGates, List.mem_append, Option.mem_toList,
    Option.map_eq_some_iff, List.mem_cons, List.not_mem_nil, or_false] at member
  rcases member with (⟨cors, _, rfl⟩ | rfl) | rfl | rfl | rfl | rfl | rfl | rfl
  · exact quiet_cors _ cors
  · exact quiet_routePolicies _ _
  · exact quiet_contentEncryption _ _
  · exact quiet_requestBodyLimit _ _ _ _
  · exact quiet_when _ (quiet_protect _ _ _) _
  · exact quiet_when _ (quiet_protect _ _ _) _
  · exact quiet_protect _ _ _
  · exact quiet_when _ (quiet_protect _ _ _) _

theorem transparent_outermostGates (config : RestServerConfig) :
    ∀ gate ∈ outermostGates config, gate.Transparent := by
  intro gate member
  simp only [outermostGates, List.mem_append, Option.mem_toList, Option.map_eq_some_iff,
    List.mem_singleton] at member
  rcases member with ⟨cors, _, rfl⟩ | rfl
  · exact transparent_cors cors
  · exact transparent_routePolicies _

theorem respond_limitGates {config : RestServerConfig} {world : World} (request : Request)
    (response : Response) : respond (limitGates config world) request response = response := by
  refine respond_id ?_ request response
  intro gate member
  simp only [limitGates, List.mem_cons, List.not_mem_nil, or_false] at member
  rcases member with rfl | rfl | rfl | rfl | rfl
  · rfl
  · exact when_respond rfl _
  · exact when_respond rfl _
  · rfl
  · exact when_respond rfl _

/-! ## The stack taken apart -/

/-- The layers inside the metrics. -/
def decorating (config : RestServerConfig) (world : World) : Service :=
  condition config.tracing (traceContext world.traceparent)
    (condition config.requestIds (requestId world.nextRequestId)
      (condition config.securityHeaders securityHeaders
        (condition config.recovery recover
          (condition config.logging loggingMiddleware (app config world)))))

theorem standardApp_eq (config : RestServerConfig) (world : World) :
    standardApp config world = layers (outerGates config world)
      (timeout config.metrics config.requestTimeoutMs
        (condition config.metrics metricsMiddleware (decorating config world))) := by
  unfold standardApp outerGates outermostGates limitGates decorating
  simp only [condition_layer]
  cases config.cors <;> rfl

/-- An admitted request as the routes see it. -/
def innerRequest (config : RestServerConfig) (world : World) (request : Request) : Request :=
  let traced :=
    if config.tracing then
      { request with trace := some (world.traceparent (request.headers.text "traceparent")) }
    else request
  { traced with requestId := some (requestIdOf world.nextRequestId traced) }

/-- What the routes, or the default service, make of an admitted request. -/
def served (config : RestServerConfig) (world : World) (request : Request) : Outcome :=
  condition config.recovery recover (app config world) (innerRequest config world request)

/-- A service that makes no metric update. -/
def Bare (service : Service) : Prop :=
  ∀ request, (service request).updates = [] ∧ (service request).dropped = []

theorem bare_app (config : RestServerConfig) (world : World) : Bare (app config world) := by
  intro request
  unfold app
  split
  · exact ⟨rfl, rfl⟩
  · split <;> exact ⟨rfl, rfl⟩

theorem bare_condition {layer : Service → Service} {service : Service} (bare : Bare service)
    (keeps : Bare service → Bare (layer service)) (enabled : Bool) :
    Bare (condition enabled layer service) := by
  cases enabled
  · exact bare
  · exact keeps bare

theorem bare_recover {service : Service} (bare : Bare service) : Bare (recover service) := by
  intro request
  unfold recover
  dsimp only
  split <;> exact bare request

theorem served_updates (config : RestServerConfig) (world : World) (request : Request) :
    (served config world request).updates = [] ∧ (served config world request).dropped = [] :=
  bare_condition (bare_app config world) bare_recover _ _

theorem bare_decorating (config : RestServerConfig) (world : World) :
    Bare (decorating config world) :=
  have logged := bare_condition (bare_app config world) (fun bare => bare) config.logging
  have recovered := bare_condition logged bare_recover config.recovery
  have secured := bare_condition recovered (fun bare request => bare request)
    config.securityHeaders
  have marked := bare_condition secured (fun bare _ => bare _) config.requestIds
  bare_condition marked (fun bare _ => bare _) config.tracing

/-- A change of a response that decorates it and leaves what the encryption reads. -/
structure Decorates (decorate : Response → Response) : Prop where
  decorated : ∀ response, Decorated (decorate response)
  status : ∀ response, (decorate response).status = response.status
  body : ∀ response, (decorate response).body = response.body
  content : ∀ response, ∀ name ∈ ["content-type", "content-encoding"],
    (decorate response).headers.get name = response.headers.get name

theorem containsKey_addMissing {headers : Headers} {name : String}
    (has : headers.containsKey name = true) (header : String × String) :
    (addMissing headers header).containsKey name = true := by
  unfold addMissing
  split
  · exact has
  · exact Headers.containsKey_insert _ _ has

theorem addMissing_self (headers : Headers) (header : String × String) :
    (addMissing headers header).containsKey header.1 = true := by
  unfold addMissing
  split
  · rename_i has
    exact has
  · rw [Headers.containsKey, Headers.get_insert_self]
    rfl

theorem containsKey_addMissing_all (added : List (String × String)) {headers : Headers}
    {name : String} (has : headers.containsKey name = true ∨ name ∈ added.map Prod.fst) :
    (added.foldl addMissing headers).containsKey name = true := by
  induction added generalizing headers with
  | nil =>
      rcases has with has | member
      · exact has
      · cases member
  | cons header rest ih =>
      refine ih ?_
      rcases has with has | member
      · exact .inl (containsKey_addMissing has header)
      · rw [List.map_cons, List.mem_cons] at member
        rcases member with same | later
        · rw [same]
          exact .inl (addMissing_self headers header)
        · exact .inr later

theorem addMissing_all_get (added : List (String × String)) {headers : Headers} {name : String}
    (other : name ∉ added.map Prod.fst) :
    (added.foldl addMissing headers).get name = headers.get name := by
  induction added generalizing headers with
  | nil => rfl
  | cons header rest ih =>
      rw [List.map_cons, List.mem_cons, not_or] at other
      rw [List.foldl_cons, ih other.2]
      unfold addMissing
      split
      · rfl
      · exact Headers.get_insert_of_ne _ _ other.1

theorem decorating_eq {config : RestServerConfig} (world : World)
    (secure : config.securityHeaders = true) (ids : config.requestIds = true)
    (request : Request) : ∃ decorate, Decorates decorate ∧
      decorating config world request = (served config world request).map decorate := by
  have logging : condition config.logging loggingMiddleware (app config world) =
      app config world := by
    cases config.logging <;> rfl
  have marked (id : HeaderValue) : Decorates fun response =>
      { secured response with headers := (secured response).headers.insert "x-request-id" id } := by
    refine ⟨fun response name member => ?_, fun _ => rfl, fun _ => rfl,
      fun response name member => ?_⟩
    · rcases List.mem_append.mp member with default | last
      · exact Headers.containsKey_insert _ _ (containsKey_addMissing_all _ (.inr default))
      · rw [List.mem_singleton.mp last, Headers.containsKey, Headers.get_insert_self]
        rfl
    · have other : name ≠ "x-request-id" ∧ name ∉ defaultSecurityHeaders.map Prod.fst := by
        revert name
        decide
      exact (Headers.get_insert_of_ne _ _ other.1).trans (addMissing_all_get _ other.2)
  unfold decorating served innerRequest
  rw [logging, secure, ids]
  cases config.tracing with
  | false =>
      refine ⟨_, marked (requestIdOf world.nextRequestId request), ?_⟩
      exact Outcome.map_map _ _ _
  | true =>
      let context := world.traceparent (request.headers.text "traceparent")
      have own := marked (requestIdOf world.nextRequestId { request with trace := some context })
      refine ⟨_, ⟨?_, ?_, ?_, ?_⟩, (congrArg (Outcome.map _) (Outcome.map_map _ _ _)).trans
        (Outcome.map_map _ (fun response => { response with
          headers := response.headers.insert "traceparent" context }) _)⟩
      · exact fun response name member =>
          Headers.containsKey_insert _ _ (own.decorated response name member)
      · exact fun response => own.status response
      · exact fun response => own.body response
      · intro response name member
        have other : name ≠ "traceparent" := by
          revert name
          decide
        exact (Headers.get_insert_of_ne _ _ other).trans (own.content response name member)

/-! ## Encryption -/

/-- The encryption hands a response on rather than replace it. -/
def Sealable (encryption : ContentEncryption) (request : Request) (response : Response) : Prop :=
  ∀ provider, encryption.provider = some provider →
    (provider.sealed encryption.maxResponseBytes request.method request.uri response).isSome

/-- What is sealed keeps its status and its headers. -/
theorem sealed_spec {provider : ContentKeyProvider} {maxResponseBytes : Nat}
    {method uri : String} {response result : Response}
    (done : provider.sealed maxResponseBytes method uri response = some result) :
    result.status = response.status ∧ ∀ name ∈ requiredHeaders,
      result.headers.containsKey name = response.headers.containsKey name := by
  unfold ContentKeyProvider.sealed at done
  split at done
  · cases done
  · obtain ⟨plaintext, _, done⟩ := Option.bind_eq_some_iff.mp done
    split at done
    · cases done
    · obtain ⟨key, _, done⟩ := Option.bind_eq_some_iff.mp done
      obtain ⟨encoded, _, done⟩ := Option.bind_eq_some_iff.mp done
      cases done
      refine ⟨rfl, fun name member => ?_⟩
      have other : name ≠ "x-content-key-id" ∧ name ≠ "x-content-encryption" ∧
          name ≠ "transfer-encoding" ∧ name ≠ "content-length" := by
        revert name
        decide
      dsimp only
      rw [containsKey_insert_of_ne _ _ other.1, containsKey_insert_of_ne _ _ other.2.1,
        containsKey_remove_of_ne _ other.2.2.1, containsKey_remove_of_ne _ other.2.2.2]

/-- Decoration does not decide whether a response can be sealed. -/
theorem sealed_isSome_decorate {decorate : Response → Response} (decorates : Decorates decorate)
    (provider : ContentKeyProvider) (maxResponseBytes : Nat) (method uri : String)
    (response : Response) :
    (provider.sealed maxResponseBytes method uri (decorate response)).isSome =
      (provider.sealed maxResponseBytes method uri response).isSome := by
  have typed := decorates.content response "content-type" (by decide)
  have encoded := decorates.content response "content-encoding" (by decide)
  unfold ContentKeyProvider.sealed Headers.text
  rw [typed, encoded, decorates.status, decorates.body]
  split
  · rfl
  · cases response.body with
    | none => rfl
    | some plaintext =>
        dsimp only [Option.bind_eq_bind, Option.bind_some]
        split
        · rfl
        · cases provider.currentKey with
          | none => rfl
          | some key =>
              dsimp only [Option.bind_some]
              cases provider.encryptResponse key method uri response.status plaintext <;> rfl

theorem not_decorated_emptyResponse (status : Nat) : ¬ Decorated (emptyResponse status) := by
  intro decorated
  have absent : (emptyResponse status).headers.containsKey "x-request-id" = false := rfl
  rw [decorated "x-request-id" (by decide)] at absent
  cases absent

/-! ## Coverage -/

/-- The response carries the headers, and the updates of the call count it once, with its
status. -/
structure Covered (metrics : HttpMetrics) (request : Request) (outcome : Outcome)
    (response : Response) : Prop where
  decorated : Decorated response
  counted : ∃ metrics', outcome.updates.foldlM HttpMetrics.post metrics = .ok metrics' ∧
    ∀ method path status, metrics'.requests.read 0 [method, path, status] =
      metrics.requests.read 0 [method, path, status] +
        if method = request.method ∧ path = request.pattern.getD "<unmatched>" ∧
          status = toString response.status then 1 else 0

theorem covered_iff {metrics : HttpMetrics} (fixed : metrics.Fixed) (request : Request)
    (outcome : Outcome) (response : Response) :
    Covered metrics request outcome response ↔ Decorated response ∧
      ∀ method path status, outcome.updates.count (.request method path status) =
        if method = request.method ∧ path = request.pattern.getD "<unmatched>" ∧
          status = toString response.status then 1 else 0 := by
  obtain ⟨metrics', posted, _, grown, _⟩ := HttpMetrics.post_all fixed outcome.updates
  refine ⟨fun covered => ⟨covered.decorated, ?_⟩, fun ⟨decorated, counts⟩ =>
    ⟨decorated, metrics', posted, ?_⟩⟩
  · intro method path status
    obtain ⟨after, postedAfter, counted⟩ := covered.counted
    rw [posted] at postedAfter
    cases postedAfter
    have same := add_left_cancel ((grown method path status).symm.trans
      (counted method path status))
    exact_mod_cast same
  · intro method path status
    rw [grown, counts]
    push_cast
    rfl

theorem not_covered_of_uncounted {metrics : HttpMetrics} (fixed : metrics.Fixed)
    {request : Request} {outcome : Outcome} {response : Response}
    (uncounted : ∀ method path status, .request method path status ∉ outcome.updates) :
    ¬ Covered metrics request outcome response := by
  intro covered
  have counts := ((covered_iff fixed request outcome response).mp covered).2 request.method
    (request.pattern.getD "<unmatched>") (toString response.status)
  rw [if_pos ⟨rfl, rfl, rfl⟩, List.count_eq_zero_of_not_mem (uncounted _ _ _)] at counts
  cases counts

/-- Every gate admits the request, the routes serve it in time, and what they answer is
handed on: a response the encryption can seal, or an error that is decorated already. -/
def Undisturbed (config : RestServerConfig) (world : World) (request : Request) : Prop :=
  ∃ admitted, accept (outerGates config world) request = .ok admitted ∧
    ((timeoutOf config.requestTimeoutMs admitted).2 = true ∨
      (served config world admitted).inTime (timeoutOf config.requestTimeoutMs admitted).1 =
        true) ∧
    ∀ response,
      ((served config world admitted).ending = .ok response →
        Sealable (encryptionOf config) admitted response) ∧
      ((served config world admitted).ending = .err response →
        Decorated response ∧ response.status = 500)

section Stack

variable {config : RestServerConfig} {world : World} {request admitted : Request}

/-- The response to an admitted request leaves the stack as it was, unless the encryption
replaces it. -/
theorem respond_outerGates (passed : accept (outerGates config world) request = .ok admitted)
    (response : Response) :
    (Sealable (encryptionOf config) admitted response →
      (respond (outerGates config world) request response).status = response.status ∧
        (Decorated (respond (outerGates config world) request response) ↔ Decorated response)) ∧
    (¬ Sealable (encryptionOf config) admitted response →
      ¬ Decorated (respond (outerGates config world) request response)) := by
  obtain ⟨mid, outermost, rest, composed⟩ := admit_append passed
  have rest' := rest
  rw [accept, List.foldlM_cons] at rest'
  obtain ⟨next, opened, limits⟩ := bind_eq_ok rest'
  have kept : admitted.method = next.method ∧ admitted.uri = next.uri ∧ _ :=
    admit_keeps (fun gate member => quiet_outerGates config world gate
      (List.mem_append_right _ (List.mem_cons_of_mem _ member))) limits
  have inside : respond ((encryptionOf config).gate :: limitGates config world) mid response =
      (encryptionOf config).gate.respond next response := by
    simp only [respond, opened, respond_limitGates]
  have outside := respond_transparent (transparent_outermostGates config) outermost
    ((encryptionOf config).gate.respond next response)
  have result : respond (outerGates config world) request response =
      respond (outermostGates config) request ((encryptionOf config).gate.respond next response) :=
    (composed response).trans (congrArg _ inside)
  rw [result]
  have decorated := decorated_congr outside.2
  cases provided : (encryptionOf config).provider with
  | none =>
      have same : (encryptionOf config).gate.respond next response = response := by
        simp only [ContentEncryption.gate, provided]
      rw [same] at outside decorated ⊢
      refine ⟨fun _ => ⟨outside.1, decorated⟩, fun replaced => absurd ?_ replaced⟩
      intro provider found
      rw [provided] at found
      cases found
  | some provider =>
      have answer : (encryptionOf config).gate.respond next response =
          (provider.sealed (encryptionOf config).maxResponseBytes admitted.method admitted.uri
            response).getD (emptyResponse 500) := by
        simp only [ContentEncryption.gate, provided, kept.1, kept.2.1]
      refine ⟨fun sealable => ?_, fun replaced => ?_⟩
      · obtain ⟨result, done⟩ := Option.isSome_iff_exists.mp (sealable provider provided)
        rw [done, Option.getD_some] at answer
        have spec := sealed_spec done
        rw [answer] at outside decorated ⊢
        exact ⟨outside.1.trans spec.1, decorated.trans (decorated_congr spec.2)⟩
      · have failed : provider.sealed (encryptionOf config).maxResponseBytes admitted.method
            admitted.uri response = none := by
          by_contra some_
          refine replaced fun other found => ?_
          rw [provided] at found
          cases found
          exact Option.isSome_iff_ne_none.mpr some_
        rw [failed, Option.getD_none] at answer
        rw [answer] at decorated ⊢
        exact fun has => not_decorated_emptyResponse 500 (decorated.mp has)

/-- The timeout hands on the outcome of a service that is in time, and else counts no
request. -/
theorem timeout_spec (metrics : Bool) (timeoutMs : Nat) (service : Service) (request : Request) :
    (((timeoutOf timeoutMs request).2 = true ∨
        (service request).inTime (timeoutOf timeoutMs request).1 = true) →
      timeout metrics timeoutMs service request = service request) ∧
    (¬ ((timeoutOf timeoutMs request).2 = true ∨
        (service request).inTime (timeoutOf timeoutMs request).1 = true) →
      (timeout metrics timeoutMs service request).updates =
        (service request).dropped ++ recordProtection metrics "timeout") := by
  unfold timeout
  refine ⟨fun inTime => if_pos ((Bool.or_eq_true _ _).mpr inTime), fun late => ?_⟩
  exact congrArg Outcome.updates (if_neg fun ready => late ((Bool.or_eq_true _ _).mp ready))

theorem inTime_map (change : Response → Response) (outcome : Outcome) (duration : Nat) :
    (outcome.map change).inTime duration = outcome.inTime duration := by
  obtain ⟨ending, after, updates, dropped⟩ := outcome
  cases ending <;> rfl

theorem count_recorded (method path : String) (status : Nat) (seconds : ℚ)
    (method' path' status' : String) :
    List.count (.request method' path' status')
        (.enter method path :: [] ++ record method path status seconds ++ [.leave method path]) =
      if method' = method ∧ path' = path ∧ status' = toString status then 1 else 0 := by
  by_cases same : method' = method ∧ path' = path ∧ status' = toString status
  · obtain ⟨rfl, rfl, rfl⟩ := same
    simp [record]
  · rw [if_neg same, List.count_eq_zero]
    intro member
    simp only [record, List.cons_append, List.nil_append, List.mem_cons, reduceCtorEq,
      Update.request.injEq, List.not_mem_nil, or_false, false_or] at member
    exact same member

/-- A request that was served in time: what is sent, and what was counted. -/
theorem covered_served_iff {metrics : HttpMetrics} (fixed : metrics.Fixed) {outcome : Outcome}
    (bare : outcome.updates = []) {decorate : Response → Response}
    (decorates : Decorates decorate) {sends : Response → Response}
    {sealable : Response → Prop}
    (sent : ∀ response,
      (sealable response → (sends response).status = response.status ∧
        (Decorated (sends response) ↔ Decorated response)) ∧
      (¬ sealable response → ¬ Decorated (sends response)))
    {response : Response}
    (answered : ((metricsMiddleware (fun _ => outcome.map decorate) request).map
      sends).ending.sent = some response) :
    Covered metrics request
        ((metricsMiddleware (fun _ => outcome.map decorate) request).map sends) response ↔
      ∀ response,
        (outcome.ending = .ok response → sealable (decorate response)) ∧
        (outcome.ending = .err response → Decorated response ∧ response.status = 500) := by
  obtain ⟨ending, after, updates, dropped⟩ := outcome
  cases bare
  rw [covered_iff fixed]
  cases ending with
  | ok original =>
      cases answered
      obtain ⟨kept, replaced⟩ := sent (decorate original)
      refine ⟨fun covered other => ⟨fun same => ?_, fun same => nomatch same⟩, fun undisturbed =>
        ?_⟩
      · cases same
        by_contra lost
        exact replaced lost covered.1
      · obtain ⟨sameStatus, sameHeaders⟩ := kept ((undisturbed original).1 rfl)
        refine ⟨sameHeaders.mpr (decorates.decorated original), fun method path status => ?_⟩
        rw [sameStatus]
        exact count_recorded _ _ _ _ _ _ _
  | err original =>
      cases answered
      have counts : ∀ method path status, List.count (.request method path status)
          ((metricsMiddleware (fun _ => Outcome.map decorate ⟨.err response, after, [], dropped⟩)
            request).map sends).updates =
          if method = request.method ∧ path = request.pattern.getD "<unmatched>" ∧
            status = toString 500 then 1 else 0 := by
        intro method path status
        exact count_recorded _ _ _ _ _ _ _
      refine ⟨fun covered other => ⟨fun same => (nomatch same), fun same => ?_⟩, fun undisturbed =>
        ?_⟩
      · cases same
        refine ⟨covered.1, ?_⟩
        have once := covered.2 request.method (request.pattern.getD "<unmatched>") (toString 500)
        rw [counts, if_pos ⟨rfl, rfl, rfl⟩] at once
        split at once
        · rename_i same
          exact (Nat.repr_injective same.2.2).symm
        · cases once
      · obtain ⟨decorated, status⟩ := (undisturbed response).2 rfl
        refine ⟨decorated, fun method path label => ?_⟩
        rw [counts, status]
  | panicked => cases answered
  | never => cases answered

theorem sealable_decorate {encryption : ContentEncryption} {decorate : Response → Response}
    (decorates : Decorates decorate) (request : Request) (response : Response) :
    Sealable encryption request (decorate response) ↔ Sealable encryption request response := by
  unfold Sealable
  simp only [sealed_isSome_decorate decorates]

theorem covered_kept {metrics : HttpMetrics} (fixed : metrics.Fixed)
    (method : admitted.method = request.method) (pattern : admitted.pattern = request.pattern)
    (outcome : Outcome) (response : Response) :
    Covered metrics request outcome response ↔ Covered metrics admitted outcome response := by
  rw [covered_iff fixed, covered_iff fixed, method, pattern]

end Stack

/-- An application without route policies. -/
def openRoutes : RoutePolicies :=
  ⟨[], ⟨fun _ => true, fun pattern path => pattern == path, fun _ _ => true,
    ⟨fun _ => "", fun _ => none, fun _ _ => []⟩, ⟨fun _ => none, fun _ => none⟩⟩,
    fun _ _ => none, 0⟩

/-- `RestServerConfig::default`. -/
def defaultConfig : RestServerConfig :=
  ⟨true, true, true, true, true, true, 10000, none, true, true, 4194304, true, none, none,
    openRoutes, none⟩

/-- A server at rest with one route, `/`. -/
def idle : World :=
  ⟨0, 1, fun _ => [], ⟨1, 1, 0⟩, 1024, 256, true, fun _ => true, fun _ _ => none,
    fun request => if request.path = "/" then some ⟨.ok ⟨200, [], some []⟩, 5⟩ else none⟩

def get (headers : Headers) : Request :=
  ⟨"GET", "/", "/", some "/", headers, [], none, none, none⟩

end RustZero.Rest
