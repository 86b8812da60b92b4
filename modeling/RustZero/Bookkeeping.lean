import RustZero.RpcMetrics
import RustZero.RestStackCoverage

/-!
# What the servers keep for each request

The breaker maps of `rpc/src/stack.rs` and `rest/src/middleware.rs` and the observations of
the duration histograms, over all the requests a server has seen.  Nothing removes an
entry or an observation, so the question is what can be added.

* `RpcServerStack` and its `system` are the gRPC server: authentication, the shedder and the
  breakers, and the metrics behind them.
* `restSystem` is the REST server with the stack of `Rest.standardApp`.

The decisions of the shedder and the breakers are those of the environment.
-/

namespace RustZero.Bookkeeping

open Lib

/-! ## The gRPC server -/

structure RpcServerStack where
  /-- The method paths of `RpcMetrics::new`. -/
  methods : List String
  /-- Whether the validator knows a token. -/
  auth : Option (String → Bool)
  shedder : Bool
  breakers : Bool

structure RpcState where
  /-- The keys of `by_method`. -/
  byMethod : Finset String
  calls : Rpc.Metrics.State

inductive RpcAction where
  | request (path : String) (authorization : Option Http.HeaderValue)
      (shedderAdmits breakerAdmits : Bool)
  /-- What becomes of a call that reached the metrics. -/
  | event (index : Nat) (event : Rpc.Metrics.Event)
  | post (index : Nat) (elapsed : ℚ)

def RpcServerStack.authorizes (stack : RpcServerStack)
    (authorization : Option Http.HeaderValue) : Bool :=
  match stack.auth with
  | none => true
  | some auth =>
      (((authorization.bind Http.headerText).bind RoutePolicies.bearerToken).map auth).getD false

/-- `ServerCircuitBreakers::acquire` adds the method before it asks its breaker. -/
def RpcServerStack.acquire (stack : RpcServerStack) (byMethod : Finset String)
    (method : String) : Finset String :=
  if stack.breakers then insert method byMethod else byMethod

def RpcServerStack.advance (stack : RpcServerStack) (state : RpcState) :
    RpcAction → Option RpcState
  | .request path authorization shedderAdmits breakerAdmits =>
      if stack.authorizes authorization = false then some state
      else if stack.shedder && !shedderAdmits then some state
      else
        let byMethod := stack.acquire state.byMethod path
        if stack.breakers && !breakerAdmits then some { state with byMethod := byMethod }
        else (Rpc.Metrics.advance state.calls (.start path)).map fun calls => ⟨byMethod, calls⟩
  | .event index event =>
      (Rpc.Metrics.advance state.calls (.event index event)).map fun calls =>
        { state with calls := calls }
  | .post index elapsed =>
      (Rpc.Metrics.advance state.calls (.post index elapsed)).map fun calls =>
        { state with calls := calls }

def RpcServerStack.system (stack : RpcServerStack) : Lts RpcState RpcAction where
  init := ⟨∅, .new stack.methods, []⟩
  step := stack.advance

/-- The entries of the breaker map and the observations of each label set stay within a
bound. -/
def RpcServerStack.Bounded (stack : RpcServerStack) : Prop :=
  ∃ bound, ∀ state, stack.system.Reachable state → state.byMethod.card ≤ bound ∧
    ∀ labels, (state.calls.metrics.duration.stored labels).length ≤ bound

/-- Texts that are not among finitely many. -/
theorem exists_fresh (texts : Finset String) (rest : String) :
    ∃ length, ∀ longer, length ≤ longer →
      String.ofList (List.replicate longer 'x') ++ rest ∉ texts := by
  refine ⟨texts.sup String.length + 1, fun longer above member => ?_⟩
  have within : (String.ofList (List.replicate longer 'x') ++ rest).length ≤
      texts.sup String.length := Finset.le_sup (f := String.length) member
  rw [String.length_append, String.length_ofList, List.length_replicate] at within
  omega

section Rpc

variable {stack : RpcServerStack}

theorem advance_refused {authorization : Option Http.HeaderValue}
    (refused : stack.authorizes authorization = false) (state : RpcState) (path : String)
    (shedderAdmits breakerAdmits : Bool) :
    stack.advance state (.request path authorization shedderAdmits breakerAdmits) = some state :=
  if_pos refused

theorem advance_admitted {authorization : Option Http.HeaderValue}
    (letIn : stack.authorizes authorization = true) (state : RpcState) (path : String) :
    stack.advance state (.request path authorization true true) =
      (Rpc.Metrics.advance state.calls (.start path)).map fun calls =>
        ⟨stack.acquire state.byMethod path, calls⟩ := by
  simp [RpcServerStack.advance, letIn]

/-- Without a request that is let in, nothing is kept. -/
theorem unauthorized_keeps_nothing (refuses : ∀ header, stack.authorizes header = false)
    {state : RpcState} (reach : stack.system.Reachable state) :
    state = ⟨∅, .new stack.methods, []⟩ := by
  refine reach.invariant (I := fun state => state = _) rfl ?_
  intro before action after same _ taken
  subst same
  cases action with
  | request path authorization shedderAdmits breakerAdmits =>
      have kept := advance_refused (refuses authorization) ⟨∅, .new stack.methods, []⟩ path
        shedderAdmits breakerAdmits
      exact (Option.some.inj (kept.symm.trans taken)).symm
  | event index event => cases taken
  | post index elapsed => cases taken

theorem rpc_bounded_of_unauthorized (refuses : ∀ header, stack.authorizes header = false) :
    stack.Bounded := by
  refine ⟨0, fun state reach => ?_⟩
  rw [unauthorized_keeps_nothing refuses reach]
  refine ⟨Nat.le_refl _, fun labels => ?_⟩
  simp [Rpc.Metrics.RpcMetrics.new, Metric.HistogramVec.stored]

open Rpc.Metrics in
/-- Two updates of the newest call: its observation is made. -/
theorem newest_observed {methods : List String} {metrics : RpcMetrics} (calls : List Call)
    (call : Call) {method code : String} (fixed : Fixed methods metrics)
    (work : call.work = updates method code) :
    ∃ mid next, advance ⟨metrics, calls ++ [call]⟩ (.post calls.length 0) = some mid ∧
      advance mid (.post calls.length 0) = some next ∧ Fixed methods next.metrics ∧
      (next.metrics.duration.stored [method, code]).length =
        (metrics.duration.stored [method, code]).length + 1 := by
  have counts : .requests [method, code] ∈ updates method code := by simp [updates]
  have observes : .duration [method, code] ∈ updates method code := by simp [updates]
  obtain ⟨counted, doneFirst, fixedFirst, first⟩ := post_spec fixed counts 0
  obtain ⟨observed, doneSecond, fixedSecond, second⟩ := post_spec fixedFirst observes 0
  refine ⟨_, _, by simp [advance, work, updates, doneFirst, Except.toOption]; rfl,
    by simp [advance, doneSecond, Except.toOption]; rfl, fixedSecond, ?_⟩
  rw [second.duration, first.duration]
  simp

/-- A call that is let in and fails leaves an observation of its method. -/
theorem failed_call_observed {authorization : Option Http.HeaderValue}
    (letIn : stack.authorizes authorization = true) (path : String) {state : RpcState}
    (fixed : Rpc.Metrics.Fixed stack.methods state.calls.metrics) :
    ∃ state', stack.system.Steps Lts.Always state state' ∧
      Rpc.Metrics.Fixed stack.methods state'.calls.metrics ∧
      state'.byMethod = stack.acquire state.byMethod path ∧
      (state'.calls.metrics.duration.stored
          [state.calls.metrics.method path, "transport_error"]).length =
        (state.calls.metrics.duration.stored
          [state.calls.metrics.method path, "transport_error"]).length + 1 := by
  obtain ⟨byMethod, metrics, calls⟩ := state
  have started := Rpc.Metrics.start_spec fixed path
  let counted : Rpc.Metrics.RpcMetrics := { metrics with
    inFlight := metrics.inFlight.update 0 [metrics.method path] (· + 1) }
  let ended : Rpc.Metrics.Call :=
    ⟨path, .gone, Rpc.Metrics.updates (metrics.method path) "transport_error", [.failed], []⟩
  have fixedCounted : Rpc.Metrics.Fixed stack.methods counted :=
    ⟨fixed.requests, fixed.duration, fixed.inFlight, fixed.methods⟩
  obtain ⟨mid, next, first, second, fixedNext, grown⟩ :=
    newest_observed calls ended fixedCounted rfl
  refine ⟨⟨stack.acquire byMethod path, next⟩, ?_, fixedNext, rfl, grown⟩
  have request : stack.system.step ⟨byMethod, metrics, calls⟩
      (.request path authorization true true) = some ⟨stack.acquire byMethod path, counted,
        calls ++ [⟨path, .future ⟨metrics.method path, false⟩, [], [], []⟩]⟩ := by
    refine (advance_admitted letIn _ path).trans ?_
    simp [Rpc.Metrics.advance, started, counted, Except.toOption]
  have failed : stack.system.step ⟨stack.acquire byMethod path, counted,
        calls ++ [⟨path, .future ⟨metrics.method path, false⟩, [], [], []⟩]⟩
      (.event calls.length .failed) =
      some ⟨stack.acquire byMethod path, counted, calls ++ [ended]⟩ := by
    simp [RpcServerStack.system, RpcServerStack.advance, Rpc.Metrics.advance, Rpc.Metrics.handle,
      Rpc.Metrics.settle_unfinished, ended]
  have posted : stack.system.step ⟨stack.acquire byMethod path, counted, calls ++ [ended]⟩
      (.post calls.length 0) = some ⟨stack.acquire byMethod path, mid⟩ :=
    congrArg (Option.map _) first
  have observed : stack.system.step ⟨stack.acquire byMethod path, mid⟩
      (.post calls.length 0) = some ⟨stack.acquire byMethod path, next⟩ :=
    congrArg (Option.map _) second
  exact (((Lts.Steps.single trivial request).tail trivial failed).tail trivial posted).tail trivial
    observed

theorem rpc_fixed_init : Rpc.Metrics.Fixed stack.methods stack.system.init.calls.metrics :=
  ⟨rfl, rfl, rfl, rfl⟩

/-- One caller that is let in makes the observations of a label set outgrow any bound. -/
theorem observations_unbounded {authorization : Option Http.HeaderValue}
    (letIn : stack.authorizes authorization = true) (bound : Nat) :
    ∃ state, stack.system.Reachable state ∧
      bound < (state.calls.metrics.duration.stored
        [(Rpc.Metrics.RpcMetrics.new stack.methods).method "/", "transport_error"]).length := by
  refine Lts.exists_reach_gt
    (I := fun state => Rpc.Metrics.Fixed stack.methods state.calls.metrics) rpc_fixed_init ?_ bound
  intro state fixed
  obtain ⟨state', run, fixed', _, grown⟩ := failed_call_observed letIn "/" fixed
  have label : (Rpc.Metrics.RpcMetrics.new stack.methods).method "/" =
      state.calls.metrics.method "/" :=
    Rpc.Metrics.method_of_methods fixed.methods.symm "/"
  refine ⟨state', run, fixed', ?_⟩
  rw [label, grown]
  exact Nat.lt_succ_self _

/-- With breakers, one caller that is let in makes the breaker map outgrow any bound: each
path is an entry, whatever the registered methods are. -/
theorem methods_unbounded (breakers : stack.breakers = true)
    {authorization : Option Http.HeaderValue} (letIn : stack.authorizes authorization = true)
    (bound : Nat) : ∃ state, stack.system.Reachable state ∧ bound < state.byMethod.card := by
  refine Lts.exists_reach_gt
    (I := fun state => Rpc.Metrics.Fixed stack.methods state.calls.metrics) rpc_fixed_init ?_ bound
  intro state fixed
  obtain ⟨length, fresh⟩ := exists_fresh state.byMethod ""
  obtain ⟨state', run, fixed', entries, _⟩ :=
    failed_call_observed letIn (String.ofList (List.replicate length 'x') ++ "") fixed
  refine ⟨state', run, fixed', ?_⟩
  rw [entries, RpcServerStack.acquire, if_pos breakers,
    Finset.card_insert_of_notMem (fresh length (Nat.le_refl _))]
  exact Nat.lt_succ_self _

theorem rpc_bounded_iff (stack : RpcServerStack) :
    stack.Bounded ↔ ∀ header, stack.authorizes header = false := by
  refine ⟨fun ⟨bound, within⟩ header => ?_, rpc_bounded_of_unauthorized⟩
  by_contra letIn
  obtain ⟨state, reach, above⟩ := observations_unbounded (Bool.of_not_eq_false letIn) bound
  exact absurd ((within state reach).2 _) (Nat.not_le_of_lt above)

end Rpc

/-! ## The REST server -/

open Http Rest

structure RestState where
  /-- The keys of `by_route`. -/
  byRoute : Finset String
  metrics : HttpMetrics

/-- The gates outside the breakers. -/
def beforeBreakers (config : RestServerConfig) (world : World) : List Gate :=
  outermostGates config ++ [(encryptionOf config).gate,
    requestBodyLimit config.maxBodyBytes config.decompressGzip world.expand]

/-- `ServerCircuitBreakerMiddleware::call` adds the route of each request that reaches it. -/
def acquireRoute (config : RestServerConfig) (world : World) (byRoute : Finset String)
    (request : Request) : Finset String :=
  match config.serverCircuitBreaking, accept (beforeBreakers config world) request with
  | true, .ok admitted => insert (breakerRoute admitted) byRoute
  | _, _ => byRoute

def restAdvance (config : RestServerConfig) (state : RestState) (action : Request × World) :
    Option RestState :=
  let updates := (standardApp config action.2 action.1).updates
  (updates.foldlM HttpMetrics.post state.metrics).toOption.map fun metrics =>
    ⟨acquireRoute config action.2 state.byRoute action.1, metrics⟩

/-- A request and the world it meets, one after another. -/
def restSystem (config : RestServerConfig) : Lts RestState (Request × World) where
  init := ⟨∅, .new⟩
  step := restAdvance config

def RestBounded (config : RestServerConfig) : Prop :=
  ∃ bound, ∀ state, (restSystem config).Reachable state → state.byRoute.card ≤ bound ∧
    ∀ labels, (state.metrics.duration.stored labels).length ≤ bound

section Rest

variable {config : RestServerConfig}

/-- Without metrics the stack makes no update. -/
theorem standardApp_updates (world : World) (request : Request)
    (unmeasured : config.metrics = false) : (standardApp config world request).updates = [] := by
  rw [standardApp_eq]
  have quiet := quiet_outerGates config world
  cases passed : accept (outerGates config world) request with
  | error outcome =>
      rw [List.eq_nil_iff_forall_not_mem]
      intro update member
      have on := (layers_error quiet passed _ update member).1
      rw [unmeasured] at on
      cases on
  | ok admitted =>
      rw [layers_ok passed, unmeasured]
      obtain ⟨bare, bareDropped⟩ := bare_decorating config world admitted
      obtain ⟨ready, late⟩ := timeout_spec false config.requestTimeoutMs
        (decorating config world) admitted
      change (timeout false _ (decorating config world) admitted).updates = []
      by_cases inTime : (timeoutOf config.requestTimeoutMs admitted).2 = true ∨
          (decorating config world admitted).inTime
            (timeoutOf config.requestTimeoutMs admitted).1 = true
      · rw [ready inTime, bare]
      · rw [late inTime, bareDropped]
        rfl

theorem rest_bounded_of_off (off : config.serverCircuitBreaking = false)
    (unmeasured : config.metrics = false) : RestBounded config := by
  refine ⟨0, fun state reach => ?_⟩
  have kept : state = ⟨∅, .new⟩ := by
    refine reach.invariant (I := fun state => state = _) rfl ?_
    intro before action after same _ taken
    obtain ⟨request, world⟩ := action
    subst same
    obtain ⟨metrics, posted, same⟩ := Option.map_eq_some_iff.mp taken
    rw [standardApp_updates world request unmeasured] at posted
    cases posted
    rw [← same, acquireRoute, off]
  rw [kept]
  refine ⟨Nat.le_refl _, fun labels => ?_⟩
  simp [HttpMetrics.new, Metric.HistogramVec.stored]

/-- A request with an extension method and nothing else in it. -/
structure Plain (method : String) (request : Request) : Prop where
  method : request.method = method
  pattern : request.pattern = none
  headers : request.headers = []
  policy : request.policy = none
  payload : request.payload = [] ∨ request.payload = [.ok []]

theorem collect_plain {method : String} {request : Request} (plain : Plain method request)
    (maxBytes : Nat) : collect maxBytes request.payload [] = .ok [] := by
  rcases plain.payload with empty | empty <;> simp [empty, collect]

theorem admit_plain {gates : List Gate} {method : String} {request : Request}
    (admits : ∀ gate ∈ gates, ∀ request, Plain method request →
      ∃ admitted, gate.accept request = .ok admitted ∧ Plain method admitted)
    (plain : Plain method request) :
    ∃ admitted, accept gates request = .ok admitted ∧ Plain method admitted := by
  induction gates generalizing request with
  | nil => exact ⟨request, rfl, plain⟩
  | cons gate rest ih =>
      obtain ⟨next, decided, plainNext⟩ := admits gate List.mem_cons_self request plain
      obtain ⟨admitted, passed, plainLast⟩ :=
        ih (fun gate member => admits gate (List.mem_cons_of_mem _ member)) plainNext
      refine ⟨admitted, ?_, plainLast⟩
      rw [accept, List.foldlM_cons, decided]
      exact passed

/-- A method that no policy and no preflight is about. -/
structure Unlisted (config : RestServerConfig) (method : String) : Prop where
  options : method ≠ "OPTIONS"
  policies : ∀ policy ∈ config.routePolicies.routes, policy.method ≠ method

/-- Free limits, closed breakers, and routes that answer at once. -/
def permissive : World :=
  ⟨0, 1, fun _ => [], ⟨1, 1, 0⟩, 1, 1, true, fun _ => true, fun _ _ => none,
    fun _ => some ⟨.ok (emptyResponse 200), 0⟩⟩

theorem outermost_admits_plain {method : String} (unlisted : Unlisted config method) :
    ∀ gate ∈ outermostGates config, ∀ request, Plain method request →
      ∃ admitted, gate.accept request = .ok admitted ∧ Plain method admitted := by
  intro gate member request plain
  simp only [outermostGates, List.mem_append, Option.mem_toList, Option.map_eq_some_iff,
    List.mem_singleton] at member
  rcases member with ⟨cors, _, rfl⟩ | rfl
  · have passes := cors.answer_options request (by rw [plain.method]; exact unlisted.options)
    exact ⟨request, by simp only [Cors.gate, passes], plain⟩
  · have none_ : RoutePolicies.find config.routePolicies.routes request.method
        (request.pattern.getD request.path) = none := by
      rw [RoutePolicies.find, List.find?_eq_none]
      intro policy among
      have other := unlisted.policies policy among
      rw [plain.method]
      simp [other]
    exact ⟨request, by simp only [RoutePolicies.gate, none_], plain⟩

theorem encryption_admits_plain {method : String} {request : Request}
    (plain : Plain method request) (encryption : ContentEncryption) :
    ∃ admitted, encryption.gate.accept request = .ok admitted ∧ Plain method admitted := by
  cases provided : encryption.provider with
  | none => exact ⟨request, by simp only [ContentEncryption.gate, provided], plain⟩
  | some provider =>
      refine ⟨{ request with payload := [.ok []] }, ?_, ⟨plain.method, plain.pattern,
        plain.headers, plain.policy, .inr rfl⟩⟩
      simp [ContentEncryption.gate, provided, collect_plain plain]

theorem bodyLimit_admits_plain {method : String} {request : Request}
    (plain : Plain method request) (maxBodyBytes : Nat) (decompressGzip : Bool)
    (expand : List UInt8 → Nat → Option (List UInt8)) :
    ∃ admitted, (requestBodyLimit maxBodyBytes decompressGzip expand).accept request =
      .ok admitted ∧ Plain method admitted := by
  refine ⟨{ request with payload := [.ok []] }, ?_, ⟨plain.method, plain.pattern,
    plain.headers, plain.policy, .inr rfl⟩⟩
  have bare : ∀ name, Headers.text [] name = none := fun _ => rfl
  simp [requestBodyLimit, plain.headers, plain.policy, collect_plain plain, bare]

theorem protect_admits_plain {method : String} {request : Request}
    (plain : Plain method request) {metrics : Bool} {mechanism : String}
    {refusal : Request → Option Response} (passes : refusal request = none) :
    ∃ admitted, (Gate.protect metrics mechanism refusal).accept request = .ok admitted ∧
      Plain method admitted :=
  ⟨request, by simp only [Gate.protect, passes], plain⟩

theorem when_admits_plain {method : String} {request : Request} {gate : Gate}
    (plain : Plain method request)
    (admits : ∃ admitted, gate.accept request = .ok admitted ∧ Plain method admitted)
    (enabled : Bool) :
    ∃ admitted, (Gate.when enabled gate).accept request = .ok admitted ∧
      Plain method admitted := by
  cases enabled
  · exact ⟨request, rfl, plain⟩
  · exact admits

/-- A plain request passes every gate of a server at rest. -/
theorem permissive_admits_plain {method : String} (unlisted : Unlisted config method) :
    ∀ gate ∈ outerGates config permissive, ∀ request, Plain method request →
      ∃ admitted, gate.accept request = .ok admitted ∧ Plain method admitted := by
  intro gate member request plain
  rw [outerGates, List.mem_append, List.mem_cons] at member
  rcases member with outermost | rfl | limit
  · exact outermost_admits_plain unlisted gate outermost request plain
  · exact encryption_admits_plain plain _
  · simp only [limitGates, List.mem_cons, List.not_mem_nil, or_false] at limit
    rcases limit with rfl | rfl | rfl | rfl | rfl
    · exact bodyLimit_admits_plain plain _ _ _
    · exact when_admits_plain plain (protect_admits_plain plain rfl) _
    · exact when_admits_plain plain (protect_admits_plain plain rfl) _
    · exact protect_admits_plain plain (if_pos (.inl Nat.one_pos))
    · refine when_admits_plain plain (protect_admits_plain plain ?_) _
      have full : (permissive.bucket.tryAcquire permissive.now
          (config.rateLimitRequestsPerSecond.getD 1)).2 = none := by
        simp [permissive, TokenBucket.tryAcquire]
      rw [full]
      rfl

theorem decorating_permissive (config : RestServerConfig) (request : Request) :
    ∃ response, (decorating config permissive request).ending = .ok response ∧
      response.status = 200 ∧ (decorating config permissive request).after = 0 := by
  unfold decorating
  cases config.tracing <;> cases config.requestIds <;> cases config.securityHeaders <;>
    cases config.recovery <;> cases config.logging <;> exact ⟨_, rfl, rfl, rfl⟩

/-- With metrics on, a plain request leaves one observation of its labels. -/
theorem standardApp_observes (measured : config.metrics = true) {method : String}
    {request : Request} (unlisted : Unlisted config method) (plain : Plain method request) :
    (standardApp config permissive request).updates.countP
      (fun update => update.observed = some [method, "<unmatched>", "200"]) = 1 := by
  obtain ⟨admitted, passed, plainLast⟩ :=
    admit_plain (permissive_admits_plain unlisted) plain
  obtain ⟨response, ending, status, after⟩ := decorating_permissive config admitted
  obtain ⟨bare, _⟩ := bare_decorating config permissive admitted
  rw [standardApp_eq, layers_ok passed, measured]
  change List.countP _ (timeout true _ (metricsMiddleware (decorating config permissive))
    admitted).updates = 1
  have inTime : (metricsMiddleware (decorating config permissive) admitted).inTime
      (timeoutOf config.requestTimeoutMs admitted).1 = true := by
    change ((decorating config permissive admitted).ending != .never &&
      (decorating config permissive admitted).after ≤ _) = true
    rw [ending, after]
    rfl
  rw [(timeout_spec true config.requestTimeoutMs _ admitted).1 (.inr inTime)]
  simp only [metricsMiddleware, ending, bare, plainLast.method, plainLast.pattern, status]
  have text : Nat.repr 200 = "200" := by decide +kernel
  simp [record, Update.observed, text]

theorem rest_step (config : RestServerConfig) {state : RestState}
    (fixed : state.metrics.Fixed) (world : World) (request : Request) :
    ∃ metrics', (restSystem config).step state (request, world) =
        some ⟨acquireRoute config world state.byRoute request, metrics'⟩ ∧ metrics'.Fixed ∧
      ∀ labels, (metrics'.duration.stored labels).length =
        (state.metrics.duration.stored labels).length +
          (standardApp config world request).updates.countP
            fun update => update.observed = some labels := by
  obtain ⟨metrics', posted, fixed', _, observed⟩ :=
    HttpMetrics.post_all fixed (standardApp config world request).updates
  refine ⟨metrics', ?_, fixed', observed⟩
  change Option.map _ (Except.toOption (List.foldlM HttpMetrics.post _ _)) = _
  rw [posted]
  rfl

def plainRequest (method : String) : Request :=
  ⟨method, "/", "/", none, [], [], none, none, none⟩

theorem plain_plainRequest (method : String) : Plain method (plainRequest method) :=
  ⟨rfl, rfl, rfl, rfl, .inl rfl⟩

/-- Long enough method tokens are unlisted. -/
theorem exists_unlisted (config : RestServerConfig) : ∃ length, ∀ longer, length ≤ longer →
    Unlisted config (String.ofList (List.replicate longer 'x') ++ "") := by
  let listed := config.routePolicies.routes.map RoutePolicies.CompiledPolicy.method
  obtain ⟨length, fresh⟩ := exists_fresh (insert "OPTIONS" listed.toFinset) ""
  refine ⟨length, fun longer above => ⟨?_, ?_⟩⟩
  · intro same
    have absent := fresh longer above
    rw [same] at absent
    exact absent (Finset.mem_insert_self _ _)
  · intro policy among same
    have absent := fresh longer above
    rw [← same] at absent
    exact absent (Finset.mem_insert_of_mem
      (List.mem_toFinset.mpr (List.mem_map.mpr ⟨policy, among, rfl⟩)))

/-- With metrics on, one client makes the observations of a label set outgrow any bound. -/
theorem rest_observations_unbounded (measured : config.metrics = true) :
    ∃ labels, ∀ bound, ∃ state, (restSystem config).Reachable state ∧
      bound < (state.metrics.duration.stored labels).length := by
  obtain ⟨length, unlisted⟩ := exists_unlisted config
  let method := String.ofList (List.replicate length 'x') ++ ""
  refine ⟨[method, "<unmatched>", "200"], fun bound => ?_⟩
  refine Lts.exists_reach_gt (I := fun state => state.metrics.Fixed) HttpMetrics.fixed_new ?_
    bound
  intro state fixed
  obtain ⟨metrics', step, fixed', grown⟩ :=
    rest_step config fixed permissive (plainRequest method)
  refine ⟨_, Lts.Steps.single trivial step, fixed', ?_⟩
  dsimp only
  rw [grown, standardApp_observes measured (unlisted length (Nat.le_refl _))
    (plain_plainRequest method)]
  exact Nat.lt_succ_self _

/-- With breakers on, one client makes the breaker map outgrow any bound: each method token
is an entry, whatever the routes are. -/
theorem routes_unbounded (breaking : config.serverCircuitBreaking = true) (bound : Nat) :
    ∃ state, (restSystem config).Reachable state ∧ bound < state.byRoute.card := by
  obtain ⟨length, unlisted⟩ := exists_unlisted config
  refine Lts.exists_reach_gt (I := fun state => state.metrics.Fixed) HttpMetrics.fixed_new ?_
    bound
  intro state fixed
  obtain ⟨above, fresh⟩ := exists_fresh state.byRoute (" " ++ "<unmatched>")
  let method := String.ofList (List.replicate (max length above) 'x') ++ ""
  have fine : Unlisted config method := unlisted _ (Nat.le_max_left _ _)
  obtain ⟨metrics', step, fixed', _⟩ :=
    rest_step config fixed permissive (plainRequest method)
  refine ⟨_, Lts.Steps.single trivial step, fixed', ?_⟩
  have reaches : ∃ admitted, accept (beforeBreakers config permissive) (plainRequest method) =
      .ok admitted ∧ Plain method admitted := by
    refine admit_plain ?_ (plain_plainRequest method)
    intro gate member request plain
    simp only [beforeBreakers, List.mem_append, List.mem_cons, List.not_mem_nil, or_false]
      at member
    rcases member with outermost | rfl | rfl
    · exact outermost_admits_plain fine gate outermost request plain
    · exact encryption_admits_plain plain _
    · exact bodyLimit_admits_plain plain _ _ _
  obtain ⟨admitted, passed, plain⟩ := reaches
  have route : breakerRoute admitted = String.ofList (List.replicate (max length above) 'x') ++
      (" " ++ "<unmatched>") := by
    rw [breakerRoute, plain.method, plain.pattern, Option.getD_none, String.append_assoc,
      String.append_assoc, String.empty_append]
  dsimp only
  rw [acquireRoute, breaking, passed]
  dsimp only
  rw [route, Finset.card_insert_of_notMem (fresh _ (Nat.le_max_right _ _))]
  exact Nat.lt_succ_self _

theorem rest_bounded_iff (config : RestServerConfig) :
    RestBounded config ↔ config.serverCircuitBreaking = false ∧ config.metrics = false := by
  refine ⟨fun ⟨bound, within⟩ => ⟨?_, ?_⟩, fun ⟨off, unmeasured⟩ =>
    rest_bounded_of_off off unmeasured⟩
  · by_contra on
    obtain ⟨state, reach, above⟩ := routes_unbounded (Bool.of_not_eq_false on) bound
    exact absurd (within state reach).1 (Nat.not_le_of_lt above)
  · by_contra on
    obtain ⟨labels, grows⟩ := rest_observations_unbounded (Bool.of_not_eq_false on)
    obtain ⟨state, reach, above⟩ := grows bound
    exact absurd ((within state reach).2 labels) (Nat.not_le_of_lt above)

end Rest

/-- The bookkeeping of the gRPC server stays bounded exactly when its validator lets no
request in, that of the REST server when both its breakers and its metrics are off. -/
theorem bookkeeping_bounded_iff (stack : RpcServerStack) (config : RestServerConfig) :
    (stack.Bounded ↔ ∀ header, stack.authorizes header = false) ∧
      (RestBounded config ↔
        config.serverCircuitBreaking = false ∧ config.metrics = false) :=
  ⟨rpc_bounded_iff stack, rest_bounded_iff config⟩

/-- Neither server is bounded in its default configuration. -/
theorem defaults_unbounded :
    ¬ (RpcServerStack.Bounded ⟨["/users.Users/Get"], none, false, true⟩) ∧
      ¬ RestBounded defaultConfig := by
  refine ⟨fun bounded => ?_, fun bounded => ?_⟩
  · cases (rpc_bounded_iff _).mp bounded none
  · cases ((rest_bounded_iff _).mp bounded).1

end RustZero.Bookkeeping
