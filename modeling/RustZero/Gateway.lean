import Mathlib
import RustZero.Lib.Checks
import RustZero.Lib.UnstableSort
import RustZero.Discov

/-!
# Gateway configuration and routes

`gateway/src/lib.rs`: the configuration of a gateway with its checks, and the router
of the HTTP routes.  A prefix matches a path on whole segments; the router keeps its
routes in descending order of their prefix length, so that the first match is the
longest.

Parsing of URLs and the checks of the REST server's own settings lie elsewhere and are
parameters.  The settings no check reads are left out.
-/

namespace RustZero.Gateway

open Lib Discov

/-! ## Prefixes -/

/-- `str::strip_prefix`. -/
def stripPrefix (text start : String) : Option String :=
  if start.toList <+: text.toList then some (String.ofList (text.toList.drop start.toList.length))
  else none

def startsWithSlash (text : String) : Bool := text.toList.head? == some '/'

inductive GatewayError where
  | invalidPrefix (pathPrefix : String)
  | emptyUpstreams (pathPrefix : String)
  | emptyUpstream
  | duplicatePrefix (pathPrefix : String)
  | unknownPrefix (pathPrefix : String)
  | unknownUpstream (upstream : String)
  deriving DecidableEq, Repr

/-- Pop trailing slashes down to the last character; the text is reversed. -/
def popSlashes : List Char → List Char
  | '/' :: next :: rest => popSlashes (next :: rest)
  | text => text

def normalizePrefix (pathPrefix : String) : Except GatewayError String :=
  if startsWithSlash pathPrefix then
    .ok (String.ofList (popSlashes pathPrefix.toList.reverse).reverse)
  else .error (.invalidPrefix pathPrefix)

/-- The last two cases of `matches_prefix`: the path is the prefix, or goes on with a new
segment after it. -/
def coversPath (pathPrefix path : String) : Bool :=
  path == pathPrefix || (stripPrefix path pathPrefix).any startsWithSlash

def matchesPrefix (path pathPrefix : String) : Bool :=
  pathPrefix == "/" || coversPath pathPrefix path

/-! ## Configuration -/

structure GatewayRoute where
  pathPrefix : String
  upstreams : List String
  middleware : List String
  deriving DecidableEq, Repr

structure GatewayGrpcEtcdDiscovery where
  endpoints : List String
  etcdNamespace : String
  service : String
  username : Option String
  password : Option String
  connectTimeoutMs : Nat
  deriving DecidableEq, Repr

/-- `bindings` counts the explicit HTTP bindings. -/
structure GatewayGrpcUpstream where
  pathPrefix : String
  endpoints : List String
  discovery : Option GatewayGrpcEtcdDiscovery
  descriptorSet : Option String
  reflection : Bool
  annotatedBindings : Bool
  bindings : Nat
  bearerToken : Option String
  deriving DecidableEq, Repr

/-- `rest` is what `rest_config` hands to the REST server's own checks. -/
structure GatewayConfig (ρ : Type) where
  workers : Nat
  requestTimeoutMs : Nat
  shutdownTimeoutMs : Nat
  requestBodyLimit : Nat
  responseBodyLimit : Nat
  rest : ρ
  routes : List GatewayRoute
  grpc : List GatewayGrpcUpstream

inductive GatewayConfigError (η : Type) where
  | route (error : GatewayError)
  | middleware (message : String)
  | invalid (message : String)
  | rest (error : η)
  deriving DecidableEq, Repr

/-- Code outside the gateway that its checks call: `RestServerConfig::validate`, and the parsers
of URLs (scheme, host) and URIs (scheme, authority). -/
structure Externals (ρ η : Type) where
  validateRest : ρ → Except η Unit
  parseUrl : String → Option (String × Option String)
  parseUri : String → Option (Option String × Option String)

section Checks

variable {ρ η : Type} (externals : Externals ρ η)

def validateMiddlewareNames : List String → List String → Except String Unit
  | _, [] => .ok ()
  | seen, name :: rest =>
      if isBlank name then .error "middleware name must not be empty"
      else if name ∈ seen then .error ("duplicate middleware name: " ++ name)
      else validateMiddlewareNames (name :: seen) rest

def validateUpstream (upstream : String) : Except (GatewayConfigError η) Unit :=
  match externals.parseUrl upstream with
  | none => .error (.invalid "gateway upstream must be a valid URL")
  | some (scheme, host) =>
      ensure ((scheme == "http" || scheme == "https") && host.isSome)
        (.invalid "gateway upstream must use HTTP or HTTPS and include a host")

def GatewayRoute.validate (route : GatewayRoute) : Except (GatewayConfigError η) Unit := do
  let normalized ← (normalizePrefix route.pathPrefix).mapError .route
  ensure (normalized == route.pathPrefix)
    (.invalid "gateway route prefixes must not have a trailing slash")
  ensure (!route.upstreams.isEmpty) (.route (.emptyUpstreams route.pathPrefix))
  (validateMiddlewareNames [] route.middleware).mapError .middleware
  route.upstreams.forM (validateUpstream externals)

/-- `str::trim_matches('/')`. -/
def trimSlashes (text : String) : String :=
  String.ofList ((text.toList.dropWhile (· == '/')).reverse.dropWhile (· == '/')).reverse

def GatewayGrpcEtcdDiscovery.validate (discovery : GatewayGrpcEtcdDiscovery) :
    Except (GatewayConfigError η) Unit := do
  ensure (!(discovery.endpoints.isEmpty || discovery.endpoints.any isBlank))
    (.invalid "gRPC etcd discovery requires non-empty etcd endpoints")
  ensure (!(isBlank discovery.service || discovery.service.toList.contains '/'))
    (.invalid "gRPC etcd discovery service must be a non-empty name")
  let trimmed := trimSlashes discovery.etcdNamespace
  ensure (!(trimmed.isEmpty || trimmed.toList.contains '/'))
    (.invalid "gRPC etcd discovery namespace must be a non-empty single path segment")
  ensure (discovery.username.isSome == discovery.password.isSome)
    (.invalid "gRPC etcd discovery username and password must be configured together")
  ensure (discovery.connectTimeoutMs != 0)
    (.invalid "gRPC etcd discovery connect timeout must be greater than zero")

def validateEndpoint (endpoint : String) : Except (GatewayConfigError η) Unit :=
  match externals.parseUri endpoint with
  | none => .error (.invalid "gRPC endpoint must be a valid absolute URI")
  | some (scheme, authority) =>
      ensure ((scheme == some "http" || scheme == some "https") && authority.isSome)
        (.invalid "gRPC endpoint must use HTTP or HTTPS and include an authority")

def GatewayGrpcUpstream.validate (upstream : GatewayGrpcUpstream) :
    Except (GatewayConfigError η) Unit := do
  let normalized ← (normalizePrefix upstream.pathPrefix).mapError .route
  ensure (normalized == upstream.pathPrefix)
    (.invalid "gRPC gateway prefixes must not have a trailing slash")
  ensure (upstream.endpoints.isEmpty != upstream.discovery.isNone)
    (.invalid "configure exactly one of endpoints or discovery for a gRPC upstream")
  upstream.endpoints.forM (validateEndpoint externals)
  upstream.discovery.elim (.ok ()) GatewayGrpcEtcdDiscovery.validate
  ensure (upstream.descriptorSet.isSome != upstream.reflection)
    (.invalid "configure exactly one of descriptor_set or reflection for a gRPC upstream")
  ensure (upstream.annotatedBindings || upstream.bindings != 0)
    (.invalid "gRPC gateway requires explicit or annotated HTTP bindings")
  ensure (!upstream.bearerToken.any isBlank)
    (.invalid "gRPC gateway bearer token must not be empty")

/-- The loop over the gRPC upstreams; `prefixes` are those inserted so far. -/
def validateGrpc : List String → List GatewayGrpcUpstream → Except (GatewayConfigError η) Unit
  | _, [] => .ok ()
  | prefixes, upstream :: rest => do
      upstream.validate externals
      ensure (!prefixes.contains upstream.pathPrefix)
        (.invalid "HTTP and gRPC gateway route prefixes must be unique")
      validateGrpc (upstream.pathPrefix :: prefixes) rest

end Checks

/-! ## The router -/

structure RoutePool where
  route : GatewayRoute
  nextUpstream : Nat
  healthy : List Bool
  deriving DecidableEq, Repr

/-- `prefix.len()`, in bytes. -/
def RoutePool.length (pool : RoutePool) : Nat := pool.route.pathPrefix.utf8ByteSize

structure GatewayRouter where
  routes : List RoutePool

def RoutePool.new (route : GatewayRoute) : RoutePool :=
  ⟨route, 0, route.upstreams.map fun _ => true⟩

/-- The first pair of neighbours with one prefix. -/
def adjacentDuplicate : List RoutePool → Option String
  | first :: second :: rest =>
      if first.route.pathPrefix = second.route.pathPrefix then some first.route.pathPrefix
      else adjacentDuplicate (second :: rest)
  | _ => none

def GatewayRouter.new (sorting : UnstableSort RoutePool RoutePool.length)
    (routes : List GatewayRoute) : Except GatewayError GatewayRouter :=
  let sorted := sorting.sort (routes.map RoutePool.new)
  match adjacentDuplicate sorted with
  | some pathPrefix => .error (.duplicatePrefix pathPrefix)
  | none => .ok ⟨sorted⟩

/-- The route `select` and `select_target_with_middleware` look up. -/
def GatewayRouter.find (router : GatewayRouter) (path : String) : Option RoutePool :=
  router.routes.find? fun pool => matchesPrefix path pool.route.pathPrefix

def GatewayConfig.validate {ρ η : Type} (externals : Externals ρ η)
    (sorting : UnstableSort RoutePool RoutePool.length) (config : GatewayConfig ρ) :
    Except (GatewayConfigError η) Unit := do
  ensure (config.workers != 0) (.invalid "workers must be greater than zero")
  ensure (config.requestTimeoutMs != 0) (.invalid "request_timeout_ms must be greater than zero")
  ensure (config.shutdownTimeoutMs != 0) (.invalid "shutdown_timeout_ms must be greater than zero")
  ensure (!(config.requestBodyLimit == 0 || config.responseBodyLimit == 0))
    (.invalid "gateway body limits must be greater than zero")
  (externals.validateRest config.rest).mapError .rest
  ensure (!(config.routes.isEmpty && config.grpc.isEmpty))
    (.invalid "at least one HTTP or gRPC gateway route is required")
  config.routes.forM (GatewayRoute.validate externals)
  validateGrpc externals (config.routes.map GatewayRoute.pathPrefix) config.grpc
  let _ ← (GatewayRouter.new sorting config.routes).mapError .route

/-! ## What the checks establish -/

section Accepted

variable {ρ η : Type} {externals : Externals ρ η}

theorem startsWithSlash_of_normalize {ε : Type} {wrap : GatewayError → ε} {pathPrefix : String}
    {normalized : String} (passed : (normalizePrefix pathPrefix).mapError wrap = .ok normalized) :
    startsWithSlash pathPrefix = true := by
  unfold normalizePrefix at passed
  split at passed
  · assumption
  · cases passed

theorem GatewayRoute.validate_slash {route : GatewayRoute}
    (passed : route.validate externals = .ok ()) : startsWithSlash route.pathPrefix = true := by
  obtain ⟨normalized, normal, _⟩ := bind_eq_ok passed
  exact startsWithSlash_of_normalize normal

theorem GatewayGrpcUpstream.validate_slash {upstream : GatewayGrpcUpstream}
    (passed : upstream.validate externals = .ok ()) :
    startsWithSlash upstream.pathPrefix = true := by
  obtain ⟨normalized, normal, _⟩ := bind_eq_ok passed
  exact startsWithSlash_of_normalize normal

theorem validateGrpc_slash {prefixes : List String} {upstreams : List GatewayGrpcUpstream}
    (passed : validateGrpc externals prefixes upstreams = .ok ())
    {upstream : GatewayGrpcUpstream} (member : upstream ∈ upstreams) :
    startsWithSlash upstream.pathPrefix = true := by
  induction upstreams generalizing prefixes with
  | nil => cases member
  | cons first rest ih =>
      obtain ⟨_, here, afterCheck⟩ := bind_eq_ok passed
      obtain ⟨_, _, later⟩ := bind_eq_ok afterCheck
      rcases List.mem_cons.mp member with same | further
      · rw [same]
        exact GatewayGrpcUpstream.validate_slash here
      · exact ih later further

/-- Accepted prefixes begin with a slash. -/
theorem GatewayConfig.validate_slash {sorting : UnstableSort RoutePool RoutePool.length}
    {config : GatewayConfig ρ} (accepted : config.validate externals sorting = .ok ()) :
    (∀ route ∈ config.routes, startsWithSlash route.pathPrefix = true) ∧
      ∀ upstream ∈ config.grpc, startsWithSlash upstream.pathPrefix = true := by
  obtain ⟨_, _, workers⟩ := bind_eq_ok accepted
  obtain ⟨_, _, request⟩ := bind_eq_ok workers
  obtain ⟨_, _, shutdown⟩ := bind_eq_ok request
  obtain ⟨_, _, bodies⟩ := bind_eq_ok shutdown
  obtain ⟨_, _, rest⟩ := bind_eq_ok bodies
  obtain ⟨_, _, someRoute⟩ := bind_eq_ok rest
  obtain ⟨_, routes, afterRoutes⟩ := bind_eq_ok someRoute
  obtain ⟨_, grpc, _⟩ := bind_eq_ok afterRoutes
  constructor
  · intro route member
    exact GatewayRoute.validate_slash (forM_eq_ok routes member)
  · intro upstream member
    exact validateGrpc_slash grpc member

end Accepted

/-! ## Matching -/

theorem stripPrefix_eq_some {text start rest : String}
    (found : stripPrefix text start = some rest) : text.toList = start.toList ++ rest.toList := by
  unfold stripPrefix at found
  split at found
  · rename_i begins
    obtain ⟨tail, split⟩ := begins
    cases found
    rw [String.toList_ofList, ← split, List.drop_left]
  · cases found

theorem coversPath_begins {pathPrefix path : String} (covers : coversPath pathPrefix path = true) :
    pathPrefix.toList <+: path.toList := by
  unfold coversPath at covers
  rcases Bool.or_eq_true _ _ ▸ covers with same | longer
  · rw [beq_iff_eq] at same
    rw [same]
  · cases stripped : stripPrefix path pathPrefix with
    | none =>
        rw [stripped] at longer
        cases longer
    | some rest =>
        rw [stripPrefix_eq_some stripped]
        exact List.prefix_append _ _

/-- Two beginnings of a text with the same length are the same. -/
theorem eq_of_begins {text : List Char} {left right : String} (leftBegins : left.toList <+: text)
    (rightBegins : right.toList <+: text) (size : left.utf8ByteSize = right.utf8ByteSize) :
    left = right := by
  have whole : ∀ {short long : String}, short.toList <+: long.toList →
      short.utf8ByteSize = long.utf8ByteSize → short = long := by
    intro short long begins same
    obtain ⟨tail, split⟩ := begins
    have joined : long = short ++ String.ofList tail := by
      apply String.toList_inj.mp
      rw [String.toList_append, String.toList_ofList, split]
    rw [joined, String.utf8ByteSize_append] at same
    have empty : String.ofList tail = "" := String.utf8ByteSize_eq_zero_iff.mp (by omega)
    rw [joined, empty, String.append_empty]
  rcases List.prefix_or_prefix_of_prefix leftBegins rightBegins with shorter | longer
  · exact whole shorter size
  · exact (whole longer size.symm).symm

theorem slash_begins {text : String} (slash : startsWithSlash text = true) :
    ("/" : String).toList <+: text.toList := by
  unfold startsWithSlash at slash
  cases shape : text.toList with
  | nil =>
      rw [shape] at slash
      cases slash
  | cons first rest =>
      rw [shape, List.head?_cons, beq_iff_eq, Option.some.injEq] at slash
      rw [slash]
      exact ⟨rest, rfl⟩

theorem eq_slash_of_size {text : String} (slash : startsWithSlash text = true)
    (size : text.utf8ByteSize ≤ 1) : text = "/" := by
  obtain ⟨tail, split⟩ := slash_begins slash
  have joined : text = "/" ++ String.ofList tail := by
    apply String.toList_inj.mp
    rw [String.toList_append, ← split]
    simp
  have total : text.utf8ByteSize = 1 + (String.ofList tail).utf8ByteSize := by
    rw [joined, String.utf8ByteSize_append]
    rfl
  have same : ("/" : String).utf8ByteSize = text.utf8ByteSize := by
    have one : ("/" : String).utf8ByteSize = 1 := rfl
    omega
  exact (eq_of_begins (slash_begins slash) (List.prefix_refl _) same).symm

/-- Two matching prefixes of the same length are the same. -/
theorem eq_of_matches {path left right : String} (leftSlash : startsWithSlash left = true)
    (rightSlash : startsWithSlash right = true) (leftMatches : matchesPrefix path left = true)
    (rightMatches : matchesPrefix path right = true)
    (size : left.utf8ByteSize = right.utf8ByteSize) : left = right := by
  have one : ("/" : String).utf8ByteSize = 1 := rfl
  unfold matchesPrefix at leftMatches rightMatches
  rcases Bool.or_eq_true _ _ ▸ leftMatches with leftRoot | leftCovers
  · rw [beq_iff_eq] at leftRoot
    rw [leftRoot, one] at size
    rw [leftRoot, eq_slash_of_size rightSlash (by omega)]
  · rcases Bool.or_eq_true _ _ ▸ rightMatches with rightRoot | rightCovers
    · rw [beq_iff_eq] at rightRoot
      rw [rightRoot, one] at size
      rw [rightRoot, eq_slash_of_size leftSlash (by omega)]
    · exact eq_of_begins (coversPath_begins leftCovers) (coversPath_begins rightCovers) size

/-- The router finds a matching route whose prefix no other matching one exceeds. -/
theorem GatewayRouter.find_longest {sorting : UnstableSort RoutePool RoutePool.length}
    {routes : List GatewayRoute} {router : GatewayRouter}
    (built : GatewayRouter.new sorting routes = .ok router) {path : String} {route : GatewayRoute}
    (member : route ∈ routes) (hits : matchesPrefix path route.pathPrefix = true) :
    ∃ pool, router.find path = some pool ∧ pool.route ∈ routes ∧
      matchesPrefix path pool.route.pathPrefix = true ∧
      route.pathPrefix.utf8ByteSize ≤ pool.route.pathPrefix.utf8ByteSize := by
  have sorted : router.routes = sorting.sort (routes.map RoutePool.new) := by
    unfold GatewayRouter.new at built
    dsimp only at built
    split at built
    · cases built
    · cases built
      rfl
  have listed : RoutePool.new route ∈ router.routes := by
    rw [sorted, sorting.mem_sort]
    exact List.mem_map_of_mem member
  unfold GatewayRouter.find
  cases found : router.routes.find? fun pool => matchesPrefix path pool.route.pathPrefix with
  | none =>
      have missed := List.find?_eq_none.mp found _ listed
      exact absurd hits missed
  | some pool =>
      have inRouter := List.mem_of_find?_eq_some found
      have fromRoutes : pool.route ∈ routes := by
        rw [sorted, sorting.mem_sort] at inRouter
        obtain ⟨other, otherMember, same⟩ := List.mem_map.mp inRouter
        rw [← same]
        exact otherMember
      have descends := sorting.descends (routes.map RoutePool.new)
      rw [← sorted] at descends
      have hit : matchesPrefix path pool.route.pathPrefix = true := by
        simpa using List.find?_some found
      exact ⟨pool, rfl, fromRoutes, hit, find?_of_descends descends found listed hits⟩

end RustZero.Gateway
