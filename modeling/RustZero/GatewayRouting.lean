import Mathlib
import RustZero.Lib.UnstableSort
import RustZero.Gateway

/-!
# Routing of a mixed gateway

`gateway/src/lib.rs`, `GatewayServer::from_config` and `run_on`.  The server registers
a scope for every gRPC prefix, the longest first, and after them the resources of the
HTTP prefixes in the order of the configuration.  Actix hands a request to the first
service whose pattern matches its path; behind the HTTP resources the proxy chooses
among the HTTP routes once more, by the longest prefix.

So a request reaches an HTTP route only when no gRPC scope matches, however short: the
gateway routes by the most specific prefix exactly where that does not matter.

How Actix matches patterns is the parameter `Actix`; `Actix.Literal` is what it
documents of patterns without captures.
-/

namespace RustZero.Gateway

open Lib

/-- Whether `web::scope(prefix)` and `web::resource(pattern)` match a path. -/
structure Actix where
  scope : String → String → Bool
  resource : String → String → Bool

inductive Service where
  | scope (pathPrefix : String)
  | resource (pattern : String)

/-- The route that handles a request. -/
inductive Target where
  | grpc (pathPrefix : String)
  | http (pathPrefix : String)
  deriving DecidableEq, Repr

def Target.pathPrefix : Target → String
  | .grpc pathPrefix => pathPrefix
  | .http pathPrefix => pathPrefix

def GatewayGrpcUpstream.length (upstream : GatewayGrpcUpstream) : Nat :=
  upstream.pathPrefix.utf8ByteSize

/-- `grpc` holds the upstreams in the order of registration. -/
structure GatewayServer (ρ : Type) where
  config : GatewayConfig ρ
  router : GatewayRouter
  grpc : List GatewayGrpcUpstream

section Server

variable {ρ η : Type} (externals : Externals ρ η)
  (sorting : UnstableSort RoutePool RoutePool.length)
  (grpcSorting : UnstableSort GatewayGrpcUpstream GatewayGrpcUpstream.length)

/-- `from_config`, its connections and descriptors aside. -/
def GatewayServer.fromConfig (config : GatewayConfig ρ) :
    Except (GatewayConfigError η) (GatewayServer ρ) := do
  config.validate externals sorting
  let router ← (GatewayRouter.new sorting config.routes).mapError .route
  pure ⟨config, router, grpcSorting.sort config.grpc⟩

/-- Whatever follows a slash. -/
def tailPattern : String := "/\x7btail:.*\x7d"

/-- The resources registered for an HTTP prefix. -/
def httpPatterns (pathPrefix : String) : List String :=
  if pathPrefix == "/" then [tailPattern]
  else [pathPrefix, pathPrefix ++ tailPattern]

/-- The services `run_on` registers, in order.  Both resources of a scope go to the
transcoder, and between them they take whatever the scope leaves of a path. -/
def GatewayServer.services (server : GatewayServer ρ) : List Service :=
  server.grpc.map (fun upstream => .scope upstream.pathPrefix) ++
    (server.config.routes.flatMap fun route => httpPatterns route.pathPrefix).map .resource

def Service.matchesPath (actix : Actix) (path : String) : Service → Bool
  | .scope pathPrefix => actix.scope pathPrefix path
  | .resource pattern => actix.resource pattern path

/-- Which route handles a request: the first service that matches, and for an HTTP resource the
route the proxy finds. -/
def GatewayServer.handle (server : GatewayServer ρ) (actix : Actix) (path : String) :
    Option Target :=
  match server.services.find? (Service.matchesPath actix path) with
  | some (.scope pathPrefix) => some (.grpc pathPrefix)
  | some (.resource _) => (server.router.find path).map fun pool => .http pool.route.pathPrefix
  | none => none

end Server

/-! ## The most specific route -/

section Specific

variable {ρ η : Type}

def GatewayConfig.targets (config : GatewayConfig ρ) : List Target :=
  config.routes.map (fun route => .http route.pathPrefix) ++
    config.grpc.map fun upstream => .grpc upstream.pathPrefix

/-- A configured route whose prefix matches, and no matching one is longer. -/
structure GatewayConfig.MostSpecific (config : GatewayConfig ρ) (path : String)
    (target : Target) : Prop where
  configured : target ∈ config.targets
  hits : matchesPrefix path target.pathPrefix = true
  longest : ∀ other ∈ config.targets, matchesPrefix path other.pathPrefix = true →
    other.pathPrefix.utf8ByteSize ≤ target.pathPrefix.utf8ByteSize

/-- The request is handled by the most specific route. -/
def GatewayServer.RoutesSpecifically (server : GatewayServer ρ) (actix : Actix) (path : String) :
    Prop :=
  ∀ target, server.config.MostSpecific path target → server.handle actix path = some target

/-- No scope takes the requests of a more specific HTTP route, one of its resources does, and a
gRPC route has the first scope that matches. -/
def GatewayServer.Undisturbed (server : GatewayServer ρ) (actix : Actix) (path : String) : Prop :=
  ∀ target, server.config.MostSpecific path target →
    match target with
    | .http _ =>
        (∀ upstream ∈ server.config.grpc, actix.scope upstream.pathPrefix path = false) ∧
          ∃ route ∈ server.config.routes, ∃ pattern ∈ httpPatterns route.pathPrefix,
            actix.resource pattern path = true
    | .grpc pathPrefix =>
        (server.grpc.find? fun upstream => actix.scope upstream.pathPrefix path).map
          GatewayGrpcUpstream.pathPrefix = some pathPrefix

/-- What the configuration has to be like for prefixes without captures. -/
def GatewayConfig.Unshadowed (config : GatewayConfig ρ) (path : String) : Prop :=
  ∀ target, config.MostSpecific path target →
    match target with
    | .http pathPrefix =>
        (∀ upstream ∈ config.grpc, coversPath upstream.pathPrefix path = false) ∧
          (pathPrefix = "/" → startsWithSlash path = true)
    | .grpc pathPrefix => pathPrefix = "/" → coversPath "/" path = true

/-- Documented matching of patterns without captures: a scope matches up to a segment boundary, a
resource the whole path, and a trailing `{tail:.*}` anything. -/
structure Actix.Literal (actix : Actix) : Prop where
  scope : ∀ pathPrefix path, '\x7b' ∉ pathPrefix.toList →
    actix.scope pathPrefix path = coversPath pathPrefix path
  resource : ∀ pathPrefix path, '\x7b' ∉ pathPrefix.toList →
    actix.resource pathPrefix path = (path == pathPrefix)
  tail : ∀ pathPrefix path, '\x7b' ∉ pathPrefix.toList →
    actix.resource (pathPrefix ++ tailPattern) path =
      (stripPrefix path pathPrefix).any startsWithSlash

end Specific

/-! ## The first service that matches -/

section Dispatch

variable {ρ η : Type} {externals : Externals ρ η}
  {sorting : UnstableSort RoutePool RoutePool.length}
  {grpcSorting : UnstableSort GatewayGrpcUpstream GatewayGrpcUpstream.length}
  {config : GatewayConfig ρ} {server : GatewayServer ρ} {actix : Actix} {path : String}

/-- What a server is built from. -/
structure GatewayServer.BuiltFrom (externals : Externals ρ η)
    (sorting : UnstableSort RoutePool RoutePool.length)
    (grpcSorting : UnstableSort GatewayGrpcUpstream GatewayGrpcUpstream.length)
    (config : GatewayConfig ρ) (server : GatewayServer ρ) : Prop where
  keeps : server.config = config
  accepted : config.validate externals sorting = .ok ()
  router : GatewayRouter.new sorting config.routes = .ok server.router
  grpc : server.grpc = grpcSorting.sort config.grpc

theorem GatewayServer.builtFrom_of_fromConfig
    (built : GatewayServer.fromConfig externals sorting grpcSorting config = .ok server) :
    server.BuiltFrom externals sorting grpcSorting config := by
  obtain ⟨_, accepted, afterChecks⟩ := bind_eq_ok built
  obtain ⟨router, routed, made⟩ := bind_eq_ok afterChecks
  cases made
  refine ⟨rfl, accepted, ?_, rfl⟩
  cases fresh : GatewayRouter.new sorting config.routes with
  | error error =>
      rw [fresh] at routed
      cases routed
  | ok other =>
      rw [fresh] at routed
      cases routed
      rfl

/-- The scopes come first: the service that takes a path is the first matching scope, and a
resource only when there is none. -/
theorem GatewayServer.find_services (server : GatewayServer ρ) (actix : Actix) (path : String) :
    server.services.find? (Service.matchesPath actix path) =
      match server.grpc.find? fun upstream => actix.scope upstream.pathPrefix path with
      | some upstream => some (.scope upstream.pathPrefix)
      | none =>
          ((server.config.routes.flatMap fun route => httpPatterns route.pathPrefix).find?
            fun pattern => actix.resource pattern path).map .resource := by
  unfold GatewayServer.services
  rw [List.find?_append, List.find?_map, List.find?_map]
  have scopes : (Service.matchesPath actix path ∘ fun upstream : GatewayGrpcUpstream =>
      Service.scope upstream.pathPrefix) = fun upstream => actix.scope upstream.pathPrefix path :=
    rfl
  have resources : Service.matchesPath actix path ∘ Service.resource =
      fun pattern => actix.resource pattern path := rfl
  rw [scopes, resources]
  cases server.grpc.find? fun upstream => actix.scope upstream.pathPrefix path <;> rfl

theorem GatewayServer.handle_eq_grpc {pathPrefix : String} :
    server.handle actix path = some (.grpc pathPrefix) ↔
      (server.grpc.find? fun upstream => actix.scope upstream.pathPrefix path).map
        GatewayGrpcUpstream.pathPrefix = some pathPrefix := by
  unfold GatewayServer.handle
  rw [server.find_services]
  cases server.grpc.find? fun upstream => actix.scope upstream.pathPrefix path with
  | some upstream => simp
  | none =>
      cases (server.config.routes.flatMap fun route => httpPatterns route.pathPrefix).find?
          fun pattern => actix.resource pattern path with
      | some pattern => simp
      | none => simp

theorem GatewayServer.handle_eq_http {pathPrefix : String} :
    server.handle actix path = some (.http pathPrefix) ↔
      ((∀ upstream ∈ server.grpc, actix.scope upstream.pathPrefix path = false) ∧
        ∃ route ∈ server.config.routes, ∃ pattern ∈ httpPatterns route.pathPrefix,
          actix.resource pattern path = true) ∧
      (server.router.find path).map (fun pool => pool.route.pathPrefix) = some pathPrefix := by
  unfold GatewayServer.handle
  rw [server.find_services]
  cases scope : server.grpc.find? fun upstream => actix.scope upstream.pathPrefix path with
  | some upstream =>
      have taken : actix.scope upstream.pathPrefix path = true := by
        simpa using List.find?_some scope
      constructor
      · intro handled
        cases handled
      · intro free
        have missed := free.1.1 upstream (List.mem_of_find?_eq_some scope)
        rw [taken] at missed
        cases missed
  | none =>
      have free : ∀ upstream ∈ server.grpc, actix.scope upstream.pathPrefix path = false := by
        simpa using List.find?_eq_none.mp scope
      cases resource : (server.config.routes.flatMap fun route =>
          httpPatterns route.pathPrefix).find? fun pattern => actix.resource pattern path with
      | some pattern =>
          have hit : actix.resource pattern path = true := by
            simpa using List.find?_some resource
          rcases List.mem_flatMap.mp (List.mem_of_find?_eq_some resource) with
            ⟨route, member, registered⟩
          have served : ∃ route ∈ server.config.routes, ∃ pattern ∈ httpPatterns route.pathPrefix,
              actix.resource pattern path = true := ⟨route, member, pattern, registered, hit⟩
          rw [and_iff_right (And.intro free served)]
          cases server.router.find path <;> simp
      | none =>
          constructor
          · intro handled
            cases handled
          · intro ⟨⟨_, route, member, pattern, registered, hit⟩, _⟩
            have missed := List.find?_eq_none.mp resource pattern
              (List.mem_flatMap.mpr ⟨route, member, registered⟩)
            exact absurd hit missed

theorem GatewayConfig.mem_targets_http {pathPrefix : String} :
    Target.http pathPrefix ∈ config.targets ↔
      ∃ route ∈ config.routes, route.pathPrefix = pathPrefix := by
  simp [GatewayConfig.targets]

theorem GatewayConfig.mem_targets_grpc {pathPrefix : String} :
    Target.grpc pathPrefix ∈ config.targets ↔
      ∃ upstream ∈ config.grpc, upstream.pathPrefix = pathPrefix := by
  simp [GatewayConfig.targets]

theorem GatewayServer.BuiltFrom.slash
    (built : server.BuiltFrom externals sorting grpcSorting config) {target : Target}
    (configured : target ∈ config.targets) : startsWithSlash target.pathPrefix = true := by
  have slash := GatewayConfig.validate_slash built.accepted
  cases target with
  | http pathPrefix =>
      obtain ⟨route, member, same⟩ := GatewayConfig.mem_targets_http.mp configured
      have here := slash.1 route member
      rw [same] at here
      exact here
  | grpc pathPrefix =>
      obtain ⟨upstream, member, same⟩ := GatewayConfig.mem_targets_grpc.mp configured
      have here := slash.2 upstream member
      rw [same] at here
      exact here

/-- A matching configured prefix at least as long as the most specific one is that one. -/
theorem GatewayConfig.MostSpecific.eq_prefix
    (built : server.BuiltFrom externals sorting grpcSorting config) {best other : Target}
    (specific : config.MostSpecific path best) (configured : other ∈ config.targets)
    (hits : matchesPrefix path other.pathPrefix = true)
    (longer : best.pathPrefix.utf8ByteSize ≤ other.pathPrefix.utf8ByteSize) :
    other.pathPrefix = best.pathPrefix := by
  have size := le_antisymm (specific.longest other configured hits) longer
  exact eq_of_matches (built.slash configured) (built.slash specific.configured) hits
    specific.hits size

/-- The proxy's own choice is the most specific HTTP route. -/
theorem GatewayServer.BuiltFrom.find_specific
    (built : server.BuiltFrom externals sorting grpcSorting config) {pathPrefix : String}
    (specific : config.MostSpecific path (.http pathPrefix)) :
    (server.router.find path).map (fun pool => pool.route.pathPrefix) = some pathPrefix := by
  obtain ⟨route, member, same⟩ := GatewayConfig.mem_targets_http.mp specific.configured
  have hits : matchesPrefix path route.pathPrefix = true := by
    rw [same]
    exact specific.hits
  rcases GatewayRouter.find_longest built.router member hits with
    ⟨pool, found, fromRoutes, poolHits, longer⟩
  rw [same] at longer
  have configured : Target.http pool.route.pathPrefix ∈ config.targets :=
    GatewayConfig.mem_targets_http.mpr ⟨pool.route, fromRoutes, rfl⟩
  rw [found, Option.map_some]
  exact congrArg some (specific.eq_prefix built configured poolHits longer)

theorem GatewayServer.BuiltFrom.mem_grpc
    (built : server.BuiltFrom externals sorting grpcSorting config)
    {upstream : GatewayGrpcUpstream} : upstream ∈ server.grpc ↔ upstream ∈ config.grpc := by
  rw [built.grpc, grpcSorting.mem_sort]

/-- For any matching of patterns. -/
theorem GatewayServer.BuiltFrom.routes_iff
    (built : server.BuiltFrom externals sorting grpcSorting config) :
    server.RoutesSpecifically actix path ↔ server.Undisturbed actix path := by
  unfold GatewayServer.RoutesSpecifically GatewayServer.Undisturbed
  apply forall_congr'
  intro target
  apply imp_congr_right
  intro specific
  rw [built.keeps] at specific
  cases target with
  | http pathPrefix =>
      have scopes : (∀ upstream ∈ server.grpc, actix.scope upstream.pathPrefix path = false) ↔
          ∀ upstream ∈ config.grpc, actix.scope upstream.pathPrefix path = false := by
        apply forall_congr'
        intro upstream
        rw [built.mem_grpc]
      rw [GatewayServer.handle_eq_http, scopes, built.keeps]
      exact and_iff_left (built.find_specific specific)
  | grpc pathPrefix => exact GatewayServer.handle_eq_grpc

/-! ## Prefixes without captures -/

theorem matchesPrefix_of_coversPath {pathPrefix : String}
    (covers : coversPath pathPrefix path = true) : matchesPrefix path pathPrefix = true := by
  unfold matchesPrefix
  rw [covers, Bool.or_true]

theorem coversPath_of_matchesPrefix {pathPrefix : String} (root : pathPrefix ≠ "/")
    (hits : matchesPrefix path pathPrefix = true) : coversPath pathPrefix path = true := by
  unfold matchesPrefix at hits
  rcases Bool.or_eq_true _ _ ▸ hits with same | covers
  · exact absurd (beq_iff_eq.mp same) root
  · exact covers

theorem startsWithSlash_of_begins {text start : String} (slash : startsWithSlash start = true)
    (begins : start.toList <+: text.toList) : startsWithSlash text = true := by
  obtain ⟨rest, split⟩ := slash_begins slash
  obtain ⟨tail, whole⟩ := begins
  unfold startsWithSlash
  rw [← whole, ← split]
  rfl

theorem startsWithSlash_of_coversPath {pathPrefix : String}
    (slash : startsWithSlash pathPrefix = true) (covers : coversPath pathPrefix path = true) :
    startsWithSlash path = true :=
  startsWithSlash_of_begins slash (coversPath_begins covers)

theorem stripPrefix_empty (text : String) : stripPrefix text "" = some text := by
  unfold stripPrefix
  simp

theorem Actix.Literal.root (literal : actix.Literal) :
    actix.resource tailPattern path = startsWithSlash path := by
  have anything := literal.tail "" path (by simp)
  rw [String.empty_append, stripPrefix_empty, Option.any_some] at anything
  exact anything

/-- Between them, the resources of a prefix take what it covers, and those of `/` every path that
begins with a slash. -/
theorem Actix.Literal.resources (literal : actix.Literal) {pathPrefix : String}
    (plain : '\x7b' ∉ pathPrefix.toList) :
    (∃ pattern ∈ httpPatterns pathPrefix, actix.resource pattern path = true) ↔
      if pathPrefix = "/" then startsWithSlash path = true
      else coversPath pathPrefix path = true := by
  unfold httpPatterns
  by_cases root : pathPrefix = "/"
  · rw [if_pos root, if_pos (beq_iff_eq.mpr root)]
    simp [literal.root]
  · rw [if_neg root, if_neg (by simpa using root)]
    unfold coversPath
    simp [literal.resource pathPrefix path plain, literal.tail pathPrefix path plain]

/-- No configured prefix has a capture. -/
structure GatewayConfig.Plain (config : GatewayConfig ρ) : Prop where
  routes : ∀ route ∈ config.routes, '\x7b' ∉ route.pathPrefix.toList
  grpc : ∀ upstream ∈ config.grpc, '\x7b' ∉ upstream.pathPrefix.toList

/-- A resource for the path exists unless the best route is `/` and the path has no leading
slash. -/
theorem GatewayServer.BuiltFrom.resource_iff
    (built : server.BuiltFrom externals sorting grpcSorting config) (literal : actix.Literal)
    (plain : config.Plain) {pathPrefix : String}
    (specific : config.MostSpecific path (.http pathPrefix)) :
    (∃ route ∈ config.routes, ∃ pattern ∈ httpPatterns route.pathPrefix,
        actix.resource pattern path = true) ↔
      (pathPrefix = "/" → startsWithSlash path = true) := by
  constructor
  · intro ⟨route, member, taken⟩ _
    have configured := GatewayConfig.mem_targets_http.mpr ⟨route, member, rfl⟩
    rw [literal.resources (plain.routes route member)] at taken
    split at taken
    · exact taken
    · exact startsWithSlash_of_coversPath (built.slash configured) taken
  · intro slash
    obtain ⟨route, member, same⟩ := GatewayConfig.mem_targets_http.mp specific.configured
    refine ⟨route, member, ?_⟩
    rw [literal.resources (plain.routes route member), same]
    split
    · rename_i root
      exact slash root
    · rename_i root
      exact coversPath_of_matchesPrefix root specific.hits

/-- The first matching scope is the most specific gRPC route once its own scope matches. -/
theorem GatewayServer.BuiltFrom.scope_iff
    (built : server.BuiltFrom externals sorting grpcSorting config) (literal : actix.Literal)
    (plain : config.Plain) {pathPrefix : String}
    (specific : config.MostSpecific path (.grpc pathPrefix)) :
    (server.grpc.find? fun upstream => actix.scope upstream.pathPrefix path).map
        GatewayGrpcUpstream.pathPrefix = some pathPrefix ↔
      (pathPrefix = "/" → coversPath "/" path = true) := by
  have covers : ∀ upstream ∈ config.grpc,
      actix.scope upstream.pathPrefix path = coversPath upstream.pathPrefix path := by
    intro upstream member
    exact literal.scope _ _ (plain.grpc upstream member)
  obtain ⟨own, ownMember, same⟩ := GatewayConfig.mem_targets_grpc.mp specific.configured
  constructor
  · intro found root
    obtain ⟨first, firstFound, firstSame⟩ := Option.map_eq_some_iff.mp found
    have hit : actix.scope first.pathPrefix path = true := by
      simpa using List.find?_some firstFound
    rw [covers first (built.mem_grpc.mp (List.mem_of_find?_eq_some firstFound)), firstSame,
      root] at hit
    exact hit
  · intro reaches
    have ownScope : actix.scope own.pathPrefix path = true := by
      rw [covers own ownMember, same]
      by_cases root : pathPrefix = "/"
      · rw [root]
        exact reaches root
      · exact coversPath_of_matchesPrefix root specific.hits
    have registered := built.mem_grpc.mpr ownMember
    cases found : server.grpc.find? fun upstream => actix.scope upstream.pathPrefix path with
    | none => exact absurd ownScope (List.find?_eq_none.mp found own registered)
    | some first =>
        have firstMember := built.mem_grpc.mp (List.mem_of_find?_eq_some found)
        have hit : actix.scope first.pathPrefix path = true := by
          simpa using List.find?_some found
        rw [covers first firstMember] at hit
        have descends := grpcSorting.descends config.grpc
        rw [← built.grpc] at descends
        have longer : own.length ≤ first.length :=
          find?_of_descends descends found registered ownScope
        unfold GatewayGrpcUpstream.length at longer
        rw [same] at longer
        have configured := GatewayConfig.mem_targets_grpc.mpr ⟨first, firstMember, rfl⟩
        rw [Option.map_some]
        exact congrArg some (specific.eq_prefix built configured
          (matchesPrefix_of_coversPath hit) longer)

theorem GatewayServer.BuiltFrom.undisturbed_iff
    (built : server.BuiltFrom externals sorting grpcSorting config) (literal : actix.Literal)
    (plain : config.Plain) : server.Undisturbed actix path ↔ config.Unshadowed path := by
  unfold GatewayServer.Undisturbed GatewayConfig.Unshadowed
  rw [built.keeps]
  apply forall_congr'
  intro target
  apply imp_congr_right
  intro specific
  cases target with
  | http pathPrefix =>
      apply and_congr
      · apply forall_congr'
        intro upstream
        apply imp_congr_right
        intro member
        rw [literal.scope _ _ (plain.grpc upstream member)]
      · exact built.resource_iff literal plain specific
  | grpc pathPrefix => exact built.scope_iff literal plain specific

/-- A gateway routes a request by its most specific prefix exactly when the services in front of
that route leave it the path; for prefixes without captures, when no gRPC prefix covers the path
of an HTTP route. -/
theorem routes_specifically_iff (externals : Externals ρ η)
    (sorting : UnstableSort RoutePool RoutePool.length)
    (grpcSorting : UnstableSort GatewayGrpcUpstream GatewayGrpcUpstream.length)
    (config : GatewayConfig ρ) (server : GatewayServer ρ)
    (built : GatewayServer.fromConfig externals sorting grpcSorting config = .ok server)
    (actix : Actix) (path : String) :
    (server.RoutesSpecifically actix path ↔ server.Undisturbed actix path) ∧
      (actix.Literal → config.Plain →
        (server.RoutesSpecifically actix path ↔ config.Unshadowed path)) := by
  have parts := GatewayServer.builtFrom_of_fromConfig built
  constructor
  · exact parts.routes_iff
  · intro literal plain
    rw [parts.routes_iff, parts.undisturbed_iff literal plain]

end Dispatch

/-! ## Nested prefixes of both kinds -/

/-- Actix on patterns whose only capture is a trailing `{tail:.*}`. -/
def Actix.literal : Actix where
  scope := coversPath
  resource pattern path :=
    if tailPattern.toList <:+ pattern.toList then
      let pathPrefix := String.ofList (pattern.toList.rdrop tailPattern.toList.length)
      (stripPrefix path pathPrefix).any startsWithSlash
    else path == pattern

theorem Actix.literal_literal : Actix.literal.Literal := by
  constructor
  · intro pathPrefix path _
    rfl
  · intro pathPrefix path plain
    have noTail : ¬tailPattern.toList <:+ pathPrefix.toList := by
      intro ends
      exact plain (ends.subset (by decide +kernel))
    exact if_neg noTail
  · intro pathPrefix path _
    have ends : tailPattern.toList <:+ (pathPrefix ++ tailPattern).toList := by
      rw [String.toList_append]
      exact List.suffix_append _ _
    have whole : String.ofList ((pathPrefix ++ tailPattern).toList.rdrop
        tailPattern.toList.length) = pathPrefix := by
      rw [String.toList_append, List.rdrop_append_length, String.ofList_toList]
    unfold Actix.literal
    dsimp only
    rw [if_pos ends, whole]

/-- The parsers on the two addresses below. -/
def sampleExternals : Externals Unit Unit where
  validateRest _ := .ok ()
  parseUrl upstream :=
    if upstream = "http://users:8080" then some ("http", some "users") else none
  parseUri endpoint :=
    if endpoint = "http://ledger:9090" then some (some "http", some "ledger:9090") else none

/-- One HTTP route and one gRPC upstream. -/
def sampleConfig (http grpc : String) : GatewayConfig Unit where
  workers := 1
  requestTimeoutMs := 1000
  shutdownTimeoutMs := 1000
  requestBodyLimit := 1024
  responseBodyLimit := 1024
  rest := ()
  routes := [⟨http, ["http://users:8080"], []⟩]
  grpc := [⟨grpc, ["http://ledger:9090"], none, some "ledger.pb", false, true, 0, none⟩]

def sampleServer (http grpc : String) : GatewayServer Unit :=
  ⟨sampleConfig http grpc, ⟨[RoutePool.new ⟨http, ["http://users:8080"], []⟩]⟩,
    (sampleConfig http grpc).grpc⟩

/-- A path of the HTTP route that the gRPC prefix inside it does not cover. -/
theorem routes_specifically_inner_grpc :
    (sampleServer "/api" "/api/v1").RoutesSpecifically Actix.literal "/api/v2" ∧
      (sampleServer "/api" "/api/v1").handle Actix.literal "/api/v2" = some (.http "/api") := by
  have built : GatewayServer.fromConfig sampleExternals (.stable _ _) (.stable _ _)
      (sampleConfig "/api" "/api/v1") = .ok (sampleServer "/api" "/api/v1") := rfl
  have plain : (sampleConfig "/api" "/api/v1").Plain := by
    constructor <;> decide +kernel
  have unshadowed : (sampleConfig "/api" "/api/v1").Unshadowed "/api/v2" := by
    intro target specific
    cases target with
    | http pathPrefix =>
        obtain ⟨route, member, same⟩ := GatewayConfig.mem_targets_http.mp specific.configured
        have only := List.mem_singleton.mp member
        rw [← same, only]
        decide +kernel
    | grpc pathPrefix =>
        obtain ⟨upstream, member, same⟩ := GatewayConfig.mem_targets_grpc.mp specific.configured
        have only := List.mem_singleton.mp member
        rw [← same, only]
        decide +kernel
  have both := routes_specifically_iff sampleExternals (.stable _ _) (.stable _ _) _ _ built
    Actix.literal "/api/v2"
  exact ⟨(both.2 Actix.literal_literal plain).mpr unshadowed, by decide +kernel⟩

/-- A gRPC prefix around an HTTP one takes its requests. -/
theorem routes_specifically_outer_grpc :
    ∃ server, GatewayServer.fromConfig sampleExternals (.stable _ _) (.stable _ _)
        (sampleConfig "/api/v1" "/api") = .ok server ∧
      server.config.MostSpecific "/api/v1/users" (.http "/api/v1") ∧
      server.handle Actix.literal "/api/v1/users" = some (.grpc "/api") ∧
      ¬server.RoutesSpecifically Actix.literal "/api/v1/users" := by
  have specific : (sampleConfig "/api/v1" "/api").MostSpecific "/api/v1/users"
      (.http "/api/v1") := by
    constructor <;> decide +kernel
  have handled : (sampleServer "/api/v1" "/api").handle Actix.literal "/api/v1/users" =
      some (.grpc "/api") := by
    decide +kernel
  refine ⟨sampleServer "/api/v1" "/api", rfl, specific, handled, ?_⟩
  intro routes
  have other := routes _ specific
  rw [handled] at other
  cases other

end RustZero.Gateway
