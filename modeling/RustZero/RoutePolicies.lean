import RustZero.Discov
import RustZero.Http
import RustZero.RequestSignature

/-!
# Declarative route policies

`rest/src/route.rs`: `RoutePolicies::compile` and the middleware that looks the
policy of a request up and checks its JSON web token.  The policy is the one of
the request's method and the pattern `match_pattern` returns, which knows paths
alone; the router that serves the request afterwards looks at its method as well.

* `Application` is what the code relies on outside the repository: which methods
  and paths are what they claim to be, and the application's named middleware,
  which answers a request itself or hands it on as it is.
* `Protects` is what the policies are for, and `Unshadowed` when they achieve it.
-/

namespace RustZero.RoutePolicies

open Lib Auth Http
open Discov (isWhitespace isBlank)

/-! ## Configuration -/

structure RouteJwtConfig where
  secret : String
  previousSecret : Option String
  leewaySeconds : UInt64
  claimProjection : List (String × String)
  deriving DecidableEq

structure RoutePolicyConfig where
  method : String
  path : String
  isPublic : Bool
  jwt : Option RouteJwtConfig
  timeoutMs : Option Nat
  maxBodyBytes : Option Nat
  priority : Option Bool
  sse : Option Bool

structure RouteGroupConfig where
  pathPrefix : String
  jwt : Option RouteJwtConfig
  timeoutMs : Option Nat
  maxBodyBytes : Option Nat
  priority : Bool
  sse : Bool
  middleware : List String
  routes : List RoutePolicyConfig

structure RequestPolicy where
  timeout : Option Nat
  maxBodyBytes : Option Nat
  priority : Bool
  sse : Bool
  deriving DecidableEq

structure CompiledPolicy where
  method : String
  pattern : String
  jwtSecrets : Option (List (List UInt8))
  jwtLeewaySeconds : UInt64
  jwtClaimProjection : List (String × String)
  timeout : Option Nat
  maxBodyBytes : Option Nat
  priority : Bool
  sse : Bool
  middleware : List String
  deriving DecidableEq

structure Request where
  method : String
  path : String
  /-- The `authorization` header. -/
  authorization : Option (List UInt8)
  /-- The time of the call in seconds. -/
  now : UInt64

/-- Code outside the repository. -/
structure Application where
  /-- `Method::from_bytes` accepts the text. -/
  validMethod : String → Bool
  /-- The resource of a pattern matches a path. -/
  matchesPath : String → String → Bool
  /-- The named middleware hands the request on. -/
  passes : String → Request → Bool
  crypto : Crypto
  json : Json Value

/-! ## Compilation -/

def validateMiddlewareNames : List String → List String → Except String Unit
  | _, [] => .ok ()
  | unique, name :: rest =>
      if isBlank name then .error "route middleware name must not be empty"
      else if name ∈ unique then .error ("duplicate route middleware name: " ++ name)
      else validateMiddlewareNames (name :: unique) rest

def validatePrefix (pathPrefix : String) : Except String Unit :=
  ensure (pathPrefix.isEmpty || pathPrefix.toList.head? == some '/')
    ("route group prefix must start with '/': " ++ pathPrefix)

def validateOptionalLimits (timeoutMs maxBodyBytes : Option Nat) : Except String Unit := do
  ensure (timeoutMs != some 0) "route timeout_ms must be greater than zero"
  ensure (maxBodyBytes != some 0) "route max_body_bytes must be greater than zero"

def validateJwt (jwt : RouteJwtConfig) : Except String Unit := do
  ensure (!jwt.secret.isEmpty) "route JWT secret must not be empty"
  ensure (jwt.previousSecret != some "") "route previous JWT secret must not be empty"

def jwtSecrets (jwt : RouteJwtConfig) : List (List UInt8) :=
  bytesOf jwt.secret :: (jwt.previousSecret.map bytesOf).toList

/-- `str::trim_end_matches('/')`. -/
def trimEndSlashes (text : String) : String :=
  String.ofList (text.toList.reverse.dropWhile (· == '/')).reverse

def joinRoute (pathPrefix path : String) : String :=
  if path.isEmpty then pathPrefix
  else if pathPrefix.isEmpty || pathPrefix == "/" then path
  else trimEndSlashes pathPrefix ++ path

def find (routes : List CompiledPolicy) (method pattern : String) : Option CompiledPolicy :=
  routes.find? fun route => route.method == method && route.pattern == pattern

section Compile

variable (app : Application)

/-- The policy of one route, with what it inherits from its group. -/
def compiledPolicy (group : RouteGroupConfig) (route : RoutePolicyConfig) : CompiledPolicy :=
  let jwt := if route.isPublic then none else route.jwt.or group.jwt
  let sse := route.sse.getD group.sse
  { method := route.method
    pattern := joinRoute group.pathPrefix route.path
    jwtSecrets := jwt.map jwtSecrets
    jwtLeewaySeconds := (jwt.map RouteJwtConfig.leewaySeconds).getD 0
    jwtClaimProjection := (jwt.map RouteJwtConfig.claimProjection).getD []
    timeout := if sse then none else route.timeoutMs.or group.timeoutMs
    maxBodyBytes := route.maxBodyBytes.or group.maxBodyBytes
    priority := route.priority.getD group.priority
    sse := sse
    middleware := group.middleware }

def compileRoute (group : RouteGroupConfig) (routes : List CompiledPolicy)
    (route : RoutePolicyConfig) : Except String (List CompiledPolicy) := do
  ensure (!(route.path.isEmpty && group.pathPrefix.isEmpty))
    "an empty route path requires a non-empty group prefix"
  ensure (route.path.isEmpty || route.path.toList.head? == some '/')
    ("route path must start with '/': " ++ route.path)
  validateOptionalLimits route.timeoutMs route.maxBodyBytes
  route.jwt.toList.forM validateJwt
  ensure (!(route.isPublic && route.jwt.isSome))
    ("route " ++ route.path ++ " cannot be public and define JWT authentication")
  ensure (app.validMethod route.method) ("invalid route method: " ++ route.method)
  let pattern := joinRoute group.pathPrefix route.path
  ensure (find routes route.method pattern).isNone
    ("duplicate route policy: " ++ route.method ++ " " ++ pattern)
  pure (routes ++ [compiledPolicy group route])

def compileGroup (routes : List CompiledPolicy) (group : RouteGroupConfig) :
    Except String (List CompiledPolicy) := do
  validatePrefix group.pathPrefix
  validateOptionalLimits group.timeoutMs group.maxBodyBytes
  validateMiddlewareNames [] group.middleware
  group.jwt.toList.forM validateJwt
  group.routes.foldlM (compileRoute app group) routes

def compile (groups : List RouteGroupConfig) : Except String (List CompiledPolicy) :=
  groups.foldlM (compileGroup app) []

end Compile

/-! ## One request -/

/-- A handler as it is registered with the router. -/
structure RegisteredRoute where
  method : String
  pattern : String
  handler : Nat
  deriving DecidableEq, Repr

/-- `str::trim`. -/
def trim (text : List Char) : List Char :=
  ((text.dropWhile isWhitespace).reverse.dropWhile isWhitespace).reverse

def bearerToken (value : String) : Option String :=
  match value.toList.span fun c => !isWhitespace c with
  | (_, []) => none
  | (scheme, _ :: rest) =>
      let token := trim rest
      if EqIgnoreAsciiCase (String.ofList scheme) "bearer" ∧ token ≠ [] ∧
          token.any isWhitespace = false then
        some (String.ofList token)
      else none

/-- `AuthFailure::from` on the errors of `decode_hs256`. -/
def failureOf : JwtValidationError → AuthFailure
  | .malformed | .unsupportedAlgorithm | .invalidClaims => .malformedCredentials
  | .invalidSignature => .invalidCredentials
  | .expired => .expiredCredentials
  | .notYetValid => .notYetValid

def JwtClaimProjection.project (fields : List (String × String)) (claims : Value) :
    List (String × Value) :=
  fields.filterMap fun (name, path) =>
    (((path.toList.splitOn '.').map String.ofList).foldlM Value.get claims).map (name, ·)

def CompiledPolicy.requestPolicy (policy : CompiledPolicy) : RequestPolicy :=
  ⟨policy.timeout, policy.maxBodyBytes, policy.priority, policy.sse⟩

/-- What the middleware leaves for the layers inside it. -/
structure Extensions where
  claims : Option Value
  projectedClaims : List (String × Value)
  policy : Option RequestPolicy

inductive Outcome where
  | unauthorized (failure : AuthFailure)
  /-- The named middleware answered. -/
  | stopped (name : String)
  /-- The router found no handler. -/
  | unrouted
  | handled (route : RegisteredRoute) (extensions : Extensions)

section Call

variable (app : Application)

/-- The claims of the bearer token of a request, if these secrets accept it. -/
def authenticate (request : Request) (secrets : List (List UInt8)) (leewaySeconds : UInt64) :
    Except AuthFailure Value := do
  let token ← okOr ((request.authorization.bind headerText).bind bearerToken) .missingCredentials
  (decodeJwtHs256 app.crypto app.json token secrets leewaySeconds request.now).mapError failureOf

/-- `ServiceRequest::match_pattern`: the first registered path, whatever its method. -/
def matchPattern (registered : List RegisteredRoute) (path : String) : Option String :=
  (registered.find? fun route => app.matchesPath route.pattern path).map RegisteredRoute.pattern

/-- The router: the first registered path and method. -/
def dispatch (registered : List RegisteredRoute) (method path : String) :
    Option RegisteredRoute :=
  registered.find? fun route => app.matchesPath route.pattern path && route.method == method

/-- The named middleware around the router. -/
def chain (registered : List RegisteredRoute) (extensions : Extensions) (middleware : List String)
    (request : Request) : Outcome :=
  match middleware.find? fun name => !app.passes name request with
  | some name => .stopped name
  | none =>
      match dispatch app registered request.method request.path with
      | some route => .handled route extensions
      | none => .unrouted

/-- `RoutePoliciesMiddleware::call`. -/
def call (policies : List CompiledPolicy) (registered : List RegisteredRoute)
    (request : Request) : Outcome :=
  let pattern := (matchPattern app registered request.path).getD request.path
  match find policies request.method pattern with
  | none => chain app registered ⟨none, [], none⟩ [] request
  | some policy =>
      match policy.jwtSecrets with
      | none => chain app registered ⟨none, [], some policy.requestPolicy⟩ policy.middleware request
      | some secrets =>
          match authenticate app request secrets policy.jwtLeewaySeconds with
          | .error failure => .unauthorized failure
          | .ok claims =>
              let projected := JwtClaimProjection.project policy.jwtClaimProjection claims
              chain app registered ⟨some claims, projected, some policy.requestPolicy⟩
                policy.middleware request

end Call

/-! ## Compiled policies are found -/

section Compiled

variable {app : Application} {policies : List CompiledPolicy} {policy : CompiledPolicy}
  {method pattern : String}

/-- One policy for a method and a pattern. -/
def Distinct (policies : List CompiledPolicy) : Prop :=
  policies.Pairwise fun one other => ¬ (one.method = other.method ∧ one.pattern = other.pattern)

theorem find_some (found : find policies method pattern = some policy) :
    policy ∈ policies ∧ policy.method = method ∧ policy.pattern = pattern := by
  have named := List.find?_some found
  rw [Bool.and_eq_true, beq_iff_eq, beq_iff_eq] at named
  exact ⟨List.mem_of_find?_eq_some found, named⟩

theorem find_none (absent : (find policies method pattern).isNone = true)
    (member : policy ∈ policies) : ¬ (policy.method = method ∧ policy.pattern = pattern) := by
  have none_ := List.find?_eq_none.mp (Option.isNone_iff_eq_none.mp absent) policy member
  simpa using none_

theorem Distinct.find_eq (distinct : Distinct policies) (member : policy ∈ policies) :
    find policies policy.method policy.pattern = some policy := by
  cases found : find policies policy.method policy.pattern with
  | none => exact absurd ⟨rfl, rfl⟩ (find_none (by rw [found]; rfl) member)
  | some other =>
      obtain ⟨among, sameMethod, samePattern⟩ := find_some found
      by_contra differs
      have ne : other ≠ policy := fun same => differs (congrArg some same)
      have symmetric : Std.Symm fun one other : CompiledPolicy =>
          ¬ (one.method = other.method ∧ one.pattern = other.pattern) :=
        ⟨fun _ _ apart same => apart ⟨same.1.symm, same.2.symm⟩⟩
      exact distinct.forall among member ne ⟨sameMethod, samePattern⟩

theorem compileRoute_distinct {group : RouteGroupConfig} {route : RoutePolicyConfig}
    {next : List CompiledPolicy} (distinct : Distinct policies)
    (compiled : compileRoute app group policies route = .ok next) : Distinct next := by
  obtain ⟨_, -, compiled⟩ := bind_eq_ok compiled
  obtain ⟨_, -, compiled⟩ := bind_eq_ok compiled
  obtain ⟨_, -, compiled⟩ := bind_eq_ok compiled
  obtain ⟨_, -, compiled⟩ := bind_eq_ok compiled
  obtain ⟨_, -, compiled⟩ := bind_eq_ok compiled
  obtain ⟨_, -, compiled⟩ := bind_eq_ok compiled
  obtain ⟨_, unique, compiled⟩ := bind_eq_ok compiled
  cases compiled
  have absent := ensure_eq_ok.mp unique
  refine List.pairwise_append.mpr ⟨distinct, List.pairwise_singleton _ _, ?_⟩
  intro older member new last
  rw [List.mem_singleton.mp last]
  exact find_none absent member

theorem compileGroup_distinct {group : RouteGroupConfig} {next : List CompiledPolicy}
    (distinct : Distinct policies) (compiled : compileGroup app policies group = .ok next) :
    Distinct next := by
  obtain ⟨_, -, compiled⟩ := bind_eq_ok compiled
  obtain ⟨_, -, compiled⟩ := bind_eq_ok compiled
  obtain ⟨_, -, compiled⟩ := bind_eq_ok compiled
  obtain ⟨_, -, compiled⟩ := bind_eq_ok compiled
  exact foldlM_eq_ok distinct (fun _ _ _ => compileRoute_distinct) compiled

theorem compile_distinct {groups : List RouteGroupConfig}
    (compiled : compile app groups = .ok policies) : Distinct policies :=
  foldlM_eq_ok List.Pairwise.nil (fun _ _ _ => compileGroup_distinct) compiled

end Compiled

/-! ## Who is served -/

section Serving

variable {app : Application} {policies : List CompiledPolicy} {registered : List RegisteredRoute}
  {request : Request} {route : RegisteredRoute}

/-- A policy lets a request through: its token, where one is asked for, is accepted,
and every named middleware hands the request on. -/
def Admits (app : Application) (policy : CompiledPolicy) (request : Request) : Prop :=
  (∀ secrets, policy.jwtSecrets = some secrets →
    ∃ claims, authenticate app request secrets policy.jwtLeewaySeconds = .ok claims) ∧
  ∀ name ∈ policy.middleware, app.passes name request = true

theorem chain_handled (extensions : Extensions) (middleware : List String) :
    (∃ left, chain app registered extensions middleware request = .handled route left) ↔
      (∀ name ∈ middleware, app.passes name request = true) ∧
        dispatch app registered request.method request.path = some route := by
  unfold chain
  cases stops : middleware.find? fun name => !app.passes name request with
  | some name =>
      have refuses := List.find?_some stops
      have member := List.mem_of_find?_eq_some stops
      refine iff_of_false ?_ ?_
      · intro handled
        obtain ⟨_, handled⟩ := handled
        cases handled
      · intro served
        rw [served.1 name member] at refuses
        cases refuses
  | none =>
      have passes : ∀ name ∈ middleware, app.passes name request = true := by
        intro name member
        simpa using List.find?_eq_none.mp stops name member
      cases dispatched : dispatch app registered request.method request.path with
      | none => simp
      | some other => simpa using fun _ => passes

/-- A request is handled when the router finds a handler for it and the policy found
under the pattern of its path lets it through. -/
theorem call_handled :
    (∃ left, call app policies registered request = .handled route left) ↔
      dispatch app registered request.method request.path = some route ∧
        ∀ policy, find policies request.method
          ((matchPattern app registered request.path).getD request.path) = some policy →
          Admits app policy request := by
  unfold call
  dsimp only
  cases found : find policies request.method
      ((matchPattern app registered request.path).getD request.path) with
  | none =>
      simp only [chain_handled]
      simp
  | some policy =>
      cases asked : policy.jwtSecrets with
      | none =>
          simp only [asked, chain_handled]
          simp [Admits, asked, and_comm]
      | some secrets =>
          cases checked : authenticate app request secrets policy.jwtLeewaySeconds with
          | error failure => simp [asked, checked, Admits]
          | ok claims =>
              simp only [asked, checked, chain_handled]
              simp [Admits, asked, checked, and_comm]

/-- Whoever is served by a handler with a JWT policy carries a token the secrets of
that policy accept. -/
def Protects (app : Application) (policies : List CompiledPolicy)
    (registered : List RegisteredRoute) : Prop :=
  ∀ request route left, call app policies registered request = .handled route left →
    ∀ policy ∈ policies, policy.method = route.method → policy.pattern = route.pattern →
      ∀ secrets, policy.jwtSecrets = some secrets →
        ∃ claims, authenticate app request secrets policy.jwtLeewaySeconds = .ok claims

/-- Where the first registered path that matches a request has another pattern than
the handler it is dispatched to, the request carries a token that handler's policy
accepts, or a policy declared for its method at the first pattern turns it away. -/
def Unshadowed (app : Application) (policies : List CompiledPolicy)
    (registered : List RegisteredRoute) : Prop :=
  ∀ request route first,
    dispatch app registered request.method request.path = some route →
    matchPattern app registered request.path = some first → first ≠ route.pattern →
    ∀ policy ∈ policies, policy.method = route.method → policy.pattern = route.pattern →
      ∀ secrets, policy.jwtSecrets = some secrets →
        (∃ claims, authenticate app request secrets policy.jwtLeewaySeconds = .ok claims) ∨
        ∃ shadow ∈ policies, shadow.method = request.method ∧ shadow.pattern = first ∧
          ¬ Admits app shadow request

/-- A dispatched request has the method of its handler, and its path a pattern. -/
theorem dispatch_some
    (dispatched : dispatch app registered request.method request.path = some route) :
    route.method = request.method ∧
      ∃ first, matchPattern app registered request.path = some first := by
  have both := List.find?_some dispatched
  have member := List.mem_of_find?_eq_some dispatched
  rw [Bool.and_eq_true, beq_iff_eq] at both
  refine ⟨both.2, ?_⟩
  unfold matchPattern
  cases found : registered.find? fun other => app.matchesPath other.pattern request.path with
  | none => exact absurd both.1 (by simpa using List.find?_eq_none.mp found route member)
  | some first => exact ⟨first.pattern, rfl⟩

/-- Compiled policies protect their handlers exactly when no earlier route of another
pattern shadows one of them. -/
theorem compiled_policies_protect_iff {groups : List RouteGroupConfig}
    (compiled : compile app groups = .ok policies) :
    Protects app policies registered ↔ Unshadowed app policies registered := by
  have distinct := compile_distinct compiled
  refine ⟨?_, ?_⟩
  · intro protects request route first dispatched matched _ policy member sameMethod samePattern
      secrets asked
    by_cases turned : ∃ shadow ∈ policies, shadow.method = request.method ∧
        shadow.pattern = first ∧ ¬ Admits app shadow request
    · exact Or.inr turned
    · have through : ∀ shadow, find policies request.method
          ((matchPattern app registered request.path).getD request.path) = some shadow →
          Admits app shadow request := by
        intro shadow found
        rw [matched, Option.getD_some] at found
        obtain ⟨among, ofMethod, ofPattern⟩ := find_some found
        by_contra refused
        exact turned ⟨shadow, among, ofMethod, ofPattern, refused⟩
      obtain ⟨left, handled⟩ := call_handled.mpr ⟨dispatched, through⟩
      exact Or.inl (protects request route left handled policy member sameMethod samePattern
        secrets asked)
  · intro unshadowed request route left handled policy member sameMethod samePattern secrets asked
    obtain ⟨dispatched, through⟩ := call_handled.mp ⟨left, handled⟩
    obtain ⟨ofMethod, first, matched⟩ := dispatch_some dispatched
    rw [matched, Option.getD_some] at through
    by_cases same : first = route.pattern
    · have found := distinct.find_eq member
      rw [sameMethod, samePattern, ofMethod, ← same] at found
      exact (through policy found).1 secrets asked
    · rcases unshadowed request route first dispatched matched same policy member sameMethod
        samePattern secrets asked with
        accepted | ⟨shadow, among, shadowMethod, shadowPattern, turned⟩
      · exact accepted
      · have found := distinct.find_eq among
        rw [shadowMethod, shadowPattern] at found
        exact absurd (through shadow found) turned

end Serving

/-! ## Two parameter names -/

/-- Whether a path matches a pattern of literal and `{name}` segments. -/
def segmentsMatch : List (List Char) → List (List Char) → Bool
  | [], [] => true
  | part :: pattern, segment :: path =>
      (part == segment || (part.head? == some '{' && segment ≠ [])) && segmentsMatch pattern path
  | _, _ => false

/-- The router on such patterns, and the JSON web tokens of one sample. -/
def sampleApplication : Application where
  validMethod method := method ∈ ["GET", "POST"]
  matchesPath pattern path :=
    segmentsMatch (pattern.toList.splitOn '/') (path.toList.splitOn '/')
  passes _ _ := true
  crypto := expiresLater.crypto
  json := expiresLater.json

def postUser : RouteGroupConfig where
  pathPrefix := "/users"
  jwt := some ⟨"secret", none, 0, []⟩
  timeoutMs := none
  maxBodyBytes := none
  priority := false
  sse := false
  middleware := []
  routes := [⟨"POST", "/{id}", false, none, none, none, none, none⟩]

def postUserPolicy : CompiledPolicy where
  method := "POST"
  pattern := "/users/{id}"
  jwtSecrets := some [bytesOf "secret"]
  jwtLeewaySeconds := 0
  jwtClaimProjection := []
  timeout := none
  maxBodyBytes := none
  priority := false
  sse := false
  middleware := []

theorem compile_postUser : compile sampleApplication [postUser] = .ok [postUserPolicy] := by
  decide +kernel

/-- Two patterns of one path. -/
def getByName : RegisteredRoute := ⟨"GET", "/users/\x7bname\x7d", 0⟩

def postById : RegisteredRoute := ⟨"POST", "/users/\x7bid\x7d", 1⟩

/-- A router with one handler has nothing to shadow it. -/
theorem single_handler_protected :
    Protects sampleApplication [postUserPolicy] [postById] := by
  refine (compiled_policies_protect_iff compile_postUser).mpr ?_
  intro request route first dispatched matched differs
  have only (other : RegisteredRoute) (member : other ∈ [postById]) : other = postById :=
    List.mem_singleton.mp member
  obtain ⟨earlier, found, same⟩ := Option.map_eq_some_iff.mp matched
  have here := only earlier (List.mem_of_find?_eq_some found)
  have there := only route (List.mem_of_find?_eq_some dispatched)
  rw [← same, here, there] at differs
  exact absurd rfl differs

/-- `GET /users/{name}` is registered before `POST /users/{id}`, so a `POST` to
`/users/7` without credentials finds no policy and is served. -/
theorem shadowed_handler_unprotected :
    ∃ policies, compile sampleApplication [postUser] = .ok policies ∧
      ¬ Protects sampleApplication policies [getByName, postById] := by
  refine ⟨[postUserPolicy], compile_postUser, ?_⟩
  intro protects
  have dispatched : dispatch sampleApplication [getByName, postById] "POST" "/users/7" =
      some postById := by decide +kernel
  have unknown : find [postUserPolicy] "POST"
      ((matchPattern sampleApplication [getByName, postById] "/users/7").getD "/users/7") =
      none := by decide +kernel
  have through : ∀ policy, find [postUserPolicy] "POST"
      ((matchPattern sampleApplication [getByName, postById] "/users/7").getD "/users/7") =
      some policy → Admits sampleApplication policy ⟨"POST", "/users/7", none, 0⟩ := by
    intro policy found
    cases unknown.symm.trans found
  obtain ⟨left, handled⟩ : ∃ left, call sampleApplication [postUserPolicy]
      [getByName, postById] ⟨"POST", "/users/7", none, 0⟩ = .handled postById left :=
    call_handled.mpr ⟨dispatched, through⟩
  obtain ⟨claims, accepted⟩ := protects _ _ _ handled postUserPolicy List.mem_cons_self rfl rfl
    [bytesOf "secret"] rfl
  cases accepted

end RustZero.RoutePolicies
