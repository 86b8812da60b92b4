import RustZero.GatewayProxy
import RustZero.GatewaySelection
import RustZero.Lib.Onion
import RustZero.Lib.Utf8

/-!
# Requests that the gateway forwards

`GatewayProxy::forward` of `gateway/src/lib.rs`: a request is routed, its body is collected up to
a limit, its headers are passed on, and the upstream request goes through the middleware of its
route to `dispatch_upstream`.

The middleware of the application runs in a monad, and the HTTP client is an operation of it.
Whether the upstream request can be built (its URL parses) is a parameter.
-/

namespace RustZero.Gateway

open Lib Http

/-- What the gateway reads of a request; `none` in the payload is a failure of the connection. -/
structure InboundRequest where
  pathAndQuery : String
  method : String
  headers : Headers
  payload : List (Option (List UInt8))
  peerIp : Option String
  scheme : String
  host : String

structure UpstreamRequest where
  method : String
  target : String
  headers : Headers
  body : List UInt8

/-- An answer of the gateway itself. -/
def refuse (status : Nat) (message : String) : DownstreamResponse :=
  ⟨status, [], .text message⟩

/-- The loop that collects the body. -/
def collectBody (limit : Nat) :
    List UInt8 → List (Option (List UInt8)) → Except DownstreamResponse (List UInt8)
  | body, [] => .ok body
  | _, none :: _ => .error (refuse 400 "invalid request body")
  | body, some chunk :: rest =>
      if limit < min (body.length + chunk.length) (2 ^ 64 - 1) then
        .error (refuse 413 "gateway request body limit exceeded")
      else collectBody limit (body ++ chunk) rest

/-- Headers that are not passed upstream. -/
def dropsHeader (name : String) : Bool :=
  isHopByHop name || name == "host" || name == "content-length"

/-- The headers of the upstream request; each is appended. -/
def upstreamHeaders (request : InboundRequest) : Headers :=
  request.headers.filter (fun header => !dropsHeader header.1) ++
    (request.peerIp.map fun ip => ("x-forwarded-for", utf8 ip)).toList ++
    [("x-forwarded-proto", utf8 request.scheme), ("x-forwarded-host", utf8 request.host)]

section Forward

variable {m : Type → Type} [Monad m]

abbrev GatewayMiddleware (m : Type → Type) := Middleware m UpstreamRequest DownstreamResponse

/-- The chain of the middleware of a route around the dispatch. -/
def chain (registry : String → Option (GatewayMiddleware m))
    (terminal : Handler m UpstreamRequest DownstreamResponse) (names : List String) :
    Handler m UpstreamRequest DownstreamResponse :=
  names.reverse.foldl
    (fun next name =>
      match registry name with
      | none => fun _ => pure (refuse 500 "gateway middleware is not registered")
      | some policy => fun request => policy request next)
    terminal

/-- The gateway as it is configured, with the HTTP client it uses. -/
structure Proxy (m : Type → Type) where
  registry : String → Option (GatewayMiddleware m)
  execute : UpstreamRequest → m Executed
  /-- `upstream.build()` succeeds. -/
  builds : UpstreamRequest → Bool
  defaultType : Option HeaderValue
  requestBodyLimit : Nat
  responseBodyLimit : Nat

def Proxy.dispatch (proxy : Proxy m) : Handler m UpstreamRequest DownstreamResponse :=
  fun request => do
    return dispatchUpstream proxy.defaultType proxy.responseBodyLimit (← proxy.execute request)

/-- The part of `forward` after the route is selected. -/
def Proxy.forwardTo (proxy : Proxy m) (request : InboundRequest) :
    Option (String × List String) → m DownstreamResponse
  | none => pure (refuse 404 "no healthy gateway upstream")
  | some (target, middleware) =>
      match collectBody proxy.requestBodyLimit [] request.payload with
      | .error refusal => pure refusal
      | .ok body =>
          let upstream : UpstreamRequest :=
            ⟨request.method, target, upstreamHeaders request, body⟩
          if proxy.builds upstream then
            chain proxy.registry proxy.dispatch middleware upstream
          else pure (refuse 502 "invalid gateway upstream request")

def Proxy.forward (proxy : Proxy m) (router : GatewayRouter) (request : InboundRequest) :
    Except Panic (m DownstreamResponse) × GatewayRouter :=
  let selected := router.selectTargetWithMiddleware request.pathAndQuery
  (selected.1.map (proxy.forwardTo request), selected.2)

end Forward

/-! ## The body -/

section Body

variable {limit : Nat} {payload : List (Option (List UInt8))}

/-- What the loop makes of the payload after some of the body. -/
inductive Collected (limit : Nat) (body : List UInt8) :
    List (Option (List UInt8)) → Except DownstreamResponse (List UInt8) → Prop
  | whole (parts : List (List UInt8)) (fits : (body ++ parts.flatten).length ≤ limit ∨ parts = []) :
      Collected limit body (parts.map some) (.ok (body ++ parts.flatten))
  | failed (parts : List (List UInt8)) (rest : List (Option (List UInt8)))
      (fits : (body ++ parts.flatten).length ≤ limit ∨ parts = []) :
      Collected limit body (parts.map some ++ none :: rest)
        (.error (refuse 400 "invalid request body"))
  | exceeded (parts : List (List UInt8)) (chunk : List UInt8) (rest : List (Option (List UInt8)))
      (fits : (body ++ parts.flatten).length ≤ limit ∨ parts = [])
      (beyond : limit < (body ++ parts.flatten ++ chunk).length) :
      Collected limit body (parts.map some ++ some chunk :: rest)
        (.error (refuse 413 "gateway request body limit exceeded"))

/-- The first part goes to the body. -/
theorem Collected.cons {body chunk : List UInt8} {payload : List (Option (List UInt8))}
    {result : Except DownstreamResponse (List UInt8)} (below : (body ++ chunk).length ≤ limit)
    (rest : Collected limit (body ++ chunk) payload result) :
    Collected limit body (some chunk :: payload) result := by
  have longer (parts : List (List UInt8))
      (fits : (body ++ chunk ++ parts.flatten).length ≤ limit ∨ parts = []) :
      (body ++ (chunk :: parts).flatten).length ≤ limit := by
    rw [List.flatten_cons, ← List.append_assoc]
    rcases fits with fits | none
    · exact fits
    · rw [none]
      simpa using below
  cases rest with
  | whole parts fits =>
      have joined : Collected limit body ((chunk :: parts).map some)
          (.ok (body ++ (chunk :: parts).flatten)) := .whole _ (.inl (longer parts fits))
      rw [List.flatten_cons, ← List.append_assoc] at joined
      exact joined
  | failed parts rest fits => exact .failed (chunk :: parts) rest (.inl (longer parts fits))
  | exceeded parts next rest fits beyond =>
      refine .exceeded (chunk :: parts) next rest (.inl (longer parts fits)) ?_
      rw [List.flatten_cons, ← List.append_assoc body]
      exact beyond

theorem collectBody_collected (small : limit < 2 ^ 64 - 1) (body : List UInt8)
    (payload : List (Option (List UInt8))) :
    Collected limit body payload (collectBody limit body payload) := by
  induction payload generalizing body with
  | nil =>
      have whole : Collected limit body ([].map some) (.ok (body ++ [].flatten)) :=
        .whole [] (.inr rfl)
      simpa [collectBody] using whole
  | cons chunk payload ih =>
      cases chunk with
      | none => exact .failed [] payload (.inr rfl)
      | some chunk =>
          unfold collectBody
          split
          case isTrue beyond =>
            refine .exceeded [] chunk payload (.inr rfl) ?_
            rw [List.flatten_nil, List.append_nil, List.length_append]
            omega
          case isFalse below =>
            refine .cons ?_ (ih _)
            rw [List.length_append]
            omega

end Body

/-! ## The headers -/

theorem values_kept (name : String) (headers : Headers) :
    Headers.values (headers.filter fun header => !dropsHeader header.1) name =
      if dropsHeader name then [] else headers.values name := by
  rw [Headers.values, List.filter_filter]
  by_cases dropped : dropsHeader name = true
  · rw [if_pos dropped]
    have none : headers.filter (fun header => decide (header.1 = name) && !dropsHeader header.1) =
        [] := by
      rw [List.filter_eq_nil_iff]
      intro header _ kept
      simp only [Bool.and_eq_true, decide_eq_true_eq, Bool.not_eq_true'] at kept
      rw [kept.1, dropped] at kept
      cases kept.2
    rw [none]
    rfl
  · rw [if_neg dropped, Headers.values]
    congr 1
    apply List.filter_congr
    intro header _
    by_cases same : header.1 = name
    · simp [same, Bool.eq_false_iff.mpr dropped]
    · simp [same]

theorem values_upstreamHeaders (request : InboundRequest) {name : String}
    (other : name ∉ ["x-forwarded-for", "x-forwarded-proto", "x-forwarded-host"]) :
    (upstreamHeaders request).values name =
      if dropsHeader name then [] else request.headers.values name := by
  simp only [List.mem_cons, List.not_mem_nil, or_false, not_or] at other
  rw [upstreamHeaders, Headers.values_append, Headers.values_append, values_kept]
  cases request.peerIp <;>
    simp [Headers.values, Ne.symm other.1, Ne.symm other.2.1, Ne.symm other.2.2]

/-! ## The chain -/

section Chain

variable {m : Type → Type} [Monad m]

/-- A chain of registered middleware is those wrapped around the dispatch. -/
theorem chain_eq_wrap {registry : String → Option (GatewayMiddleware m)}
    {policies : String → GatewayMiddleware m} {names : List String}
    (registered : ∀ name ∈ names, registry name = some (policies name))
    (terminal : Handler m UpstreamRequest DownstreamResponse) :
    chain registry terminal names = wrap (names.map policies) terminal := by
  rw [chain, List.foldl_reverse]
  induction names with
  | nil => rfl
  | cons name names ih =>
      obtain ⟨first, later⟩ := List.forall_mem_cons.mp registered
      rw [List.foldr_cons, ih later, first]
      rfl

/-- A middleware that is not registered answers in place of everything behind it. -/
theorem chain_missing {registry : String → Option (GatewayMiddleware m)}
    {policies : String → GatewayMiddleware m} {names rest : List String} {missing : String}
    (registered : ∀ name ∈ names, registry name = some (policies name))
    (absent : registry missing = none)
    (terminal : Handler m UpstreamRequest DownstreamResponse) :
    chain registry terminal (names ++ missing :: rest) =
      wrap (names.map policies)
        fun _ => pure (refuse 500 "gateway middleware is not registered") := by
  have split : chain registry terminal (names ++ missing :: rest) =
      chain registry (chain registry terminal (missing :: rest)) names := by
    rw [chain, chain, chain, List.foldl_reverse, List.foldl_reverse, List.foldl_reverse,
      List.foldr_append]
  rw [split, chain_eq_wrap registered]
  congr 1
  rw [chain, List.foldl_reverse, List.foldr_cons, absent]

variable [LawfulMonad m]

/-- What the gateway does with a request that it has a healthy upstream for. -/
structure Forwards (proxy : Proxy m)
    (layers : String → Layer m UpstreamRequest DownstreamResponse) (request : InboundRequest)
    (target : String) (names : List String) (forwarded : m DownstreamResponse) : Prop where
  collected : Collected proxy.requestBodyLimit [] request.payload
    (collectBody proxy.requestBodyLimit [] request.payload)
  /-- Neither middleware nor upstream sees a request whose body is refused. -/
  refused : ∀ refusal, collectBody proxy.requestBodyLimit [] request.payload = .error refusal →
    forwarded = pure refusal
  /-- The request goes in through the middleware in the order of the route, up to the first that
  answers, and the answer comes out through those that were passed. -/
  onion : ∀ body, collectBody proxy.requestBodyLimit [] request.payload = .ok body →
    let upstream : UpstreamRequest := ⟨request.method, target, upstreamHeaders request, body⟩
    proxy.builds upstream = true → forwarded =
      (do
        let (passed, result) ← descend (names.map layers) upstream
        let answer ← answerWith proxy.dispatch result
        ascend passed answer)
  headers : ∀ name, name ∉ ["x-forwarded-for", "x-forwarded-proto", "x-forwarded-host"] →
    (upstreamHeaders request).values name =
      if dropsHeader name then [] else request.headers.values name
  /-- The peer comes after the hops before it. -/
  hops : (upstreamHeaders request).values "x-forwarded-for" =
    request.headers.values "x-forwarded-for" ++ (request.peerIp.map utf8).toList

/-- Forwarding, end to end. -/
theorem forward_onion (proxy : Proxy m) (small : proxy.requestBodyLimit < 2 ^ 64 - 1)
    (layers : String → Layer m UpstreamRequest DownstreamResponse) (router : GatewayRouter)
    (request : InboundRequest) {target : String} {names : List String}
    (routed : (router.selectTargetWithMiddleware request.pathAndQuery).1 =
      .ok (some (target, names)))
    (registered : ∀ name ∈ names, proxy.registry name = some (layers name).middleware) :
    ∃ forwarded, (proxy.forward router request).1 = .ok forwarded ∧
      Forwards proxy layers request target names forwarded := by
  refine ⟨proxy.forwardTo request (some (target, names)), ?_, collectBody_collected small _ _,
    ?_, ?_, ?_, ?_⟩
  · rw [Proxy.forward]
    simp only [routed]
    rfl
  · intro refusal collected
    simp only [Proxy.forwardTo, collected]
  · intro body collected upstream built
    simp only [Proxy.forwardTo, collected]
    rw [if_pos built, chain_eq_wrap registered, ← wrap_layers, List.map_map]
    rfl
  · intro name other
    exact values_upstreamHeaders request other
  · have kept : dropsHeader "x-forwarded-for" = false := by decide +kernel
    rw [upstreamHeaders, Headers.values_append, Headers.values_append, values_kept, kept,
      if_neg Bool.false_ne_true]
    cases request.peerIp <;> simp [Headers.values]

end Chain

/-- A middleware that notes both ways. -/
def noting (name : String) : Layer (StateM (List String)) UpstreamRequest DownstreamResponse where
  before := fun request => do
    modify (· ++ ["in " ++ name])
    return .ok request
  after := fun answer => do
    modify (· ++ ["out " ++ name])
    return answer

def notingProxy : Proxy (StateM (List String)) where
  registry := fun name => some (noting name).middleware
  execute := fun request => do
    modify (· ++ [request.target])
    return .timeout
  builds := fun _ => true
  defaultType := none
  requestBodyLimit := 4
  responseBodyLimit := 4

def notingRouter : GatewayRouter :=
  ⟨[.new ⟨"/api", ["http://users"], ["auth", "quota"]⟩]⟩

/-- Two middlewares around an upstream that times out. -/
theorem forward_two_layers : ∃ forwarded,
    (notingProxy.forward notingRouter
      ⟨"/api/7", "POST", [], [some [1, 2], some [3]], some "10.0.0.1", "http", "gw"⟩).1 =
        .ok forwarded ∧
      Forwards notingProxy noting
        ⟨"/api/7", "POST", [], [some [1, 2], some [3]], some "10.0.0.1", "http", "gw"⟩
        "http://users/api/7" ["auth", "quota"] forwarded :=
  forward_onion notingProxy (by decide) noting notingRouter _ (by decide +kernel)
    fun _ _ => rfl

end RustZero.Gateway
