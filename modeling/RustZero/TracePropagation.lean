import RustZero.GatewayForward
import RustZero.RpcClientStack

/-!
# Traces across services

A request crosses services as a header: a service reads the context of its caller out of
`traceparent`, and the calls it makes write their own contexts there.  The callers are the gRPC
client stack, the interceptor of `rpc/src/trace.rs` and `execute_traced` of `rest/src/client.rs`;
the callees are the gRPC server stack, the interceptor and `TraceContextService` of
`rest/src/trace.rs`; and a gateway between them passes the header on.

The network may deliver a request any number of times and in any order, and requests come in from
outside with any headers.  `Forest` says what the spans look like: every span is a child of the
one that its request came from; `spans_propagate` follows it up to where a tree begins.
-/

namespace RustZero.Tracing

open Lib Http
open Rpc.Client
open Trace (TraceContext TraceFlags Built)

/-! ## Callers and callees -/

/-- How a call is made; the context it runs in is known to all but the first. -/
inductive Caller where
  | clientStack (config : Rpc.Client.Config)
  | interceptor
  | executeTraced

abbrev Context := { context : TraceContext // Built context }

/-- `RpcTrace` of a client with this parent. -/
def rpcTraceClient (parent : Option TraceContext) (headers : Headers) (time first second : Nat) :
    Headers × TraceContext :=
  let context := traceOf parent time first second
  (headers.insert "traceparent" (utf8 context.traceparent), context)

/-- `HttpClient::execute_traced`, up to `execute`. -/
def executeTraced (parent : TraceContext) (headers : Headers) (first : Nat) :
    Headers × TraceContext :=
  let child := parent.child first
  (headers.insert "traceparent" (utf8 child.traceparent), child)

/-- `RpcTrace` of a server. -/
def rpcTraceServer (headers : Headers) (time first second : Nat) : TraceContext :=
  traceOf (parentOf headers) time first second

/-- `TraceContextService::call`, up to the service. -/
def traceContextService (headers : Headers) (time first second : Nat) : TraceContext :=
  traceOf (parentOf headers) time first second

inductive Callee where
  | serverStack
  | interceptor
  | rest

/-- The context that the callee handles a request in. -/
def Callee.context (callee : Callee) (headers : Headers) (time first second : Nat) :
    TraceContext :=
  match callee with
  | serverStack => Rpc.Stack.traceOf headers time first second
  | interceptor => rpcTraceServer headers time first second
  | rest => traceContextService headers time first second

theorem Callee.context_eq (callee : Callee) (headers : Headers) (time first second : Nat) :
    callee.context headers time first second =
      traceOf (parentOf headers) time first second := by
  cases callee with
  | serverStack =>
      unfold context Rpc.Stack.traceOf traceOf parentOf
      rcases (headers.text "traceparent").bind TraceContext.parse with _ | _ | _ <;> rfl
  | interceptor => rfl
  | rest => rfl

theorem Callee.built (callee : Callee) (headers : Headers) (time first second : Nat) :
    Built (callee.context headers time first second) := by
  rw [context_eq]
  exact built_traceOf (built_parentOf headers) _ _ _

theorem built_of_mem (parent : Option Context) :
    ∀ context ∈ parent.map Subtype.val, Built context := by
  rintro _ member
  obtain ⟨context, _, rfl⟩ := Option.map_eq_some_iff.mp member
  exact context.2

/-- The headers and the context of a call, or nothing where it takes a context that is not
there. -/
def Caller.call (caller : Caller) (parent : Option Context) (headers : Headers)
    (time first second : Nat) : Option (Headers × Context) :=
  match caller with
  | clientStack config =>
      let sent := prepare config ⟨headers, parent⟩ time first second
      some (sent.1, ⟨sent.2, built_prepare _ _ _ _ _⟩)
  | interceptor =>
      let sent := rpcTraceClient (parent.map Subtype.val) headers time first second
      some (sent.1, ⟨sent.2, built_traceOf (built_of_mem parent) _ _ _⟩)
  | executeTraced => parent.map fun parent =>
      let sent := Tracing.executeTraced parent.1 headers first
      (sent.1, ⟨sent.2, .child first parent.2⟩)

/-! ## The network -/

structure Span where
  context : Context
  /-- The span that it came from. -/
  parent : Option Nat

structure Message where
  headers : Headers
  /-- The span of the call; none for a request from outside. -/
  span : Option Nat

structure State where
  spans : List Span
  messages : List Message

inductive Action where
  | outside (headers : Headers)
  /-- A service begins something of its own. -/
  | begin (time first second : Nat) (flags : TraceFlags)
  /-- A call in the context of a span, or in none. -/
  | call (caller : Caller) (parent : Option Nat) (headers : Headers) (time first second : Nat)
  /-- A service sends a message on through the client stack, without a context. -/
  | relay (message : Nat) (config : Rpc.Client.Config) (time first second : Nat)
  /-- A gateway sends a message on; `request` is what it reads besides the headers. -/
  | forward (message : Nat) (request : Gateway.InboundRequest)
  | deliver (message : Nat) (callee : Callee) (time first second : Nat)

namespace State

def send (state : State) (message : Message) : State :=
  { state with messages := state.messages ++ [message] }

def enter (state : State) (span : Span) : State :=
  { state with spans := state.spans ++ [span] }

/-- A call leaves in the span that was entered for it. -/
def invoke (state : State) (parent : Option Nat) (sent : Headers × Context) : State :=
  (state.enter ⟨sent.2, parent⟩).send ⟨sent.1, some state.spans.length⟩

end State

def advance (state : State) : Action → Option State
  | .outside headers => some (state.send ⟨headers, none⟩)
  | .begin time first second flags =>
      some (state.enter ⟨⟨.root time first second flags, .root _ _ _ _⟩, none⟩)
  | .call caller none headers time first second =>
      (caller.call none headers time first second).map (state.invoke none)
  | .call caller (some parent) headers time first second => do
      let span ← state.spans[parent]?
      let sent ← caller.call (some span.context) headers time first second
      return state.invoke (some parent) sent
  | .relay message config time first second => do
      let message ← state.messages[message]?
      let sent ← (Caller.clientStack config).call none message.headers time first second
      return state.invoke message.span sent
  | .forward message request => do
      let message ← state.messages[message]?
      let headers := Gateway.upstreamHeaders { request with headers := message.headers }
      return state.send ⟨headers, message.span⟩
  | .deliver message callee time first second => do
      let message ← state.messages[message]?
      let context := callee.context message.headers time first second
      return state.enter ⟨⟨context, callee.built _ _ _ _⟩, message.span⟩

def system : Lts State Action where
  init := ⟨[], []⟩
  step := advance

/-! ## What a header carries -/

structure ChildOf (child parent : TraceContext) : Prop where
  traceId : child.traceId = parent.traceId
  parentSpanId : child.parentSpanId = some parent.spanId
  flags : child.flags = parent.flags

/-- The headers carry this context to a callee. -/
def Carries (headers : Headers) (context : TraceContext) : Prop :=
  headers.get "traceparent" = some (utf8 context.traceparent)

theorem carries_insert (headers : Headers) (context : TraceContext) :
    Carries (headers.insert "traceparent" (utf8 context.traceparent)) context :=
  headers.get_insert_self _ _

theorem parentOf_of_carries {headers : Headers} {context : TraceContext} (built : Built context)
    (carries : Carries headers context) :
    parentOf headers = some { context with parentSpanId := none } := by
  have read := Headers.text_of_get carries (visible_traceparent context)
  have parsed := Trace.parse_traceparent built.ne_zero.1 built.ne_zero.2
  unfold parentOf
  rw [read, Option.bind_some, parsed]

theorem Callee.context_spec {callee : Callee} {headers : Headers} {context : TraceContext}
    {time first second : Nat} (built : Built context) (carries : Carries headers context) :
    ChildOf (callee.context headers time first second) context := by
  rw [context_eq, parentOf_of_carries built carries]
  exact ⟨rfl, rfl, rfl⟩

/-- A call takes its own context to the callee, which is a child of the one it is made in. -/
theorem Caller.call_spec {caller : Caller} {parent : Option Context} {headers : Headers}
    {time first second : Nat} {sent : Headers × Context}
    (called : caller.call parent headers time first second = some sent) :
    Carries sent.1 sent.2.1 ∧ ∀ above, parent = some above → ChildOf sent.2.1 above.1 := by
  cases caller with
  | clientStack config =>
      cases called
      refine ⟨get_traceparent _ _ _ _ _, ?_⟩
      rintro above rfl
      exact ⟨rfl, rfl, rfl⟩
  | interceptor =>
      cases called
      refine ⟨carries_insert _ _, ?_⟩
      rintro above rfl
      exact ⟨rfl, rfl, rfl⟩
  | executeTraced =>
      obtain ⟨context, rfl, rfl⟩ := Option.map_eq_some_iff.mp called
      refine ⟨carries_insert _ _, ?_⟩
      rintro above same
      cases same
      exact ⟨rfl, rfl, rfl⟩

/-- Without a context, the client stack takes the one of the headers. -/
theorem Caller.relay_spec {config : Rpc.Client.Config} {headers : Headers} {time first second : Nat}
    {sent : Headers × Context} {above : Context} (carries : Carries headers above.1)
    (called : (clientStack config).call none headers time first second = some sent) :
    ChildOf sent.2.1 above.1 := by
  cases called
  have kept : Carries (authorize config headers) above.1 := by
    rw [Carries, get_authorize config (by decide)]
    exact carries
  have childOf : ChildOf (Callee.rest.context (authorize config headers) time first second)
      above.1 := Callee.context_spec above.2 kept
  exact childOf

/-- A gateway passes the context on. -/
theorem carries_upstreamHeaders {request : Gateway.InboundRequest} {context : TraceContext}
    (carries : Carries request.headers context) :
    Carries (Gateway.upstreamHeaders request) context := by
  have kept : Gateway.dropsHeader "traceparent" = false := by decide +kernel
  have other : "traceparent" ∉ ["x-forwarded-for", "x-forwarded-proto", "x-forwarded-host"] := by
    decide
  have same := Gateway.values_upstreamHeaders request other
  rw [kept, if_neg Bool.false_ne_true] at same
  unfold Carries at *
  rw [Headers.get_eq_head?, same, ← Headers.get_eq_head?]
  exact carries

theorem not_cuts_of_ascii {digits : List UInt8} (ascii : ∀ byte ∈ digits, byte < 128) :
    ¬Trace.CutsCharacter digits := by
  intro cuts
  induction cuts with
  | here inside =>
      have low := ascii _ (List.mem_cons_of_mem _ (List.mem_cons_of_mem _ List.mem_cons_self))
      rw [Trace.isContinuation, Bool.and_eq_true, decide_eq_true_eq] at inside
      exact UInt8.not_le.mpr low inside.1
  | later _ _ ih =>
      apply ih
      intro byte member
      exact ascii byte (List.mem_cons_of_mem _ (List.mem_cons_of_mem _ member))

/-- Header text is ASCII, and `parse` does not panic on it. -/
theorem parse_of_text {headers : Headers} {name text : String}
    (given : headers.text name = some text) : (TraceContext.parse text).isSome := by
  obtain ⟨value, _, read⟩ := Option.bind_eq_some_iff.mp given
  obtain ⟨rfl, ascii⟩ := utf8_of_headerText read
  by_cases whole : ∃ trace span flags, Trace.Shaped text trace span flags
  · obtain ⟨trace, span, flags, shaped⟩ := whole
    have outcome :=
      Trace.parseParts_outcome shaped.trace_length shaped.span_length shaped.flags_length
    rw [Trace.parse_of_shaped shaped]
    rw [shaped.text] at ascii
    simp only [List.forall_mem_append, List.forall_mem_cons] at ascii
    generalize TraceContext.parseParts trace span flags = returned at outcome
    cases outcome with
    | cut cuts =>
        rcases cuts with cuts | ⟨_, cuts⟩
        · exact (not_cuts_of_ascii ascii.2.1 cuts).elim
        · exact (not_cuts_of_ascii ascii.2.2.2.1 cuts).elim
    | refused => rfl
    | accepted => rfl
  · have other : ∀ trace span flags, ¬Trace.Shaped text trace span flags := by
      intro trace span flags shaped
      exact whole ⟨trace, span, flags, shaped⟩
    rw [Trace.parse_of_not_shaped other]
    rfl

/-! ## The forest of spans -/

/-- Spans point to the spans that they came from. -/
def Above (spans : List Span) (parent child : Nat) : Prop :=
  ∃ span, spans[child]? = some span ∧ span.parent = some parent

structure Forest (state : State) : Prop where
  child : ∀ index (span : Span) parent, state.spans[index]? = some span →
    span.parent = some parent → parent < index ∧ ∃ above : Span, state.spans[parent]? = some above ∧
      ChildOf span.context.1 above.context.1
  carried : ∀ message ∈ state.messages, ∀ index, message.span = some index →
    ∃ span : Span, state.spans[index]? = some span ∧ Carries message.headers span.context.1

theorem getElem?_enter {state : State} {index : Nat} {span : Span} (entered : Span)
    (found : state.spans[index]? = some span) :
    (state.enter entered).spans[index]? = some span := by
  unfold State.enter
  rw [List.getElem?_append_left (List.getElem?_eq_some_iff.mp found).1]
  exact found

namespace Forest

variable {state : State}

theorem send (forest : Forest state) {message : Message}
    (carries : ∀ index, message.span = some index →
      ∃ span, state.spans[index]? = some span ∧ Carries message.headers span.context.1) :
    Forest (state.send message) := by
  refine ⟨forest.child, ?_⟩
  intro other member
  rcases List.mem_append.mp member with old | new
  · exact forest.carried other old
  · rw [List.mem_singleton] at new
    subst new
    exact carries

theorem enter (forest : Forest state) {entered : Span}
    (from_parent : ∀ parent, entered.parent = some parent →
      ∃ above, state.spans[parent]? = some above ∧ ChildOf entered.context.1 above.context.1) :
    Forest (state.enter entered) := by
  refine ⟨?_, ?_⟩
  · intro index span parent found pointed
    rcases Nat.lt_trichotomy index state.spans.length with old | new | beyond
    · unfold State.enter at found
      rw [List.getElem?_append_left old] at found
      obtain ⟨earlier, above, there, childOf⟩ := forest.child index span parent found pointed
      exact ⟨earlier, above, getElem?_enter entered there, childOf⟩
    · subst new
      unfold State.enter at found
      rw [List.getElem?_concat_length] at found
      cases found
      obtain ⟨above, there, childOf⟩ := from_parent parent pointed
      exact ⟨(List.getElem?_eq_some_iff.mp there).1, above, getElem?_enter entered there, childOf⟩
    · unfold State.enter at found
      rw [List.getElem?_eq_none (by rw [List.length_append, List.length_singleton]; omega)] at found
      cases found
  · intro message member index carried
    obtain ⟨span, there, carries⟩ := forest.carried message member index carried
    exact ⟨span, getElem?_enter entered there, carries⟩

theorem invoke (forest : Forest state) {parent : Option Nat} {sent : Headers × Context}
    (carries : Carries sent.1 sent.2.1)
    (from_parent : ∀ above, parent = some above →
      ∃ span, state.spans[above]? = some span ∧ ChildOf sent.2.1 span.context.1) :
    Forest (state.invoke parent sent) := by
  refine (forest.enter from_parent).send ?_
  rintro _ ⟨⟩
  exact ⟨_, List.getElem?_concat_length, carries⟩

theorem step (forest : Forest state) {action : Action} {next : State}
    (taken : advance state action = some next) : Forest next := by
  cases action with
  | outside headers =>
      cases taken
      exact forest.send fun _ none => nomatch none
  | begin time first second flags =>
      cases taken
      exact forest.enter fun _ none => nomatch none
  | call caller parent headers time first second =>
      cases parent with
      | none =>
          obtain ⟨sent, called, rfl⟩ := Option.map_eq_some_iff.mp taken
          exact forest.invoke (Caller.call_spec called).1 fun _ none => nomatch none
      | some parent =>
          obtain ⟨span, found, taken⟩ := Option.bind_eq_some_iff.mp taken
          obtain ⟨sent, called, taken⟩ := Option.bind_eq_some_iff.mp taken
          cases taken
          obtain ⟨carries, childOf⟩ := Caller.call_spec called
          refine forest.invoke carries ?_
          rintro _ ⟨⟩
          exact ⟨span, found, childOf _ rfl⟩
  | relay message config time first second =>
      obtain ⟨message, found, taken⟩ := Option.bind_eq_some_iff.mp taken
      obtain ⟨sent, called, taken⟩ := Option.bind_eq_some_iff.mp taken
      cases taken
      refine forest.invoke (Caller.call_spec called).1 ?_
      intro index came
      obtain ⟨span, there, carries⟩ :=
        forest.carried message (List.mem_of_getElem? found) index came
      exact ⟨span, there, Caller.relay_spec carries called⟩
  | forward message request =>
      obtain ⟨message, found, taken⟩ := Option.bind_eq_some_iff.mp taken
      cases taken
      refine forest.send ?_
      intro index came
      obtain ⟨span, there, carries⟩ :=
        forest.carried message (List.mem_of_getElem? found) index came
      exact ⟨span, there, carries_upstreamHeaders carries⟩
  | deliver message callee time first second =>
      obtain ⟨message, found, taken⟩ := Option.bind_eq_some_iff.mp taken
      cases taken
      refine forest.enter ?_
      intro index came
      obtain ⟨span, there, carries⟩ :=
        forest.carried message (List.mem_of_getElem? found) index came
      exact ⟨span, there, Callee.context_spec span.context.2 carries⟩

theorem of_reachable (reached : system.Reachable state) : Forest state := by
  refine reached.invariant ⟨?_, ?_⟩ fun _ _ _ forest _ taken => forest.step taken
  · intro index span parent found
    cases found
  · intro message member
    cases member

/-- Up the forest, spans are of one trace and one decision to sample. -/
theorem same_trace (forest : Forest state) {top index : Nat} {root span : Span}
    (path : Relation.ReflTransGen (Above state.spans) top index)
    (atTop : state.spans[top]? = some root) (found : state.spans[index]? = some span) :
    span.context.1.traceId = root.context.1.traceId ∧
      span.context.1.flags = root.context.1.flags := by
  induction path generalizing span with
  | refl =>
      cases atTop.symm.trans found
      exact ⟨rfl, rfl⟩
  | tail _ last ih =>
      obtain ⟨below, there, pointed⟩ := last
      cases there.symm.trans found
      obtain ⟨_, above, aboveThere, childOf⟩ := forest.child _ _ _ found pointed
      have upper := ih aboveThere
      exact ⟨childOf.traceId.trans upper.1, childOf.flags.trans upper.2⟩

/-- Every span is below one that begins a tree. -/
theorem rooted (forest : Forest state) {index : Nat} {span : Span}
    (found : state.spans[index]? = some span) : ∃ top root,
      Relation.ReflTransGen (Above state.spans) top index ∧ state.spans[top]? = some root ∧
        root.parent = none := by
  induction index using Nat.strong_induction_on generalizing span with
  | _ index ih =>
      cases pointed : span.parent with
      | none => exact ⟨index, span, .refl, found, pointed⟩
      | some parent =>
          obtain ⟨earlier, above, there, _⟩ := forest.child index span parent found pointed
          obtain ⟨top, root, path, atTop, begins⟩ := ih parent earlier there
          exact ⟨top, root, path.tail ⟨span, found, pointed⟩, atTop, begins⟩

end Forest

/-- In every run of the network. -/
structure Propagates (state : State) : Prop extends Forest state where
  /-- Each tree is one trace from the span that begins it. -/
  trees : ∀ index span, state.spans[index]? = some span → ∃ top root,
    Relation.ReflTransGen (Above state.spans) top index ∧ state.spans[top]? = some root ∧
      root.parent = none ∧ span.context.1.traceId = root.context.1.traceId ∧
      span.context.1.flags = root.context.1.flags
  /-- No header makes a callee panic. -/
  read : ∀ message ∈ state.messages, ∀ text, message.headers.text "traceparent" = some text →
    (TraceContext.parse text).isSome

/-- Whatever calls are made, relayed, forwarded, repeated and reordered. -/
theorem spans_propagate {state : State} (reached : system.Reachable state) :
    Propagates state := by
  have forest := Forest.of_reachable reached
  refine ⟨forest, ?_, fun _ _ _ given => parse_of_text given⟩
  intro index span found
  obtain ⟨top, root, path, atTop, begins⟩ := forest.rooted found
  exact ⟨top, root, path, atTop, begins, forest.same_trace path atTop found⟩

/-- A call through a gateway that is delivered twice. -/
def repeated : List Action :=
  [.outside [("traceparent", utf8 "00-4bf92f3577b34da6a3ce929d0e0e4736-00f067aa0ba902b7-01")],
    .deliver 0 .rest 0 1 2, .call .executeTraced (some 0) [] 0 3 4,
    .forward 1 ⟨"/api/7", "GET", [], [], some "10.0.0.1", "http", "gw"⟩,
    .deliver 2 .serverStack 0 5 6, .deliver 2 .serverStack 0 7 8]

theorem repeated_propagates : ∃ state, system.exec system.init repeated = some state ∧
    state.spans.map Span.parent = [none, some 0, some 1, some 1] ∧ Propagates state := by
  have run : (system.exec system.init repeated).map (fun state => state.spans.map Span.parent) =
      some [none, some 0, some 1, some 1] := by
    decide +kernel
  obtain ⟨state, ran, parents⟩ := Option.map_eq_some_iff.mp run
  exact ⟨state, ran, parents, spans_propagate (Lts.reachable_of_exec _ ran)⟩

end RustZero.Tracing
