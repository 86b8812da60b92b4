import RustZero.Lib.Lts
import RustZero.Lib.Phases
import RustZero.Http
import RustZero.Metric

/-!
# Metrics of gRPC calls

`rpc/src/metrics.rs`: `RpcMetricsService` counts each call, times it and keeps a gauge
of the calls in flight.  The observation of a call is held by the future of the inner
service, which hands it to the response body; it is finished by the response headers,
by a frame or the end of the body, or by the destructor of whoever holds it.

* `handle` is one event of a call: how the inner future ends, a poll of the body, or a
  drop.  It may leave the three metric updates of `RpcObservation::finish` to do, each
  of which takes a lock of its own, so the updates of concurrent calls interleave.
* `Call.code` is what the events of a call amount to: the first of them that decides
  the code of the call.
* `Accounted` compares the metrics with the calls.

Events and updates of a call are kept in `seen` and `posted`, which no step reads.
-/

namespace RustZero.Rpc.Metrics

open RustZero.Lib RustZero.Http RustZero.Metric

def unknownMethod : String :=
  "unknown"

structure RpcMetrics where
  requests : CounterVec
  duration : HistogramVec
  inFlight : GaugeVec
  methods : Finset String

def RpcMetrics.new (methods : List String) : RpcMetrics where
  requests := .register ["method", "code"]
  duration := ⟨defaultHistogramBuckets, .register ["method", "code"]⟩
  inFlight := .register ["method"]
  methods := methods.toFinset

def RpcMetrics.method (metrics : RpcMetrics) (path : String) : String :=
  if path ∈ metrics.methods then path else unknownMethod

/-- The metric updates of `finish`, with their label values. -/
inductive Update where
  | requests (labels : List String)
  | duration (labels : List String)
  | inFlight (labels : List String)
  deriving DecidableEq

/-- One update; a call panics where it fails. -/
def RpcMetrics.post (metrics : RpcMetrics) (elapsed : ℚ) : Update → Except MetricsError RpcMetrics
  | .requests labels => do
      pure { metrics with requests := ← CounterVec.inc metrics.requests labels }
  | .duration labels => do
      pure { metrics with duration := ← metrics.duration.observe elapsed labels }
  | .inFlight labels => do
      pure { metrics with inFlight := ← GaugeVec.dec metrics.inFlight labels }

structure RpcObservation where
  method : String
  finished : Bool
  deriving DecidableEq

def RpcMetrics.start (metrics : RpcMetrics) (path : String) :
    Except MetricsError (RpcMetrics × RpcObservation) := do
  let method := metrics.method path
  pure ({ metrics with inFlight := ← GaugeVec.inc metrics.inFlight [method] }, ⟨method, false⟩)

def RpcObservation.finish (observation : RpcObservation) (code : String) :
    RpcObservation × List Update :=
  if observation.finished then (observation, [])
  else
    let labels := [observation.method, code]
    ({ observation with finished := true },
      [.requests labels, .duration labels, .inFlight [observation.method]])

/-- `RpcObservation::drop`. -/
def RpcObservation.drop (observation : RpcObservation) : List Update :=
  (observation.finish "cancelled").2

/-- An observation that is finished and then goes out of scope. -/
def RpcObservation.settle (observation : RpcObservation) (code : String) : List Update :=
  let done := observation.finish code
  done.2 ++ done.1.drop

/-! ## One call -/

/-- `grpc_code` of the value of the `grpc-status` header. -/
def grpcCode (value : Option (List UInt8)) : Option String := do
  let code ← headerText (← value)
  if code ∈ ["0", "1", "2", "3", "4", "5", "6", "7", "8", "9", "10", "11", "12", "13", "14", "15",
      "16"] then some code
  else some "invalid"

/-- What the layer reads of a response. -/
structure Response where
  status : Nat
  grpcStatus : Option (List UInt8)
  deriving DecidableEq

def headerCode (response : Response) : Option String :=
  grpcCode response.grpcStatus <|>
    if isSuccess response.status then none else some "http_error"

/-- What `poll_frame` of the inner body returns; trailers with their `grpc-status`. -/
inductive Poll where
  | data
  | trailers (grpcStatus : Option (List UInt8))
  | error
  | ended
  | pending
  deriving DecidableEq

/-- The code a poll of the body finishes the call with. -/
def pollCode : Poll → Option String
  | .data => none
  | .trailers grpcStatus => grpcCode grpcStatus
  | .error => some "body_error"
  | .ended => some "0"
  | .pending => none

inductive Event where
  | responded (response : Response)
  /-- The inner future returns an error. -/
  | failed
  | panicked
  /-- The future is dropped before it is ready. -/
  | abandoned
  | polled (poll : Poll)
  | bodyDropped
  deriving DecidableEq

/-- Who holds the observation. -/
inductive Phase where
  | future (observation : RpcObservation)
  | body (observation : Option RpcObservation)
  | gone
  deriving DecidableEq

/-- An event of a call: the next phase and the metric updates to do. -/
def handle : Phase → Event → Option (Phase × List Update)
  | .future observation, .responded response =>
      match headerCode response with
      | some code => some (.body none, observation.settle code)
      | none => some (.body (some observation), [])
  | .future observation, .failed => some (.gone, observation.settle "transport_error")
  | .future observation, .panicked => some (.gone, observation.drop)
  | .future observation, .abandoned => some (.gone, observation.drop)
  | .body observation, .polled poll =>
      match observation, pollCode poll with
      | some observation, some code => some (.body none, observation.settle code)
      | observation, none => some (.body observation, [])
      | none, some _ => some (.body none, [])
  | .body observation, .bodyDropped => some (.gone, observation.elim [] RpcObservation.drop)
  | _, _ => none

/-! ## Concurrent calls -/

structure Call where
  path : String
  phase : Phase
  /-- The updates of `finish` that are left to do. -/
  work : List Update
  seen : List Event
  posted : List Update
  deriving DecidableEq

structure State where
  metrics : RpcMetrics
  calls : List Call

inductive Action where
  | start (path : String)
  | event (index : Nat) (event : Event)
  /-- A call does its next update. -/
  | post (index : Nat) (elapsed : ℚ)

def advance (state : State) : Action → Option State
  | .start path => do
      let (metrics, observation) ← (state.metrics.start path).toOption
      some ⟨metrics, state.calls ++ [⟨path, .future observation, [], [], []⟩]⟩
  | .event index event => do
      let call ← state.calls[index]?
      if call.work = [] then
        let (phase, work) ← handle call.phase event
        some { state with
          calls := state.calls.set index
            { call with phase := phase, work := work, seen := call.seen ++ [event] } }
      else none
  | .post index elapsed => do
      let call ← state.calls[index]?
      match call.work with
      | [] => none
      | update :: work =>
          let metrics ← (state.metrics.post elapsed update).toOption
          some ⟨metrics, state.calls.set index
            { call with work := work, posted := call.posted ++ [update] }⟩

def system (methods : List String) : Lts State Action where
  init := ⟨.new methods, []⟩
  step := advance

/-! ## What a call amounts to -/

/-- The code an event decides. -/
def Event.code : Event → Option String
  | .responded response => headerCode response
  | .failed => some "transport_error"
  | .panicked => some "cancelled"
  | .abandoned => some "cancelled"
  | .polled poll => pollCode poll
  | .bodyDropped => some "cancelled"

def Call.code (call : Call) : Option String :=
  call.seen.findSome? Event.code

/-- The updates a finished call makes. -/
def updates (method code : String) : List Update :=
  [.requests [method, code], .duration [method, code], .inFlight [method]]

def Call.counted (update : Update) (call : Call) : Bool :=
  call.posted.contains update

/-- A call of the method that has not left the gauge. -/
def Call.unfinished (metrics : RpcMetrics) (method : String) (call : Call) : Bool :=
  metrics.method call.path == method && !call.counted (.inFlight [method])

/-- The label of a method that was registered, or the shared one. -/
def MethodLabel (methods : List String) (method : String) : Prop :=
  method ∈ methods ∨ method = unknownMethod

/-- The metrics agree with the calls. -/
structure Accounted (methods : List String) (state : State) : Prop where
  /-- A call makes each update once, with its code, and none before it has one. -/
  once : ∀ call ∈ state.calls, call.posted ++ call.work =
    call.code.elim [] (updates (state.metrics.method call.path))
  /-- A call that nobody holds has its code. -/
  gone : ∀ call ∈ state.calls, call.phase = .gone → call.code.isSome
  requests : ∀ labels, state.metrics.requests.read 0 labels =
    state.calls.countP (Call.counted (.requests labels))
  duration : ∀ labels, (state.metrics.duration.stored labels).length =
    state.calls.countP (Call.counted (.duration labels))
  inFlight : ∀ method, state.metrics.inFlight.read 0 [method] =
    state.calls.countP (Call.unfinished state.metrics method)
  settled : (∀ call ∈ state.calls, call.code.isSome ∧ call.work = []) →
    ∀ method, state.metrics.inFlight.read 0 [method] = 0
  labels : ∀ labels, labels ∈ state.metrics.requests.values ∨
    labels ∈ state.metrics.duration.family.values →
    ∃ method code, labels = [method, code] ∧ MethodLabel methods method
  gaugeLabels : ∀ labels ∈ state.metrics.inFlight.values,
    ∃ method, labels = [method] ∧ MethodLabel methods method
  /-- No `expect` fails. -/
  starts : ∀ path, (advance state (.start path)).isSome
  posts : ∀ index call elapsed, state.calls[index]? = some call → call.work ≠ [] →
    (advance state (.post index elapsed)).isSome

/-! ## One event -/

theorem settle_unfinished (method code : String) :
    RpcObservation.settle ⟨method, false⟩ code = updates method code :=
  rfl

theorem drop_unfinished (method : String) :
    RpcObservation.drop ⟨method, false⟩ = updates method "cancelled" :=
  rfl

/-- Who holds the observation of a call of the method, by whether the call has its code. -/
def Holds (method : String) (code : Option String) : Phase → Prop
  | .future observation => observation = ⟨method, false⟩ ∧ code = none
  | .body (some observation) => observation = ⟨method, false⟩ ∧ code = none
  | .body none => code.isSome
  | .gone => code.isSome

/-- An event that decides the code of an undecided call leaves the updates to do. -/
theorem handle_spec {method : String} {code : Option String} {phase next : Phase}
    {event : Event} {work : List Update} (holds : Holds method code phase)
    (handled : handle phase event = some (next, work)) :
    Holds method (code <|> event.code) next ∧
      work = if code.isSome then [] else event.code.elim [] (updates method) := by
  unfold handle at handled
  split at handled
  · -- the headers
    rename_i observation response
    obtain ⟨same, undecided⟩ := holds
    subst same undecided
    cases decided : headerCode response with
    | some found =>
        simp only [decided, Option.some.injEq, Prod.mk.injEq] at handled
        obtain ⟨rfl, rfl⟩ := handled
        simp [Holds, Event.code, decided, settle_unfinished]
    | none =>
        simp only [decided, Option.some.injEq, Prod.mk.injEq] at handled
        obtain ⟨rfl, rfl⟩ := handled
        simp [Holds, Event.code, decided]
  · obtain ⟨same, undecided⟩ := holds
    subst same undecided
    cases handled
    simp [Holds, Event.code, settle_unfinished]
  · obtain ⟨same, undecided⟩ := holds
    subst same undecided
    cases handled
    simp [Holds, Event.code, drop_unfinished]
  · obtain ⟨same, undecided⟩ := holds
    subst same undecided
    cases handled
    simp [Holds, Event.code, drop_unfinished]
  · -- a poll of the body
    rename_i observation poll
    split at handled
    · rename_i observation found decided
      obtain ⟨same, undecided⟩ := holds
      subst same undecided
      cases handled
      simp [Holds, Event.code, decided, settle_unfinished]
    · rename_i observation decided
      cases handled
      refine ⟨by simpa [Event.code, decided] using holds, ?_⟩
      simp [Event.code, decided]
    · cases handled
      obtain ⟨found, same⟩ := Option.isSome_iff_exists.mp holds
      subst same
      simp [Holds]
  · -- a drop of the body
    rename_i observation
    cases handled
    cases observation with
    | none =>
        obtain ⟨found, same⟩ := Option.isSome_iff_exists.mp holds
        subst same
        simp [Holds]
    | some observation =>
        obtain ⟨same, undecided⟩ := holds
        subst same undecided
        simp [Holds, Event.code, drop_unfinished]
  · cases handled

/-! ## One update -/

/-- The vectors have the labels of `RpcMetrics::new`. -/
structure Fixed (methods : List String) (metrics : RpcMetrics) : Prop where
  requests : metrics.requests.labels.length = 2
  duration : metrics.duration.family.labels.length = 2
  inFlight : metrics.inFlight.labels.length = 1
  methods : metrics.methods = methods.toFinset

theorem Fixed.methodLabel {methods : List String} {metrics : RpcMetrics}
    (fixed : Fixed methods metrics) (path : String) :
    MethodLabel methods (metrics.method path) := by
  unfold RpcMetrics.method
  split
  · rename_i registered
    rw [fixed.methods] at registered
    exact .inl (List.mem_toFinset.mp registered)
  · exact .inr rfl

theorem method_of_methods {metrics metrics' : RpcMetrics}
    (same : metrics'.methods = metrics.methods) (path : String) :
    metrics'.method path = metrics.method path := by
  rw [RpcMetrics.method, RpcMetrics.method, same]

/-- What an update of a call of the method does to the metrics. -/
structure Posted (metrics : RpcMetrics) (update : Update) (metrics' : RpcMetrics) : Prop where
  requests : ∀ labels, metrics'.requests.read 0 labels =
    metrics.requests.read 0 labels + if update = .requests labels then 1 else 0
  duration : ∀ labels, (metrics'.duration.stored labels).length =
    (metrics.duration.stored labels).length + if update = .duration labels then 1 else 0
  inFlight : ∀ labels, metrics'.inFlight.read 0 labels =
    metrics.inFlight.read 0 labels - if update = .inFlight labels then 1 else 0
  requestsLabels : ∀ labels ∈ metrics'.requests.values,
    update = .requests labels ∨ labels ∈ metrics.requests.values
  durationLabels : ∀ labels ∈ metrics'.duration.family.values,
    update = .duration labels ∨ labels ∈ metrics.duration.family.values
  inFlightLabels : ∀ labels ∈ metrics'.inFlight.values,
    update = .inFlight labels ∨ labels ∈ metrics.inFlight.values

/-- The updates of a call do not fail. -/
theorem post_spec {methods : List String} {metrics : RpcMetrics} {method code : String}
    {update : Update} (fixed : Fixed methods metrics) (mine : update ∈ updates method code)
    (elapsed : ℚ) : ∃ metrics', metrics.post elapsed update = .ok metrics' ∧
      Fixed methods metrics' ∧ Posted metrics update metrics' := by
  simp only [updates, List.mem_cons, List.not_mem_nil, or_false] at mine
  rcases mine with rfl | rfl | rfl
  · have done : CounterVec.inc metrics.requests [method, code] = _ :=
      CounterVec.inc_ok fixed.requests.symm
    refine ⟨{ metrics with requests := metrics.requests.update 0 [method, code] (· + 1) },
      by rw [RpcMetrics.post, done]; rfl,
      ⟨fixed.requests, fixed.duration, fixed.inFlight, fixed.methods⟩, ?_⟩
    refine ⟨?_, fun _ => rfl, fun _ => (sub_zero _).symm, ?_, fun _ => .inr, fun _ => .inr⟩
    · intro labels
      rw [MetricFamily.read_update]
      by_cases same : [method, code] = labels <;> simp [same]
    · intro labels member
      rcases MetricFamily.mem_update member with rfl | old
      · exact .inl rfl
      · exact .inr old
  · have done : metrics.duration.observe elapsed [method, code] = _ :=
      HistogramVec.observe_ok elapsed fixed.duration.symm
    refine ⟨{ metrics with duration := { metrics.duration with
        family := metrics.duration.family.update [] [method, code] (· ++ [elapsed]) } },
      by rw [RpcMetrics.post, done]; rfl,
      ⟨fixed.requests, fixed.duration, fixed.inFlight, fixed.methods⟩, ?_⟩
    refine ⟨fun _ => (add_zero _).symm, ?_, fun _ => (sub_zero _).symm, fun _ => .inr, ?_,
      fun _ => .inr⟩
    · intro labels
      simp only [HistogramVec.stored, MetricFamily.read_update]
      by_cases same : [method, code] = labels <;> simp [same]
    · intro labels member
      rcases MetricFamily.mem_update member with rfl | old
      · exact .inl rfl
      · exact .inr old
  · have done : GaugeVec.dec metrics.inFlight [method] = _ :=
      GaugeVec.dec_ok fixed.inFlight.symm
    refine ⟨{ metrics with inFlight := metrics.inFlight.update 0 [method] (· + -1) },
      by rw [RpcMetrics.post, done]; rfl,
      ⟨fixed.requests, fixed.duration, fixed.inFlight, fixed.methods⟩, ?_⟩
    refine ⟨fun _ => (add_zero _).symm, fun _ => rfl, ?_, fun _ => .inr, fun _ => .inr, ?_⟩
    · intro labels
      rw [MetricFamily.read_update]
      by_cases same : [method] = labels <;> simp [same, sub_eq_add_neg]
    · intro labels member
      rcases MetricFamily.mem_update member with rfl | old
      · exact .inl rfl
      · exact .inr old

theorem start_spec {methods : List String} {metrics : RpcMetrics}
    (fixed : Fixed methods metrics) (path : String) :
    metrics.start path = .ok ({ metrics with
      inFlight := metrics.inFlight.update 0 [metrics.method path] (· + 1) },
      ⟨metrics.method path, false⟩) := by
  have done : GaugeVec.inc metrics.inFlight [metrics.method path] = _ :=
    GaugeVec.inc_ok fixed.inFlight.symm
  rw [RpcMetrics.start, done]
  rfl

/-! ## Every interleaving -/

/-- A call between two of its events or updates. -/
structure Sound (method : String) (call : Call) : Prop where
  holds : Holds method call.code call.phase
  once : call.posted ++ call.work = call.code.elim [] (updates method)

theorem updates_nodup (method code : String) : (updates method code).Nodup := by
  simp [updates]

/-- The next update of a call is its own and was not made before. -/
theorem Sound.next {method : String} {call : Call} (sound : Sound method call)
    {update : Update} {work : List Update} (left : call.work = update :: work) :
    (∃ code, update ∈ updates method code) ∧ update ∉ call.posted := by
  have once := sound.once
  rw [left] at once
  cases decided : call.code with
  | none =>
      rw [decided] at once
      simp at once
  | some code =>
      rw [decided] at once
      change call.posted ++ update :: work = updates method code at once
      refine ⟨⟨code, by rw [← once]; simp⟩, ?_⟩
      have distinct := updates_nodup method code
      rw [← once] at distinct
      exact fun old => (List.nodup_append.mp distinct).2.2 update old update (by simp) rfl

theorem mem_inFlight {method code other : String}
    (member : .inFlight [other] ∈ updates method code) : other = method := by
  simpa [updates] using member

theorem mem_labels {method code : String} {labels : List String}
    (member : .requests labels ∈ updates method code ∨ .duration labels ∈ updates method code) :
    labels = [method, code] := by
  simpa [updates] using member

structure Inv (methods : List String) (state : State) : Prop where
  fixed : Fixed methods state.metrics
  calls : ∀ call ∈ state.calls, Sound (state.metrics.method call.path) call
  requests : ∀ labels, state.metrics.requests.read 0 labels =
    state.calls.countP (Call.counted (.requests labels))
  duration : ∀ labels, (state.metrics.duration.stored labels).length =
    state.calls.countP (Call.counted (.duration labels))
  inFlight : ∀ method, state.metrics.inFlight.read 0 [method] =
    state.calls.countP (Call.unfinished state.metrics method)
  labels : ∀ labels, labels ∈ state.metrics.requests.values ∨
    labels ∈ state.metrics.duration.family.values →
    ∃ method code, labels = [method, code] ∧ MethodLabel methods method
  gaugeLabels : ∀ labels ∈ state.metrics.inFlight.values,
    ∃ method, labels = [method] ∧ MethodLabel methods method

theorem inv_init (methods : List String) : Inv methods ⟨.new methods, []⟩ where
  fixed := ⟨rfl, rfl, rfl, rfl⟩
  calls := by simp
  requests := by simp [RpcMetrics.new]
  duration := by simp [RpcMetrics.new, HistogramVec.stored]
  inFlight := by simp [RpcMetrics.new]
  labels := by simp [RpcMetrics.new, MetricFamily.register]
  gaugeLabels := by simp [RpcMetrics.new, MetricFamily.register]

section Step

variable {methods : List String} {state : State}

theorem inv_start (inv : Inv methods state) (path : String) :
    ∃ state', advance state (.start path) = some state' ∧ Inv methods state' := by
  refine ⟨_, by rw [advance, start_spec inv.fixed path]; rfl, ?_⟩
  have label := inv.fixed.methodLabel path
  refine ⟨⟨inv.fixed.requests, inv.fixed.duration, inv.fixed.inFlight, inv.fixed.methods⟩,
    ?_, ?_, ?_, ?_, inv.labels, ?_⟩
  · intro call member
    rcases List.mem_append.mp member with old | new
    · exact inv.calls call old
    · rw [List.mem_singleton.mp new]
      exact ⟨⟨rfl, rfl⟩, rfl⟩
  · intro labels
    simpa [Call.counted] using inv.requests labels
  · intro labels
    simpa [Call.counted] using inv.duration labels
  · intro method
    have before := inv.inFlight method
    have same : Call.unfinished { state.metrics with
        inFlight := state.metrics.inFlight.update 0 [state.metrics.method path] (· + 1) } method =
      Call.unfinished state.metrics method := rfl
    simp only [MetricFamily.read_update, same, List.countP_append, List.countP_singleton]
    by_cases mine : state.metrics.method path = method
    · simp [mine, before, Call.unfinished, Call.counted]
    · simp [mine, before, Call.unfinished, Call.counted]
  · intro labels member
    rcases MetricFamily.mem_update member with same | old
    · exact ⟨_, same, label⟩
    · exact inv.gaugeLabels labels old

theorem inv_event (inv : Inv methods state) {index : Nat} {event : Event} {state' : State}
    (taken : advance state (.event index event) = some state') : Inv methods state' := by
  simp only [advance, Option.bind_eq_bind, Option.bind_eq_some_iff] at taken
  obtain ⟨call, found, taken⟩ := taken
  split at taken
  · rename_i idle
    obtain ⟨⟨phase, work⟩, handled, moved⟩ := Option.bind_eq_some_iff.mp taken
    cases moved
    have sound := inv.calls call (List.mem_of_getElem? found)
    have after := handle_spec sound.holds handled
    have grown : (call.seen ++ [event]).findSome? Event.code = (call.code <|> event.code) := by
      rw [List.findSome?_append, Call.code]
      simp [List.findSome?_singleton]
    have quiet (p : Call → Bool) (same : p { call with
        phase := phase, work := work, seen := call.seen ++ [event] } = p call) :
        (state.calls.set index { call with
          phase := phase, work := work, seen := call.seen ++ [event] }).countP p =
          state.calls.countP p := by
      have moved := countP_set_add p found { call with
        phase := phase, work := work, seen := call.seen ++ [event] }
      rw [same] at moved
      omega
    refine ⟨inv.fixed, ?_, ?_, ?_, ?_, inv.labels, inv.gaugeLabels⟩
    · intro other member
      rcases List.mem_or_eq_of_mem_set member with old | new
      · exact inv.calls other old
      · subst new
        refine ⟨?_, ?_⟩
        · rw [Call.code, grown]
          exact after.1
        · have once := sound.once
          rw [idle, List.append_nil] at once
          rw [Call.code, grown, once, after.2]
          cases call.code <;> simp
    · intro labels
      rw [quiet _ rfl]
      exact inv.requests labels
    · intro labels
      rw [quiet _ rfl]
      exact inv.duration labels
    · intro method
      rw [quiet _ rfl]
      exact inv.inFlight method
  · cases taken

/-- An update is counted for the one call that makes it. -/
theorem countP_posted {calls : List Call} {index : Nat} {call : Call} {update : Update}
    (found : calls[index]? = some call) (fresh : update ∉ call.posted) (work : List Update)
    (other : Update) :
    (calls.set index { call with work := work, posted := call.posted ++ [update] }).countP
        (Call.counted other) =
      calls.countP (Call.counted other) + if update = other then 1 else 0 := by
  have moved := countP_set_add (Call.counted other) found
    { call with work := work, posted := call.posted ++ [update] }
  by_cases same : update = other
  · subst same
    simp only [Call.counted, List.contains_append, List.contains_cons] at moved ⊢
    simp [fresh] at moved
    simp [moved]
  · have different : (other == update) = false := by simpa using Ne.symm same
    simp only [Call.counted, List.contains_append, List.contains_cons, different] at moved ⊢
    simp at moved
    simp [moved, same]

theorem countP_unfinished (metrics : RpcMetrics) (method : String) {calls : List Call}
    {index : Nat} {call : Call} {update : Update} (found : calls[index]? = some call)
    (fresh : update ∉ call.posted) (work : List Update)
    (mine : update = .inFlight [method] → metrics.method call.path = method) :
    (calls.set index { call with work := work, posted := call.posted ++ [update] }).countP
        (Call.unfinished metrics method) + (if update = .inFlight [method] then 1 else 0) =
      calls.countP (Call.unfinished metrics method) := by
  have moved := countP_set_add (Call.unfinished metrics method) found
    { call with work := work, posted := call.posted ++ [update] }
  by_cases same : update = .inFlight [method]
  · have label := mine same
    subst same
    simp only [Call.unfinished, Call.counted, List.contains_append, List.contains_cons] at moved ⊢
    simp [fresh, label] at moved
    simp [moved]
  · have different : (.inFlight [method] == update) = false := by simpa using Ne.symm same
    simp only [Call.unfinished, Call.counted, List.contains_append, List.contains_cons,
      different] at moved ⊢
    simp at moved
    simp [moved, same]

theorem inv_post (inv : Inv methods state) {index : Nat} {call : Call} (elapsed : ℚ)
    (found : state.calls[index]? = some call) (busy : call.work ≠ []) :
    ∃ state', advance state (.post index elapsed) = some state' ∧ Inv methods state' := by
  obtain ⟨update, work, left⟩ := List.exists_cons_of_ne_nil busy
  have sound := inv.calls call (List.mem_of_getElem? found)
  obtain ⟨⟨code, mine⟩, fresh⟩ := sound.next left
  obtain ⟨metrics, done, fixed, posted⟩ := post_spec inv.fixed mine elapsed
  have same : ∀ path, metrics.method path = state.metrics.method path :=
    method_of_methods (fixed.methods.trans inv.fixed.methods.symm)
  have label := inv.fixed.methodLabel call.path
  refine ⟨⟨metrics, state.calls.set index
    { call with work := work, posted := call.posted ++ [update] }⟩, ?_, fixed, ?_, ?_, ?_, ?_,
    ?_, ?_⟩
  · simp [advance, found, left, done, Except.toOption]
  · intro other member
    rw [same]
    rcases List.mem_or_eq_of_mem_set member with old | new
    · exact inv.calls other old
    · subst new
      refine ⟨sound.holds, ?_⟩
      have once := sound.once
      rw [left] at once
      rw [List.append_assoc]
      exact once
  · intro labels
    rw [countP_posted found fresh, posted.requests labels, inv.requests labels]
    push_cast
    rfl
  · intro labels
    rw [countP_posted found fresh, posted.duration labels, inv.duration labels]
  · intro method
    have counted : Call.unfinished metrics method = Call.unfinished state.metrics method := by
      funext other
      rw [Call.unfinished, Call.unfinished, same]
    have left : (state.calls.countP (Call.unfinished state.metrics method) : ℚ) = _ :=
      congrArg Nat.cast (countP_unfinished state.metrics method found fresh work fun own => by
        subst own
        exact (mem_inFlight mine).symm).symm
    rw [counted, posted.inFlight, inv.inFlight, left]
    push_cast
    ring
  · intro labels member
    have origin : labels = [state.metrics.method call.path, code] ∨
        labels ∈ state.metrics.requests.values ∨
        labels ∈ state.metrics.duration.family.values := by
      rcases member with ofRequests | ofDuration
      · rcases posted.requestsLabels labels ofRequests with own | old
        · subst own
          exact .inl (mem_labels (.inl mine))
        · exact .inr (.inl old)
      · rcases posted.durationLabels labels ofDuration with own | old
        · subst own
          exact .inl (mem_labels (.inr mine))
        · exact .inr (.inr old)
    rcases origin with own | old
    · exact ⟨_, _, own, label⟩
    · exact inv.labels labels old
  · intro labels member
    rcases posted.inFlightLabels labels member with own | old
    · subst own
      simp only [updates, List.mem_cons, List.not_mem_nil, reduceCtorEq, Update.inFlight.injEq,
        or_false, false_or] at mine
      exact ⟨_, mine, label⟩
    · exact inv.gaugeLabels labels old

theorem inv_step (inv : Inv methods state) {action : Action} {state' : State}
    (taken : advance state action = some state') : Inv methods state' := by
  cases action with
  | start path =>
      obtain ⟨after, started, kept⟩ := inv_start inv path
      rw [started] at taken
      cases taken
      exact kept
  | event index event => exact inv_event inv taken
  | post index elapsed =>
      have taken' := taken
      simp only [advance, Option.bind_eq_bind, Option.bind_eq_some_iff] at taken'
      obtain ⟨call, found, taken'⟩ := taken'
      have busy : call.work ≠ [] := by
        intro idle
        rw [idle] at taken'
        cases taken'
      obtain ⟨after, posted, kept⟩ := inv_post inv elapsed found busy
      rw [posted] at taken
      cases taken
      exact kept

/-- With no call left unfinished the gauge of every method is back at zero. -/
theorem Inv.settled (inv : Inv methods state)
    (done : ∀ call ∈ state.calls, call.code.isSome ∧ call.work = []) (method : String) :
    state.metrics.inFlight.read 0 [method] = 0 := by
  rw [inv.inFlight, Nat.cast_eq_zero, List.countP_eq_zero]
  intro call member
  obtain ⟨decided, idle⟩ := done call member
  obtain ⟨code, found⟩ := Option.isSome_iff_exists.mp decided
  have once := (inv.calls call member).once
  rw [idle, List.append_nil, found] at once
  by_cases label : state.metrics.method call.path = method
  · simp [Call.unfinished, Call.counted, once, updates, label]
  · simp [Call.unfinished, label]

end Step

/-- In every interleaving of calls, each call makes its updates once, under the code
that its first deciding event gives it, and the gauges count the unfinished calls. -/
theorem calls_accounted_once (methods : List String) {state : State}
    (reach : (system methods).Reachable state) : Accounted methods state := by
  have inv : Inv methods state := by
    refine reach.invariant (inv_init methods) ?_
    intro before action after held _ taken
    exact inv_step held taken
  refine ⟨fun call member => (inv.calls call member).once, ?_, inv.requests, inv.duration,
    inv.inFlight, inv.settled, inv.labels, inv.gaugeLabels, ?_, ?_⟩
  · intro call member gone
    have holds := (inv.calls call member).holds
    rw [gone] at holds
    exact holds
  · intro path
    obtain ⟨after, started, _⟩ := inv_start inv path
    rw [started]
    rfl
  · intro index call elapsed found busy
    obtain ⟨after, posted, _⟩ := inv_post inv elapsed found busy
    rw [posted]
    rfl

/-- Two calls, one of a method that is not registered: trailers finish the first, and the
second ends with its future. -/
theorem two_calls_accounted : ∃ state,
    (system ["/users.Users/Get"]).Reachable state ∧ state.calls.map Call.code =
      [some "5", some "cancelled"] ∧ Accounted ["/users.Users/Get"] state := by
  have run : ((system ["/users.Users/Get"]).exec (system ["/users.Users/Get"]).init
      [.start "/users.Users/Get", .start "/attacker/value",
        .event 0 (.responded ⟨200, none⟩), .event 0 (.polled .data), .event 1 .abandoned,
        .event 0 (.polled (.trailers (some [53]))), .post 0 1, .post 1 2, .post 0 1]).map
          (fun state => state.calls.map Call.code) =
      some [some "5", some "cancelled"] := by
    decide +kernel
  obtain ⟨state, executed, ends⟩ := Option.map_eq_some_iff.mp run
  have reach := Lts.reachable_of_exec _ executed
  exact ⟨state, reach, ends, calls_accounted_once _ reach⟩

end RustZero.Rpc.Metrics
