import RustZero.Lib.Lts
import RustZero.Lib.Phases
import RustZero.Breaker

/-!
# The server circuit breaker

`ServerCircuitBreakerMiddleware` of `rest/src/middleware.rs`: one breaker per
route, a permit for every admitted request, and `ServerCircuitBody` around the
body of its response, which carries the permit until the body ends.  An outcome
is recorded by whichever comes first of the error branch of `call`, `poll_next`
and the `Drop` of the permit.

The server polls a body until it yields its end or an error, but drops a body
without polling it when its size says that it is empty.  `poll_next` then never
runs, so the outcome of an empty response is left to `Drop`:
`responses_counted` says that a request is counted as it should be exactly when
it was not answered by an empty body.

The policy of the breakers is a parameter (`BreakerMode`) with the consecutive
policy as an instance.  `System.log` is a ghost: every call of `record_outcome`,
which the counters of the breakers tally.
-/

namespace RustZero.ServerBreaker

open Lib
open Breaker (CircuitBreakerConfig CircuitOutcome ConsecutiveState OutcomeCounters
  beforeConsecutive recordConsecutive)

/-! ## Breakers -/

/-- `BreakerMode`: admission and recording at a time. -/
structure BreakerMode (σ : Type) where
  new : σ
  beforeCall : Nat → σ → Bool × σ
  record : Nat → σ → CircuitOutcome → σ

def BreakerMode.consecutive (cfg : CircuitBreakerConfig) : BreakerMode ConsecutiveState where
  new := .closed 0
  beforeCall := beforeConsecutive cfg
  record := recordConsecutive cfg

structure CircuitBreaker (σ : Type) where
  mode : σ
  counters : OutcomeCounters := {}

section Breaker

variable {σ : Type}

def CircuitBreaker.new (mode : BreakerMode σ) : CircuitBreaker σ where
  mode := mode.new

def CircuitBreaker.acquire (mode : BreakerMode σ) (now : Nat) (breaker : CircuitBreaker σ) :
    Bool × CircuitBreaker σ :=
  let (admitted, after) := mode.beforeCall now breaker.mode
  if admitted then (true, { breaker with mode := after })
  else (false, {
    mode := after
    counters := { breaker.counters with rejections := breaker.counters.rejections + 1 } })

def CircuitBreaker.recordOutcome (mode : BreakerMode σ) (now : Nat) (outcome : CircuitOutcome)
    (breaker : CircuitBreaker σ) : CircuitBreaker σ where
  mode := mode.record now breaker.mode outcome
  counters := breaker.counters.record outcome

end Breaker

/-- The counter of an outcome. -/
def count (counters : OutcomeCounters) : CircuitOutcome → Nat
  | .success => counters.successes
  | .failure => counters.failures
  | .cancellation => counters.cancellations

/-- A breaker that is asked counts a refusal. -/
theorem counters_of_acquire {σ : Type} {mode : BreakerMode σ} {breaker after : CircuitBreaker σ}
    {now : Nat} {admits : Bool}
    (acquired : breaker.acquire mode now = (admits, after)) :
    after.counters = { breaker.counters with
      rejections := breaker.counters.rejections + if admits then 0 else 1 } := by
  simp only [CircuitBreaker.acquire] at acquired
  split at acquired
  · cases acquired
    rfl
  · cases acquired
    rfl

/-! ## Bodies -/

inductive BodySize where
  | none
  | sized (bytes : Nat)
  | stream
  deriving DecidableEq, Repr

/-- The sizes of bodies that the server drops without polling. -/
def BodySize.isEof : BodySize → Bool
  | .none | .sized 0 => true
  | _ => false

/-- What the inner body answers to `poll_next`. -/
inductive Poll where
  | pending
  | bytes (chunk : List UInt8)
  | error
  | finished
  deriving DecidableEq, Repr

/-- `ServerCircuitBody`; a permit is the route of its breaker. -/
structure ServerCircuitBody where
  size : BodySize
  permit : Option String
  outcome : CircuitOutcome
  deriving DecidableEq, Repr

/-- `http_status_outcome`. -/
def httpStatusOutcome (status : Nat) : CircuitOutcome :=
  if 500 ≤ status ∧ status < 600 then .failure else .success

/-! ## Requests -/

/-- How an admitted request ended. -/
inductive Fate where
  /-- The response was completely sent. -/
  | sent (status : Nat) (size : BodySize)
  | handlerError
  | bodyError
  /-- The client or the server dropped the handler or the body. -/
  | abandoned
  deriving DecidableEq, Repr

inductive Phase where
  | idle
  | rejected
  /-- The permit is in the future of `call`. -/
  | handling (route : String)
  | sending (status : Nat) (body : ServerCircuitBody)
  /-- The body yielded its end or an error and is not dropped yet. -/
  | ended (fate : Fate) (body : ServerCircuitBody)
  | closed (fate : Fate)
  deriving DecidableEq, Repr

def Phase.fate : Phase → Option Fate
  | .ended fate _ | .closed fate => some fate
  | _ => none

/-- A call of `record_outcome` on the breaker of a route. -/
structure Record (ι : Type) where
  route : String
  request : ι
  outcome : CircuitOutcome

section System

variable {ι σ : Type}

structure System (ι σ : Type) where
  byRoute : String → Option (CircuitBreaker σ)
  now : Nat
  requests : ι → Phase
  /-- Ghost: the recorded outcomes, newest first. -/
  log : List (Record ι)

inductive Action (ι : Type) where
  | call (request : ι) (method : String) (pattern : Option String)
  /-- The handler returns a response. -/
  | respond (request : ι) (status : Nat) (size : BodySize)
  /-- The handler returns an error. -/
  | fail (request : ι)
  | pollNext (request : ι) (result : Poll)
  /-- The server is done with a response without a body to poll. -/
  | skipBody (request : ι)
  | dropBody (request : ι)
  | abandon (request : ι)
  | advance (elapsed : Nat)

variable [DecidableEq ι]

/-- `record_outcome` on the breaker of a route. -/
def record (mode : BreakerMode σ) (s : System ι σ) (route : String) (request : ι)
    (outcome : CircuitOutcome) : System ι σ :=
  { s with
    byRoute := Function.update s.byRoute route
      ((s.byRoute route).map (·.recordOutcome mode s.now outcome))
    log := ⟨route, request, outcome⟩ :: s.log }

/-- `ServerCircuitBody::finish`. -/
def finish (mode : BreakerMode σ) (s : System ι σ) (request : ι) (body : ServerCircuitBody)
    (outcome : CircuitOutcome) : System ι σ × ServerCircuitBody :=
  match body.permit with
  | none => (s, body)
  | some route => (record mode s route request outcome, { body with permit := none })

/-- The drop of a body, with the `Drop` of a permit that is still in it. -/
def dropBody (mode : BreakerMode σ) (s : System ι σ) (request : ι) (body : ServerCircuitBody) :
    System ι σ :=
  match body.permit with
  | none => s
  | some route => record mode s route request .cancellation

def phase (s : System ι σ) (request : ι) (next : Phase) : System ι σ :=
  { s with requests := Function.update s.requests request next }

/-- The breaker of a route, made on the first use. -/
def breakerOf (mode : BreakerMode σ) (s : System ι σ) (route : String) : CircuitBreaker σ :=
  (s.byRoute route).getD (CircuitBreaker.new mode)

/-- The part of `call` before the handler runs. -/
def call (mode : BreakerMode σ) (s : System ι σ) (request : ι) (method : String)
    (pattern : Option String) : System ι σ :=
  let route := method ++ " " ++ pattern.getD "<unmatched>"
  let (admitted, breaker) := (breakerOf mode s route).acquire mode s.now
  phase { s with byRoute := Function.update s.byRoute route (some breaker) } request
    (if admitted then .handling route else .rejected)

/-- `poll_next` with the answer of the inner body, as the server goes on from it. -/
def pollNext (mode : BreakerMode σ) (s : System ι σ) (request : ι) (status : Nat)
    (body : ServerCircuitBody) : Poll → System ι σ
  | .finished =>
      let (s', body') := finish mode s request body body.outcome
      phase s' request (.ended (.sent status body.size) body')
  | .error =>
      let (s', body') := finish mode s request body .failure
      phase s' request (.ended .bodyError body')
  | .pending | .bytes _ => s

def step (mode : BreakerMode σ) (s : System ι σ) : Action ι → Option (System ι σ)
  | .call request method pattern =>
      match s.requests request with
      | .idle => some (call mode s request method pattern)
      | _ => none
  | .respond request status size =>
      match s.requests request with
      | .handling route => some (phase s request
          (.sending status ⟨size, some route, httpStatusOutcome status⟩))
      | _ => none
  | .fail request =>
      match s.requests request with
      | .handling route =>
          some (phase (record mode s route request .failure) request (.closed .handlerError))
      | _ => none
  | .pollNext request result =>
      match s.requests request with
      | .sending status body =>
          if body.size.isEof then none else some (pollNext mode s request status body result)
      | _ => none
  | .skipBody request =>
      match s.requests request with
      | .sending status body =>
          if body.size.isEof then
            some (phase (dropBody mode s request body) request (.closed (.sent status body.size)))
          else none
      | _ => none
  | .dropBody request =>
      match s.requests request with
      | .ended fate body => some (phase (dropBody mode s request body) request (.closed fate))
      | _ => none
  | .abandon request =>
      match s.requests request with
      | .handling route =>
          some (phase (record mode s route request .cancellation) request (.closed .abandoned))
      | .sending _ body =>
          some (phase (dropBody mode s request body) request (.closed .abandoned))
      | _ => none
  | .advance elapsed => some { s with now := s.now + elapsed }

/-- Every interleaving of requests through the middleware. -/
def lts (ι : Type) [DecidableEq ι] (mode : BreakerMode σ) : Lts (System ι σ) (Action ι) where
  init := {
    byRoute := fun _ => none
    now := 0
    requests := fun _ => .idle
    log := [] }
  step := step mode

/-! ## Counted requests -/

/-- The outcomes recorded for a request. -/
def outcomes (s : System ι σ) (request : ι) : List CircuitOutcome :=
  (s.log.filter fun entry => entry.request = request).map Record.outcome

/-- A response that was sent counts once by its status, an error counts once as a
failure, and only an abandoned request is a cancellation. -/
structure Counted (s : System ι σ) (request : ι) : Prop where
  sent : ∀ status size, (s.requests request).fate = some (.sent status size) →
    outcomes s request = [httpStatusOutcome status]
  failed : (s.requests request).fate = some .handlerError ∨
    (s.requests request).fate = some .bodyError → outcomes s request = [.failure]
  cancelled : .cancellation ∈ outcomes s request →
    (s.requests request).fate = some .abandoned

/-! ## The account of a request -/

variable {mode : BreakerMode σ} {s s' : System ι σ} {a : Action ι} {request : ι} {route : String}
  {outcome : CircuitOutcome} {next : Phase}

/-- The outcome the middleware records for a request that ended. -/
def Fate.recorded : Fate → CircuitOutcome
  | .sent status size => if size.isEof then .cancellation else httpStatusOutcome status
  | .handlerError | .bodyError => .failure
  | .abandoned => .cancellation

/-- The permit of a request is unused and of a breaker in the map until the
request ends, and its one outcome is recorded from then on. -/
def Accounted (byRoute : String → Option (CircuitBreaker σ)) :
    Phase → List CircuitOutcome → Prop
  | .idle, recorded | .rejected, recorded => recorded = []
  | .handling route, recorded => recorded = [] ∧ (byRoute route).isSome
  | .sending status body, recorded => recorded = [] ∧
      body.outcome = httpStatusOutcome status ∧
      ∃ route, body.permit = some route ∧ (byRoute route).isSome
  | .ended fate body, recorded => recorded = [fate.recorded] ∧ body.permit = none
  | .closed fate, recorded => recorded = [fate.recorded]

structure Inv (s : System ι σ) : Prop where
  accounted : ∀ request, Accounted s.byRoute (s.requests request) (outcomes s request)
  tallied : ∀ route outcome,
    (s.byRoute route).elim 0 (fun breaker => count breaker.counters outcome) =
      s.log.countP fun entry => entry.route = route ∧ entry.outcome = outcome

omit [DecidableEq ι] in
/-- Breakers stay in the map. -/
theorem Accounted.mono {byRoute byRoute' : String → Option (CircuitBreaker σ)}
    {recorded : List CircuitOutcome} (accounted : Accounted byRoute next recorded)
    (kept : ∀ route, (byRoute route).isSome → (byRoute' route).isSome) :
    Accounted byRoute' next recorded := by
  cases next with
  | idle => exact accounted
  | rejected => exact accounted
  | handling route => exact ⟨accounted.1, kept route accounted.2⟩
  | sending status body =>
      obtain ⟨empty, status, route, permit, known⟩ := accounted
      exact ⟨empty, status, route, permit, kept route known⟩
  | ended fate body => exact accounted
  | closed fate => exact accounted

theorem outcomes_record_self :
    outcomes (record mode s route request outcome) request = outcome :: outcomes s request := by
  simp [outcomes, record]

theorem outcomes_record_of_ne {other : ι} (different : other ≠ request) :
    outcomes (record mode s route request outcome) other = outcomes s other := by
  simp [outcomes, record, Ne.symm different]

omit [DecidableEq ι] in
theorem isSome_record {other : String} (known : (s.byRoute other).isSome) :
    ((record mode s route request outcome).byRoute other).isSome := by
  by_cases mine : other = route
  · subst mine
    simpa [record] using known
  · simpa [record, Function.update_of_ne mine] using known

@[simp] theorem count_record (counters : OutcomeCounters) (outcome other : CircuitOutcome) :
    count (counters.record outcome) other =
      count counters other + if outcome = other then 1 else 0 := by
  cases outcome <;> cases other <;> rfl

@[simp] theorem outcomes_phase (other : ι) :
    outcomes (phase s request next) other = outcomes s other :=
  rfl

/-- A request moves and records nothing. -/
theorem Inv.move (inv : Inv s) (accounted : Accounted s.byRoute next (outcomes s request)) :
    Inv (phase s request next) where
  accounted := by
    intro other
    simp only [phase]
    by_cases mine : other = request
    · subst mine
      rw [Function.update_self]
      exact accounted
    · rw [Function.update_of_ne mine]
      exact inv.accounted other
  tallied := inv.tallied

/-- A request uses its permit and ends. -/
theorem Inv.settle (inv : Inv s) (unused : outcomes s request = [])
    (known : (s.byRoute route).isSome) (accounted : Accounted s.byRoute next [outcome]) :
    Inv (phase (record mode s route request outcome) request next) := by
  have kept : ∀ other, (s.byRoute other).isSome →
      ((record mode s route request outcome).byRoute other).isSome :=
    fun _ => isSome_record
  constructor
  · intro other
    by_cases mine : other = request
    · subst mine
      have total : outcomes (phase (record mode s route other outcome) other next) other =
          [outcome] := by
        rw [outcomes_phase, outcomes_record_self, unused]
      rw [total]
      simp only [phase, Function.update_self]
      exact accounted.mono kept
    · rw [outcomes_phase, outcomes_record_of_ne mine]
      simp only [phase, Function.update_of_ne mine]
      exact (inv.accounted other).mono kept
  · intro other label
    have before := inv.tallied other label
    by_cases mine : other = route
    · subst mine
      obtain ⟨breaker, found⟩ := Option.isSome_iff_exists.mp known
      simp only [found, Option.elim_some] at before
      simp [phase, record, found, CircuitBreaker.recordOutcome, before, List.countP_cons]
    · simp only [phase, record, Function.update_of_ne mine, List.countP_cons, before]
      simp [Ne.symm mine]

/-! ## Steps -/

theorem init_inv (mode : BreakerMode σ) : Inv (lts ι mode).init where
  accounted := fun _ => rfl
  tallied := fun _ _ => rfl

omit [DecidableEq ι] in
/-- Admission leaves the counters of outcomes alone. -/
theorem count_acquire (mode : BreakerMode σ) (now : Nat) (breaker : CircuitBreaker σ)
    (outcome : CircuitOutcome) :
    count (breaker.acquire mode now).2.counters outcome = count breaker.counters outcome := by
  simp only [CircuitBreaker.acquire]
  split
  · rfl
  · cases outcome with
    | success => rfl
    | failure => rfl
    | cancellation => rfl

/-- A breaker is made or admits. -/
theorem Inv.acquire (inv : Inv s) (mode : BreakerMode σ) (route : String) :
    Inv { s with
      byRoute := Function.update s.byRoute route
        (some ((breakerOf mode s route).acquire mode s.now).2) } where
  accounted := by
    intro request
    refine (inv.accounted request).mono ?_
    intro other known
    by_cases mine : other = route
    · subst mine
      simp
    · simpa [Function.update_of_ne mine] using known
  tallied := by
    intro other outcome
    rw [← inv.tallied other outcome]
    by_cases mine : other = route
    · subst mine
      simp only [Function.update_self, Option.elim_some, count_acquire, breakerOf]
      cases s.byRoute other with
      | none => cases outcome <;> rfl
      | some breaker => rfl
    · simp only [Function.update_of_ne mine]

theorem Inv.call (inv : Inv s) (idle : s.requests request = .idle) (method : String)
    (pattern : Option String) : Inv (call mode s request method pattern) := by
  have empty : outcomes s request = [] := by
    have := inv.accounted request
    rwa [idle] at this
  refine (inv.acquire mode _).move ?_
  split
  · exact ⟨empty, by simp⟩
  · exact empty

/-- A body that is dropped with its permit. -/
theorem Inv.cancel (inv : Inv s) {status : Nat} {body : ServerCircuitBody}
    (sending : s.requests request = .sending status body) {fate : Fate}
    (cancelled : fate.recorded = .cancellation) :
    Inv (phase (dropBody mode s request body) request (.closed fate)) := by
  have accounted := inv.accounted request
  rw [sending] at accounted
  obtain ⟨empty, _, route, permit, known⟩ := accounted
  simp only [dropBody, permit]
  refine inv.settle empty known ?_
  rw [Accounted, cancelled]

/-- The end of a polled body, or its error. -/
theorem Inv.pollNext (inv : Inv s) {status : Nat} {body : ServerCircuitBody}
    (sending : s.requests request = .sending status body) (polled : body.size.isEof = false)
    (result : Poll) : Inv (pollNext mode s request status body result) := by
  have accounted := inv.accounted request
  rw [sending] at accounted
  obtain ⟨empty, expected, route, permit, known⟩ := accounted
  cases result with
  | pending => exact inv
  | bytes chunk => exact inv
  | error =>
      simp only [ServerBreaker.pollNext, finish, permit]
      exact inv.settle empty known ⟨rfl, rfl⟩
  | finished =>
      simp only [ServerBreaker.pollNext, finish, permit]
      refine inv.settle empty known ⟨?_, rfl⟩
      simp [Fate.recorded, polled, expected]

theorem Inv.step (inv : Inv s) (taken : step mode s a = some s') : Inv s' := by
  cases a with
  | call request method pattern =>
      simp only [ServerBreaker.step] at taken
      split at taken
      · rename_i idle
        cases taken
        exact inv.call idle method pattern
      · cases taken
  | respond request status size =>
      simp only [ServerBreaker.step] at taken
      split at taken
      · rename_i route handling
        cases taken
        have accounted := inv.accounted request
        rw [handling] at accounted
        exact inv.move ⟨accounted.1, rfl, route, rfl, accounted.2⟩
      · cases taken
  | fail request =>
      simp only [ServerBreaker.step] at taken
      split at taken
      · rename_i route handling
        cases taken
        have accounted := inv.accounted request
        rw [handling] at accounted
        exact inv.settle accounted.1 accounted.2 rfl
      · cases taken
  | pollNext request result =>
      simp only [ServerBreaker.step] at taken
      split at taken
      · rename_i status body sending
        split at taken
        · cases taken
        · rename_i polled
          cases taken
          exact inv.pollNext sending (Bool.eq_false_iff.mpr polled) result
      · cases taken
  | skipBody request =>
      simp only [ServerBreaker.step] at taken
      split at taken
      · rename_i status body sending
        split at taken
        · rename_i skipped
          cases taken
          exact inv.cancel sending (by rw [Fate.recorded, if_pos skipped])
        · cases taken
      · cases taken
  | dropBody request =>
      simp only [ServerBreaker.step] at taken
      split at taken
      · rename_i fate body ended
        cases taken
        have accounted := inv.accounted request
        rw [ended] at accounted
        obtain ⟨recorded, spent⟩ := accounted
        simp only [ServerBreaker.dropBody, spent]
        exact inv.move recorded
      · cases taken
  | abandon request =>
      simp only [ServerBreaker.step] at taken
      split at taken
      · rename_i route handling
        cases taken
        have accounted := inv.accounted request
        rw [handling] at accounted
        exact inv.settle accounted.1 accounted.2 rfl
      · rename_i status body sending
        cases taken
        exact inv.cancel sending rfl
      · cases taken
  | advance elapsed =>
      cases taken
      exact ⟨inv.accounted, inv.tallied⟩

theorem inv_of_reachable (reach : (lts ι mode).Reachable s) : Inv s :=
  reach.invariant (init_inv mode) fun _ _ _ inv _ taken => inv.step taken

/-- What is recorded for a request that ended, and nothing before. -/
theorem Inv.outcomes_eq (inv : Inv s) (request : ι) :
    outcomes s request = ((s.requests request).fate.map Fate.recorded).toList := by
  have accounted := inv.accounted request
  cases here : s.requests request with
  | idle => rwa [here] at accounted
  | rejected => rwa [here] at accounted
  | handling route =>
      rw [here] at accounted
      exact accounted.1
  | sending status body =>
      rw [here] at accounted
      exact accounted.1
  | ended fate body =>
      rw [here] at accounted
      exact accounted.1
  | closed fate => rwa [here] at accounted

/-- In every run the counters of the breakers tally the recorded outcomes, and a
request is counted as it should be if and only if its response, once sent, had a
body to poll. -/
theorem responses_counted (mode : BreakerMode σ) (s : System ι σ)
    (reach : (lts ι mode).Reachable s) :
    (∀ route outcome,
      (s.byRoute route).elim 0 (fun breaker => count breaker.counters outcome) =
        s.log.countP fun entry => entry.route = route ∧ entry.outcome = outcome) ∧
    ∀ request, Counted s request ↔
      ∀ status size, (s.requests request).fate = some (.sent status size) →
        size.isEof = false := by
  have inv := inv_of_reachable reach
  refine ⟨inv.tallied, ?_⟩
  intro request
  have recorded := inv.outcomes_eq request
  constructor
  · intro counted status size sent
    -- An empty response would be in the log as a cancellation.
    by_contra empty
    rw [Bool.not_eq_false] at empty
    rw [sent] at recorded
    have cancelled : .cancellation ∈ outcomes s request := by
      simp [recorded, Fate.recorded, empty]
    have abandoned := counted.cancelled cancelled
    rw [sent] at abandoned
    cases abandoned
  · intro polled
    constructor
    · intro status size sent
      rw [recorded, sent]
      simp [Fate.recorded, polled status size sent]
    · intro failed
      rcases failed with fate | fate
      · rw [recorded, fate]
        rfl
      · rw [recorded, fate]
        rfl
    · intro cancelled
      rw [recorded] at cancelled
      cases fate : (s.requests request).fate with
      | none =>
          rw [fate] at cancelled
          cases cancelled
      | some ended =>
          rw [fate] at cancelled
          have same := List.mem_singleton.mp cancelled
          cases ended with
          | sent status size =>
              rw [Fate.recorded, polled status size fate, if_neg (by decide),
                httpStatusOutcome] at same
              split at same
              · cases same
              · cases same
          | handlerError => cases same
          | bodyError => cases same
          | abandoned => rfl

end System

/-- A server error with a body of six bytes opens a breaker that tolerates one
failure. -/
theorem responses_counted_failure :
    ∃ s : System Unit ConsecutiveState,
      (s.requests ()).fate = some (.sent 500 (.sized 6)) ∧ outcomes s () = [.failure] ∧
      (s.byRoute "GET /fail").map CircuitBreaker.mode = some (.opened 0) := by
  have sent : ∃ s : System Unit ConsecutiveState,
      (lts Unit (.consecutive ⟨1, 60000, 1⟩)).Reachable s ∧
      (s.requests ()).fate = some (.sent 500 (.sized 6)) ∧
      (s.byRoute "GET /fail").map CircuitBreaker.mode = some (.opened 0) :=
    ⟨_, Lts.reachable_of_exec [.call () "GET" (some "/fail"), .respond () 500 (.sized 6),
      .pollNext () .pending, .pollNext () (.bytes [102, 97, 105, 108, 101, 100]),
      .pollNext () .finished, .dropBody ()] rfl, by decide, by decide⟩
  obtain ⟨s, reach, fate, opened⟩ := sent
  refine ⟨s, fate, ?_, opened⟩
  have counted := ((responses_counted (.consecutive ⟨1, 60000, 1⟩) s reach).2 ()).mpr (by
    intro status size same
    rw [fate] at same
    cases same
    rfl)
  exact counted.sent 500 (.sized 6) fate

/-- The same error without a body is a cancellation, and the breaker stays
closed. -/
theorem empty_response_is_cancellation :
    ∃ s : System Unit ConsecutiveState,
      (lts Unit (.consecutive ⟨1, 60000, 1⟩)).Reachable s ∧
      (s.requests ()).fate = some (.sent 500 (.sized 0)) ∧ outcomes s () = [.cancellation] ∧
      ¬ Counted s () ∧
      (s.byRoute "GET /fail").map CircuitBreaker.mode = some (.closed 0) := by
  have sent : ∃ s : System Unit ConsecutiveState,
      (lts Unit (.consecutive ⟨1, 60000, 1⟩)).Reachable s ∧
      (s.requests ()).fate = some (.sent 500 (.sized 0)) ∧ outcomes s () = [.cancellation] ∧
      (s.byRoute "GET /fail").map CircuitBreaker.mode = some (.closed 0) :=
    ⟨_, Lts.reachable_of_exec [.call () "GET" (some "/fail"), .respond () 500 (.sized 0),
      .skipBody ()] rfl, by decide, by decide, by decide⟩
  obtain ⟨s, reach, fate, recorded, closed⟩ := sent
  refine ⟨s, reach, fate, recorded, ?_, closed⟩
  intro counted
  have expected := counted.sent 500 (.sized 0) fate
  rw [recorded] at expected
  cases expected

end RustZero.ServerBreaker
