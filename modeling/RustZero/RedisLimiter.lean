import RustZero.Lib.Lts
import RustZero.Lib.Phases

/-!
# Redis-backed limiters

`RedisTokenLimiter` and `RedisPeriodLimiter` of `core/src/limit.rs`.  Both keep
a `RedisLimiterMonitor` of four states beside their script: a take asks the
monitor whether to try Redis, awaits the script, and reports how that went; when
it does not try or does not succeed it asks a process-local rescue limiter.

The cells of the monitor are atomics, so every load, compare-exchange, swap and
store of `should_attempt_redis`, `redis_success` and `redis_failure` that the
control flow depends on is a step of its own (`Action`), and takes interleave
between them.  A take's future may be dropped while it awaits Redis.  The wall
clock, which the monitor reads, may be set to anything; the monotonic clock of
the token bucket only advances.

* `Limiter` is what differs between the two limiters: the check before the
  monitor is asked and the rescue limiter.
* The scripts run at Redis; their replies are arbitrary here.
* `TokenLimiter`, the rescue bucket of the token limiter, computes in floating
  point and is a parameter; `BoundedPeriodLimiter` is modelled.
-/

namespace RustZero.RedisLimiter

open Lib

/-! ## Decisions -/

/-- Durations are nanoseconds. -/
abbrev Duration := Nat

def u64Max : Nat := 2 ^ 64 - 1

/-- `Duration::MAX`. -/
def Duration.max : Duration := u64Max * 10 ^ 9 + 999999999

def Duration.fromMillis (millis : Nat) : Duration := millis * 10 ^ 6

def Duration.asMillis (duration : Duration) : Nat := duration / 10 ^ 6

def durationFromMillisSaturating (millis : Nat) : Duration :=
  Duration.fromMillis (min millis u64Max)

inductive LimitDecision where
  | allowed
  | hitQuota
  | overQuota (retryAfter : Duration)
  deriving DecidableEq, Repr

/-- `parse_redis_decision`; the error is the text of `UnexpectedResponse`. -/
def parseRedisDecision (response : List Int) : Except String LimitDecision :=
  match response with
  | [outcome, retryAfter] =>
      if outcome = 0 then .ok .allowed
      else if outcome = 1 then .ok .hitQuota
      else if outcome = 2 ∧ 0 ≤ retryAfter then
        .ok (.overQuota (Duration.fromMillis retryAfter.toNat))
      else .error s!"limiter script returned {response}"
  | _ => .error s!"limiter script returned {response}"

/-- The reply of Redis to `TIME`. -/
structure RedisTime where
  seconds : Nat
  micros : Nat
  micros_lt : micros < 10 ^ 6

/-- The milliseconds that the scripts compute from it. -/
def RedisTime.millis (time : RedisTime) : Nat := time.seconds * 1000 + time.micros / 1000

/-! ## The monitor -/

/-- `backend_state`, in the order of its values 0 to 3. -/
inductive BackendState where
  | notObserved
  | available
  | unavailable
  /-- A recovery probe is in flight. -/
  | probing
  deriving DecidableEq, Repr

structure DecisionCounters where
  allowed : Nat := 0
  hitQuota : Nat := 0
  overQuota : Nat := 0
  deriving DecidableEq, Repr

/-- `decision_counter`. -/
def DecisionCounters.count (counters : DecisionCounters) : LimitDecision → DecisionCounters
  | .allowed => { counters with allowed := counters.allowed + 1 }
  | .hitQuota => { counters with hitQuota := counters.hitQuota + 1 }
  | .overQuota _ => { counters with overQuota := counters.overQuota + 1 }

structure RedisLimiterMonitor where
  backendState : BackendState := .notObserved
  nextProbeAtMs : Nat := 0
  backendFailures : Nat := 0
  backendRecoveries : Nat := 0
  redis : DecisionCounters := {}
  rescue : DecisionCounters := {}
  deriving DecidableEq, Repr

/-- `unix_millis_u64` when the wall clock shows `now` milliseconds. -/
def unixMillisU64 (now : Nat) : Nat := min now u64Max

/-- `redis_success`: the swap and the counters that follow it. -/
def RedisLimiterMonitor.redisSuccess (monitor : RedisLimiterMonitor) (decision : LimitDecision) :
    RedisLimiterMonitor :=
  { monitor with
    backendState := .available
    backendRecoveries :=
      match monitor.backendState with
      | .unavailable | .probing => monitor.backendRecoveries + 1
      | _ => monitor.backendRecoveries
    redis := monitor.redis.count decision }

/-- The first store of `redis_failure`. -/
def RedisLimiterMonitor.storeProbeTime (monitor : RedisLimiterMonitor) (now interval : Nat) :
    RedisLimiterMonitor :=
  { monitor with nextProbeAtMs := min (unixMillisU64 now + interval) u64Max }

/-- The second store of `redis_failure`. -/
def RedisLimiterMonitor.storeUnavailable (monitor : RedisLimiterMonitor) : RedisLimiterMonitor :=
  { monitor with
    backendState := .unavailable
    backendFailures := monitor.backendFailures + 1 }

/-- `should_attempt_redis` run without interruption. -/
def RedisLimiterMonitor.shouldAttemptRedis (monitor : RedisLimiterMonitor) (now : Nat) :
    Bool × RedisLimiterMonitor :=
  match monitor.backendState with
  | .notObserved | .available => (true, monitor)
  | .unavailable =>
      if monitor.nextProbeAtMs ≤ unixMillisU64 now then
        (true, { monitor with backendState := .probing })
      else (false, monitor)
  | .probing => (false, monitor)

/-! ## The two limiters -/

/-- What a take does before it asks the monitor. -/
inductive Entry where
  | proceed
  | decide (decision : LimitDecision)
  | panic
  deriving DecidableEq, Repr

structure Clocks where
  /-- `SystemTime`, in milliseconds. -/
  wall : Nat := 0
  /-- `Instant`, in nanoseconds. -/
  monotonic : Nat := 0
  deriving DecidableEq, Repr

/-- A take's request of type `Req` and a rescue limiter with state `R`; `rescue`
is `none` when it panics. -/
structure Limiter (Req R : Type) where
  entry : Req → Entry
  rescue : R → Clocks → Req → Option (LimitDecision × R)
  recoveryProbeIntervalMs : Nat

/-- `RedisTokenLimiter` as far as its process goes; a request is a number of
permits. -/
def RedisTokenLimiter {R : Type} (burst recoveryProbeIntervalMs : Nat)
    (tokenLimiterTake : R → Nat → Nat → Option (LimitDecision × R)) : Limiter Nat R where
  entry := fun permits =>
    if permits = 0 then .panic
    else if burst < permits then .decide (.overQuota Duration.max)
    else .proceed
  rescue := fun bucket clocks permits => tokenLimiterTake bucket clocks.monotonic permits
  recoveryProbeIntervalMs := recoveryProbeIntervalMs

structure PeriodWindow where
  used : Nat
  window : Nat
  deriving DecidableEq, Repr

structure BoundedPeriodLimiter where
  period : Duration
  quota : Nat
  maxKeys : Nat

/-- The windows by key; no key occurs twice. -/
abbrev Windows := List (String × PeriodWindow)

def Windows.insert (windows : Windows) (key : String) (window : PeriodWindow) : Windows :=
  (key, window) :: windows.filter fun entry => entry.1 ≠ key

/-- The part of `BoundedPeriodLimiter::take` after the capacity check. -/
def BoundedPeriodLimiter.use (limiter : BoundedPeriodLimiter) (windows : Windows) (key : String)
    (currentWindow : Nat) (retryAfter : Duration) : LimitDecision × Windows :=
  let stored := (windows.lookup key).getD ⟨0, currentWindow⟩
  let window := if stored.window = currentWindow then stored else ⟨0, currentWindow⟩
  if limiter.quota ≤ window.used then (.overQuota retryAfter, windows.insert key window)
  else
    let used := window.used + 1
    (if used = limiter.quota then .hitQuota else .allowed,
      windows.insert key { window with used := used })

/-- `BoundedPeriodLimiter::take`; a period below one millisecond divides by
zero. -/
def BoundedPeriodLimiter.take (limiter : BoundedPeriodLimiter) (windows : Windows) (now : Nat)
    (key : String) : Option (LimitDecision × Windows) :=
  let period := limiter.period.asMillis
  if period = 0 then none
  else
    let currentWindow := now / period
    let retryAfter := durationFromMillisSaturating ((currentWindow + 1) * period - now)
    if (windows.lookup key).isNone ∧ limiter.maxKeys ≤ windows.length then
      let windows := windows.filter fun entry => entry.2.window = currentWindow
      if limiter.maxKeys ≤ windows.length then some (.overQuota retryAfter, windows)
      else some (limiter.use windows key currentWindow retryAfter)
    else some (limiter.use windows key currentWindow retryAfter)

/-- `RedisPeriodLimiter` as far as its process goes; a request is a key, which
the rescue limiter sees hashed. -/
def RedisPeriodLimiter (rescue : BoundedPeriodLimiter) (recoveryProbeIntervalMs : Nat)
    (hexDigest : String → String) : Limiter String Windows where
  entry := fun _ => .proceed
  rescue := fun windows clocks key => rescue.take windows clocks.wall (hexDigest key)
  recoveryProbeIntervalMs := recoveryProbeIntervalMs

/-! ## Takes -/

/-- How far a take has come.  `probe` marks takes admitted by the compare-exchange
of `unavailable` to `probing`. -/
inductive Take (Req : Type) where
  | idle
  /-- `should_attempt_redis` has loaded `unavailable`. -/
  | observed (request : Req)
  /-- It has read the clock. -/
  | timed (request : Req) (now : Nat)
  /-- The probe is due; the compare-exchange is next. -/
  | due (request : Req)
  | awaiting (request : Req) (probe : Bool)
  | succeeded (decision : LimitDecision) (probe : Bool)
  | failed (request : Req) (probe : Bool)
  /-- `redis_failure` has stored the next probe time. -/
  | rearmed (request : Req) (probe : Bool)
  | rescuing (request : Req)
  | returned (decision : LimitDecision)
  | panicked
  | dropped
  deriving DecidableEq, Repr

structure System (ι Req R : Type) where
  monitor : RedisLimiterMonitor
  rescue : R
  clocks : Clocks
  takes : ι → Take Req

inductive Action (ι Req : Type) where
  /-- The take begins, up to the first load of `backend_state`. -/
  | begin (call : ι) (request : Req)
  | readClock (call : ι)
  | loadProbeTime (call : ι)
  | compareExchange (call : ι)
  /-- The script's reply, or the error of `eval`. -/
  | reply (call : ι) (response : Except String (List Int))
  | redisSuccess (call : ι)
  | storeProbeTime (call : ι)
  | storeUnavailable (call : ι)
  | rescue (call : ι)
  /-- The future is dropped at its only await. -/
  | drop (call : ι)
  | setClock (now : Nat)
  | advance (elapsed : Nat)

section Step

variable {ι Req R : Type} [DecidableEq ι]

/-- Move one take. -/
def System.move (s : System ι Req R) (call : ι) (take : Take Req) : System ι Req R :=
  { s with takes := Function.update s.takes call take }

def begin (limiter : Limiter Req R) (s : System ι Req R) (call : ι) (request : Req) :
    System ι Req R :=
  match limiter.entry request with
  | .panic => s.move call .panicked
  | .decide decision => s.move call (.returned decision)
  | .proceed =>
      match s.monitor.backendState with
      | .notObserved | .available => s.move call (.awaiting request false)
      | .unavailable => s.move call (.observed request)
      | .probing => s.move call (.rescuing request)

def compareExchange (s : System ι Req R) (call : ι) (request : Req) : System ι Req R :=
  if s.monitor.backendState = .unavailable then
    { s.move call (.awaiting request true) with
      monitor := { s.monitor with backendState := .probing } }
  else s.move call (.rescuing request)

def rescueTake (limiter : Limiter Req R) (s : System ι Req R) (call : ι) (request : Req) :
    System ι Req R :=
  match limiter.rescue s.rescue s.clocks request with
  | none => s.move call .panicked
  | some (decision, rescue) =>
      { s.move call (.returned decision) with
        rescue := rescue
        monitor := { s.monitor with rescue := s.monitor.rescue.count decision } }

/-- The phase a reply leads to. -/
def replied (request : Req) (probe : Bool) (response : Except String (List Int)) : Take Req :=
  match response.bind parseRedisDecision with
  | .ok decision => .succeeded decision probe
  | .error _ => .failed request probe

/-- One step of `take`. -/
def step (limiter : Limiter Req R) (s : System ι Req R) :
    Action ι Req → Option (System ι Req R)
  | .begin call request =>
      match s.takes call with
      | .idle => some (begin limiter s call request)
      | _ => none
  | .readClock call =>
      match s.takes call with
      | .observed request => some (s.move call (.timed request (unixMillisU64 s.clocks.wall)))
      | _ => none
  | .loadProbeTime call =>
      match s.takes call with
      | .timed request now =>
          if s.monitor.nextProbeAtMs ≤ now then some (s.move call (.due request))
          else some (s.move call (.rescuing request))
      | _ => none
  | .compareExchange call =>
      match s.takes call with
      | .due request => some (compareExchange s call request)
      | _ => none
  | .reply call response =>
      match s.takes call with
      | .awaiting request probe => some (s.move call (replied request probe response))
      | _ => none
  | .redisSuccess call =>
      match s.takes call with
      | .succeeded decision _ =>
          some { s.move call (.returned decision) with
            monitor := s.monitor.redisSuccess decision }
      | _ => none
  | .storeProbeTime call =>
      match s.takes call with
      | .failed request probe =>
          some { s.move call (.rearmed request probe) with
            monitor := s.monitor.storeProbeTime s.clocks.wall limiter.recoveryProbeIntervalMs }
      | _ => none
  | .storeUnavailable call =>
      match s.takes call with
      | .rearmed request _ =>
          some { s.move call (.rescuing request) with monitor := s.monitor.storeUnavailable }
      | _ => none
  | .rescue call =>
      match s.takes call with
      | .rescuing request => some (rescueTake limiter s call request)
      | _ => none
  | .drop call =>
      match s.takes call with
      | .awaiting _ _ => some (s.move call .dropped)
      | _ => none
  | .setClock now => some { s with clocks := { s.clocks with wall := now } }
  | .advance elapsed =>
      some { s with clocks := { s.clocks with monotonic := s.clocks.monotonic + elapsed } }

/-- Every interleaving of takes on one limiter whose rescue limiter starts as
`rescue`. -/
def lts (ι : Type) [DecidableEq ι] (limiter : Limiter Req R) (rescue : R) :
    Lts (System ι Req R) (Action ι Req) where
  init := { monitor := {}, rescue := rescue, clocks := {}, takes := fun _ => .idle }
  step := step limiter

/-! ## What a step can do -/

/-- Sent to Redis and not yet done reporting: whether as a recovery probe. -/
def Take.sent : Take Req → Option Bool
  | .awaiting _ probe => some probe
  | .succeeded _ probe => some probe
  | .failed _ probe => some probe
  | .rearmed _ probe => some probe
  | _ => none

/-- The effect of a step on `backend_state` and on the takes that are sent: it
sends a take (`launch`, `probe`), ends one (`success`, `failure`, `drop`) or
does neither. -/
inductive Effect (s : System ι Req R) : Action ι Req → BackendState → (ι → Take Req) → Prop
  | quiet (a : Action ι Req) (call : ι) (take : Take Req)
      (same : take.sent = (s.takes call).sent) :
      Effect s a s.monitor.backendState (Function.update s.takes call take)
  | clock (a : Action ι Req) : Effect s a s.monitor.backendState s.takes
  | launch (call : ι) (request : Req) (idle : s.takes call = .idle)
      (trusted : s.monitor.backendState = .notObserved ∨ s.monitor.backendState = .available) :
      Effect s (.begin call request) s.monitor.backendState
        (Function.update s.takes call (.awaiting request false))
  | probe (call : ι) (request : Req) (due : s.takes call = .due request)
      (unavailable : s.monitor.backendState = .unavailable) :
      Effect s (.compareExchange call) .probing
        (Function.update s.takes call (.awaiting request true))
  | success (call : ι) (decision : LimitDecision) (probe : Bool)
      (sent : s.takes call = .succeeded decision probe) :
      Effect s (.redisSuccess call) .available
        (Function.update s.takes call (.returned decision))
  | failure (call : ι) (request : Req) (probe : Bool)
      (sent : s.takes call = .rearmed request probe) :
      Effect s (.storeUnavailable call) .unavailable
        (Function.update s.takes call (.rescuing request))
  | drop (call : ι) (request : Req) (probe : Bool)
      (sent : s.takes call = .awaiting request probe) :
      Effect s (.drop call) s.monitor.backendState (Function.update s.takes call .dropped)

variable {limiter : Limiter Req R} {s s' : System ι Req R} {a : Action ι Req}

theorem replied_sent (request : Req) (probe : Bool) (response : Except String (List Int)) :
    (replied request probe response).sent = some probe := by
  unfold replied
  split
  · rfl
  · rfl

theorem step_effect (taken : step limiter s a = some s') :
    Effect s a s'.monitor.backendState s'.takes := by
  cases a with
  | begin call request =>
      simp only [step] at taken
      split at taken
      · rename_i idle
        cases taken
        have unsent : (s.takes call).sent = none := by rw [idle]; rfl
        unfold begin
        split
        · exact .quiet _ call _ unsent.symm
        · exact .quiet _ call _ unsent.symm
        · split
          · rename_i state
            exact .launch call request idle (.inl state)
          · rename_i state
            exact .launch call request idle (.inr state)
          · exact .quiet _ call _ unsent.symm
          · exact .quiet _ call _ unsent.symm
      · cases taken
  | readClock call =>
      simp only [step] at taken
      split at taken
      · rename_i request observed
        cases taken
        exact .quiet _ call _ (by rw [observed]; rfl)
      · cases taken
  | loadProbeTime call =>
      simp only [step] at taken
      split at taken
      · rename_i request now timed
        split at taken
        · cases taken
          exact .quiet _ call _ (by rw [timed]; rfl)
        · cases taken
          exact .quiet _ call _ (by rw [timed]; rfl)
      · cases taken
  | compareExchange call =>
      simp only [step] at taken
      split at taken
      · rename_i request due
        cases taken
        unfold compareExchange
        split
        · rename_i unavailable
          exact .probe call request due unavailable
        · exact .quiet _ call _ (by rw [due]; rfl)
      · cases taken
  | reply call response =>
      simp only [step] at taken
      split at taken
      · rename_i request probe awaiting
        cases taken
        refine .quiet _ call _ ?_
        rw [replied_sent, awaiting]
        rfl
      · cases taken
  | redisSuccess call =>
      simp only [step] at taken
      split at taken
      · rename_i decision probe succeeded
        cases taken
        exact .success call decision probe succeeded
      · cases taken
  | storeProbeTime call =>
      simp only [step] at taken
      split at taken
      · rename_i request probe failed
        cases taken
        exact .quiet _ call _ (by rw [failed]; rfl)
      · cases taken
  | storeUnavailable call =>
      simp only [step] at taken
      split at taken
      · rename_i request probe rearmed
        cases taken
        exact .failure call request probe rearmed
      · cases taken
  | rescue call =>
      simp only [step] at taken
      split at taken
      · rename_i request rescuing
        cases taken
        unfold rescueTake
        split
        · exact .quiet _ call _ (by rw [rescuing]; rfl)
        · exact .quiet _ call _ (by rw [rescuing]; rfl)
      · cases taken
  | drop call =>
      simp only [step] at taken
      split at taken
      · rename_i request probe awaiting
        cases taken
        exact .drop call request probe awaiting
      · cases taken
  | setClock now =>
      cases taken
      exact .clock _
  | advance elapsed =>
      cases taken
      exact .clock _

end Step

end RustZero.RedisLimiter
