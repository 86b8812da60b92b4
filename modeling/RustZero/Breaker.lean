import Mathlib
import RustZero.Lib.Lts

/-!
# The consecutive circuit breaker

`core/src/breaker.rs` under `CircuitBreakerPolicy::Consecutive`.  The breaker
state sits behind one mutex, so admission (`before_consecutive`) and recording
an outcome (`record_consecutive`) are one step each.  A permit, or the
`CompletionGuard` of an `execute*` call, lives between the two for as long as
its caller likes; dropping it unfinished records a cancellation.

`System` adds two ghost columns to the source's fields: the number of half-open
periods entered so far, and for every admitted call the period it was admitted
in.  The source keeps neither, which is why `record_consecutive` cannot tell an
outcome of this period from one of an earlier period.
-/

namespace RustZero.Breaker

open Lib

/-! ## Configuration and state -/

structure CircuitBreakerConfig where
  maxFailures : Nat
  resetTimeout : Nat
  halfOpenMaxCalls : Nat

inductive CircuitOutcome where
  | success
  | failure
  | cancellation
  deriving DecidableEq, Repr

/-- `ConsecutiveState`; `opened` is the source's `Open`. -/
inductive ConsecutiveState where
  | closed (consecutiveFailures : Nat)
  | opened (openedAt : Nat)
  | halfOpen (attempts successes : Nat)
  deriving DecidableEq, Repr

inductive BreakerState where
  | closed
  | opened
  | halfOpen
  deriving DecidableEq, Repr

def ConsecutiveState.status : ConsecutiveState → BreakerState
  | .closed _ => .closed
  | .opened _ => .opened
  | .halfOpen _ _ => .halfOpen

structure OutcomeCounters where
  successes : Nat := 0
  failures : Nat := 0
  rejections : Nat := 0
  cancellations : Nat := 0
  deriving DecidableEq, Repr

/-! ## Admission and recording -/

/-- The first half of `before_consecutive`: an open breaker stays open until
`reset_timeout` has elapsed and then turns half-open; `none` is the early
`return false`. -/
def elapse (cfg : CircuitBreakerConfig) (now : Nat) :
    ConsecutiveState → Option ConsecutiveState
  | .opened openedAt =>
      if now - openedAt < cfg.resetTimeout then none
      else some (.halfOpen 0 0)
  | state => some state

/-- The second half of `before_consecutive`: a half-open breaker hands out at
most `half_open_max_calls` probe slots. -/
def takeSlot (cfg : CircuitBreakerConfig) : ConsecutiveState → Bool × ConsecutiveState
  | .halfOpen attempts successes =>
      if cfg.halfOpenMaxCalls ≤ attempts then (false, .halfOpen attempts successes)
      else (true, .halfOpen (attempts + 1) successes)
  | state => (true, state)

def beforeConsecutive (cfg : CircuitBreakerConfig) (now : Nat) (state : ConsecutiveState) :
    Bool × ConsecutiveState :=
  match elapse cfg now state with
  | none => (false, state)
  | some state' => takeSlot cfg state'

def recordConsecutive (cfg : CircuitBreakerConfig) (now : Nat) :
    ConsecutiveState → CircuitOutcome → ConsecutiveState
  | .closed _, .success => .closed 0
  | .opened openedAt, .success => .opened openedAt
  | .halfOpen attempts successes, .success =>
      if successes + 1 = cfg.halfOpenMaxCalls then .closed 0
      else .halfOpen attempts (successes + 1)
  | .closed consecutiveFailures, .failure =>
      if cfg.maxFailures ≤ consecutiveFailures + 1 then .opened now
      else .closed (consecutiveFailures + 1)
  | .opened openedAt, .failure => .opened openedAt
  | .halfOpen _ _, .failure => .opened now
  | .halfOpen attempts successes, .cancellation => .halfOpen (attempts - 1) successes
  | state, .cancellation => state

def OutcomeCounters.record (counters : OutcomeCounters) : CircuitOutcome → OutcomeCounters
  | .success => { counters with successes := counters.successes + 1 }
  | .failure => { counters with failures := counters.failures + 1 }
  | .cancellation => { counters with cancellations := counters.cancellations + 1 }

/-! ## The breaker and its permits -/

/-- A call on the breaker.  `period` is the half-open period the call was
admitted in, `none` for a call admitted by a closed breaker. -/
inductive Permit where
  | unused
  | rejected
  | outstanding (period : Option Nat)
  | finished (period : Option Nat) (outcome : CircuitOutcome)
  deriving DecidableEq, Repr

structure System (ι : Type) where
  state : ConsecutiveState
  counters : OutcomeCounters
  now : Nat
  /-- Ghost: how many half-open periods have begun. -/
  period : Nat
  permits : ι → Permit

inductive Action (ι : Type) where
  /-- `acquire`, or the admission of an `execute*` call. -/
  | acquire (call : ι)
  /-- `finish_with_outcome`, or `CompletionGuard::finish`. -/
  | finish (call : ι) (outcome : CircuitOutcome)
  /-- `Drop` of an unfinished permit or guard. -/
  | drop (call : ι)
  | advance (elapsed : Nat)

def CircuitBreaker.new (ι : Type) : System ι where
  state := .closed 0
  counters := {}
  now := 0
  period := 0
  permits := fun _ => .unused

section Step

variable {ι : Type} [DecidableEq ι]

/-- Ghost: an admission that turns an open breaker half-open begins a period. -/
def nextPeriod (before after : ConsecutiveState) (period : Nat) : Nat :=
  if before.status = .opened ∧ after.status = .halfOpen then period + 1 else period

/-- Ghost: the period a call admitted in `state` belongs to. -/
def admittedIn (state : ConsecutiveState) (period : Nat) : Option Nat :=
  if state.status = .halfOpen then some period else none

def acquire (cfg : CircuitBreakerConfig) (s : System ι) (call : ι) : System ι :=
  let after := (beforeConsecutive cfg s.now s.state).2
  let period := nextPeriod s.state after s.period
  if (beforeConsecutive cfg s.now s.state).1 then
    { s with
      state := after
      period := period
      permits := Function.update s.permits call (.outstanding (admittedIn after period)) }
  else
    { s with
      state := after
      period := period
      counters := { s.counters with rejections := s.counters.rejections + 1 }
      permits := Function.update s.permits call .rejected }

def recordOutcome (cfg : CircuitBreakerConfig) (s : System ι) (call : ι)
    (period : Option Nat) (outcome : CircuitOutcome) : System ι :=
  { s with
    state := recordConsecutive cfg s.now s.state outcome
    counters := s.counters.record outcome
    permits := Function.update s.permits call (.finished period outcome) }

def step (cfg : CircuitBreakerConfig) (s : System ι) : Action ι → Option (System ι)
  | .acquire call =>
      match s.permits call with
      | .unused => some (acquire cfg s call)
      | _ => none
  | .finish call outcome =>
      match s.permits call with
      | .outstanding period => some (recordOutcome cfg s call period outcome)
      | _ => none
  | .drop call =>
      match s.permits call with
      | .outstanding period => some (recordOutcome cfg s call period .cancellation)
      | _ => none
  | .advance elapsed => some { s with now := s.now + elapsed }

/-- Every interleaving of admissions, completions, drops and clock advances. -/
def lts (cfg : CircuitBreakerConfig) (ι : Type) [DecidableEq ι] : Lts (System ι) (Action ι) where
  init := CircuitBreaker.new ι
  step := step cfg

/-- What a step of the breaker can be. -/
theorem step_cases {cfg : CircuitBreakerConfig} {s s' : System ι} {a : Action ι}
    (h : step cfg s a = some s') :
    (∃ call, a = .acquire call ∧ s.permits call = .unused ∧ s' = acquire cfg s call) ∨
    (∃ call period outcome, (a = .finish call outcome ∨ a = .drop call ∧ outcome = .cancellation) ∧
      s.permits call = .outstanding period ∧ s' = recordOutcome cfg s call period outcome) ∨
    (∃ elapsed, a = .advance elapsed ∧ s' = { s with now := s.now + elapsed }) := by
  cases a with
  | acquire call =>
      simp only [step] at h
      split at h
      · rename_i unused
        exact .inl ⟨call, rfl, unused, (Option.some.inj h).symm⟩
      · cases h
  | finish call outcome =>
      simp only [step] at h
      split at h
      · rename_i period outstanding
        exact .inr (.inl ⟨call, period, outcome, .inl rfl, outstanding, (Option.some.inj h).symm⟩)
      · cases h
  | drop call =>
      simp only [step] at h
      split at h
      · rename_i period outstanding
        exact .inr (.inl ⟨call, period, .cancellation, .inr ⟨rfl, rfl⟩, outstanding,
          (Option.some.inj h).symm⟩)
      · cases h
  | advance elapsed => exact .inr (.inr ⟨elapsed, rfl, (Option.some.inj h).symm⟩)

end Step

end RustZero.Breaker
