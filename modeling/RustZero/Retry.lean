import Mathlib

/-!
# Retries with backoff

`RetryPolicy` and `retry` of `core/src/fx.rs`.  The operation is the sequence of what its calls
come to; a run is what `retry` did and what it returned.

* `retryLoop_run` says what the loop does: it calls up to the first success or the last attempt,
  and sleeps in between for the delay, doubled and capped each time.
* The first delay is not capped, so the bound holds exactly of the policies whose initial delay is
  within it, and of runs that do not sleep.
-/

namespace RustZero.Retry

/-- `Duration::MAX`, in nanoseconds. -/
def maxDuration : Nat := 2 ^ 64 * 1000000000 - 1

structure Duration where
  nanos : Nat
  valid : nanos ≤ maxDuration
  deriving DecidableEq, Repr

namespace Duration

def ofSecs (secs : Fin (2 ^ 64)) : Duration where
  nanos := secs * 1000000000
  valid := by
    have less := secs.isLt
    rw [maxDuration]
    omega

def saturatingMul (duration : Duration) (factor : Nat) : Duration where
  nanos := min (duration.nanos * factor) maxDuration
  valid := Nat.min_le_right _ _

def min (first second : Duration) : Duration :=
  if first.nanos ≤ second.nanos then first else second

end Duration

structure RetryPolicy where
  maxAttempts : Nat
  initialDelay : Duration
  maxDelay : Duration
  deriving DecidableEq, Repr

namespace RetryPolicy

/-- `none` where an assertion fails. -/
def new (maxAttempts : Nat) (initialDelay : Duration) : Option RetryPolicy :=
  if maxAttempts = 0 then none
  else if initialDelay.nanos = 0 then none
  else some ⟨maxAttempts, initialDelay, .ofSecs 30⟩

def withMaxDelay (self : RetryPolicy) (maxDelay : Duration) : Option RetryPolicy :=
  if maxDelay.nanos = 0 then none else some { self with maxDelay }

/-- The policies that can be built. -/
inductive Built : RetryPolicy → Prop
  | new {maxAttempts : Nat} {initialDelay : Duration} {policy : RetryPolicy}
      (accepted : new maxAttempts initialDelay = some policy) : Built policy
  | withMaxDelay {self policy : RetryPolicy} {maxDelay : Duration} (built : Built self)
      (accepted : self.withMaxDelay maxDelay = some policy) : Built policy

theorem Built.maxAttempts_pos {policy : RetryPolicy} (built : Built policy) :
    0 < policy.maxAttempts := by
  induction built with
  | new accepted =>
      rw [RetryPolicy.new] at accepted
      split at accepted
      case isTrue => cases accepted
      case isFalse positive =>
        split at accepted
        case isTrue => cases accepted
        case isFalse =>
          cases accepted
          exact Nat.pos_of_ne_zero positive
  | withMaxDelay _ accepted ih =>
      rw [RetryPolicy.withMaxDelay] at accepted
      split at accepted
      case isTrue => cases accepted
      case isFalse =>
        cases accepted
        exact ih

end RetryPolicy

inductive Event
  | call
  | sleep (delay : Duration)
  deriving DecidableEq, Repr

/-- What was done, and what was returned; nothing at `unreachable!`. -/
structure Run (τ ε : Type) where
  events : List Event
  returned : Option (Except ε τ)

variable {τ ε : Type}

/-- The delay after the next failure. -/
def nextDelay (policy : RetryPolicy) (delay : Duration) : Duration :=
  (delay.saturatingMul 2).min policy.maxDelay

/-- The loop over the attempts that are left. -/
def retryLoop (policy : RetryPolicy) (operation : Nat → Except ε τ) (delay : Duration) :
    List Nat → Run τ ε
  | [] => ⟨[], none⟩
  | attempt :: attempts =>
      match operation attempt with
      | .ok value => ⟨[.call], some (.ok value)⟩
      | .error error =>
          if attempt = policy.maxAttempts then ⟨[.call], some (.error error)⟩
          else
            let later := retryLoop policy operation (nextDelay policy delay) attempts
            ⟨.call :: .sleep delay :: later.events, later.returned⟩

/-- `retry` with what the operation comes to at each attempt. -/
def retry (policy : RetryPolicy) (operation : Nat → Except ε τ) : Run τ ε :=
  retryLoop policy operation policy.initialDelay (List.range' 1 policy.maxAttempts)

/-- A call, and before each further one a sleep. -/
def interleaved (delays : List Duration) : List Event :=
  .call :: delays.flatMap fun delay => [.sleep delay, .call]

/-- The operation is called so many times: up to the first success, or to the last attempt. -/
structure Calls (policy : RetryPolicy) (operation : Nat → Except ε τ) (calls : Nat) : Prop where
  some_ : 1 ≤ calls
  bounded : calls ≤ policy.maxAttempts
  failed : ∀ attempt, 1 ≤ attempt → attempt < calls → (operation attempt).isOk = false
  last : calls = policy.maxAttempts ∨ (operation calls).isOk = true

/-- A run with the delays of exponential backoff, none of them beyond the bound. -/
structure BacksOff (policy : RetryPolicy) (operation : Nat → Except ε τ) (calls : Nat)
    (delays : List Duration) : Prop where
  called : Calls policy operation calls
  returned : (retry policy operation).returned = some (operation calls)
  events : (retry policy operation).events = interleaved delays
  between : delays.length + 1 = calls
  delay : ∀ index delay, delays[index]? = some delay →
    delay.nanos = min (policy.initialDelay.nanos * 2 ^ index) policy.maxDelay.nanos
  bounded : ∀ delay ∈ delays, delay.nanos ≤ policy.maxDelay.nanos

/-! ## The delays -/

section Delays

variable {policy : RetryPolicy} {operation : Nat → Except ε τ} {delay : Duration}

theorem min_nanos (first second : Duration) :
    (first.min second).nanos = min first.nanos second.nanos := by
  rw [Duration.min]
  split
  case isTrue less => exact (Nat.min_eq_left less).symm
  case isFalse more => exact (Nat.min_eq_right (Nat.le_of_not_le more)).symm

/-- Saturation is beyond every bound. -/
theorem nextDelay_nanos (policy : RetryPolicy) (delay : Duration) :
    (nextDelay policy delay).nanos = min (delay.nanos * 2) policy.maxDelay.nanos := by
  have bound := policy.maxDelay.valid
  rw [nextDelay, min_nanos, Duration.saturatingMul]
  dsimp only
  omega

/-- Doubling what is capped, and capping it, is capping what is doubled. -/
theorem iterate_nextDelay (policy : RetryPolicy) (delay : Duration) (count : Nat) :
    ((nextDelay policy)^[count + 1] delay).nanos =
      min (delay.nanos * 2 ^ (count + 1)) policy.maxDelay.nanos := by
  induction count with
  | zero => exact nextDelay_nanos policy delay
  | succ count ih =>
      rw [Function.iterate_succ_apply', nextDelay_nanos, ih, Nat.pow_succ 2 (count + 1),
        ← Nat.mul_assoc]
      omega

variable (policy) in
/-- The loop calls the operation up to its first success, or to the last attempt. -/
theorem retryLoop_run (operation : Nat → Except ε τ) (attempt remaining : Nat) (delay : Duration)
    (left : attempt + remaining = policy.maxAttempts) :
    ∃ further ≤ remaining,
      (∀ earlier < further, (operation (attempt + earlier)).isOk = false) ∧
      (further = remaining ∨ (operation (attempt + further)).isOk = true) ∧
      retryLoop policy operation delay (List.range' attempt (remaining + 1)) =
        ⟨interleaved (List.iterate (nextDelay policy) delay further),
          some (operation (attempt + further))⟩ := by
  induction remaining generalizing attempt delay with
  | zero =>
      refine ⟨0, le_rfl, fun _ less => absurd less (Nat.not_lt_zero _), .inl rfl, ?_⟩
      rw [List.range'_succ, retryLoop]
      rw [Nat.add_zero] at left ⊢
      cases operation attempt with
      | ok value => rfl
      | error error =>
          dsimp only
          rw [if_pos left]
          rfl
  | succ remaining ih =>
      rw [List.range'_succ, retryLoop]
      cases ran : operation attempt with
      | ok value =>
          have here : operation (attempt + 0) = .ok value := ran
          refine ⟨0, Nat.zero_le _, fun _ less => absurd less (Nat.not_lt_zero _), .inr ?_, ?_⟩
          · rw [here]
            rfl
          · rw [here]
            rfl
      | error error =>
          obtain ⟨further, le, failed, last, later⟩ :=
            ih (attempt + 1) (nextDelay policy delay) (by omega)
          refine ⟨further + 1, Nat.succ_le_succ le, ?_, ?_, ?_⟩
          · intro earlier less
            cases earlier with
            | zero =>
                rw [Nat.add_zero, ran]
                rfl
            | succ earlier =>
                have before := failed earlier (Nat.lt_of_succ_lt_succ less)
                rw [Nat.add_right_comm] at before
                exact before
          · rw [Nat.add_right_comm] at last
            exact last.imp_left (congrArg (· + 1))
          · dsimp only
            rw [if_neg (by omega), later, Nat.add_right_comm]
            rfl

/-- All that `retry` does, whatever the policy. -/
theorem retry_run (policy : RetryPolicy) (some_ : 0 < policy.maxAttempts)
    (operation : Nat → Except ε τ) : ∃ further,
      Calls policy operation (further + 1) ∧
      retry policy operation =
        ⟨interleaved (List.iterate (nextDelay policy) policy.initialDelay further),
          some (operation (further + 1))⟩ := by
  obtain ⟨remaining, same⟩ := Nat.exists_eq_add_of_le' some_
  obtain ⟨further, le, failed, last, ran⟩ := retryLoop_run policy operation 1 remaining
    policy.initialDelay (by omega)
  rw [Nat.add_comm 1 further] at last ran
  refine ⟨further, ⟨Nat.le_add_left 1 further, by omega, ?_, ?_⟩, ?_⟩
  · intro attempt first less
    have before := failed (attempt - 1) (by omega)
    rw [Nat.add_sub_cancel' first] at before
    exact before
  · exact last.imp_left fun all => by omega
  · rw [retry, same]
    exact ran

theorem Calls.unique {calls others : Nat} (first : Calls policy operation calls)
    (second : Calls policy operation others) : calls = others := by
  have within {calls others : Nat} (first : Calls policy operation calls)
      (second : Calls policy operation others) : calls ≤ others := by
    by_contra more
    have failed := first.failed others second.some_ (Nat.not_le.mp more)
    rcases second.last with all | succeeded
    · have bounded := first.bounded
      omega
    · rw [succeeded] at failed
      cases failed
  exact Nat.le_antisymm (within first second) (within second first)

/-- The sleeps of a run. -/
def slept (events : List Event) : List Duration :=
  events.filterMap fun event =>
    match event with
    | .call => none
    | .sleep delay => some delay

theorem slept_interleaved (delays : List Duration) : slept (interleaved delays) = delays := by
  induction delays with
  | nil => rfl
  | cons delay delays ih => exact congrArg (delay :: ·) ih

theorem bounded_delay (within : policy.initialDelay.nanos ≤ policy.maxDelay.nanos) (index : Nat) :
    ((nextDelay policy)^[index] policy.initialDelay).nanos =
      min (policy.initialDelay.nanos * 2 ^ index) policy.maxDelay.nanos := by
  cases index with
  | zero =>
      rw [Function.iterate_zero_apply, Nat.pow_zero, Nat.mul_one, Nat.min_eq_left within]
  | succ index => exact iterate_nextDelay policy policy.initialDelay index

end Delays

/-- Retries are as described, with no sleep beyond the bound, exactly if the initial delay is within
it, or there is no sleep: there is one attempt, or the first one succeeds. -/
theorem retry_backs_off_iff (policy : RetryPolicy) (built : RetryPolicy.Built policy)
    (operation : Nat → Except ε τ) :
    (∃ calls delays, BacksOff policy operation calls delays) ↔
      policy.initialDelay.nanos ≤ policy.maxDelay.nanos ∨ policy.maxAttempts = 1 ∨
        (operation 1).isOk = true := by
  obtain ⟨further, called, ran⟩ := retry_run policy built.maxAttempts_pos operation
  refine ⟨?_, ?_⟩
  · intro backsOff
    obtain ⟨calls, delays, backsOff⟩ := backsOff
    have events := backsOff.events
    rw [ran] at events
    have same := congrArg slept events
    rw [slept_interleaved, slept_interleaved] at same
    cases further with
    | zero => exact .inr (called.last.imp_left Eq.symm)
    | succ further =>
        refine .inl (backsOff.bounded policy.initialDelay ?_)
        rw [← same]
        exact List.mem_cons_self
  · intro condition
    have between : (List.iterate (nextDelay policy) policy.initialDelay further).length + 1 =
        further + 1 := by
      rw [List.length_iterate]
    have delays : ∀ index delay,
        (List.iterate (nextDelay policy) policy.initialDelay further)[index]? = some delay →
          delay.nanos = min (policy.initialDelay.nanos * 2 ^ index) policy.maxDelay.nanos := by
      intro index delay here
      have inside := (List.getElem?_eq_some_iff.mp here).1
      rw [List.length_iterate] at inside
      rw [List.getElem?_iterate _ _ _ _ inside] at here
      cases here
      rcases condition with within | once | succeeded
      · exact bounded_delay within index
      · have bounded := called.bounded
        omega
      · have failed := called.failed 1 le_rfl (by omega)
        rw [succeeded] at failed
        cases failed
    refine ⟨further + 1, _, called, by rw [ran], by rw [ran], between, delays, ?_⟩
    intro delay member
    obtain ⟨index, here⟩ := List.mem_iff_getElem?.mp member
    rw [delays index delay here]
    exact Nat.min_le_right _ _

/-- A policy whose first delay is within the bound. -/
def secondly : RetryPolicy where
  maxAttempts := 3
  initialDelay := .ofSecs 1
  maxDelay := .ofSecs 30

theorem secondly_built : RetryPolicy.Built secondly := by
  have accepted : RetryPolicy.new 3 (.ofSecs 1) = some secondly := rfl
  exact .new accepted

theorem retry_backs_off_secondly :
    ∃ calls delays, BacksOff secondly (fun _ => (.error () : Except Unit Unit)) calls delays :=
  (retry_backs_off_iff secondly secondly_built _).mpr (.inl (by decide))

/-- A policy of two attempts, a minute apart, and the bound of 30 seconds that comes with it. -/
def minutely : RetryPolicy where
  maxAttempts := 2
  initialDelay := .ofSecs 60
  maxDelay := .ofSecs 30

/-- An operation that fails twice is retried after a minute. -/
theorem retry_exceeds_max_delay :
    RetryPolicy.new 2 (.ofSecs 60) = some minutely ∧
      (retry minutely fun _ => (.error () : Except Unit Unit)).events =
        [.call, .sleep (.ofSecs 60), .call] ∧
      ¬∃ calls delays,
        BacksOff minutely (fun _ => (.error () : Except Unit Unit)) calls delays := by
  have events : (retry minutely fun _ => (.error () : Except Unit Unit)).events =
      interleaved [.ofSecs 60] := by
    decide
  refine ⟨by decide, events, ?_⟩
  intro backsOff
  obtain ⟨calls, delays, backsOff⟩ := backsOff
  have same := congrArg slept (events.symm.trans backsOff.events)
  rw [slept_interleaved, slept_interleaved] at same
  have bounded := backsOff.bounded (.ofSecs 60) (same ▸ List.mem_cons_self)
  revert bounded
  decide

end RustZero.Retry
