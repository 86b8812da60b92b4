import RustZero.Breaker
import RustZero.Lib.Phases

/-!
# Half-open isolation of the consecutive breaker

`attempts` and `successes` are meant to count the probes of the current
half-open period.  They do along every run in which no call of an earlier
period reports a success to a half-open breaker, or a cancellation to one with
a slot in use (`Isolated`): `Inv.probes` identifies `attempts` with the outstanding and
succeeded probes of the period and `successes` with the succeeded ones, and
`halfOpen_isolation` reads the two bounds off it.

Without that condition both fail.  A stale cancellation frees a probe slot and
a stale success closes the breaker (`stale_outcomes_break_isolation`).
-/

namespace RustZero.Breaker

open Lib

variable {ι : Type} {cfg : CircuitBreakerConfig} {s s' : System ι}

/-! ## What admission does in each state -/

theorem beforeConsecutive_halfOpen (now attempts successes : Nat) :
    beforeConsecutive cfg now (.halfOpen attempts successes) =
      if cfg.halfOpenMaxCalls ≤ attempts then (false, .halfOpen attempts successes)
      else (true, .halfOpen (attempts + 1) successes) :=
  rfl

theorem beforeConsecutive_opened (now openedAt : Nat) :
    beforeConsecutive cfg now (.opened openedAt) =
      if now - openedAt < cfg.resetTimeout then (false, .opened openedAt)
      else if cfg.halfOpenMaxCalls ≤ 0 then (false, .halfOpen 0 0)
      else (true, .halfOpen 1 0) := by
  unfold beforeConsecutive elapse
  by_cases early : now - openedAt < cfg.resetTimeout
  · simp only [early, ↓reduceIte]
  · simp only [early, ↓reduceIte, takeSlot, Nat.zero_add]

/-! ## The probes of the current period -/

/-- The half-open period a permit belongs to. -/
def Permit.period : Permit → Option Nat
  | .outstanding period => period
  | .finished period _ => period
  | _ => none

def IsProbe (period : Nat) (permit : Permit) : Prop :=
  permit = .outstanding (some period)

def IsSucceededProbe (period : Nat) (permit : Permit) : Prop :=
  permit = .finished (some period) .success

/-- `attempts` counts the outstanding and the succeeded probes of the period,
`successes` the succeeded ones. -/
def ProbeCount (s : System ι) (attempts successes : Nat) : Prop :=
  ∃ live succeeded : Finset ι,
    Census live s.permits (IsProbe s.period) ∧
    Census succeeded s.permits (IsSucceededProbe s.period) ∧
    attempts = live.card + succeeded.card ∧ successes = succeeded.card

structure Inv (cfg : CircuitBreakerConfig) (s : System ι) : Prop where
  /-- No permit belongs to a period that has not begun. -/
  past : ∀ call period, (s.permits call).period = some period → period ≤ s.period
  bounded : ∀ attempts successes, s.state = .halfOpen attempts successes →
    attempts ≤ cfg.halfOpenMaxCalls
  probes : ∀ attempts successes, s.state = .halfOpen attempts successes →
    ProbeCount s attempts successes

theorem inv_new : Inv cfg (CircuitBreaker.new ι) where
  past := by
    intro call period member
    cases member
  bounded := by
    intro attempts successes state
    cases state
  probes := by
    intro attempts successes state
    cases state

/-- The first admission attempt of a period starts from empty counts. -/
theorem probeCount_fresh {permits : ι → Permit} {period : Nat}
    (past : ∀ i p, (permits i).period = some p → p ≤ period) :
    Census ∅ permits (IsProbe (period + 1)) ∧
      Census ∅ permits (IsSucceededProbe (period + 1)) := by
  have fresh : ∀ i, (permits i).period ≠ some (period + 1) := by
    intro i member
    have := past i _ member
    omega
  refine ⟨Census.empty fun i probe => ?_, Census.empty fun i probe => ?_⟩
  · unfold IsProbe at probe
    exact fresh i (by rw [probe]; rfl)
  · unfold IsSucceededProbe at probe
    exact fresh i (by rw [probe]; rfl)

variable [DecidableEq ι]

/-- Updating one permit to a period already begun keeps `past`. -/
theorem past_update {permits : ι → Permit} {bound : Nat} {call : ι} {permit : Permit}
    (past : ∀ i period, (permits i).period = some period → period ≤ bound)
    (new : ∀ period, permit.period = some period → period ≤ bound) :
    ∀ i period, (Function.update permits call permit i).period = some period →
      period ≤ bound := by
  intro i period member
  by_cases h : i = call
  · subst h
    rw [Function.update_self] at member
    exact new period member
  · rw [Function.update_of_ne h] at member
    exact past i period member

/-! ## Admission -/

theorem inv_acquire {call : ι} (inv : Inv cfg s) (unused : s.permits call = .unused) :
    Inv cfg (acquire cfg s call) := by
  have notProbe : ∀ period, ¬ IsProbe period (s.permits call) := by
    intro period probe
    rw [unused] at probe
    cases probe
  have notSucceeded : ∀ period, ¬ IsSucceededProbe period (s.permits call) := by
    intro period probe
    rw [unused] at probe
    cases probe
  obtain ⟨state, counters, now, period, permits⟩ := s
  cases state with
  | closed failures =>
      refine ⟨past_update inv.past fun p member => ?_, fun _ _ state => ?_, fun _ _ state => ?_⟩
      · cases member
      · cases state
      · cases state
  | opened openedAt =>
      simp only [acquire, beforeConsecutive_opened]
      by_cases early : now - openedAt < cfg.resetTimeout
      · simp only [early, ↓reduceIte, Bool.false_eq_true]
        refine ⟨past_update inv.past fun p member => ?_, fun _ _ state => ?_,
          fun _ _ state => ?_⟩
        · cases member
        · cases state
        · cases state
      · simp only [early, ↓reduceIte]
        obtain ⟨live, succeeded⟩ := probeCount_fresh inv.past
        have later : ∀ i p, (permits i).period = some p → p ≤ period + 1 := by
          intro i p member
          exact Nat.le_succ_of_le (inv.past i p member)
        by_cases none : cfg.halfOpenMaxCalls ≤ 0
        · simp only [none, ↓reduceIte, Bool.false_eq_true]
          refine ⟨past_update later fun p member => ?_, fun attempts successes state => ?_,
            fun attempts successes state => ?_⟩
          · cases member
          · cases state
            exact Nat.zero_le _
          · cases state
            refine ⟨∅, ∅, live.keep ?_, succeeded.keep ?_, rfl, rfl⟩
            · exact iff_of_false nofun (notProbe _)
            · exact iff_of_false nofun (notSucceeded _)
        · simp only [none, ↓reduceIte]
          refine ⟨past_update later fun p member => ?_, fun attempts successes state => ?_,
            fun attempts successes state => ?_⟩
          · cases member
            exact Nat.le_refl _
          · cases state
            omega
          · cases state
            refine ⟨insert call ∅, ∅, live.enter rfl, succeeded.keep ?_, ?_, rfl⟩
            · exact iff_of_false nofun (notSucceeded _)
            · rw [live.card_enter (notProbe _)]
              rfl
  | halfOpen attempts successes =>
      rcases inv.probes attempts successes rfl with
        ⟨live, succeeded, liveCensus, succeededCensus, attemptsEq, successesEq⟩
      simp only [acquire, beforeConsecutive_halfOpen]
      by_cases full : cfg.halfOpenMaxCalls ≤ attempts
      · simp only [full, ↓reduceIte, Bool.false_eq_true]
        refine ⟨past_update inv.past fun p member => ?_, fun _ _ state => ?_,
          fun _ _ state => ?_⟩
        · cases member
        · cases state
          exact inv.bounded attempts successes rfl
        · cases state
          refine ⟨live, succeeded, liveCensus.keep ?_, succeededCensus.keep ?_, attemptsEq,
            successesEq⟩
          · exact iff_of_false nofun (notProbe _)
          · exact iff_of_false nofun (notSucceeded _)
      · simp only [full, ↓reduceIte]
        refine ⟨past_update inv.past fun p member => ?_, fun _ _ state => ?_,
          fun _ _ state => ?_⟩
        · cases member
          exact Nat.le_refl _
        · cases state
          omega
        · cases state
          refine ⟨insert call live, succeeded, liveCensus.enter rfl, succeededCensus.keep ?_, ?_,
            successesEq⟩
          · exact iff_of_false nofun (notSucceeded _)
          · rw [liveCensus.card_enter (notProbe _)]
            omega

/-! ## Recording an outcome -/

/-- `call` was admitted in the half-open period the breaker is in. -/
def OfCurrentPeriod (s : System ι) (call : ι) : Prop :=
  s.permits call = .outstanding (some s.period)

/-- Only calls of the current half-open period report a success to a half-open
breaker, or a cancellation to a half-open breaker with a probe slot in use. -/
def Isolated (s : System ι) : Action ι → Prop
  | .finish call .success => s.state.status = .halfOpen → OfCurrentPeriod s call
  | .finish call .cancellation =>
      ∀ attempts successes, s.state = .halfOpen (attempts + 1) successes → OfCurrentPeriod s call
  | .drop call =>
      ∀ attempts successes, s.state = .halfOpen (attempts + 1) successes → OfCurrentPeriod s call
  | _ => True

theorem inv_recordOutcome {call : ι} {period : Option Nat} {outcome : CircuitOutcome}
    (inv : Inv cfg s) (outstanding : s.permits call = .outstanding period)
    (succeeds : outcome = .success → s.state.status = .halfOpen → period = some s.period)
    (cancels : outcome = .cancellation → ∀ attempts successes,
      s.state = .halfOpen (attempts + 1) successes → period = some s.period) :
    Inv cfg (recordOutcome cfg s call period outcome) := by
  have past : ∀ i p, ((recordOutcome cfg s call period outcome).permits i).period = some p →
      p ≤ s.period := by
    apply past_update inv.past
    intro p member
    exact inv.past call p (by rw [outstanding]; exact member)
  obtain ⟨state, counters, now, current, permits⟩ := s
  cases state with
  | closed failures =>
      have notHalfOpen : ∀ attempts successes,
          recordConsecutive cfg now (.closed failures) outcome ≠ .halfOpen attempts successes := by
        intro attempts successes state
        cases outcome <;> simp only [recordConsecutive] at state
        · cases state
        · split at state <;> cases state
        · cases state
      exact ⟨past, fun _ _ state => absurd state (notHalfOpen _ _),
        fun _ _ state => absurd state (notHalfOpen _ _)⟩
  | opened openedAt =>
      have notHalfOpen : ∀ attempts successes,
          recordConsecutive cfg now (.opened openedAt) outcome ≠ .halfOpen attempts successes := by
        intro attempts successes state
        cases outcome <;> cases state
      exact ⟨past, fun _ _ state => absurd state (notHalfOpen _ _),
        fun _ _ state => absurd state (notHalfOpen _ _)⟩
  | halfOpen attempts successes =>
      have bounded := inv.bounded attempts successes rfl
      rcases inv.probes attempts successes rfl with
        ⟨live, succeeded, liveCensus, succeededCensus, attemptsEq, successesEq⟩
      dsimp only at outstanding liveCensus succeededCensus bounded
      cases outcome with
      | failure =>
          refine ⟨past, fun _ _ state => ?_, fun _ _ state => ?_⟩
          · cases state
          · cases state
      | success =>
          have own : period = some current := succeeds rfl rfl
          subst own
          have probe : IsProbe current (permits call) := outstanding
          have notYet : ¬ IsSucceededProbe current (permits call) := by
            rw [outstanding]
            exact nofun
          refine ⟨past, fun attempts' successes' state => ?_, fun attempts' successes' state => ?_⟩
          · simp only [recordOutcome, recordConsecutive] at state
            split at state
            · cases state
            · cases state
              exact bounded
          · simp only [recordOutcome, recordConsecutive] at state
            split at state
            · cases state
            · cases state
              refine ⟨live.erase call, insert call succeeded, liveCensus.leave nofun,
                succeededCensus.enter rfl, ?_, ?_⟩
              · rw [succeededCensus.card_enter notYet]
                have := liveCensus.card_leave probe
                omega
              · rw [succeededCensus.card_enter notYet]
                omega
      | cancellation =>
          have notSucceeded : ∀ p, ¬ IsSucceededProbe current (permits call) ∧
              ¬ IsSucceededProbe current (.finished p .cancellation) := by
            intro p
            rw [outstanding]
            exact ⟨nofun, nofun⟩
          cases attempts with
          | zero =>
              -- the saturating decrement leaves the empty slots as they are
              have noProbe : ¬ IsProbe current (permits call) := by
                intro probe
                have := liveCensus.pos probe
                omega
              refine ⟨past, fun _ _ state => ?_, fun _ _ state => ?_⟩
              · cases state
                exact bounded
              · cases state
                refine ⟨live, succeeded, liveCensus.keep ?_, succeededCensus.keep ?_, attemptsEq,
                  successesEq⟩
                · exact iff_of_false nofun noProbe
                · exact iff_of_false (notSucceeded _).2 (notSucceeded period).1
          | succ attempts =>
              have own : period = some current := cancels rfl attempts successes rfl
              subst own
              have probe : IsProbe current (permits call) := outstanding
              refine ⟨past, fun _ _ state => ?_, fun _ _ state => ?_⟩
              · cases state
                omega
              · cases state
                refine ⟨live.erase call, succeeded, liveCensus.leave nofun, succeededCensus.keep ?_,
                  ?_, successesEq⟩
                · exact iff_of_false (notSucceeded _).2 (notSucceeded none).1
                · have := liveCensus.card_leave probe
                  omega

/-! ## Runs -/

theorem inv_step {a : Action ι} (inv : Inv cfg s) (isolated : Isolated s a)
    (step : step cfg s a = some s') : Inv cfg s' := by
  rcases step_cases step with ⟨call, rfl, unused, rfl⟩ |
    ⟨call, period, outcome, action, outstanding, rfl⟩ | ⟨elapsed, rfl, rfl⟩
  · exact inv_acquire inv unused
  · have ofPeriod : OfCurrentPeriod s call → period = some s.period := by
      intro own
      exact Permit.outstanding.inj (outstanding.symm.trans own)
    refine inv_recordOutcome inv outstanding (fun success halfOpen => ?_)
      (fun cancellation attempts successes state => ?_)
    · rcases action with rfl | ⟨rfl, rfl⟩
      · subst success
        exact ofPeriod (isolated halfOpen)
      · cases success
    · rcases action with rfl | ⟨rfl, rfl⟩
      · subst cancellation
        exact ofPeriod (isolated attempts successes state)
      · exact ofPeriod (isolated attempts successes state)
  · exact ⟨inv.past, inv.bounded, inv.probes⟩

theorem inv_reach (reach : (lts cfg ι).Reach Isolated s) : Inv cfg s :=
  reach.invariant inv_new fun _ _ _ inv isolated step => inv_step inv isolated step

/-- A step that closes a half-open breaker is the last of
`half_open_max_calls` successes. -/
theorem succeeded_of_close {a : Action ι} {attempts successes failures : Nat} (inv : Inv cfg s)
    (isolated : Isolated s a) (step : step cfg s a = some s')
    (halfOpen : s.state = .halfOpen attempts successes) (closed : s'.state = .closed failures) :
    ∃ calls : Finset ι, calls.card = cfg.halfOpenMaxCalls ∧
      ∀ call ∈ calls, s'.permits call = .finished (some s.period) .success := by
  rcases inv.probes attempts successes halfOpen with
    ⟨live, succeeded, liveCensus, succeededCensus, attemptsEq, successesEq⟩
  rcases step_cases step with ⟨call, rfl, unused, rfl⟩ |
    ⟨call, period, outcome, action, outstanding, rfl⟩ | ⟨elapsed, rfl, rfl⟩
  · simp only [acquire, halfOpen, beforeConsecutive_halfOpen] at closed
    split at closed <;> split at closed <;> cases closed
  · cases outcome with
    | failure =>
        simp only [recordOutcome, halfOpen, recordConsecutive] at closed
        cases closed
    | cancellation =>
        simp only [recordOutcome, halfOpen, recordConsecutive] at closed
        cases closed
    | success =>
        rcases action with rfl | ⟨_, impossible⟩
        · have own : s.permits call = .outstanding (some s.period) :=
            isolated (by rw [halfOpen]; rfl)
          have periodEq : period = some s.period :=
            Permit.outstanding.inj (outstanding.symm.trans own)
          subst periodEq
          simp only [recordOutcome, halfOpen, recordConsecutive] at closed
          split at closed
          · rename_i last
            refine ⟨insert call succeeded, ?_, fun i member => ?_⟩
            · rw [succeededCensus.card_enter (by rw [own]; exact nofun)]
              omega
            · exact ((succeededCensus.enter (c := call) rfl) i).mp member
          · cases closed
        · cases impossible
  · rw [halfOpen] at closed
    cases closed

/-- **Half-open isolation.**  Along every run in which only calls of the current
period report a success, or a cancellation while a slot is in use, to the
half-open breaker: at most
`half_open_max_calls` calls of the period are outstanding, the breaker closes
only after that many calls of the same period have succeeded, and the two
counters count nothing but calls of the period. -/
theorem halfOpen_isolation (cfg : CircuitBreakerConfig) (s : System ι)
    (reach : (lts cfg ι).Reach Isolated s) (halfOpen : s.state.status = .halfOpen) :
    (∀ calls : Finset ι, (∀ call ∈ calls, s.permits call = .outstanding (some s.period)) →
      calls.card ≤ cfg.halfOpenMaxCalls) ∧
    (∀ a s', Isolated s a → (lts cfg ι).step s a = some s' → s'.state.status = .closed →
      ∃ calls : Finset ι, calls.card = cfg.halfOpenMaxCalls ∧
        ∀ call ∈ calls, s'.permits call = .finished (some s.period) .success) ∧
    ∃ attempts successes, s.state = .halfOpen attempts successes ∧
      ProbeCount s attempts successes := by
  have inv := inv_reach reach
  cases state : s.state with
  | closed failures => rw [state] at halfOpen; cases halfOpen
  | opened openedAt => rw [state] at halfOpen; cases halfOpen
  | halfOpen attempts successes =>
      refine ⟨fun calls all => ?_, fun a s' isolated step closed => ?_, attempts, successes, rfl,
        inv.probes attempts successes state⟩
      · rcases inv.probes attempts successes state with
          ⟨live, succeeded, liveCensus, succeededCensus, attemptsEq, successesEq⟩
        have := inv.bounded attempts successes state
        have := liveCensus.card_le all
        omega
      · cases after : s'.state with
        | closed failures => exact succeeded_of_close inv isolated step state after
        | opened openedAt => rw [after] at closed; cases closed
        | halfOpen attempts' successes' => rw [after] at closed; cases closed

/-- A probe slot of a breaker with one probe: the failed call opens it, the
next call after the reset timeout is the probe. -/
theorem halfOpen_isolation_single_probe :
    ∃ s : System (Fin 2), s.state = .halfOpen 1 0 ∧
      (∀ calls : Finset (Fin 2), (∀ call ∈ calls, s.permits call = .outstanding (some s.period)) →
        calls.card ≤ 1) :=
  have meets : (lts ⟨1, 5, 1⟩ (Fin 2)).Meets Isolated (CircuitBreaker.new (Fin 2))
      [.acquire 0, .finish 0 .failure, .advance 5, .acquire 1] :=
    ⟨trivial, trivial, trivial, trivial, trivial⟩
  have reach := Lts.reach_of_exec _ meets rfl
  ⟨_, rfl, (halfOpen_isolation _ _ reach rfl).1⟩

/-- Outcomes of calls admitted before the half-open period do free probe slots
and do count as probe successes.  With one probe allowed, call `0` is admitted
by the closed breaker and call `1` fails and opens it; call `2` is the probe.
Dropping call `0` then admits call `3` beside the probe, and a success of call
`0` closes the breaker although no probe has succeeded. -/
theorem stale_outcomes_break_isolation :
    (∃ s, (lts ⟨1, 5, 1⟩ (Fin 4)).Reachable s ∧ s.state.status = .halfOpen ∧
      ∃ calls : Finset (Fin 4), (∀ call ∈ calls, s.permits call = .outstanding (some s.period)) ∧
        1 < calls.card) ∧
    (∃ s s', (lts ⟨1, 5, 1⟩ (Fin 4)).Reachable s ∧ s.state.status = .halfOpen ∧
      (lts ⟨1, 5, 1⟩ (Fin 4)).step s (.finish 0 .success) = some s' ∧
      s'.state.status = .closed ∧
      ∀ call, s'.permits call ≠ .finished (some s.period) .success) := by
  refine ⟨⟨_, Lts.reachable_of_exec [.acquire 0, .acquire 1, .finish 1 .failure, .advance 5,
      .acquire 2, .drop 0, .acquire 3] rfl, rfl, {2, 3}, by decide, by decide⟩,
    ⟨_, _, Lts.reachable_of_exec [.acquire 0, .acquire 1, .finish 1 .failure, .advance 5,
      .acquire 2] rfl, rfl, rfl, rfl, by decide⟩⟩

end RustZero.Breaker
