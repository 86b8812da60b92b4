import RustZero.BreakerHalfOpen

/-!
# The consecutive breaker opens on time and never wedges

Two facts that hold along every run, stale permits included.

* A half-open breaker without outstanding permits admits the next call.  The
  counter `attempts` is lowered by any cancellation, of whatever period, so it
  does not count the probes of the period; it stays below the outstanding
  permits plus `successes` all the same (`Unwedged.slots`), and `successes`
  stays below `half_open_max_calls`.
* A closed breaker counts the failures since it was closed or last recorded a
  success.  `failuresSinceReset` reads that number off the history of recorded
  outcomes, which the source does not keep.
-/

namespace RustZero.Breaker

open Lib

/-! ## The history of recorded outcomes -/

inductive Entry where
  | recorded (outcome : CircuitOutcome)
  /-- The breaker has gone from half-open to closed. -/
  | enteredClosed
  deriving DecidableEq, Repr

def Entry.resets : Entry → Bool
  | .recorded .success => true
  | .enteredClosed => true
  | _ => false

/-- Failures recorded since the later of entering `Closed` and the last success;
the history is newest first. -/
def failuresSinceReset (history : List Entry) : Nat :=
  (history.takeWhile fun entry => !entry.resets).count (.recorded .failure)

theorem failuresSinceReset_reset {entry : Entry} {history : List Entry} (resets : entry.resets) :
    failuresSinceReset (entry :: history) = 0 := by
  simp [failuresSinceReset, resets]

@[simp]
theorem failuresSinceReset_failure (history : List Entry) :
    failuresSinceReset (.recorded .failure :: history) = failuresSinceReset history + 1 := by
  simp [failuresSinceReset, Entry.resets]

@[simp]
theorem failuresSinceReset_cancellation (history : List Entry) :
    failuresSinceReset (.recorded .cancellation :: history) = failuresSinceReset history := by
  simp [failuresSinceReset, Entry.resets]

section Audited

variable {ι : Type}

def entered (before after : System ι) : List Entry :=
  if before.state.status ≠ .closed ∧ after.state.status = .closed then [.enteredClosed] else []

/-- What a step adds to the history. -/
def note (before : System ι) (a : Action ι) (after : System ι) : List Entry :=
  match a with
  | .finish _ outcome => entered before after ++ [.recorded outcome]
  | .drop _ => entered before after ++ [.recorded .cancellation]
  | _ => entered before after

/-- The breaker beside the history of its outcomes. -/
def audited (cfg : CircuitBreakerConfig) (ι : Type) [DecidableEq ι] :
    Lts (System ι × List Entry) (Action ι) :=
  (lts cfg ι).audit note

/-- The history restricts no run. -/
theorem reachable_iff_audited [DecidableEq ι] {cfg : CircuitBreakerConfig} {s : System ι} :
    (lts cfg ι).Reachable s ↔ ∃ history, (audited cfg ι).Reachable (s, history) :=
  Lts.reach_audit_iff

/-- The call is admitted when it is made next. -/
def Admits [DecidableEq ι] (cfg : CircuitBreakerConfig) (s : System ι) (call : ι) : Prop :=
  ∃ s' period, step cfg s (.acquire call) = some s' ∧ s'.permits call = .outstanding period

end Audited

variable {ι : Type} {cfg : CircuitBreakerConfig} {s s' : System ι}

/-! ## Admission -/

theorem beforeConsecutive_closed (now failures : Nat) :
    beforeConsecutive cfg now (.closed failures) = (true, .closed failures) :=
  rfl

theorem admits_of_beforeConsecutive [DecidableEq ι] {call : ι}
    (unused : s.permits call = .unused)
    (admitted : (beforeConsecutive cfg s.now s.state).1 = true) :
    Admits cfg s call := by
  have taken : step cfg s (.acquire call) = some (acquire cfg s call) := by
    simp only [step, unused]
  have granted : ∃ period, (acquire cfg s call).permits call = .outstanding period := by
    simp only [acquire, admitted, if_true, Function.update_self]
    exact ⟨_, rfl⟩
  obtain ⟨period, granted⟩ := granted
  exact ⟨acquire cfg s call, period, taken, granted⟩

/-! ## The invariant -/

def IsOutstanding (permit : Permit) : Prop :=
  ∃ period, permit = .outstanding period

/-- Every slot in use is a success of the period or belongs to an outstanding
permit, and a closed breaker counts failures. -/
structure Unwedged (cfg : CircuitBreakerConfig) (s : System ι) (history : List Entry) : Prop where
  slots : ∃ live : Finset ι, Census live s.permits IsOutstanding ∧
    ∀ attempts successes, s.state = .halfOpen attempts successes →
      attempts ≤ live.card + successes
  successes : ∀ attempts successes, s.state = .halfOpen attempts successes →
    successes < cfg.halfOpenMaxCalls
  failures : ∀ failures, s.state = .closed failures →
    failures = failuresSinceReset history ∧ failures < cfg.maxFailures

section States

variable {history : List Entry} {live : Finset ι}

theorem Unwedged.of_closed {failures : Nat} (census : Census live s.permits IsOutstanding)
    (state : s.state = .closed failures) (counted : failures = failuresSinceReset history)
    (below : failures < cfg.maxFailures) : Unwedged cfg s history where
  slots := ⟨live, census, fun _ _ other => by rw [state] at other; cases other⟩
  successes := fun _ _ other => by rw [state] at other; cases other
  failures := by
    intro count after
    rw [state] at after
    cases after
    exact ⟨counted, below⟩

theorem Unwedged.of_opened {openedAt : Nat} (census : Census live s.permits IsOutstanding)
    (state : s.state = .opened openedAt) : Unwedged cfg s history where
  slots := ⟨live, census, fun _ _ other => by rw [state] at other; cases other⟩
  successes := fun _ _ other => by rw [state] at other; cases other
  failures := fun _ other => by rw [state] at other; cases other

theorem Unwedged.of_halfOpen {attempts successes : Nat}
    (census : Census live s.permits IsOutstanding) (state : s.state = .halfOpen attempts successes)
    (bound : attempts ≤ live.card + successes) (below : successes < cfg.halfOpenMaxCalls) :
    Unwedged cfg s history where
  slots := by
    refine ⟨live, census, ?_⟩
    intro attempts' successes' after
    rw [state] at after
    cases after
    exact bound
  successes := by
    intro attempts' successes' after
    rw [state] at after
    cases after
    exact below
  failures := fun _ other => by rw [state] at other; cases other

end States

theorem unwedged_new (failing : 1 ≤ cfg.maxFailures) :
    Unwedged cfg (CircuitBreaker.new ι) [] := by
  have none : Census ∅ (CircuitBreaker.new ι).permits IsOutstanding := by
    apply Census.empty
    intro call outstanding
    obtain ⟨period, impossible⟩ := outstanding
    cases impossible
  exact .of_closed none rfl rfl failing

variable [DecidableEq ι] {history : List Entry}

/-! ## One step -/

theorem unwedged_acquire {call : ι} (probing : 1 ≤ cfg.halfOpenMaxCalls)
    (inv : Unwedged cfg s history) (unused : s.permits call = .unused) :
    Unwedged cfg (acquire cfg s call) (entered s (acquire cfg s call) ++ history) := by
  have notOutstanding : ¬ IsOutstanding (s.permits call) := by
    intro outstanding
    obtain ⟨period, phase⟩ := outstanding
    rw [unused] at phase
    cases phase
  obtain ⟨state, counters, now, period, permits⟩ := s
  obtain ⟨live, census, slots⟩ := inv.slots
  have enter : ∀ p, Census (insert call live)
      (Function.update permits call (.outstanding p)) IsOutstanding := by
    intro p
    exact census.enter ⟨p, rfl⟩
  have larger : (insert call live).card = live.card + 1 := census.card_enter notOutstanding
  have same : Census live (Function.update permits call .rejected) IsOutstanding := by
    apply census.keep
    refine iff_of_false ?_ notOutstanding
    intro outstanding
    obtain ⟨p, impossible⟩ := outstanding
    cases impossible
  cases state with
  | closed failures =>
      obtain ⟨counted, below⟩ := inv.failures failures rfl
      exact .of_closed (enter _) rfl counted below
  | opened openedAt =>
      have free : ¬ cfg.halfOpenMaxCalls ≤ 0 := by omega
      simp only [acquire, beforeConsecutive_opened, free, ↓reduceIte]
      by_cases early : now - openedAt < cfg.resetTimeout
      · simp only [early, ↓reduceIte, Bool.false_eq_true]
        exact .of_opened same rfl
      · simp only [early, ↓reduceIte]
        exact .of_halfOpen (enter _) rfl (by omega) probing
  | halfOpen attempts successes =>
      have bound := slots attempts successes rfl
      have below := inv.successes attempts successes rfl
      simp only [acquire, beforeConsecutive_halfOpen]
      by_cases full : cfg.halfOpenMaxCalls ≤ attempts
      · simp only [full, ↓reduceIte, Bool.false_eq_true]
        exact .of_halfOpen same rfl bound below
      · simp only [full, ↓reduceIte]
        exact .of_halfOpen (enter _) rfl (by omega) below

/-- Recording an outcome takes one permit from the outstanding ones.  A success
moves it to `successes`; a cancellation lowers `attempts` with it. -/
theorem unwedged_recordOutcome {call : ι} {period : Option Nat} {outcome : CircuitOutcome}
    (failing : 1 ≤ cfg.maxFailures) (inv : Unwedged cfg s history)
    (outstanding : s.permits call = .outstanding period) :
    Unwedged cfg (recordOutcome cfg s call period outcome)
      (entered s (recordOutcome cfg s call period outcome) ++ .recorded outcome :: history) := by
  obtain ⟨state, counters, now, ghost, permits⟩ := s
  obtain ⟨live, census, slots⟩ := inv.slots
  have leave : Census (live.erase call)
      (Function.update permits call (.finished period outcome)) IsOutstanding := by
    apply census.leave
    intro again
    obtain ⟨p, impossible⟩ := again
    cases impossible
  have smaller : (live.erase call).card + 1 = live.card := census.card_leave ⟨period, outstanding⟩
  cases state with
  | closed failures =>
      obtain ⟨counted, below⟩ := inv.failures failures rfl
      cases outcome with
      | success => exact .of_closed leave rfl (failuresSinceReset_reset rfl).symm failing
      | failure =>
          simp only [recordOutcome, recordConsecutive]
          by_cases last : cfg.maxFailures ≤ failures + 1
          · simp only [last, ↓reduceIte]
            exact .of_opened leave rfl
          · simp only [last, ↓reduceIte]
            refine .of_closed leave rfl ?_ (by omega)
            rw [counted]
            exact (failuresSinceReset_failure history).symm
      | cancellation =>
          refine .of_closed leave rfl ?_ below
          rw [counted]
          exact (failuresSinceReset_cancellation history).symm
  | opened openedAt =>
      -- an open breaker ignores every outcome
      have ignored : recordConsecutive cfg now (.opened openedAt) outcome = .opened openedAt := by
        cases outcome <;> rfl
      exact .of_opened leave ignored
  | halfOpen attempts successes =>
      have bound := slots attempts successes rfl
      have below := inv.successes attempts successes rfl
      cases outcome with
      | success =>
          simp only [recordOutcome, recordConsecutive]
          by_cases last : successes + 1 = cfg.halfOpenMaxCalls
          · simp only [last, ↓reduceIte]
            exact .of_closed leave rfl (failuresSinceReset_reset rfl).symm failing
          · simp only [last, ↓reduceIte]
            exact .of_halfOpen leave rfl (by omega) (by omega)
      | failure => exact .of_opened leave rfl
      | cancellation => exact .of_halfOpen leave rfl (by omega) below

theorem unwedged_step {a : Action ι} {history' : List Entry} (failing : 1 ≤ cfg.maxFailures)
    (probing : 1 ≤ cfg.halfOpenMaxCalls) (inv : Unwedged cfg s history)
    (taken : (audited cfg ι).step (s, history) a = some (s', history')) :
    Unwedged cfg s' history' := by
  obtain ⟨moved, noted⟩ := Lts.audit_step taken
  subst noted
  rcases step_cases moved with ⟨call, rfl, unused, rfl⟩ |
    ⟨call, period, outcome, action, outstanding, rfl⟩ | ⟨elapsed, rfl, rfl⟩
  · exact unwedged_acquire probing inv unused
  · have recorded : Unwedged cfg (recordOutcome cfg s call period outcome) _ :=
      unwedged_recordOutcome failing inv outstanding
    rcases action with rfl | ⟨rfl, rfl⟩
    · simpa only [note, List.append_assoc, List.singleton_append] using recorded
    · simpa only [note, List.append_assoc, List.singleton_append] using recorded
  · have quiet : entered s { s with now := s.now + elapsed } = [] :=
      if_neg fun both => both.1 both.2
    simp only [note, quiet, List.nil_append]
    exact ⟨inv.slots, inv.successes, inv.failures⟩

theorem unwedged_reach (failing : 1 ≤ cfg.maxFailures) (probing : 1 ≤ cfg.halfOpenMaxCalls)
    (reach : (audited cfg ι).Reachable (s, history)) : Unwedged cfg s history :=
  reach.invariant (I := fun t => Unwedged cfg t.1 t.2) (unwedged_new failing)
    fun _ _ _ inv _ taken => unwedged_step failing probing inv taken

/-- Only the failure that brings the count to `max_failures` takes a closed
breaker out of `Closed`. -/
theorem failure_of_leave {a : Action ι} {failures : Nat} (closed : s.state = .closed failures)
    (taken : step cfg s a = some s') (left : s'.state.status ≠ .closed) :
    ∃ call, a = .finish call .failure ∧ cfg.maxFailures ≤ failures + 1 := by
  rcases step_cases taken with ⟨call, rfl, unused, rfl⟩ |
    ⟨call, period, outcome, action, outstanding, rfl⟩ | ⟨elapsed, rfl, rfl⟩
  · simp only [acquire, closed, beforeConsecutive_closed, if_true] at left
    exact absurd rfl left
  · simp only [recordOutcome, closed] at left
    cases outcome with
    | success => exact absurd rfl left
    | cancellation => exact absurd rfl left
    | failure =>
        simp only [recordConsecutive] at left
        split at left
        · rename_i last
          rcases action with rfl | ⟨_, impossible⟩
          · exact ⟨call, rfl, last⟩
          · cases impossible
        · exact absurd rfl left
  · simp only [closed] at left
    exact absurd rfl left

/-- A step takes a closed breaker out of `Closed` exactly when it brings the
count to `max_failures`. -/
theorem leaves_closed_iff {a : Action ι} {failures : Nat} {history' : List Entry}
    (failing : 1 ≤ cfg.maxFailures) (probing : 1 ≤ cfg.halfOpenMaxCalls)
    (inv : Unwedged cfg s history) (closed : s.state = .closed failures)
    (taken : (audited cfg ι).step (s, history) a = some (s', history')) :
    s'.state.status ≠ .closed ↔ failuresSinceReset history' = cfg.maxFailures := by
  have next := unwedged_step failing probing inv taken
  obtain ⟨counted, below⟩ := inv.failures failures closed
  obtain ⟨moved, noted⟩ := Lts.audit_step taken
  constructor
  · intro left
    obtain ⟨call, action, last⟩ := failure_of_leave closed moved left
    have silent : entered s s' = [] := if_neg fun both => left both.2
    rw [noted, action]
    simp only [note, silent, List.nil_append, List.singleton_append, failuresSinceReset_failure]
    omega
  · intro reached still
    cases after : s'.state with
    | closed count =>
        obtain ⟨countedAfter, belowAfter⟩ := next.failures count after
        omega
    | opened openedAt => rw [after] at still; cases still
    | halfOpen attempts successes => rw [after] at still; cases still

/-! ## Along every run -/

/-- **The breaker cannot wedge and opens exactly on time.**  In every reachable
state, whatever stale permits are still about: a half-open breaker without
outstanding permits admits the next call, an open breaker admits the next call
made once `reset_timeout` has elapsed, and a closed breaker counts the failures
since it was closed or last recorded a success, stays below `max_failures`, and
leaves `Closed` exactly when that count gets there. -/
theorem breaker_never_wedges (cfg : CircuitBreakerConfig) (failing : 1 ≤ cfg.maxFailures)
    (probing : 1 ≤ cfg.halfOpenMaxCalls) (s : System ι) (history : List Entry)
    (reach : (audited cfg ι).Reachable (s, history)) :
    (s.state.status = .halfOpen → (∀ call, ¬ IsOutstanding (s.permits call)) →
      ∀ call, s.permits call = .unused → Admits cfg s call) ∧
    (∀ openedAt elapsed, s.state = .opened openedAt →
      cfg.resetTimeout ≤ s.now + elapsed - openedAt →
      ∃ s', step cfg s (.advance elapsed) = some s' ∧
        ∀ call, s'.permits call = .unused → Admits cfg s' call) ∧
    (∀ failures, s.state = .closed failures →
      failures = failuresSinceReset history ∧ failures < cfg.maxFailures ∧
      ∀ a s' history', (audited cfg ι).step (s, history) a = some (s', history') →
        (s'.state.status ≠ .closed ↔ failuresSinceReset history' = cfg.maxFailures)) := by
  have inv := unwedged_reach failing probing reach
  refine ⟨?_, ?_, ?_⟩
  · intro halfOpen none call unused
    cases state : s.state with
    | closed failures => rw [state] at halfOpen; cases halfOpen
    | opened openedAt => rw [state] at halfOpen; cases halfOpen
    | halfOpen attempts successes =>
        obtain ⟨live, census, slots⟩ := inv.slots
        have empty : live.card = 0 := by
          refine Finset.card_eq_zero.mpr (Finset.eq_empty_of_forall_notMem ?_)
          intro other member
          exact none other ((census other).mp member)
        have bound := slots attempts successes state
        have below := inv.successes attempts successes state
        have free : ¬ cfg.halfOpenMaxCalls ≤ attempts := by omega
        apply admits_of_beforeConsecutive unused
        rw [state, beforeConsecutive_halfOpen, if_neg free]
  · intro openedAt elapsed opened due
    refine ⟨_, rfl, ?_⟩
    intro call unused
    have late : ¬ s.now + elapsed - openedAt < cfg.resetTimeout := by omega
    have free : ¬ cfg.halfOpenMaxCalls ≤ 0 := by omega
    apply admits_of_beforeConsecutive unused
    simp only [opened, beforeConsecutive_opened, if_neg late, if_neg free]
  · intro failures closed
    obtain ⟨counted, below⟩ := inv.failures failures closed
    refine ⟨counted, below, ?_⟩
    intro a s' history' taken
    exact leaves_closed_iff failing probing inv closed taken

/-- One probe, cancelled: the breaker is half-open with no permit outstanding
and one cancellation of an earlier period behind it. -/
theorem breaker_never_wedges_cancelled :
    ∃ s : System Nat, s.state = .halfOpen 0 0 ∧ Admits ⟨1, 5, 1⟩ s 3 := by
  have reach := Lts.reachable_of_exec (L := audited ⟨1, 5, 1⟩ Nat)
    [.acquire 0, .acquire 1, .finish 0 .failure, .advance 5, .acquire 2, .drop 1, .drop 2] rfl
  refine ⟨_, rfl, (breaker_never_wedges _ (by decide) (by decide) _ _ reach).1 rfl ?_ 3 rfl⟩
  intro call outstanding
  obtain ⟨period, phase⟩ := outstanding
  match call with
  | 0 => cases phase
  | 1 => cases phase
  | 2 => cases phase
  | _ + 3 => cases phase

end RustZero.Breaker
