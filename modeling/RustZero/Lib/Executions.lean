import RustZero.Lib.Lts

/-!
# Infinite executions

An `Execution` is an infinite sequence of steps that all meet a condition.  A
goal is reached when some helpful actions, taken again and again, lower a
well-founded rank that no other step raises (`Execution.eventually`): the
argument of every liveness proof under a fairness assumption.

`Execution.WeaklyFair` assumes less, that a group of actions of which one stays
enabled is taken in the end; `WeaklyFair.eventually` then asks that one is enabled
until the goal is reached.  `Execution.padded` makes a finite run that may rest in
its last state an execution.
-/

namespace RustZero.Lib

namespace Lts

universe u v

variable {σ : Type u} {α : Type v}

structure Execution (L : Lts σ α) (P : σ → α → Prop) where
  state : Nat → σ
  action : Nat → α
  meets : ∀ n, P (state n) (action n)
  step : ∀ n, L.step (state n) (action n) = some (state (n + 1))

variable {L : Lts σ α} {P : σ → α → Prop}

/-- What holds at the start of an execution and is preserved by every step holds
all along it. -/
theorem Execution.invariant {I : σ → Prop} (run : L.Execution P) (start : I (run.state 0))
    (step : ∀ s a s', I s → P s a → L.step s a = some s' → I s') : ∀ n, I (run.state n) := by
  intro n
  induction n with
  | zero => exact start
  | succ n ih => exact step _ _ _ ih (run.meets n) (run.step n)

/-- A goal is reached when helpful actions, taken until it is, lower a rank that
nothing raises. -/
theorem Execution.eventually {W : Type*} [Preorder W] [WellFoundedLT W] (run : L.Execution P)
    (goal : σ → Prop) (helpful : α → Prop) (rank : σ → W)
    (fair : ∀ n, ∃ m, n ≤ m ∧ (goal (run.state m) ∨ helpful (run.action m)))
    (keeps : ∀ n, ¬ goal (run.state (n + 1)) → rank (run.state (n + 1)) ≤ rank (run.state n))
    (lowers : ∀ n, helpful (run.action n) → ¬ goal (run.state n) → ¬ goal (run.state (n + 1)) →
      rank (run.state (n + 1)) < rank (run.state n)) : ∃ n, goal (run.state n) := by
  by_contra absent
  have never : ∀ n, ¬ goal (run.state n) := fun n reached => absent ⟨n, reached⟩
  have falls : ∀ n m, n ≤ m → rank (run.state m) ≤ rank (run.state n) := by
    intro n m later
    induction m, later using Nat.le_induction with
    | base => exact le_refl _
    | succ m _ ih => exact le_trans (keeps m (never (m + 1))) ih
  have stuck : ∀ w, ∀ n, rank (run.state n) = w → False := by
    intro w
    induction w using WellFoundedLT.induction with
    | ind w ih =>
        intro n here
        rcases fair n with ⟨m, later, reached | helps⟩
        · exact never m reached
        · have lower := lowers m helps (never m) (never (m + 1))
          exact ih _ (here ▸ lt_of_lt_of_le lower (falls n m later)) (m + 1) rfl
  exact stuck _ 0 rfl

/-- An execution from its `n`th step on. -/
def Execution.drop (run : L.Execution P) (n : Nat) : L.Execution P where
  state := fun i => run.state (n + i)
  action := fun i => run.action (n + i)
  meets := fun i => run.meets (n + i)
  step := fun i => run.step (n + i)

/-- If from some time on one of the actions stays enabled, one of them is taken. -/
def Execution.WeaklyFair (run : L.Execution P) (actions : α → Prop) : Prop :=
  ∀ n, (∀ m, n ≤ m → ∃ a, actions a ∧ (L.step (run.state m) a).isSome) →
    ∃ m, n ≤ m ∧ actions (run.action m)

theorem Execution.WeaklyFair.drop {run : L.Execution P} {actions : α → Prop}
    (fair : run.WeaklyFair actions) (n : Nat) : (run.drop n).WeaklyFair actions := by
  intro start enabled
  have later : ∀ m, n + start ≤ m → ∃ a, actions a ∧ (L.step (run.state m) a).isSome := by
    intro m reached
    have here := enabled (m - n) (by omega)
    have same : n + (m - n) = m := by omega
    simp only [Execution.drop, same] at here
    exact here
  obtain ⟨m, reached, taken⟩ := fair (n + start) later
  refine ⟨m - n, by omega, ?_⟩
  have same : n + (m - n) = m := by omega
  simp only [Execution.drop, same]
  exact taken

/-- `Execution.eventually` for weakly fair actions, one of which is enabled until
the goal is reached. -/
theorem Execution.WeaklyFair.eventually {W : Type*} [Preorder W] [WellFoundedLT W]
    {run : L.Execution P} {helpful : α → Prop} (fair : run.WeaklyFair helpful)
    (goal : σ → Prop) (rank : σ → W)
    (enabled : ∀ n, ¬ goal (run.state n) → ∃ a, helpful a ∧ (L.step (run.state n) a).isSome)
    (keeps : ∀ n, ¬ goal (run.state (n + 1)) → rank (run.state (n + 1)) ≤ rank (run.state n))
    (lowers : ∀ n, helpful (run.action n) → ¬ goal (run.state n) → ¬ goal (run.state (n + 1)) →
      rank (run.state (n + 1)) < rank (run.state n)) : ∃ n, goal (run.state n) := by
  refine run.eventually goal helpful rank ?_ keeps lowers
  intro n
  by_cases reached : ∃ m, n ≤ m ∧ goal (run.state m)
  · obtain ⟨m, later, reached⟩ := reached
    exact ⟨m, later, .inl reached⟩
  · obtain ⟨m, later, taken⟩ :=
      fair n fun m later => enabled m fun here => reached ⟨m, later, here⟩
    exact ⟨m, later, .inr taken⟩

/-! ## Finite runs -/

/-- The state after `n` steps of a list of actions, or after all of them. -/
def stateAfter (L : Lts σ α) : σ → List α → Nat → σ
  | s, [], _ => s
  | s, _ :: _, 0 => s
  | s, a :: as, n + 1 => L.stateAfter ((L.step s a).getD s) as n

theorem stateAfter_zero (s : σ) (as : List α) : L.stateAfter s as 0 = s := by
  cases as <;> rfl

section Padded

variable {as : List α} {idle : α} {s last : σ}

theorem stateAfter_rest (run : L.exec s as = some last) {n : Nat} (rest : as.length ≤ n) :
    L.stateAfter s as n = last := by
  induction as generalizing s n with
  | nil => exact Option.some.inj run
  | cons a as ih =>
      obtain ⟨mid, step, run⟩ := Option.bind_eq_some_iff.mp run
      cases n with
      | zero => exact absurd rest (by simp)
      | succ n =>
          rw [stateAfter, step]
          exact ih run (Nat.le_of_succ_le_succ rest)

theorem stateAfter_step (run : L.exec s as = some last) (rests : L.step last idle = some last)
    (n : Nat) :
    L.step (L.stateAfter s as n) (as.getD n idle) = some (L.stateAfter s as (n + 1)) := by
  induction as generalizing s n with
  | nil =>
      cases run
      exact rests
  | cons a as ih =>
      obtain ⟨mid, step, run⟩ := Option.bind_eq_some_iff.mp run
      cases n with
      | zero =>
          rw [stateAfter, stateAfter, step, stateAfter_zero]
          exact step
      | succ n =>
          rw [stateAfter, stateAfter, step]
          exact ih run n

theorem stateAfter_meets (run : L.exec s as = some last) (meets : L.Meets P s as)
    (idles : P last idle) (n : Nat) : P (L.stateAfter s as n) (as.getD n idle) := by
  induction as generalizing s n with
  | nil =>
      cases run
      exact idles
  | cons a as ih =>
      obtain ⟨mid, step, run⟩ := Option.bind_eq_some_iff.mp run
      obtain ⟨cond, later⟩ := meets
      cases n with
      | zero => exact cond
      | succ n =>
          rw [step] at later
          rw [stateAfter, step]
          exact ih run later n

variable (as idle last) in
/-- A finite run, followed by idle steps in its last state. -/
def Execution.padded (run : L.exec L.init as = some last) (meets : L.Meets P L.init as)
    (rests : L.step last idle = some last) (idles : P last idle) : L.Execution P where
  state := L.stateAfter L.init as
  action := fun n => as.getD n idle
  meets := stateAfter_meets run meets idles
  step := stateAfter_step run rests

/-- It is fair to actions that its last state does not enable. -/
theorem Execution.padded_weaklyFair {actions : α → Prop} {run : L.exec L.init as = some last}
    {meets : L.Meets P L.init as} {rests : L.step last idle = some last} {idles : P last idle}
    (disabled : ∀ a, actions a → L.step last a = none) :
    (Execution.padded as idle last run meets rests idles).WeaklyFair actions := by
  intro n enabled
  obtain ⟨a, one, taken⟩ := enabled (max n as.length) (Nat.le_max_left _ _)
  have final :
      (Execution.padded as idle last run meets rests idles).state (max n as.length) = last :=
    stateAfter_rest run (Nat.le_max_right _ _)
  rw [final, disabled a one] at taken
  cases taken

end Padded

end Lts

end RustZero.Lib
