import Mathlib

/-!
# Labelled transition systems with an executable step

A system is an initial state and a partial step function: `step s a` is the
state after action `a`, or `none` when `a` is not enabled in `s`.  Several
parties that run concurrently are one such system: an action names the party
that moves, so a run of the system is one interleaving of the parties' steps.

* `Lts.Steps P s s'`: `s'` is reached from `s` by steps that all meet the
  condition `P` on the state before the step and the action taken.
* `Lts.Reach P s`: the same from the initial state; `Lts.Reachable` puts no
  condition on the steps.
* `Reach.invariant` and `Steps.preserved` are the induction over a run that
  every safety proof uses, and `Steps.monotone` its instance for a measure;
  `exists_reach_gt` finds runs past any bound and `exists_steps_of_rank` runs to a goal;
  `length_le_of_rank` bounds the runs of a system whose steps all lower a rank.
* `Lts.audit` runs a system beside the history of what its steps noted; the
  history restricts nothing (`reach_audit_iff`).
* `Lts.emitting` is a system whose steps emit output, oldest first;
  `emitting_simulation` carries a step simulation between two of them over runs.
-/

namespace RustZero.Lib

universe u v

/-- An initial state and an executable partial step function. -/
structure Lts (σ : Type u) (α : Type v) where
  init : σ
  step : σ → α → Option σ

namespace Lts

variable {σ : Type u} {α : Type v}

/-- One step whose action meets `P` in the state before it. -/
def StepIf (L : Lts σ α) (P : σ → α → Prop) (s s' : σ) : Prop :=
  ∃ a, P s a ∧ L.step s a = some s'

/-- Finitely many steps that all meet `P`. -/
def Steps (L : Lts σ α) (P : σ → α → Prop) : σ → σ → Prop :=
  Relation.ReflTransGen (L.StepIf P)

/-- States that runs whose steps all meet `P` can reach. -/
def Reach (L : Lts σ α) (P : σ → α → Prop) (s : σ) : Prop :=
  L.Steps P L.init s

/-- The condition every step meets. -/
def Always : σ → α → Prop := fun _ _ => True

/-- States that any run can reach. -/
def Reachable (L : Lts σ α) (s : σ) : Prop :=
  L.Reach Always s

/-- Run a list of actions. -/
def exec (L : Lts σ α) : σ → List α → Option σ
  | s, [] => some s
  | s, a :: as => (L.step s a).bind fun s' => L.exec s' as

/-- Every action of a list meets `P` in the state it is taken in. -/
def Meets (L : Lts σ α) (P : σ → α → Prop) : σ → List α → Prop
  | _, [] => True
  | s, a :: as => P s a ∧ (L.step s a).elim True fun s' => L.Meets P s' as

instance Meets.decidable (L : Lts σ α) (P : σ → α → Prop) [∀ s a, Decidable (P s a)] :
    (s : σ) → (as : List α) → Decidable (L.Meets P s as)
  | _, [] => isTrue trivial
  | s, a :: as =>
      have : Decidable ((L.step s a).elim True fun s' => L.Meets P s' as) :=
        match L.step s a with
        | none => isTrue trivial
        | some s' => Meets.decidable L P s' as
      inferInstanceAs (Decidable (_ ∧ _))

variable {L : Lts σ α} {P Q : σ → α → Prop}

/-! ## Building runs -/

theorem Steps.refl (s : σ) : L.Steps P s s :=
  Relation.ReflTransGen.refl

theorem Steps.trans {s s' s'' : σ} (left : L.Steps P s s') (right : L.Steps P s' s'') :
    L.Steps P s s'' :=
  Relation.ReflTransGen.trans left right

theorem Steps.tail {s s' s'' : σ} {a : α} (run : L.Steps P s s') (cond : P s' a)
    (step : L.step s' a = some s'') : L.Steps P s s'' :=
  Relation.ReflTransGen.tail run ⟨a, cond, step⟩

theorem Steps.single {s s' : σ} {a : α} (cond : P s a) (step : L.step s a = some s') :
    L.Steps P s s' :=
  (Steps.refl s).tail cond step

theorem Steps.weaken (imp : ∀ s a, P s a → Q s a) {s s' : σ} (run : L.Steps P s s') :
    L.Steps Q s s' := by
  induction run with
  | refl => exact Steps.refl _
  | tail _ step ih =>
      obtain ⟨a, cond, step⟩ := step
      exact ih.tail (imp _ _ cond) step

theorem Reach.init : L.Reach P L.init :=
  Steps.refl _

/-- A run under a condition is a run. -/
theorem Reach.reachable {s : σ} (reach : L.Reach P s) : L.Reachable s :=
  Steps.weaken (fun _ _ _ => trivial) reach

theorem steps_of_exec (as : List α) {s s' : σ} (meets : L.Meets P s as)
    (run : L.exec s as = some s') : L.Steps P s s' := by
  induction as generalizing s with
  | nil =>
      cases run
      exact Steps.refl _
  | cons a as ih =>
      obtain ⟨mid, step, rest⟩ := Option.bind_eq_some_iff.mp run
      obtain ⟨cond, later⟩ := meets
      rw [step] at later
      exact (Steps.single cond step).trans (ih later rest)

/-- Actions that meet the condition in every state. -/
theorem meets_of_forall {as : List α} (meets : ∀ a ∈ as, ∀ s, P s a) (s : σ) :
    L.Meets P s as := by
  induction as generalizing s with
  | nil => trivial
  | cons a as ih =>
      refine ⟨meets a List.mem_cons_self s, ?_⟩
      have later := ih fun b member => meets b (List.mem_cons_of_mem _ member)
      cases L.step s a with
      | none => trivial
      | some s' => exact later s'

theorem meets_always (s : σ) (as : List α) : L.Meets Always s as :=
  meets_of_forall (fun _ _ _ => trivial) s

/-- An executed list of actions that all meet the condition reaches its last
state. -/
theorem reach_of_exec (as : List α) {s : σ} (meets : L.Meets P L.init as)
    (run : L.exec L.init as = some s) : L.Reach P s :=
  steps_of_exec as meets run

theorem reachable_of_exec (as : List α) {s : σ} (run : L.exec L.init as = some s) :
    L.Reachable s :=
  reach_of_exec as (meets_always _ _) run

/-! ## Induction over runs -/

/-- What one step preserves, a run preserves. -/
theorem Steps.preserved {I : σ → Prop} {s s' : σ} (run : L.Steps P s s')
    (step : ∀ s a s', I s → P s a → L.step s a = some s' → I s') (start : I s) : I s' := by
  induction run with
  | refl => exact start
  | tail _ last ih =>
      obtain ⟨a, cond, last⟩ := last
      exact step _ a _ ih cond last

/-- What holds initially and is preserved by every step holds in every state
reached. -/
theorem Reach.invariant {I : σ → Prop} {s : σ} (reach : L.Reach P s) (start : I L.init)
    (step : ∀ s a s', I s → P s a → L.step s a = some s' → I s') : I s :=
  Steps.preserved reach step start

/-- A measure that no step from a state satisfying the invariant lowers is
monotone along runs. -/
theorem Steps.monotone {I : σ → Prop} {f : σ → Nat} {s s' : σ} (run : L.Steps P s s')
    (step : ∀ s a s', I s → P s a → L.step s a = some s' → I s' ∧ f s ≤ f s')
    (start : I s) : f s ≤ f s' := by
  have both : I s' ∧ f s ≤ f s' :=
    run.preserved (I := fun t => I t ∧ f s ≤ f t)
      (fun t a t' held cond last =>
        have next := step t a t' held.1 cond last
        ⟨next.1, Nat.le_trans held.2 next.2⟩)
      ⟨start, Nat.le_refl _⟩
  exact both.2

/-- A measure that a run can always raise, keeping the invariant, has no bound. -/
theorem exists_reach_gt {I : σ → Prop} {f : σ → Nat} (start : I L.init)
    (grows : ∀ s, I s → ∃ s', L.Steps P s s' ∧ I s' ∧ f s < f s') (bound : Nat) :
    ∃ s, L.Reach P s ∧ bound < f s := by
  have passes : ∃ s, L.Reach P s ∧ I s ∧ bound ≤ f s := by
    induction bound with
    | zero => exact ⟨L.init, Reach.init, start, Nat.zero_le _⟩
    | succ bound ih =>
        obtain ⟨s, reach, held, above⟩ := ih
        obtain ⟨s', run, held', raised⟩ := grows s held
        exact ⟨s', reach.trans run, held', Nat.lt_of_le_of_lt above raised⟩
  obtain ⟨s, reach, held, above⟩ := passes
  obtain ⟨s', run, _, raised⟩ := grows s held
  exact ⟨s', reach.trans run, Nat.lt_of_le_of_lt above raised⟩

/-- A goal is reached from every state in which some step lowers a rank as long as it is
not reached. -/
theorem exists_steps_of_rank {I Goal : σ → Prop} (rank : σ → Nat)
    (lowers : ∀ s, I s → ¬ Goal s →
      ∃ a s', P s a ∧ L.step s a = some s' ∧ I s' ∧ rank s' < rank s)
    {s : σ} (held : I s) : ∃ s', L.Steps P s s' ∧ Goal s' := by
  induction bound : rank s using Nat.strong_induction_on generalizing s with
  | _ n ih =>
      by_cases goal : Goal s
      · exact ⟨s, Steps.refl s, goal⟩
      · obtain ⟨a, mid, cond, step, held', lower⟩ := lowers s held goal
        obtain ⟨s', run, goal'⟩ := ih (rank mid) (bound ▸ lower) held' rfl
        exact ⟨s', (Steps.single cond step).trans run, goal'⟩

/-- A rank that every step lowers bounds the runs. -/
theorem length_le_of_rank {I : σ → Prop} (rank : σ → Nat)
    (lowers : ∀ s a s', I s → L.step s a = some s' → I s' ∧ rank s' < rank s) (as : List α)
    {s s' : σ} (held : I s) (run : L.exec s as = some s') : as.length ≤ rank s := by
  induction as generalizing s with
  | nil => exact Nat.zero_le _
  | cons a as ih =>
      obtain ⟨mid, step, rest⟩ := Option.bind_eq_some_iff.mp run
      obtain ⟨held', lower⟩ := lowers s a mid held step
      have shorter := ih held' rest
      rw [List.length_cons]
      omega

/-! ## Histories -/

/-- The system beside a history, newest note first.  `note s a s'` is what the
step `a` from `s` to `s'` adds. -/
def audit {ν : Type*} (L : Lts σ α) (note : σ → α → σ → List ν) : Lts (σ × List ν) α where
  init := (L.init, [])
  step := fun s a => (L.step s.1 a).map fun s' => (s', note s.1 a s' ++ s.2)

section Audit

variable {ν : Type*} {note : σ → α → σ → List ν}

theorem audit_step {s s' : σ} {a : α} {history history' : List ν}
    (step : (L.audit note).step (s, history) a = some (s', history')) :
    L.step s a = some s' ∧ history' = note s a s' ++ history := by
  obtain ⟨after, taken, same⟩ := Option.map_eq_some_iff.mp step
  cases same
  exact ⟨taken, rfl⟩

/-- A run of the system is exactly a run beside some history. -/
theorem reach_audit_iff {s : σ} :
    L.Reach P s ↔ ∃ history, (L.audit note).Reach (fun t a => P t.1 a) (s, history) := by
  constructor
  · intro reach
    unfold Reach Steps at reach
    induction reach with
    | refl => exact ⟨[], Steps.refl _⟩
    | @tail before after _ last ih =>
        obtain ⟨history, run⟩ := ih
        obtain ⟨a, cond, step⟩ := last
        refine ⟨note before a after ++ history, Steps.tail run cond ?_⟩
        exact Option.map_eq_some_iff.mpr ⟨after, step, rfl⟩
  · rintro ⟨history, reach⟩
    refine reach.invariant (I := fun t => L.Reach P t.1) Reach.init ?_
    intro t a t' run cond step
    exact Steps.tail run cond (audit_step step).1

end Audit

/-! ## Output -/

/-- The system of a step function that emits output, beside all it has emitted,
oldest first. -/
def emitting {ν : Type*} (init : σ) (advance : σ → α → Option (σ × List ν)) :
    Lts (σ × List ν) α where
  init := (init, [])
  step := fun s a => (advance s.1 a).map fun next => (next.1, s.2 ++ next.2)

section Emitting

variable {ν : Type*} {start : σ} {advance : σ → α → Option (σ × List ν)}

theorem emitting_step {s s' : σ} {a : α} {emitted emitted' : List ν}
    (step : (emitting start advance).step (s, emitted) a = some (s', emitted')) :
    ∃ out, advance s a = some (s', out) ∧ emitted' = emitted ++ out := by
  obtain ⟨next, taken, same⟩ := Option.map_eq_some_iff.mp step
  obtain ⟨after, out⟩ := next
  cases same
  exact ⟨out, taken, rfl⟩

/-- What holds before any output and is kept by every step and what it emits holds of
every state reached and the output up to it. -/
theorem Reach.emitting_invariant {Q : σ × List ν → α → Prop} {I : σ → List ν → Prop} {s : σ}
    {emitted : List ν} (reach : (emitting start advance).Reach Q (s, emitted))
    (init : I start [])
    (step : ∀ s emitted a s' out, I s emitted → Q (s, emitted) a →
      advance s a = some (s', out) → I s' (emitted ++ out)) : I s emitted := by
  refine reach.invariant (I := fun reached => I reached.1 reached.2) init ?_
  intro before a after held cond taken
  obtain ⟨s, emitted⟩ := before
  obtain ⟨s', emitted'⟩ := after
  obtain ⟨out, advanced, grown⟩ := emitting_step taken
  subst grown
  exact step s emitted a s' out held cond advanced

/-- A relation that every step keeps, with outputs that match up to `emit`, holds
after every run between states that emitted matching outputs. -/
theorem emitting_simulation {τ β ω : Type*} {start' : τ}
    {advance' : τ → β → Option (τ × List ω)} {R : σ → τ → Prop} (act : α → β) {emit : ω → ν}
    (related : R start start')
    (simulates : ∀ s t a s' out, R s t → advance s a = some (s', out) →
      ∃ t' out', advance' t (act a) = some (t', out') ∧ R s' t' ∧ out = out'.map emit)
    {s : σ} {emitted : List ν} (reach : (emitting start advance).Reachable (s, emitted)) :
    ∃ t emitted', (emitting start' advance').Reachable (t, emitted') ∧ R s t ∧
      emitted = emitted'.map emit := by
  refine reach.emitting_invariant (I := fun s emitted => ∃ t emitted',
    (emitting start' advance').Reachable (t, emitted') ∧ R s t ∧
      emitted = emitted'.map emit) ⟨start', [], Reach.init, related, rfl⟩ ?_
  intro s emitted a s' out held _ taken
  obtain ⟨t, log, reach, related, same⟩ := held
  obtain ⟨t', out', taken', related', matched⟩ := simulates s t a s' out related taken
  refine ⟨t', log ++ out', Steps.tail reach (a := act a) trivial ?_, related', ?_⟩
  · exact Option.map_eq_some_iff.mpr ⟨(t', out'), taken', rfl⟩
  · rw [matched, same, ← List.map_append]

end Emitting

end Lts

end RustZero.Lib
