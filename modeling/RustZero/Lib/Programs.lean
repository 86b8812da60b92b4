import Mathlib

/-!
# Programs with errors over a state

A program in `EStateM` leaves the state as it is when it fails: `run_bind_ok` and `run_bind_error`
run a program up to its first step, which succeeds or fails.
-/

namespace RustZero.Lib

universe u

variable {ε σ α β : Type u} {program : EStateM ε σ α} {state mid : σ} {a : α} {error : ε}

/-- A program that succeeds hands its result and state on. -/
theorem run_bind_ok (f : α → EStateM ε σ β) (ran : program.run state = .ok a mid) :
    (program >>= f).run state = (f a).run mid := by
  rw [EStateM.run_bind, ran]

/-- A program that fails is the last one to run. -/
theorem run_bind_error (f : α → EStateM ε σ β) (failed : program.run state = .error error mid) :
    (program >>= f).run state = .error error mid := by
  rw [EStateM.run_bind, failed]

end RustZero.Lib
