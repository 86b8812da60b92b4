import Mathlib

/-!
# Sequences of checks

Validation as a sequence of checks in `Except`, each with the error it fails with.  What
passed is read off a successful run check by check.
-/

namespace RustZero.Lib

universe u v w

variable {ε : Type u} {α : Type v} {β : Type v}

/-- Fail with `error` unless the check holds. -/
def ensure (holds : Bool) (error : ε) : Except ε Unit :=
  if holds then .ok () else .error error

/-- `Option::ok_or`. -/
def okOr (value : Option α) (error : ε) : Except ε α :=
  match value with
  | some found => .ok found
  | none => .error error

theorem bind_eq_ok {first : Except ε α} {next : α → Except ε β} {result : β}
    (passed : (first >>= next) = .ok result) :
    ∃ value, first = .ok value ∧ next value = .ok result := by
  cases first with
  | error error => cases passed
  | ok value => exact ⟨value, rfl, passed⟩

theorem bind_eq_error {first : Except ε α} {next : α → Except ε β} {error : ε}
    (failed : (first >>= next) = .error error) :
    first = .error error ∨ ∃ value, first = .ok value ∧ next value = .error error := by
  cases first with
  | error other =>
      cases failed
      exact .inl rfl
  | ok value => exact .inr ⟨value, rfl, failed⟩

theorem map_eq_ok {value : Except ε α} {f : α → β} {result : β}
    (mapped : value.map f = .ok result) : ∃ found, value = .ok found ∧ f found = result := by
  cases value with
  | error error => cases mapped
  | ok found => exact ⟨found, rfl, Except.ok.inj mapped⟩

theorem ensure_eq_ok {holds : Bool} {error : ε} : ensure holds error = .ok () ↔ holds = true := by
  cases holds with
  | false =>
      constructor
      · intro passed
        cases passed
      · intro wrong
        cases wrong
  | true => exact iff_of_true rfl rfl

theorem okOr_eq_ok {value : Option α} {error : ε} {found : α} :
    okOr value error = .ok found ↔ value = some found := by
  cases value with
  | none =>
      constructor
      · intro passed
        cases passed
      · intro wrong
        cases wrong
  | some other =>
      constructor
      · intro passed
        cases passed
        rfl
      · intro same
        cases same
        rfl

theorem forM_eq_ok {γ : Type w} {check : γ → Except ε Unit} {values : List γ}
    (passed : values.forM check = .ok ()) {value : γ} (member : value ∈ values) :
    check value = .ok () := by
  induction values with
  | nil => cases member
  | cons first rest ih =>
      obtain ⟨_, here, later⟩ := bind_eq_ok passed
      rcases List.mem_cons.mp member with same | further
      · rw [same, here]
      · exact ih later further

/-- What holds at the start and is kept by every step holds of what a fold makes. -/
theorem foldlM_eq_ok {γ : Type w} {I : β → Prop} {step : β → γ → Except ε β} {values : List γ}
    {start result : β} (init : I start)
    (keeps : ∀ state value next, I state → step state value = .ok next → I next)
    (passed : values.foldlM step start = .ok result) : I result := by
  induction values generalizing start with
  | nil =>
      cases passed
      exact init
  | cons first rest ih =>
      obtain ⟨next, here, later⟩ := bind_eq_ok passed
      exact ih (keeps start first next init here) later

end RustZero.Lib
