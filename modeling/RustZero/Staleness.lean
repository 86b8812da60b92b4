import RustZero.SingleFlightDelivery

/-!
# Values that outlive a removal

The read-through caches fetch on a miss and hand the value to every caller of the
flight.  A value is stamped with the step its fetch was started in, a call with
the key it looks for and the step it began in, and a removal with the step it
happened in and the step it returned in.

* `Fresh` is the requirement of a call: its value was not fetched before a removal
  of its key that had returned when it began.
* `Owes` and `Good` are that requirement in the form `Delivers` follows through a
  flight; `Holds` says that a leader already has, or is fetching, a value.
* `Fresh.keep` and `delivers_keep` say that later removals do not count for a call
  that has begun; `delivers_flight` is `Delivers.step` for these requirements.
-/

namespace RustZero.Staleness

open Lib SingleFlight

/-- A value with the step its fetch was started in. -/
structure Fetched (V : Type) where
  value : V
  startedAt : Nat

section Fresh

variable {K : Type}

/-- The fetch was started after every removal of the key that had returned when the
call for it began; `since` is that key and that step. -/
def Fresh (Removed : K → Nat → Nat → Prop) (since : Option (K × Nat)) (startedAt : Nat) :
    Prop :=
  ∀ key began, since = some (key, began) →
    ∀ removedAt returnedAt, Removed key removedAt returnedAt → returnedAt < began →
      removedAt < startedAt

/-- The fetch was started after every removal of the key so far. -/
def Outlives (Removed : K → Nat → Prop) (key : K) (startedAt : Nat) : Prop :=
  ∀ removedAt, Removed key removedAt → removedAt < startedAt

variable {Removed Removed' : K → Nat → Nat → Prop} {since : Option (K × Nat)}
  {startedAt now : Nat}

/-- Removals that return from now on do not count for a call that has begun. -/
theorem Fresh.keep (fresh : Fresh Removed since startedAt)
    (began : ∀ key began, since = some (key, began) → began ≤ now)
    (later : ∀ key removedAt returnedAt, Removed' key removedAt returnedAt →
      Removed key removedAt returnedAt ∨ now ≤ returnedAt) :
    Fresh Removed' since startedAt := by
  intro key start eq removedAt returnedAt removed before
  rcases later key removedAt returnedAt removed with old | new
  · exact fresh key start eq removedAt returnedAt old before
  · have := began key start eq
    omega

theorem Outlives.fresh {Happened : K → Nat → Prop} {key : K} {began : Nat}
    (outlives : Outlives Happened key startedAt)
    (happened : ∀ removedAt returnedAt, Removed key removedAt returnedAt →
      Happened key removedAt) : Fresh Removed (some (key, began)) startedAt := by
  intro key' start eq removedAt returnedAt removed _
  cases eq
  exact outlives removedAt (happened removedAt returnedAt removed)

/-- A fetch that is started now is fresh for every call. -/
theorem fresh_now (past : ∀ key removedAt returnedAt, Removed key removedAt returnedAt →
    removedAt < now) : Fresh Removed since now :=
  fun key _ _ removedAt returnedAt removed _ => past key removedAt returnedAt removed

end Fresh

section Flight

variable {C G K L A V E : Type} (held : L → Option Nat)

/-- The operation owes the call a fresh value: the fetch it has started, if any, is
fresh for it. -/
def Owes (Removed : K → Nat → Nat → Prop) (since : C → Option (K × Nat)) (call : C) (key : K)
    (op : L) : Prop :=
  (∃ began, since call = some (key, began)) ∧
    ∀ startedAt, held op = some startedAt → Fresh Removed (since call) startedAt

/-- A result that is a value is fresh. -/
def Good (Removed : K → Nat → Nat → Prop) (since : C → Option (K × Nat)) (call : C)
    (result : Outcome (Fetched V) E) : Prop :=
  ∀ value, result = .ok value →
    since call ≠ none ∧ Fresh Removed (since call) value.startedAt

/-- A leader for the key that has started, or finished, this fetch. -/
def Holds (call : Call C K L (Fetched V) E) (key : K) (startedAt : Nat) : Prop :=
  (∃ op, call = .leading key op ∧ held op = some startedAt) ∨
    ∃ value, call = .finished key (.ok value) ∧ value.startedAt = startedAt

/-- The fetch an operation has started, or the value it gives, meets a requirement
on its stamp. -/
def Stamps (F : Nat → Prop) : Progress L (Fetched V) E → Prop
  | .pending op => ∀ startedAt, held op = some startedAt → F startedAt
  | .ready (.ok value) => F value.startedAt
  | _ => True

variable {held} {Removed Removed' : K → Nat → Nat → Prop}
  {since since' : C → Option (K × Nat)} {f f' : Flights C K L (Fetched V) E} {now : Nat}

/-- What is owed stays owed while calls that have begun look for the same and the
removals that return count for later calls only. -/
theorem delivers_keep (delivers : Delivers (Owes held Removed since) (Good Removed since) f)
    (same : ∀ call, since call ≠ none → since' call = since call)
    (began : ∀ call key began, since call = some (key, began) → began ≤ now)
    (later : ∀ key removedAt returnedAt, Removed' key removedAt returnedAt →
      Removed key removedAt returnedAt ∨ now ≤ returnedAt) :
    Delivers (Owes held Removed' since') (Good Removed' since') f := by
  refine delivers.weaken ?_ ?_
  · rintro call key op ⟨⟨start, eq⟩, fresh⟩
    have kept : since' call = since call := same call (by rw [eq]; exact nofun)
    refine ⟨⟨start, kept.trans eq⟩, fun startedAt has => ?_⟩
    rw [kept]
    exact (fresh startedAt has).keep (began call) later
  · intro call result good value eq
    obtain ⟨some, fresh⟩ := good value eq
    rw [same call some]
    exact ⟨some, fresh.keep (began call) later⟩

variable [DecidableEq C] [DecidableEq K] {operation : Operation C G K L A (Fetched V) E}
  {g g' : G} {a : SingleFlight.Action C K L A}

/-- A step of the flights delivers fresh values when a call joins only a fetch that
is fresh for it and the operation's own steps keep its stamps fresh. -/
theorem delivers_flight
    (delivers : Delivers (Owes held Removed since) (Good Removed since) f)
    (step : SingleFlight.step operation g f a = some (g', f'))
    (enter : ∀ call key op, a = .enter call key op → held op = none ∧
      (∃ began, since call = some (key, began)) ∧
      ∀ leader startedAt, Holds held (f.calls leader) key startedAt →
        Fresh Removed (since call) startedAt)
    (run : ∀ call key op label g' progress began,
      operation.step g call key op label = some (g', progress) →
      (∀ startedAt, held op = some startedAt →
        Fresh Removed (some (key, began)) startedAt) →
      Stamps held (Fresh Removed (some (key, began))) progress) :
    Delivers (Owes held Removed since) (Good Removed since) f' := by
  refine Delivers.step ?_ delivers step
  refine ⟨fun call key op eq _ => ?_, fun call key op leader eq => ⟨fun op' leading => ?_,
    fun result finished value ok => ?_⟩, fun call label key op g' progress _ _ polled caller
    owes => ?_, fun call value eq => by cases eq⟩
  · obtain ⟨nothing, started, _⟩ := enter call key op eq
    refine ⟨started, fun startedAt has => ?_⟩
    rw [nothing] at has
    cases has
  · obtain ⟨_, started, joins⟩ := enter call key op eq
    exact ⟨started, fun startedAt has => joins leader startedAt (.inl ⟨op', leading, has⟩)⟩
  · obtain ⟨_, ⟨began, started⟩, joins⟩ := enter call key op eq
    subst ok
    refine ⟨by rw [started]; exact nofun, ?_⟩
    exact joins leader value.startedAt (.inr ⟨value, finished, rfl⟩)
  · obtain ⟨⟨began, started⟩, fresh⟩ := owes
    rw [started] at fresh
    have stamps := run call key op label g' progress began polled fresh
    rw [← started] at stamps
    cases progress with
    | pending op' => exact ⟨⟨began, started⟩, stamps⟩
    | ready result =>
        cases result with
        | error error => exact nofun
        | ok value =>
            intro value' eq
            cases eq
            exact ⟨by rw [started]; exact nofun, stamps⟩
    | unwind => trivial

end Flight

end RustZero.Staleness
