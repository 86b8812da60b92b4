import RustZero.SingleFlightProtocol

/-!
# What a flight delivers

A caller of `execute` may get the result of an operation that began before it
called.  `Delivers` follows a requirement of every caller through the flight:
`Owes call key op` says that an operation that has come to `op` can only give
results good enough for `call`, `Good call result` that a result is.  The caches
built on `SingleFlight` use it with requirements on how recent a result is.

`Delivers.step` is the rule: a step keeps what is delivered when a caller that
starts or joins a flight is owed its requirement by the operation it meets and
polling keeps what the operation owes.  The requirements may grow with the step.
-/

namespace RustZero.SingleFlight

open Lib

variable {C G K L A V E : Type}

/-- Every caller is owed its requirement by the operation it waits for, and gets
it. -/
structure Delivers (Owes : C → K → L → Prop) (Good : C → Outcome V E → Prop)
    (f : Flights C K L V E) : Prop where
  leading : ∀ call key op, f.calls call = .leading key op → Owes call key op ∧
    ∀ flight, f.flights key = some flight → ∀ waiter ∈ flight.waiters, Owes waiter key op
  finished : ∀ call key result, f.calls call = .finished key result → Good call result ∧
    ∀ flight, f.flights key = some flight → ∀ waiter ∈ flight.waiters, Good waiter result
  notifying : ∀ call key result rest, f.calls call = .notifying key result rest →
    Good call result ∧ ∀ waiter ∈ rest, Good waiter result
  sent : ∀ call, ∀ message ∈ (f.channels call).messages, Good call message
  returned : ∀ call result, f.calls call = .returned result → Good call result

theorem Delivers.new {Owes : C → K → L → Prop} {Good : C → Outcome V E → Prop} :
    Delivers Owes Good (SingleFlight.new C K L V E) where
  leading := nofun
  finished := nofun
  notifying := nofun
  sent := nofun
  returned := nofun

/-- What polling an operation makes of what it owes a caller. -/
def Progress.Keeps (Owes : C → K → L → Prop) (Good : C → Outcome V E → Prop) (call : C)
    (key : K) : Progress L V E → Prop
  | .pending op => Owes call key op
  | .ready result => Good call (result.mapError .operation)
  | .unwind => True

variable {Owes Owes' : C → K → L → Prop} {Good Good' : C → Outcome V E → Prop}
  {f f' : Flights C K L V E}

/-- Requirements that only get weaker stay met. -/
theorem Delivers.weaken (delivers : Delivers Owes Good f)
    (owes : ∀ call key op, Owes call key op → Owes' call key op)
    (good : ∀ call result, Good call result → Good' call result) : Delivers Owes' Good' f where
  leading call key op leading :=
    have old := delivers.leading call key op leading
    ⟨owes _ _ _ old.1, fun flight taken waiter member =>
      owes _ _ _ (old.2 flight taken waiter member)⟩
  finished call key result finished :=
    have old := delivers.finished call key result finished
    ⟨good _ _ old.1, fun flight taken waiter member =>
      good _ _ (old.2 flight taken waiter member)⟩
  notifying call key result rest notifying :=
    have old := delivers.notifying call key result rest notifying
    ⟨good _ _ old.1, fun waiter member => good _ _ (old.2 waiter member)⟩
  sent call message sent := good _ _ (delivers.sent call message sent)
  returned call result returned := good _ _ (delivers.returned call result returned)

theorem Oneshot.mem_send {channel : Oneshot C V E} {told message : Outcome V E}
    (sent : message ∈ (channel.send told).messages) :
    message = told ∨ message ∈ channel.messages := by
  unfold Oneshot.send at sent
  cases receiver : channel.receiver with
  | true =>
      simp only [receiver, ↓reduceIte, List.mem_append, List.mem_singleton] at sent
      exact sent.symm
  | false =>
      simp only [receiver, Bool.false_eq_true, ↓reduceIte] at sent
      exact .inr sent

variable [DecidableEq C] [DecidableEq K] {operation : Operation C G K L A V E} {g g' : G}
  {a : Action C K L A}

theorem mem_sendAll {told message : Outcome V E} {channels : C → Oneshot C V E}
    {waiters : List C} {call : C}
    (sent : message ∈ (sendAll told channels waiters call).messages) :
    message = told ∨ message ∈ (channels call).messages := by
  induction waiters generalizing channels with
  | nil => exact .inr sent
  | cons waiter rest ih =>
      rcases ih sent with told | before
      · exact .inl told
      · dsimp only at before
        rw [Function.update_apply] at before
        split at before
        · subst call
          exact Oneshot.mem_send before
        · exact .inr before

/-- What a step needs to deliver what it should: the caller it lets in is owed its
requirement by the operation it meets, and polling keeps what is owed. -/
structure Meets (operation : Operation C G K L A V E) (Owes : C → K → L → Prop)
    (Good : C → Outcome V E → Prop) (g : G) (f : Flights C K L V E) (a : Action C K L A) :
    Prop where
  lead : ∀ call key op, a = .enter call key op → f.flights key = none → Owes call key op
  join : ∀ call key op leader, a = .enter call key op →
    (∀ op', f.calls leader = .leading key op' → Owes call key op') ∧
      ∀ result, f.calls leader = .finished key result → Good call result
  poll : ∀ call label key op g' progress, a = .poll call label →
    f.calls call = .leading key op →
    operation.step g call key op label = some (g', progress) →
    ∀ caller, Owes caller key op → progress.Keeps Owes Good caller key
  cancelled : ∀ call, Good call (.error .leaderCancelled)

variable (meets : Meets operation Owes Good g f a)
include meets

theorem Moves.delivers_leading (moves : Moves operation g f a g' f')
    (delivers : Delivers Owes Good f) (call : C) (key : K) (op : L)
    (leading : f'.calls call = .leading key op) :
    Owes call key op ∧ ∀ flight, f'.flights key = some flight →
      ∀ waiter ∈ flight.waiters, Owes waiter key op := by
  have old := delivers.leading
  cases moves with
  | lead idle vacant =>
      have := meets.lead _ _ _ rfl vacant
      grind [Function.update_apply]
  | join idle taken =>
      have := meets.join _ _ _ call rfl
      grind [Function.update_apply]
  | @poll _ _ _ _ _ progress polled run =>
      have keeps := meets.poll _ _ _ _ _ _ rfl polled run
      rcases phase_of_update leading with ⟨rfl, new⟩ | ⟨ne, other⟩
      · cases progress with
        | pending op'' =>
            cases new
            have before := delivers.leading _ _ _ polled
            exact ⟨keeps _ before.1, fun flight taken waiter member =>
              keeps _ (before.2 flight taken waiter member)⟩
        | ready result => cases new
        | unwind => cases new
      · exact delivers.leading call key op other
  | _ => grind [Function.update_apply]

theorem Moves.delivers_finished (moves : Moves operation g f a g' f')
    (delivers : Delivers Owes Good f) (call : C) (key : K) (result : Outcome V E)
    (finished : f'.calls call = .finished key result) :
    Good call result ∧ ∀ flight, f'.flights key = some flight →
      ∀ waiter ∈ flight.waiters, Good waiter result := by
  have old := delivers.finished
  cases moves with
  | lead idle vacant => grind [Function.update_apply]
  | join idle taken =>
      have := meets.join _ _ _ call rfl
      grind [Function.update_apply]
  | @poll _ _ _ _ _ progress polled run =>
      have keeps := meets.poll _ _ _ _ _ _ rfl polled run
      rcases phase_of_update finished with ⟨rfl, new⟩ | ⟨ne, other⟩
      · cases progress with
        | ready result' =>
            cases new
            have before := delivers.leading _ _ _ polled
            exact ⟨keeps _ before.1, fun flight taken waiter member =>
              keeps _ (before.2 flight taken waiter member)⟩
        | pending op => cases new
        | unwind => cases new
      · exact delivers.finished call key result other
  | _ => grind [Function.update_apply]

omit meets in
theorem Moves.delivers_notifying (moves : Moves operation g f a g' f')
    (delivers : Delivers Owes Good f) (call : C) (key : K) (result : Outcome V E)
    (rest : List C) (notifying : f'.calls call = .notifying key result rest) :
    Good call result ∧ ∀ waiter ∈ rest, Good waiter result := by
  have old := delivers.notifying
  cases moves with
  | poll polled run => exact old call key result rest (Progress.call_keeps notifying rfl)
  | complete finished taken =>
      have := delivers.finished _ _ _ finished
      grind [Function.update_apply]
  | _ => grind [Function.update_apply]

theorem Moves.delivers_sent (moves : Moves operation g f a g' f')
    (delivers : Delivers Owes Good f) (call : C) (message : Outcome V E)
    (sent : message ∈ (f'.channels call).messages) : Good call message := by
  have old := delivers.sent
  cases moves with
  | notify notifying =>
      have told := (delivers.notifying _ _ _ _ notifying).2 _ List.mem_cons_self
      simp only [Function.update_apply] at sent
      split at sent
      · subst call
        rcases Oneshot.mem_send sent with rfl | before
        · exact told
        · exact old _ message before
      · exact old call message sent
  | guardDrop dropping taken =>
      rcases mem_sendAll sent with rfl | before
      · exact meets.cancelled call
      · exact old call message before
  | _ => grind [Function.update_apply]

omit meets in
theorem Moves.delivers_returned (moves : Moves operation g f a g' f')
    (delivers : Delivers Owes Good f) (call : C) (result : Outcome V E)
    (returned : f'.calls call = .returned result) : Good call result := by
  have old := delivers.returned
  cases moves with
  | poll polled run => exact old call result (Progress.call_keeps returned rfl)
  | disarm notifying =>
      have := delivers.notifying _ _ _ _ notifying
      grind [Function.update_apply]
  | recv waiting messages =>
      have := delivers.sent
      grind [Function.update_apply]
  | _ => grind [Function.update_apply]

theorem Delivers.step (delivers : Delivers Owes Good f)
    (step : SingleFlight.step operation g f a = some (g', f')) : Delivers Owes Good f' :=
  have moves := step_moves step
  { leading := moves.delivers_leading meets delivers
    finished := moves.delivers_finished meets delivers
    notifying := moves.delivers_notifying delivers
    sent := moves.delivers_sent meets delivers
    returned := moves.delivers_returned delivers }

end RustZero.SingleFlight
