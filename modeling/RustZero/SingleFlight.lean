import RustZero.Lib.Lts
import RustZero.Lib.Phases

/-!
# Coalescing concurrent operations

`core/src/singleflight.rs`.  `SingleFlight::execute` registers the caller under
its key: the first caller leads and runs its operation, later callers push the
sender of a oneshot channel onto the leader's waiter list and wait for its
result.  The leader removes its map entry under the mutex and then notifies the
waiters outside it; a guard that is armed until they are notified removes the
entry and sends `LeaderCancelled` when the leader's future is dropped, or its
operation panics, before that.

The calls `C`, the keys `K` and the operations are arbitrary.  An operation is a
process over a shared state `G` that other code may change at any time; its
future can be dropped where it is suspended at an await.

* `Flights` is the flight map with the calls and channels on it, `step` one step
  of one call.
* `Protocol` is the invariant; `protocol_step` that every step keeps it.
-/

namespace RustZero.SingleFlight

open Lib

inductive SingleFlightError (E : Type) where
  | operation (error : E)
  | leaderCancelled
  deriving DecidableEq, Repr

abbrev Outcome (V E : Type) := Except (SingleFlightError E) V

/-- What polling an operation gives: it waits or has another step to take, it is
ready, or it panics and unwinds its caller. -/
inductive Progress (L V E : Type) where
  | pending (op : L)
  | ready (result : Except E V)
  | unwind

/-- An operation as a process with local state `L` over a shared state `G`; the
labels `A` resolve what the process does not decide itself. -/
structure Operation (C G K L A V E : Type) where
  step : G → C → K → L → A → Option (G × Progress L V E)
  /-- The future is suspended at an await, where it can be dropped. -/
  suspended : L → Bool

/-- The oneshot channel of a call: whether its two ends are alive and what was
delivered.  `leader` is the call whose flight the sender was registered with,
`none` while the call has no channel; the code does not keep it. -/
structure Oneshot (C V E : Type) where
  leader : Option C
  sender : Bool
  receiver : Bool
  messages : List (Outcome V E)

/-- `Sender::send` consumes the sender; a dropped receiver gets nothing. -/
def Oneshot.send {C V E : Type} (channel : Oneshot C V E) (message : Outcome V E) :
    Oneshot C V E :=
  { channel with
    sender := false
    messages := if channel.receiver then channel.messages ++ [message] else channel.messages }

/-- An entry of the flight map; a waiter's sender is named by the call that holds
the receiver.  `leader` is the call that inserted the entry, which the code does
not keep. -/
structure Flight (C : Type) where
  leader : C
  waiters : List C

/-- How far a call of `execute` has come. -/
inductive Call (C K L V E : Type) where
  | idle
  | waiting (key : K)
  /-- The guard is armed and the operation is running. -/
  | leading (key : K) (op : L)
  /-- The operation has finished, the entry is still in the map. -/
  | finished (key : K) (result : Outcome V E)
  /-- The future is being dropped, or unwound, with its guard armed. -/
  | dropping (key : K)
  /-- The entry is removed and these waiters are still to be notified; the guard
  is armed until they are. -/
  | notifying (key : K) (result : Outcome V E) (rest : List C)
  | returned (result : Outcome V E)
  | dropped
  /-- One of the two `expect`s failed. -/
  | panicked

/-- Where a leader is after polling its operation. -/
def Progress.call {C K L V E : Type} (key : K) : Progress L V E → Call C K L V E
  | .pending op => .leading key op
  | .ready result => .finished key (result.mapError .operation)
  | .unwind => .dropping key

/-- `SingleFlight::flights` with the calls and channels on it. -/
structure Flights (C K L V E : Type) where
  flights : K → Option (Flight C)
  calls : C → Call C K L V E
  channels : C → Oneshot C V E

def new (C K L V E : Type) : Flights C K L V E :=
  ⟨fun _ => none, fun _ => .idle, fun _ => ⟨none, false, false, []⟩⟩

inductive Action (C K L A : Type) where
  | enter (call : C) (key : K) (op : L)
  | poll (call : C) (label : A)
  | complete (call : C)
  | notify (call : C)
  | disarm (call : C)
  | drop (call : C)
  | guardDrop (call : C)
  | recv (call : C)

section Step

variable {C G K L A V E : Type} [DecidableEq C] [DecidableEq K]

/-- Send one message to every waiter of a list in turn. -/
def sendAll (message : Outcome V E) (channels : C → Oneshot C V E)
    (waiters : List C) : C → Oneshot C V E :=
  waiters.foldl (fun channels waiter =>
    Function.update channels waiter ((channels waiter).send message)) channels

/-- One step of a call of `execute`. -/
def step (operation : Operation C G K L A V E) (g : G) (f : Flights C K L V E) :
    Action C K L A → Option (G × Flights C K L V E)
  | .enter call key op =>
      match f.calls call with
      | .idle =>
          match f.flights key with
          | some flight =>
              some (g, {
                flights := Function.update f.flights key
                  (some { flight with waiters := flight.waiters ++ [call] })
                calls := Function.update f.calls call (.waiting key)
                channels := Function.update f.channels call
                  ⟨some flight.leader, true, true, []⟩ })
          | none =>
              some (g, { f with
                flights := Function.update f.flights key (some ⟨call, []⟩)
                calls := Function.update f.calls call (.leading key op) })
      | _ => none
  | .poll call label =>
      match f.calls call with
      | .leading key op =>
          (operation.step g call key op label).map fun (g', progress) =>
            (g', { f with calls := Function.update f.calls call (progress.call key) })
      | _ => none
  | .complete call =>
      match f.calls call with
      | .finished key result =>
          match f.flights key with
          | none => some (g, { f with calls := Function.update f.calls call .panicked })
          | some flight =>
              some (g, { f with
                flights := Function.update f.flights key none
                calls := Function.update f.calls call
                  (.notifying key result flight.waiters) })
      | _ => none
  | .notify call =>
      match f.calls call with
      | .notifying key result (waiter :: rest) =>
          some (g, { f with
            calls := Function.update f.calls call (.notifying key result rest)
            channels := Function.update f.channels waiter ((f.channels waiter).send result) })
      | _ => none
  | .disarm call =>
      match f.calls call with
      | .notifying _ result [] =>
          some (g, { f with calls := Function.update f.calls call (.returned result) })
      | _ => none
  | .drop call =>
      match f.calls call with
      | .waiting _ =>
          some (g, { f with
            calls := Function.update f.calls call .dropped
            channels := Function.update f.channels call
              { f.channels call with receiver := false } })
      | .leading key op =>
          if operation.suspended op then
            some (g, { f with calls := Function.update f.calls call (.dropping key) })
          else none
      | _ => none
  | .guardDrop call =>
      match f.calls call with
      | .dropping key =>
          match f.flights key with
          | none => some (g, { f with calls := Function.update f.calls call .dropped })
          | some flight =>
              some (g, {
                flights := Function.update f.flights key none
                calls := Function.update f.calls call .dropped
                channels := sendAll (.error .leaderCancelled) f.channels flight.waiters })
      | _ => none
  | .recv call =>
      match f.calls call with
      | .waiting _ =>
          match (f.channels call).messages with
          | message :: _ =>
              some (g, { f with calls := Function.update f.calls call (.returned message) })
          | [] =>
              if (f.channels call).sender then none
              else some (g, { f with calls := Function.update f.calls call .panicked })
      | _ => none

/-- The steps of `step`, one constructor for each way a call can move. -/
inductive Moves (operation : Operation C G K L A V E) (g : G) (f : Flights C K L V E) :
    Action C K L A → G → Flights C K L V E → Prop
  | lead {call key op} (idle : f.calls call = .idle) (vacant : f.flights key = none) :
      Moves operation g f (.enter call key op) g { f with
        flights := Function.update f.flights key (some ⟨call, []⟩)
        calls := Function.update f.calls call (.leading key op) }
  | join {call key op flight} (idle : f.calls call = .idle)
      (taken : f.flights key = some flight) :
      Moves operation g f (.enter call key op) g {
        flights := Function.update f.flights key
          (some { flight with waiters := flight.waiters ++ [call] })
        calls := Function.update f.calls call (.waiting key)
        channels := Function.update f.channels call ⟨some flight.leader, true, true, []⟩ }
  | poll {call label key op g' progress} (leading : f.calls call = .leading key op)
      (run : operation.step g call key op label = some (g', progress)) :
      Moves operation g f (.poll call label) g' { f with
        calls := Function.update f.calls call (progress.call key) }
  | complete {call key result flight} (finished : f.calls call = .finished key result)
      (taken : f.flights key = some flight) :
      Moves operation g f (.complete call) g { f with
        flights := Function.update f.flights key none
        calls := Function.update f.calls call (.notifying key result flight.waiters) }
  | completePanics {call key result} (finished : f.calls call = .finished key result)
      (vacant : f.flights key = none) :
      Moves operation g f (.complete call) g { f with
        calls := Function.update f.calls call .panicked }
  | notify {call key result waiter rest}
      (notifying : f.calls call = .notifying key result (waiter :: rest)) :
      Moves operation g f (.notify call) g { f with
        calls := Function.update f.calls call (.notifying key result rest)
        channels := Function.update f.channels waiter ((f.channels waiter).send result) }
  | disarm {call key result} (notifying : f.calls call = .notifying key result []) :
      Moves operation g f (.disarm call) g { f with
        calls := Function.update f.calls call (.returned result) }
  | dropWaiter {call key} (waiting : f.calls call = .waiting key) :
      Moves operation g f (.drop call) g { f with
        calls := Function.update f.calls call .dropped
        channels := Function.update f.channels call
          { f.channels call with receiver := false } }
  | dropLeader {call key op} (leading : f.calls call = .leading key op)
      (suspended : operation.suspended op = true) :
      Moves operation g f (.drop call) g { f with
        calls := Function.update f.calls call (.dropping key) }
  | guardDrop {call key flight} (dropping : f.calls call = .dropping key)
      (taken : f.flights key = some flight) :
      Moves operation g f (.guardDrop call) g {
        flights := Function.update f.flights key none
        calls := Function.update f.calls call .dropped
        channels := sendAll (.error .leaderCancelled) f.channels flight.waiters }
  | guardDropVacant {call key} (dropping : f.calls call = .dropping key)
      (vacant : f.flights key = none) :
      Moves operation g f (.guardDrop call) g { f with
        calls := Function.update f.calls call .dropped }
  | recv {call key message later} (waiting : f.calls call = .waiting key)
      (messages : (f.channels call).messages = message :: later) :
      Moves operation g f (.recv call) g { f with
        calls := Function.update f.calls call (.returned message) }
  | recvPanics {call key} (waiting : f.calls call = .waiting key)
      (messages : (f.channels call).messages = []) (lost : (f.channels call).sender = false) :
      Moves operation g f (.recv call) g { f with
        calls := Function.update f.calls call .panicked }

variable {operation : Operation C G K L A V E} {g g' : G} {f f' : Flights C K L V E}
  {a : Action C K L A}

theorem step_moves (h : step operation g f a = some (g', f')) : Moves operation g f a g' f' := by
  cases a with
  | enter call key op =>
      simp only [step] at h
      split at h
      · split at h <;> cases h
        · exact .join ‹_› ‹_›
        · exact .lead ‹_› ‹_›
      · cases h
  | poll call label =>
      simp only [step] at h
      split at h
      · obtain ⟨⟨g'', progress⟩, run, eq⟩ := Option.map_eq_some_iff.mp h
        cases eq
        exact .poll ‹_› run
      · cases h
  | complete call =>
      simp only [step] at h
      split at h
      · split at h <;> cases h
        · exact .completePanics ‹_› ‹_›
        · exact .complete ‹_› ‹_›
      · cases h
  | notify call =>
      simp only [step] at h
      split at h <;> cases h
      exact .notify ‹_›
  | disarm call =>
      simp only [step] at h
      split at h <;> cases h
      exact .disarm ‹_›
  | drop call =>
      simp only [step] at h
      split at h
      · cases h
        exact .dropWaiter ‹_›
      · split at h <;> cases h
        exact .dropLeader ‹_› ‹_›
      · cases h
  | guardDrop call =>
      simp only [step] at h
      split at h
      · split at h <;> cases h
        · exact .guardDropVacant ‹_› ‹_›
        · exact .guardDrop ‹_› ‹_›
      · cases h
  | recv call =>
      simp only [step] at h
      split at h
      · split at h
        · cases h
          exact .recv ‹_› ‹_›
        · split at h <;> cases h
          exact .recvPanics ‹_› ‹_› (eq_false_of_ne_true ‹_›)
      · cases h

/-- Only polling runs an operation: every other step leaves the shared state and
the running operations alone, except for the one that a leader starts. -/
theorem step_polls_or (h : step operation g f a = some (g', f')) :
    (∃ call label key op progress, a = .poll call label ∧ f.calls call = .leading key op ∧
      operation.step g call key op label = some (g', progress) ∧
      f' = { f with calls := Function.update f.calls call (progress.call key) }) ∨
    g' = g ∧ ∀ call key op, f'.calls call = .leading key op →
      f.calls call = .leading key op ∨ a = .enter call key op := by
  cases step_moves h with
  | poll leading run => exact .inl ⟨_, _, _, _, _, rfl, leading, run, rfl⟩
  | lead idle vacant =>
      refine .inr ⟨rfl, fun call key op leading => ?_⟩
      rcases phase_of_update leading with ⟨rfl, new⟩ | ⟨_, old⟩
      · cases new
        exact .inr rfl
      · exact .inl old
  | _ =>
      refine .inr ⟨rfl, fun call key op leading => ?_⟩
      rcases phase_of_update leading with ⟨_, new⟩ | ⟨_, old⟩
      · cases new
      · exact .inl old

end Step

end RustZero.SingleFlight
