import RustZero.SingleFlight

/-!
# The single-flight protocol

* `Protocol` is the invariant of the flight map: its entries are exactly those
  of the leaders that still have to remove one, and the sender of every waiter
  is in one place only, until its leader sends it the outcome.
* `Protocol.step`: every step of `execute` keeps it, whatever the operations do.
* `singleFlight_protocol` states the protocol of every run;
  `armed_after_removal` shows why it speaks of leaders that have not removed
  their entry rather than of armed guards.
-/

namespace RustZero.SingleFlight

open Lib

section Channels

variable {C V E : Type}

@[simp, grind =] theorem Oneshot.send_leader (channel : Oneshot C V E) (message : Outcome V E) :
    (channel.send message).leader = channel.leader := rfl

@[simp, grind =] theorem Oneshot.send_sender (channel : Oneshot C V E) (message : Outcome V E) :
    (channel.send message).sender = false := rfl

@[simp, grind =] theorem Oneshot.send_receiver (channel : Oneshot C V E)
    (message : Outcome V E) : (channel.send message).receiver = channel.receiver := rfl

/-- A message sent on an unused channel is its only one, or its receiver is gone. -/
theorem Oneshot.send_messages {channel : Oneshot C V E} {message : Outcome V E}
    (unused : channel.messages = []) :
    (channel.send message).messages = [message] ∨
      (channel.send message).receiver = false ∧ (channel.send message).messages = [] := by
  unfold Oneshot.send
  cases channel.receiver <;> simp [unused]

variable [DecidableEq C] (message : Outcome V E) (channels : C → Oneshot C V E)
  {waiters : List C} {call : C}

@[simp, grind =] theorem sendAll_leader :
    (sendAll message channels waiters call).leader = (channels call).leader := by
  induction waiters generalizing channels with
  | nil => rfl
  | cons waiter rest ih =>
      show (sendAll message (Function.update channels waiter _) rest call).leader = _
      rw [ih, Function.update_apply]
      split
      · subst call
        rfl
      · rfl

@[simp, grind =] theorem sendAll_receiver :
    (sendAll message channels waiters call).receiver = (channels call).receiver := by
  induction waiters generalizing channels with
  | nil => rfl
  | cons waiter rest ih =>
      show (sendAll message (Function.update channels waiter _) rest call).receiver = _
      rw [ih, Function.update_apply]
      split
      · subst call
        rfl
      · rfl

theorem sendAll_of_notMem (absent : call ∉ waiters) :
    sendAll message channels waiters call = channels call := by
  induction waiters generalizing channels with
  | nil => rfl
  | cons waiter rest ih =>
      rw [List.mem_cons, not_or] at absent
      unfold sendAll at ih ⊢
      rw [List.foldl_cons, ih _ absent.2, Function.update_of_ne absent.1]

theorem sendAll_of_mem (nodup : waiters.Nodup) (member : call ∈ waiters) :
    sendAll message channels waiters call = (channels call).send message := by
  induction waiters generalizing channels with
  | nil => cases member
  | cons waiter rest ih =>
      rw [List.nodup_cons] at nodup
      show sendAll message (Function.update channels waiter _) rest call = _
      rcases List.mem_cons.mp member with rfl | later
      · rw [sendAll_of_notMem _ _ nodup.1, Function.update_self]
      · have ne : call ≠ waiter := by
          rintro rfl
          exact nodup.1 later
        rw [ih _ nodup.2 later, Function.update_of_ne ne]

end Channels

/-! ## The invariant -/

section Protocol

variable {C G K L A V E : Type}

/-- The key whose map entry the call inserted and still has to remove. -/
def Call.attached : Call C K L V E → Option K
  | .leading key _ => some key
  | .finished key _ => some key
  | .dropping key => some key
  | _ => none

/-- The guard of the call is armed. -/
def Call.armed : Call C K L V E → Option K
  | .leading key _ => some key
  | .finished key _ => some key
  | .dropping key => some key
  | .notifying key _ _ => some key
  | _ => none

/-- The sender of the waiter's channel is registered with the leader and unused. -/
def Waits (f : Flights C K L V E) (leader waiter : C) : Prop :=
  (f.channels waiter).leader = some leader ∧ (f.channels waiter).sender = true ∧
    (f.channels waiter).messages = []

/-- What the leader tells its waiters. -/
def Tells (f : Flights C K L V E) (leader : C) (message : Outcome V E) : Prop :=
  (∃ key rest, f.calls leader = .notifying key message rest) ∨
  f.calls leader = .returned message ∨
  f.calls leader = .dropped ∧ message = .error .leaderCancelled

/-- Where the sender of a waiter is: in the map entry of its leader, in the list
the leader is notifying, or used for what the leader tells. -/
def Placed (f : Flights C K L V E) (leader waiter : C) : Prop :=
  (∃ key flight, f.flights key = some flight ∧ flight.leader = leader ∧
    waiter ∈ flight.waiters) ∨
  (∃ key result rest, f.calls leader = .notifying key result rest ∧ waiter ∈ rest) ∨
  ((f.channels waiter).sender = false ∧ ∃ message, Tells f leader message ∧
    ((f.channels waiter).messages = [message] ∨
      (f.channels waiter).receiver = false ∧ (f.channels waiter).messages = []))

/-- The invariant of the flight map and the calls on it.  The calls without a
channel are those that lead or have led. -/
structure Protocol (f : Flights C K L V E) : Prop where
  entries : ∀ key flight, f.flights key = some flight →
    (f.calls flight.leader).attached = some key ∧ flight.waiters.Nodup ∧
      ∀ waiter ∈ flight.waiters, Waits f flight.leader waiter
  attached : ∀ call key, (f.calls call).attached = some key →
    (f.channels call).leader = none ∧
      ∃ flight, f.flights key = some flight ∧ flight.leader = call
  notifying : ∀ call key result rest, f.calls call = .notifying key result rest →
    (f.channels call).leader = none ∧ result ≠ .error .leaderCancelled ∧ rest.Nodup ∧
      ∀ waiter ∈ rest, Waits f call waiter
  channels : ∀ waiter leader, (f.channels waiter).leader = some leader →
    (f.channels leader).leader = none ∧ Placed f leader waiter
  idle : ∀ call, f.calls call = .idle → (f.channels call).leader = none
  finished : ∀ call key result, f.calls call = .finished key result →
    result ≠ .error .leaderCancelled
  waiting : ∀ call key, f.calls call = .waiting key →
    ∃ leader, (f.channels call).leader = some leader ∧ (f.channels call).receiver = true
  returned : ∀ call result, f.calls call = .returned result →
    ((f.channels call).leader = none ∧ result ≠ .error .leaderCancelled) ∨
      ∃ leader, (f.channels call).leader = some leader ∧ (f.channels call).messages = [result]
  dropped : ∀ call, f.calls call = .dropped →
    (f.channels call).leader = none ∨ (f.channels call).receiver = false
  sound : ∀ call, f.calls call ≠ .panicked

theorem Protocol.new : Protocol (SingleFlight.new C K L V E) where
  entries := nofun
  attached := nofun
  notifying := nofun
  channels := nofun
  idle _ _ := rfl
  finished := nofun
  waiting := nofun
  returned := nofun
  dropped := nofun
  sound := nofun

variable {f f' : Flights C K L V E}

/-- A waiter that has not been sent anything has its sender alive. -/
theorem Protocol.sender_alive (protocol : Protocol f) {call leader : C}
    (joined : (f.channels call).leader = some leader)
    (receiver : (f.channels call).receiver = true) (empty : (f.channels call).messages = []) :
    (f.channels call).sender = true := by
  rcases (protocol.channels call leader joined).2 with ⟨key, flight, taken, _, member⟩ |
    ⟨key, result, rest, notifying, member⟩ | ⟨_, message, _, got | ⟨gone, _⟩⟩
  · exact ((protocol.entries key flight taken).2.2 call member).2.1
  · exact ((protocol.notifying leader key result rest notifying).2.2.2 call member).2.1
  · rw [empty] at got
    cases got
  · rw [receiver] at gone
    cases gone

/-- A leader whose guard is armed and whose entry is not yet removed finds it. -/
theorem Protocol.not_vacant (protocol : Protocol f) {call : C} {key : K}
    (attached : (f.calls call).attached = some key) : f.flights key ≠ none := by
  obtain ⟨_, flight, taken, _⟩ := protocol.attached call key attached
  rw [taken]
  exact Option.some_ne_none flight

/-- A call that has neither led nor joined has no waiters. -/
theorem Protocol.leader_ne_idle (protocol : Protocol f) {waiter leader call : C}
    (joined : (f.channels waiter).leader = some leader) (idle : f.calls call = .idle) :
    leader ≠ call := by
  rintro rfl
  rcases (protocol.channels waiter leader joined).2 with ⟨key, flight, taken, rfl, _⟩ |
    ⟨_, _, _, notifying, _⟩ | ⟨_, _, ⟨_, _, notifying⟩ | returned | ⟨dropped, _⟩, _⟩
  · have := (protocol.entries key flight taken).1
    rw [idle] at this
    cases this
  · exact absurd (idle.symm.trans notifying) nofun
  · exact absurd (idle.symm.trans notifying) nofun
  · exact absurd (idle.symm.trans returned) nofun
  · exact absurd (idle.symm.trans dropped) nofun

/-- A call of a joined waiter is not its leader. -/
theorem Protocol.leader_ne_joined (protocol : Protocol f) {waiter leader call leader' : C}
    (joined : (f.channels waiter).leader = some leader)
    (channel : (f.channels call).leader = some leader') : leader ≠ call := by
  rintro rfl
  have := (protocol.channels waiter leader joined).1
  rw [channel] at this
  cases this

/-- The waiters of a leader that has not removed its entry are in that entry. -/
theorem Protocol.placed_attached (protocol : Protocol f) {waiter leader : C} {key : K}
    (attached : (f.calls leader).attached = some key) (placed : Placed f leader waiter) :
    ∃ flight, f.flights key = some flight ∧ flight.leader = leader ∧
      waiter ∈ flight.waiters := by
  rcases placed with ⟨key', flight, taken, rfl, member⟩ | ⟨_, _, _, notifying, _⟩ |
    ⟨_, _, ⟨_, _, notifying⟩ | returned | ⟨dropped, _⟩, _⟩
  · rw [(protocol.entries key' flight taken).1] at attached
    cases attached
    exact ⟨flight, taken, rfl, member⟩
  · rw [notifying] at attached
    cases attached
  · rw [notifying] at attached
    cases attached
  · rw [returned] at attached
    cases attached
  · rw [dropped] at attached
    cases attached

/-- The waiters of a notifying leader are still on its list or have been told. -/
theorem Protocol.placed_notifying (protocol : Protocol f) {waiter leader : C} {key : K}
    {result : Outcome V E} {rest : List C}
    (notifying : f.calls leader = .notifying key result rest) (placed : Placed f leader waiter) :
    waiter ∈ rest ∨ (f.channels waiter).sender = false ∧
      ((f.channels waiter).messages = [result] ∨
        (f.channels waiter).receiver = false ∧ (f.channels waiter).messages = []) := by
  rcases placed with ⟨key', flight, taken, rfl, _⟩ | ⟨_, _, _, notifying', member⟩ |
    ⟨used, _, ⟨_, _, notifying'⟩ | returned | ⟨dropped, _⟩, got⟩
  · have attached := (protocol.entries key' flight taken).1
    rw [notifying] at attached
    cases attached
  · rw [notifying] at notifying'
    cases notifying'
    exact .inl member
  · rw [notifying] at notifying'
    cases notifying'
    exact .inr ⟨used, got⟩
  · exact absurd (notifying.symm.trans returned) nofun
  · exact absurd (notifying.symm.trans dropped) nofun

/-- The place of a sender survives a step that keeps what the leader does, the
entries of the map and the channel. -/
theorem Placed.keep {leader waiter : C} (placed : Placed f leader waiter)
    (calls : f'.calls leader = f.calls leader)
    (entries : ∀ key flight, f.flights key = some flight → flight.leader = leader →
      waiter ∈ flight.waiters → ∃ flight', f'.flights key = some flight' ∧
        flight'.leader = leader ∧ waiter ∈ flight'.waiters)
    (sender : (f'.channels waiter).sender = (f.channels waiter).sender)
    (messages : (f'.channels waiter).messages = (f.channels waiter).messages)
    (receiver : (f.channels waiter).receiver = false → (f'.channels waiter).receiver = false) :
    Placed f' leader waiter := by
  rcases placed with ⟨key, flight, taken, led, member⟩ | ⟨key, result, rest, notifying, member⟩ |
    ⟨used, message, tells, got⟩
  · exact .inl ⟨key, entries key flight taken led member⟩
  · exact .inr (.inl ⟨key, result, rest, calls.trans notifying, member⟩)
  · refine .inr (.inr ⟨sender.trans used, message, ?_, ?_⟩)
    · unfold Tells at tells ⊢
      rw [calls]
      exact tells
    · rw [messages]
      exact got.imp_right fun both => ⟨receiver both.1, both.2⟩

/-- Removing the entry of one leader keeps the entries of the others. -/
theorem Protocol.entry_of_other [DecidableEq K] (protocol : Protocol f) {call : C} {key key' : K}
    {flight : Flight C} (attached : (f.calls call).attached = some key)
    (taken : f.flights key' = some flight) (other : flight.leader ≠ call) :
    Function.update f.flights key none key' = some flight := by
  have ne : key' ≠ key := by
    rintro rfl
    obtain ⟨_, mine, taken', owner⟩ := protocol.attached call _ attached
    rw [taken] at taken'
    cases taken'
    exact other owner
  rw [Function.update_of_ne ne, taken]

/-- A step of a leader that keeps its entry keeps the places of its waiters. -/
theorem Protocol.placed_of_attached [DecidableEq C] (protocol : Protocol f)
    {call leader waiter : C} {key : K} {phase : Call C K L V E}
    (attached : (f.calls call).attached = some key)
    (placed : Placed f leader waiter) :
    Placed { f with calls := Function.update f.calls call phase } leader waiter := by
  by_cases same : leader = call
  · subst same
    obtain ⟨flight, taken, led, member⟩ := protocol.placed_attached attached placed
    exact .inl ⟨key, flight, taken, led, member⟩
  · exact placed.keep (Function.update_of_ne same _ _)
      (fun _ flight taken led member => ⟨flight, taken, led, member⟩) rfl rfl id

/-! ## Every step keeps it -/

theorem attached_call (key : K) (progress : Progress L V E) :
    (progress.call key : Call C K L V E).attached = some key := by
  cases progress <;> rfl

/-- A leader whose operation was polled is not in one of the other phases. -/
theorem Progress.call_cases (key : K) (progress : Progress L V E) :
    (∃ op, (progress.call key : Call C K L V E) = .leading key op) ∨
    (∃ result, result ≠ .error .leaderCancelled ∧
      (progress.call key : Call C K L V E) = .finished key result) ∨
    (progress.call key : Call C K L V E) = .dropping key := by
  cases progress with
  | pending op => exact .inl ⟨op, rfl⟩
  | ready result =>
      refine .inr (.inl ⟨_, ?_, rfl⟩)
      cases result <;> simp [Except.mapError]
  | unwind => exact .inr (.inr rfl)

variable [DecidableEq C] [DecidableEq K] {operation : Operation C G K L A V E} {g g' : G}
  {a : Action C K L A}

omit [DecidableEq K] in
/-- A poll leaves the calls alone that are in a phase it cannot lead to. -/
theorem Progress.call_keeps {calls : C → Call C K L V E} {caller call : C} {key : K}
    {progress : Progress L V E} {phase : Call C K L V E}
    (after : Function.update calls caller (progress.call key) call = phase)
    (other : phase.attached = none) : calls call = phase := by
  rcases phase_of_update after with ⟨_, new⟩ | ⟨_, old⟩
  · rw [← new, attached_call] at other
    cases other
  · exact old

theorem Moves.sound (moves : Moves operation g f a g' f') (protocol : Protocol f) (call : C) :
    f'.calls call ≠ .panicked := by
  have := protocol.sound
  cases moves with
  | completePanics finished vacant =>
      exact absurd vacant (protocol.not_vacant (congrArg Call.attached finished))
  | recvPanics waiting messages lost =>
      obtain ⟨leader, joined, receiver⟩ := protocol.waiting _ _ waiting
      have alive := protocol.sender_alive joined receiver messages
      rw [lost] at alive
      cases alive
  | poll leading run =>
      intro panicked
      exact protocol.sound call (Progress.call_keeps panicked rfl)
  | _ => grind [Function.update_apply]

theorem Moves.idle (moves : Moves operation g f a g' f') (protocol : Protocol f) (call : C)
    (idle : f'.calls call = .idle) : (f'.channels call).leader = none := by
  have := protocol.idle
  cases moves with
  | poll leading run => exact protocol.idle call (Progress.call_keeps idle rfl)
  | _ => grind [Function.update_apply]

theorem Moves.finished (moves : Moves operation g f a g' f') (protocol : Protocol f) (call : C)
    (key : K) (result : Outcome V E) (finished : f'.calls call = .finished key result) :
    result ≠ .error .leaderCancelled := by
  have := protocol.finished
  cases moves with
  | @poll _ _ key _ _ progress =>
      have := Progress.call_cases (C := C) key progress
      grind [Function.update_apply]
  | _ => grind [Function.update_apply]

theorem Moves.waiting (moves : Moves operation g f a g' f') (protocol : Protocol f) (call : C)
    (key : K) (waiting : f'.calls call = .waiting key) :
    ∃ leader, (f'.channels call).leader = some leader ∧
      (f'.channels call).receiver = true := by
  have := protocol.waiting
  cases moves with
  | poll leading run => exact protocol.waiting call key (Progress.call_keeps waiting rfl)
  | join idle taken =>
      rcases phase_of_update waiting with ⟨rfl, _⟩ | ⟨ne, old⟩
      · simp
      · simpa [ne] using protocol.waiting call key old
  | _ => grind [Function.update_apply]

theorem Moves.dropped (moves : Moves operation g f a g' f') (protocol : Protocol f) (call : C)
    (dropped : f'.calls call = .dropped) :
    (f'.channels call).leader = none ∨ (f'.channels call).receiver = false := by
  have := protocol.dropped
  cases moves with
  | poll leading run => exact protocol.dropped call (Progress.call_keeps dropped rfl)
  | guardDrop dropping taken =>
      have := protocol.attached _ _ (congrArg Call.attached dropping)
      grind [Function.update_apply]
  | guardDropVacant dropping vacant =>
      exact absurd vacant (protocol.not_vacant (congrArg Call.attached dropping))
  | _ => grind [Function.update_apply]

theorem Moves.returned (moves : Moves operation g f a g' f') (protocol : Protocol f) (call : C)
    (result : Outcome V E) (returned : f'.calls call = .returned result) :
    ((f'.channels call).leader = none ∧ result ≠ .error .leaderCancelled) ∨
      ∃ leader, (f'.channels call).leader = some leader ∧
        (f'.channels call).messages = [result] := by
  have := protocol.returned
  cases moves with
  | poll leading run => exact protocol.returned call result (Progress.call_keeps returned rfl)
  | guardDrop dropping taken =>
      -- a waiter of the entry has no message yet, so it has not returned
      have := protocol.entries _ _ taken
      by_cases member : call ∈ (‹Flight C›).waiters
      · grind [Function.update_apply, Waits]
      · grind [Function.update_apply, sendAll_of_notMem]
  | notify notifying =>
      have := (protocol.notifying _ _ _ _ notifying).2.2.2 _ List.mem_cons_self
      grind [Function.update_apply, Waits]
  | disarm notifying =>
      have := protocol.notifying _ _ _ _ notifying
      grind [Function.update_apply]
  | recv waiting messages =>
      -- one message at most was sent, so the first is the only one
      obtain ⟨leader, joined, _⟩ := protocol.waiting _ _ waiting
      have := protocol.entries
      have := protocol.notifying
      rcases (protocol.channels _ leader joined).2 with placed | placed | placed
      · grind [Waits]
      · grind [Waits]
      · grind [Function.update_apply]
  | _ => grind [Function.update_apply]

theorem Moves.attached (moves : Moves operation g f a g' f') (protocol : Protocol f) (call : C)
    (key : K) (attached : (f'.calls call).attached = some key) :
    (f'.channels call).leader = none ∧
      ∃ flight, f'.flights key = some flight ∧ flight.leader = call := by
  have := protocol.attached
  have := protocol.idle
  cases moves with
  | @lead leader vacated op idle vacant =>
      by_cases here : call = leader
      · subst here
        simp only [Function.update_self, Call.attached, Option.some.injEq] at attached
        subst attached
        exact ⟨protocol.idle call idle, by simp⟩
      · have old := protocol.attached call key (by simpa [here] using attached)
        have ne : key ≠ vacated := by
          rintro rfl
          exact protocol.not_vacant (by simpa [here] using attached) vacant
        simpa [ne] using old
  | guardDrop dropping taken =>
      have := protocol.entries _ _ taken
      grind [Function.update_apply, Call.attached]
  | complete dropping taken =>
      have := protocol.entries _ _ taken
      grind [Function.update_apply, Call.attached]
  | @poll _ _ key _ _ progress =>
      have := attached_call (C := C) key progress
      grind [Function.update_apply, Call.attached]
  | _ => grind [Function.update_apply, Call.attached]

theorem Moves.entries (moves : Moves operation g f a g' f') (protocol : Protocol f) (key : K)
    (flight : Flight C) (taken : f'.flights key = some flight) :
    (f'.calls flight.leader).attached = some key ∧ flight.waiters.Nodup ∧
      ∀ waiter ∈ flight.waiters, Waits f' flight.leader waiter := by
  have := protocol.entries
  cases moves with
  | @poll _ _ key _ _ progress =>
      have := attached_call (C := C) key progress
      grind [Function.update_apply, Call.attached, Waits]
  | guardDrop dropping removed =>
      grind [Function.update_apply, Call.attached, Waits, sendAll_of_notMem]
  | notify notifying =>
      -- the notified waiter belongs to the notifying call, not to an entry
      have := (protocol.notifying _ _ _ _ notifying).2.2.2 _ List.mem_cons_self
      grind [Function.update_apply, Call.attached, Waits]
  | join idle taken =>
      have := protocol.idle
      grind [Function.update_apply, Call.attached, Waits]
  | _ => grind [Function.update_apply, Call.attached, Waits]

theorem Moves.notifying (moves : Moves operation g f a g' f') (protocol : Protocol f) (call : C)
    (key : K) (result : Outcome V E) (rest : List C)
    (notifying : f'.calls call = .notifying key result rest) :
    (f'.channels call).leader = none ∧ result ≠ .error .leaderCancelled ∧ rest.Nodup ∧
      ∀ waiter ∈ rest, Waits f' call waiter := by
  have := protocol.notifying
  cases moves with
  | poll leading run =>
      exact protocol.notifying call key result rest (Progress.call_keeps notifying rfl)
  | complete finished taken =>
      have := protocol.entries _ _ taken
      have := protocol.attached _ _ (congrArg Call.attached finished)
      have := protocol.finished _ _ _ finished
      grind [Function.update_apply, Waits]
  | guardDrop dropping taken =>
      have := protocol.entries _ _ taken
      have := protocol.attached _ _ (congrArg Call.attached dropping)
      grind [Function.update_apply, Waits, sendAll_of_notMem]
  | join idle taken =>
      have := protocol.idle
      grind [Function.update_apply, Waits]
  | notify mine =>
      -- a notified waiter is not on the list of another leader
      have := (protocol.notifying _ _ _ _ mine).2.2.2 _ List.mem_cons_self
      grind [Function.update_apply, Waits]
  | _ => grind [Function.update_apply, Waits]

theorem Moves.channels (moves : Moves operation g f a g' f') (protocol : Protocol f)
    (waiter leader : C) (joined : (f'.channels waiter).leader = some leader) :
    (f'.channels leader).leader = none ∧ Placed f' leader waiter := by
  cases moves with
  | @lead call key op idle vacant =>
      obtain ⟨led, placed⟩ := protocol.channels waiter leader joined
      have ne := protocol.leader_ne_idle joined idle
      refine ⟨led, placed.keep (Function.update_of_ne ne _ _) ?_ rfl rfl id⟩
      intro key' flight taken led member
      have other : key' ≠ key := by
        rintro rfl
        rw [vacant] at taken
        cases taken
      exact ⟨flight, by simp [other, taken], led, member⟩
  | @join call key op flight idle taken =>
      have leads : flight.leader ≠ call := by
        rintro rfl
        have := (protocol.entries key flight taken).1
        rw [idle] at this
        cases this
      by_cases here : waiter = call
      · subst here
        simp only [Function.update_self, Option.some.injEq] at joined
        subst joined
        refine ⟨?_, .inl ⟨key, _, Function.update_self .., rfl, by simp⟩⟩
        simp only [Function.update_of_ne leads]
        exact (protocol.attached _ _ (protocol.entries key flight taken).1).1
      · simp only [Function.update_of_ne here] at joined
        obtain ⟨led, placed⟩ := protocol.channels waiter leader joined
        have ne := protocol.leader_ne_idle joined idle
        refine ⟨by simpa [ne] using led, placed.keep (Function.update_of_ne ne _ _) ?_
          (by simp [here]) (by simp [here]) (by simp [here])⟩
        intro key' flight' taken' led' member
        by_cases same : key' = key
        · subst same
          rw [taken] at taken'
          cases taken'
          exact ⟨_, Function.update_self .., led', by simp [member]⟩
        · exact ⟨flight', by simp [same, taken'], led', member⟩
  | poll leading run =>
      obtain ⟨led, placed⟩ := protocol.channels waiter leader joined
      exact ⟨led, protocol.placed_of_attached (congrArg Call.attached leading) placed⟩
  | dropLeader leading suspended =>
      obtain ⟨led, placed⟩ := protocol.channels waiter leader joined
      exact ⟨led, protocol.placed_of_attached (congrArg Call.attached leading) placed⟩
  | completePanics finished vacant =>
      exact absurd vacant (protocol.not_vacant (congrArg Call.attached finished))
  | guardDropVacant dropping vacant =>
      exact absurd vacant (protocol.not_vacant (congrArg Call.attached dropping))
  | recvPanics waiting messages lost =>
      obtain ⟨leader, joined, receiver⟩ := protocol.waiting _ _ waiting
      have alive := protocol.sender_alive joined receiver messages
      rw [lost] at alive
      cases alive
  | recv waiting messages =>
      obtain ⟨led, placed⟩ := protocol.channels waiter leader joined
      obtain ⟨_, own, _⟩ := protocol.waiting _ _ waiting
      have ne := protocol.leader_ne_joined joined own
      exact ⟨led, placed.keep (Function.update_of_ne ne _ _)
        (fun _ flight taken led member => ⟨flight, taken, led, member⟩) rfl rfl id⟩
  | @dropWaiter call key waiting =>
      obtain ⟨_, own, _⟩ := protocol.waiting _ _ waiting
      have old : (f.channels waiter).leader = some leader := by
        grind [Function.update_apply]
      obtain ⟨led, placed⟩ := protocol.channels waiter leader old
      have ne := protocol.leader_ne_joined old own
      refine ⟨by simpa [ne] using led, placed.keep (Function.update_of_ne ne _ _)
        (fun _ flight taken led member => ⟨flight, taken, led, member⟩) ?_ ?_ ?_⟩
      · grind [Function.update_apply]
      · grind [Function.update_apply]
      · grind [Function.update_apply]
  | @complete call key result flight finished taken =>
      obtain ⟨led, placed⟩ := protocol.channels waiter leader joined
      refine ⟨led, ?_⟩
      by_cases same : leader = call
      · subst same
        obtain ⟨flight', taken', _, member⟩ :=
          protocol.placed_attached (congrArg Call.attached finished) placed
        rw [taken] at taken'
        cases taken'
        exact .inr (.inl ⟨key, result, _, Function.update_self .., member⟩)
      · refine placed.keep (Function.update_of_ne same _ _) ?_ rfl rfl id
        intro key' flight' taken' led' member
        exact ⟨flight', protocol.entry_of_other (congrArg Call.attached finished) taken'
          (led'.trans_ne same), led', member⟩
  | @guardDrop call key flight dropping taken =>
      rw [sendAll_leader] at joined
      obtain ⟨led, placed⟩ := protocol.channels waiter leader joined
      refine ⟨by rw [sendAll_leader]; exact led, ?_⟩
      by_cases same : leader = call
      · subst same
        obtain ⟨flight', taken', _, member⟩ :=
          protocol.placed_attached (congrArg Call.attached dropping) placed
        rw [taken] at taken'
        cases taken'
        obtain ⟨_, nodup, waits⟩ := protocol.entries key flight taken
        have sent := sendAll_of_mem (.error .leaderCancelled) f.channels nodup member
        refine .inr (.inr ⟨by simp [sent], _, .inr (.inr ⟨by simp, rfl⟩), ?_⟩)
        simp only [sent]
        exact Oneshot.send_messages (waits waiter member).2.2
      · have unsent : waiter ∉ flight.waiters := by
          intro member
          have owner := ((protocol.entries key flight taken).2.2 waiter member).1
          obtain ⟨_, mine, taken', owner'⟩ :=
            protocol.attached call key (congrArg Call.attached dropping)
          rw [taken] at taken'
          cases taken'
          rw [joined] at owner
          cases owner
          exact same owner'
        have kept := sendAll_of_notMem (.error .leaderCancelled) f.channels unsent
        refine placed.keep (Function.update_of_ne same _ _) ?_ (by simp [kept]) (by simp [kept])
          (by simp)
        intro key' flight' taken' led' member
        exact ⟨flight', protocol.entry_of_other (congrArg Call.attached dropping) taken'
          (led'.trans_ne same), led', member⟩
  | @disarm call key result notifying =>
      obtain ⟨led, placed⟩ := protocol.channels waiter leader joined
      refine ⟨led, ?_⟩
      by_cases same : leader = call
      · subst same
        rcases protocol.placed_notifying notifying placed with member | ⟨used, got⟩
        · cases member
        · exact .inr (.inr ⟨used, result, .inr (.inl (Function.update_self ..)), got⟩)
      · exact placed.keep (Function.update_of_ne same _ _)
          (fun _ flight taken led member => ⟨flight, taken, led, member⟩) rfl rfl id
  | @notify call key result first rest notifying =>
      obtain ⟨own, _, nodup, waits⟩ := protocol.notifying _ _ _ _ notifying
      have old : (f.channels waiter).leader = some leader := by
        grind [Function.update_apply]
      obtain ⟨led, placed⟩ := protocol.channels waiter leader old
      refine ⟨by grind [Function.update_apply], ?_⟩
      by_cases here : waiter = first
      · subst here
        have first := waits waiter List.mem_cons_self
        have same : leader = call := by
          have := first.1
          rw [old] at this
          exact Option.some.inj this
        subst same
        refine .inr (.inr ⟨by simp, result, .inl ⟨key, rest, Function.update_self ..⟩, ?_⟩)
        simp only [Function.update_self]
        exact Oneshot.send_messages first.2.2
      · by_cases same : leader = call
        · subst same
          rcases protocol.placed_notifying notifying placed with member | ⟨used, got⟩
          · rcases List.mem_cons.mp member with first | later
            · exact absurd first here
            · exact .inr (.inl ⟨key, result, rest, Function.update_self .., later⟩)
          · refine .inr (.inr ⟨by simpa [here] using used, result, .inl ?_,
              by simpa [here] using got⟩)
            exact ⟨key, rest, Function.update_self ..⟩
        · exact placed.keep (Function.update_of_ne same _ _)
            (fun _ flight taken led member => ⟨flight, taken, led, member⟩) (by simp [here])
            (by simp [here]) (by simp [here])

/-- Every step of `execute` keeps the protocol, whatever the operations do. -/
theorem Protocol.step (protocol : Protocol f)
    (step : SingleFlight.step operation g f a = some (g', f')) : Protocol f' :=
  have moves := step_moves step
  { entries := moves.entries protocol
    attached := moves.attached protocol
    notifying := moves.notifying protocol
    channels := moves.channels protocol
    idle := moves.idle protocol
    finished := moves.finished protocol
    waiting := moves.waiting protocol
    returned := moves.returned protocol
    dropped := moves.dropped protocol
    sound := moves.sound protocol }

end Protocol

/-! ## Every run -/

section Runs

variable {C G K L A V E : Type} [DecidableEq C] [DecidableEq K]

/-- What happens next: a step of a call, or other code changing the shared
state. -/
inductive Activity (C G K L A : Type) where
  | call (action : Action C K L A)
  | other (g : G)

/-- Every interleaving of calls of `execute` with the given operations. -/
def lts (operation : Operation C G K L A V E) (g : G) :
    Lts (G × Flights C K L V E) (Activity C G K L A) where
  init := (g, new C K L V E)
  step s
    | .call action => step operation s.1 s.2 action
    | .other g => some (g, s.2)

variable {operation : Operation C G K L A V E} {g : G} {s : G × Flights C K L V E}

theorem Protocol.reach (reach : (lts operation g).Reachable s) : Protocol s.2 := by
  refine reach.invariant (I := fun s => Protocol s.2) Protocol.new
    fun s a s' protocol _ step => ?_
  cases a with
  | call action => exact protocol.step step
  | other g =>
      cases step
      exact protocol

/-- What a waiter that was not dropped has been sent, by what its leader does. -/
def Received (f : Flights C K L V E) (leader waiter : C) : Prop :=
  match f.calls leader with
  | .returned result => (f.channels waiter).messages = [result]
  | .dropped => (f.channels waiter).messages = [.error .leaderCancelled]
  | .notifying _ result rest =>
      if waiter ∈ rest then (f.channels waiter).messages = []
      else (f.channels waiter).messages = [result]
  | _ => (f.channels waiter).messages = []

omit [DecidableEq C] [DecidableEq K] in
/-- A waiter that was not dropped and whose channel was used has a message. -/
theorem Protocol.delivered {f : Flights C K L V E} (protocol : Protocol f) {waiter leader : C}
    (joined : (f.channels waiter).leader = some leader) (alive : f.calls waiter ≠ .dropped)
    (gone : (f.channels waiter).receiver = false) : (f.channels waiter).messages ≠ [] := by
  intro empty
  cases phase : f.calls waiter with
  | waiting key =>
      obtain ⟨_, _, receiver⟩ := protocol.waiting waiter key phase
      rw [gone] at receiver
      cases receiver
  | returned result =>
      rcases protocol.returned waiter result phase with ⟨led, _⟩ | ⟨_, _, got⟩
      · exact absurd (joined.symm.trans led) nofun
      · exact absurd (empty.symm.trans got) nofun
  | idle => exact absurd (joined.symm.trans (protocol.idle waiter phase)) nofun
  | leading key op =>
      have led := (protocol.attached waiter key (by rw [phase]; rfl)).1
      exact absurd (joined.symm.trans led) nofun
  | finished key result =>
      have led := (protocol.attached waiter key (by rw [phase]; rfl)).1
      exact absurd (joined.symm.trans led) nofun
  | dropping key =>
      have led := (protocol.attached waiter key (by rw [phase]; rfl)).1
      exact absurd (joined.symm.trans led) nofun
  | notifying key result rest =>
      have led := (protocol.notifying waiter key result rest phase).1
      exact absurd (joined.symm.trans led) nofun
  | dropped => exact alive phase
  | panicked => exact protocol.sound waiter phase

omit [DecidableEq K] in
theorem Protocol.received {f : Flights C K L V E} (protocol : Protocol f) {waiter leader : C}
    (joined : (f.channels waiter).leader = some leader)
    (alive : f.calls waiter ≠ .dropped) : Received f leader waiter := by
  unfold Received
  rcases (protocol.channels waiter leader joined).2 with ⟨key, flight, taken, rfl, member⟩ |
    ⟨key, result, rest, notifying, member⟩ | ⟨used, message, tells, got⟩
  · obtain ⟨attached, _, waits⟩ := protocol.entries key flight taken
    have empty := (waits waiter member).2.2
    split <;> rename_i phase
    · rw [phase] at attached
      cases attached
    · rw [phase] at attached
      cases attached
    · rw [phase] at attached
      cases attached
    · exact empty
  · have empty := ((protocol.notifying leader key result rest notifying).2.2.2 waiter member).2.2
    simp [notifying, member, empty]
  · have got : (f.channels waiter).messages = [message] := by
      rcases got with got | ⟨gone, empty⟩
      · exact got
      · exact absurd empty (protocol.delivered joined alive gone)
    rcases tells with ⟨key, rest, notifying⟩ | returned | ⟨dropped, rfl⟩
    · have done : waiter ∉ rest := by
        intro member
        have waits := (protocol.notifying leader key message rest notifying).2.2.2 waiter member
        exact absurd (used.symm.trans waits.2.1) Bool.false_ne_true
      simp [notifying, done, got]
    · simp [returned, got]
    · simp [dropped, got]

omit [DecidableEq C] [DecidableEq K] in
/-- Only a leader that was dropped before it finished sends `LeaderCancelled`. -/
theorem Protocol.cancelled_iff {f : Flights C K L V E} (protocol : Protocol f)
    {waiter leader : C} {message : Outcome V E}
    (joined : (f.channels waiter).leader = some leader)
    (sent : message ∈ (f.channels waiter).messages) :
    message = .error .leaderCancelled ↔ f.calls leader = .dropped := by
  obtain ⟨led, placed⟩ := protocol.channels waiter leader joined
  rcases placed with ⟨key, flight, taken, _, member⟩ |
    ⟨key, result, rest, notifying, member⟩ | ⟨used, told, tells, got | ⟨_, empty⟩⟩
  · rw [((protocol.entries key flight taken).2.2 waiter member).2.2] at sent
    cases sent
  · rw [((protocol.notifying leader key result rest notifying).2.2.2 waiter member).2.2] at sent
    cases sent
  · rw [got, List.mem_singleton] at sent
    subst sent
    rcases tells with ⟨key, rest, notifying⟩ | returned | ⟨dropped, rfl⟩
    · exact iff_of_false (protocol.notifying leader key message rest notifying).2.1
        (by rw [notifying]; exact nofun)
    · rcases protocol.returned leader message returned with ⟨_, finished⟩ | ⟨_, joined', _⟩
      · exact iff_of_false finished (by rw [returned]; exact nofun)
      · exact absurd (led.symm.trans joined') nofun
    · exact iff_of_true rfl dropped
  · rw [empty] at sent
    cases sent

/-- In every run: at most one operation per key is running; the map holds an
entry for a key exactly when one leader has not yet removed its entry; a waiter
that was not dropped is sent nothing before its leader finishes or is dropped
and then exactly the leader's outcome, `LeaderCancelled` exactly when the leader
was dropped; what it returns is that message; and no `expect` fails. -/
theorem singleFlight_protocol (operation : Operation C G K L A V E) (g : G)
    (s : G × Flights C K L V E) (reach : (lts operation g).Reachable s) :
    (∀ key call call' op op', s.2.calls call = .leading key op →
      s.2.calls call' = .leading key op' → call = call') ∧
    (∀ key, s.2.flights key ≠ none ↔ ∃! call, (s.2.calls call).attached = some key) ∧
    (∀ waiter leader, (s.2.channels waiter).leader = some leader →
      (s.2.calls waiter ≠ .dropped → Received s.2 leader waiter) ∧
      (∀ message ∈ (s.2.channels waiter).messages,
        message = .error .leaderCancelled ↔ s.2.calls leader = .dropped) ∧
      ∀ result, s.2.calls waiter = .returned result →
        (s.2.channels waiter).messages = [result]) ∧
    ∀ call, s.2.calls call ≠ .panicked := by
  have protocol := Protocol.reach reach
  have unique : ∀ key call call', (s.2.calls call).attached = some key →
      (s.2.calls call').attached = some key → call = call' := by
    intro key call call' mine theirs
    obtain ⟨_, flight, taken, leads⟩ := protocol.attached call key mine
    obtain ⟨_, flight', taken', leads'⟩ := protocol.attached call' key theirs
    rw [taken] at taken'
    cases taken'
    exact leads.symm.trans leads'
  refine ⟨?_, ?_, ?_, protocol.sound⟩
  · intro key call call' op op' leading leading'
    exact unique key call call' (by rw [leading]; rfl) (by rw [leading']; rfl)
  · intro key
    constructor
    · intro taken
      obtain ⟨flight, taken⟩ := Option.ne_none_iff_exists'.mp taken
      have attached := (protocol.entries key flight taken).1
      exact ⟨flight.leader, attached, fun call theirs => unique key _ _ theirs attached⟩
    · rintro ⟨call, attached, _⟩
      exact protocol.not_vacant attached
  · intro waiter leader joined
    refine ⟨protocol.received joined, fun message => protocol.cancelled_iff joined, ?_⟩
    intro result returned
    rcases protocol.returned waiter result returned with ⟨led, _⟩ | ⟨_, _, got⟩
    · exact absurd (joined.symm.trans led) nofun
    · exact got

end Runs

/-- An operation that is ready at once. -/
def readyOperation : Operation (Fin 3) Unit Unit Unit Unit Nat Unit where
  step g _ _ _ _ := some (g, .ready (.ok 7))
  suspended _ := true

/-- One leader, a waiter that gets its result and a waiter that was dropped. -/
theorem singleFlight_protocol_coalesced :
    ∃ s : Unit × Flights (Fin 3) Unit Unit Nat Unit, s.2.calls 1 = .returned (.ok 7) ∧
      (s.2.channels 1).messages = [.ok 7] ∧ (s.2.channels 2).messages = [] :=
  have reach : (lts readyOperation ()).Reachable _ :=
    Lts.reachable_of_exec [.call (.enter 0 () ()), .call (.enter 1 () ()), .call (.enter 2 () ()),
      .call (.drop 2), .call (.poll 0 ()), .call (.complete 0), .call (.notify 0),
      .call (.notify 0), .call (.disarm 0), .call (.recv 1)] rfl
  ⟨_, rfl, ((singleFlight_protocol readyOperation () _ reach).2.2.1 1 0 rfl).2.2 (.ok 7) rfl, rfl⟩

/-- While a leader notifies its waiters its guard is still armed and its entry is
gone: the map can be empty with exactly one armed leader for the key. -/
theorem armed_after_removal :
    ∃ s : Unit × Flights (Fin 3) Unit Unit Nat Unit,
      (lts readyOperation ()).Reachable s ∧ s.2.flights () = none ∧
      ∃! call, (s.2.calls call).armed = some () := by
  refine ⟨_, Lts.reachable_of_exec [.call (.enter 0 () ()), .call (.poll 0 ()),
    .call (.complete 0)] rfl, rfl, 0, rfl, ?_⟩
  intro call armed
  match call with
  | 0 => rfl
  | 1 => cases armed
  | 2 => cases armed

end RustZero.SingleFlight
