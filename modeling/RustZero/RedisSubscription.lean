import RustZero.Lib.Lts
import RustZero.Lib.Reports

/-!
# Redis Pub/Sub subscriptions

`run_subscription` of `core/src/stores_redis.rs` forwards the messages of a connection to
a bounded channel.  It never waits for room for a message: what does not fit is counted
in `dropped`, and a `Lagged` event with the count goes before the next message that fits
and before the connection is reported lost.

The task, its connection and the consumer of the channel are one system, so a consumer
may receive between any two sends of the task.  `Note` is the history of what the task
read and sent, which no step looks at.  Connecting is the environment's answer.  Delays
are in nanoseconds.
-/

namespace RustZero.RedisSubscription

open RustZero.Lib

structure Config where
  capacity : Nat
  reconnectDelay : Nat
  maxReconnectDelay : Nat

/-- `RedisSubscriptionMessage`. -/
structure Message where
  channel : String
  pattern : Option String
  payload : List UInt8
  deriving DecidableEq

/-- What the task reads of a `redis::Msg`. -/
structure Msg where
  channelName : String
  pattern : Option String
  payloadBytes : List UInt8

/-- `RedisSubscriptionEvent`. -/
inductive Event where
  | message (message : Message)
  | lagged (dropped : Nat)
  | disconnected (error : String) (retryIn : Nat)
  | reconnected
  | closed
  deriving DecidableEq

/-- `strip_prefix`, or the name itself. -/
def withoutPrefix (keyPrefix name : String) : String :=
  if keyPrefix.toList <+: name.toList then
    String.ofList (name.toList.drop keyPrefix.toList.length)
  else name

def subscriptionMessage (message : Msg) (keyPrefix : String) : Message where
  channel := withoutPrefix keyPrefix message.channelName
  pattern := message.pattern.map (withoutPrefix keyPrefix)
  payload := message.payloadBytes

/-- The largest `u64`. -/
def maxDropped : Nat := 2 ^ 64 - 1

/-- The largest `Duration`. -/
def maxDelay : Nat := 2 ^ 64 * 1000000000 - 1

def connectionClosed : String :=
  "Redis Pub/Sub connection closed"

def nextDelay (config : Config) (delay : Nat) : Nat :=
  min (min (delay * 2) maxDelay) config.maxReconnectDelay

/-! ## The task -/

/-- Where the task is. -/
inductive Location where
  /-- In the `select!` over the messages of the connection. -/
  | listening
  /-- `enqueue_subscription_message`, before it looks at `dropped`. -/
  | handling (message : Message)
  /-- Before the `try_send` of the message. -/
  | delivering (message : Message)
  /-- Sends the last `Lagged` of a lost connection. -/
  | flushing
  | reporting (error : String) (delay : Nat)
  | waiting (delay : Nat)
  | connecting (delay : Nat)
  | resuming
  /-- Sends `Closed`. -/
  | closing
  | returned
  deriving DecidableEq

structure State where
  queue : List Event
  receiving : Bool
  dropped : Nat
  location : Location
  deriving DecidableEq

/-- What the task read or did with a message, and each event it enqueued, with
`dropped` at that time. -/
inductive Note where
  | received (message : Message)
  | discarded (message : Message)
  | enqueued (event : Event) (dropped : Nat)
  deriving DecidableEq

inductive Action where
  | arrive (message : Msg)
  /-- The next `try_send`. -/
  | attempt
  | disconnect
  /-- The `send` the task waits for. -/
  | send
  | elapse
  | connected (result : Except String Unit)
  | shutdown
  /-- The task sees that the channel is closed. -/
  | stop
  | receive
  /-- The consumer drops its receiver. -/
  | abandon

def State.hasRoom (config : Config) (state : State) : Bool :=
  state.receiving && state.queue.length < config.capacity

def State.push (state : State) (event : Event) : State :=
  { state with queue := state.queue ++ [event] }

/-- `dropped.saturating_add(1)`; the task goes on to the next message. -/
def State.discard (state : State) : State :=
  { state with dropped := min (state.dropped + 1) maxDropped, location := .listening }

def enqueueSubscriptionMessage (config : Config) (state : State) : Option (State × List Note) :=
  match state.location with
  | .handling message =>
      if 0 < state.dropped then
        if state.hasRoom config then
          some ({ state.push (.lagged state.dropped) with
              dropped := 0, location := .delivering message },
            [.enqueued (.lagged state.dropped) state.dropped])
        else some (state.discard, [.discarded message])
      else some ({ state with location := .delivering message }, [])
  | .delivering message =>
      if state.hasRoom config then
        some ({ state.push (.message message) with location := .listening },
          [.enqueued (.message message) state.dropped])
      else some (state.discard, [.discarded message])
  | _ => none

/-- The event the task waits to send; what `dropped` is and where the task goes on once
it is sent. -/
def pending (config : Config) (dropped : Nat) : Location → Option (Event × Nat × Location)
  | .flushing => some (.lagged dropped, 0, .reporting connectionClosed config.reconnectDelay)
  | .reporting error delay => some (.disconnected error delay, dropped, .waiting delay)
  | .resuming => some (.reconnected, dropped, .listening)
  | .closing => some (.closed, dropped, .returned)
  | _ => none

/-- The task is in a `select!` with the shutdown. -/
def Location.selects : Location → Bool
  | .listening | .flushing | .reporting _ _ | .waiting _ | .connecting _ | .resuming => true
  | _ => false

def advance (config : Config) (keyPrefix : String) (state : State) :
    Action → Option (State × List Note)
  | .arrive message =>
      let message := subscriptionMessage message keyPrefix
      if state.location = .listening then
        some ({ state with location := .handling message }, [.received message])
      else none
  | .attempt => enqueueSubscriptionMessage config state
  | .disconnect =>
      if state.location = .listening then
        if 0 < state.dropped then some ({ state with location := .flushing }, [])
        else some ({ state with
          location := .reporting connectionClosed config.reconnectDelay }, [])
      else none
  | .send => do
      let (event, dropped, location) ← pending config state.dropped state.location
      if state.hasRoom config then
        some ({ state.push event with dropped := dropped, location := location },
          [.enqueued event state.dropped])
      else none
  | .elapse =>
      match state.location with
      | .waiting delay => some ({ state with location := .connecting delay }, [])
      | _ => none
  | .connected result =>
      match state.location, result with
      | .connecting _, .ok () => some ({ state with location := .resuming }, [])
      | .connecting delay, .error error =>
          some ({ state with location := .reporting error (nextDelay config delay) }, [])
      | _, _ => none
  | .shutdown =>
      if state.location.selects then some ({ state with location := .closing }, []) else none
  | .stop =>
      if !state.receiving && (state.location.selects || state.location = .closing) then
        some ({ state with location := .returned }, [])
      else none
  | .receive =>
      match state.queue with
      | [] => none
      | _ :: queue => some ({ state with queue := queue }, [])
  | .abandon => some ({ state with queue := [], receiving := false }, [])

def system (config : Config) (keyPrefix : String) : Lts (State × List Note) Action :=
  .emitting ⟨[], true, 0, .listening⟩ (advance config keyPrefix)

/-! ## What the history says -/

inductive Fate where
  | kept
  | dropped
  deriving DecidableEq

def Note.arrival : Note → List Message
  | .received message => [message]
  | _ => []

def Note.event : Note → List Event
  | .enqueued event _ => [event]
  | _ => []

def Note.fate : Note → List (Message × Fate)
  | .enqueued (.message message) _ => [(message, .kept)]
  | .discarded message => [(message, .dropped)]
  | _ => []

/-- The messages received from Redis. -/
def received (history : List Note) : List Message :=
  history.flatMap Note.arrival

/-- The events enqueued. -/
def enqueued (history : List Note) : List Event :=
  history.flatMap Note.event

/-- What became of the messages, in the order in which it was decided. -/
def fates (history : List Note) : List (Message × Fate) :=
  history.flatMap Note.fate

def drops (history : List Note) : Nat :=
  (fates history).countP fun fate => fate.2 = .dropped

def keptMessage : Message × Fate → List Message
  | (message, .kept) => [message]
  | (_, .dropped) => []

def Event.messages : Event → List Message
  | .message content => [content]
  | _ => []

def Event.lag : Event → Nat
  | .lagged dropped => dropped
  | _ => 0

/-- What an event says about messages: that it is one, or how many were dropped. -/
def Tells : Event → List (Message × Fate) → Prop
  | .message message, told => told = [(message, .kept)]
  | .lagged dropped, told => told.length = dropped ∧ 0 < dropped ∧ ∀ fate ∈ told, fate.2 = .dropped
  | _, told => told = []

/-- A message the task has read and not yet enqueued or dropped. -/
def Location.inHand : Location → List Message
  | .handling message | .delivering message => [message]
  | _ => []

/-- The events enqueued and `dropped` account for every message received. -/
structure Accounted (state : State) (history : List Note) : Prop where
  /-- A message is kept or dropped in the order of arrival. -/
  decided : received history = (fates history).map Prod.fst ++ state.location.inHand
  /-- The events tell what became of all messages but the last `dropped` ones. -/
  told : ∃ lost, Reported Tells (enqueued history) (fates history) lost ∧
    lost.length = state.dropped ∧ ∀ fate ∈ lost, fate.2 = .dropped
  count : (received history).length = ((enqueued history).flatMap Event.messages).length +
    ((enqueued history).map Event.lag).sum + state.dropped + state.location.inHand.length
  order : ((enqueued history).flatMap Event.messages).Sublist (received history)
  /-- The messages a `Lagged` counts stand between those enqueued before it and those
  enqueued after it. -/
  lagged : ∀ before dropped after, enqueued history = before ++ .lagged dropped :: after →
    0 < dropped ∧ ∃ earlier gone later, fates history = earlier ++ gone ++ later ∧
      gone.length = dropped ∧ (∀ fate ∈ gone, fate.2 = .dropped) ∧
      earlier.flatMap keptMessage = before.flatMap Event.messages ∧
      later.flatMap keptMessage = after.flatMap Event.messages
  disconnected : ∀ error retryIn dropped,
    .enqueued (.disconnected error retryIn) dropped ∈ history → dropped = 0

/-! ## Reading the history -/

@[simp]
theorem received_append (history notes : List Note) :
    received (history ++ notes) = received history ++ received notes :=
  List.flatMap_append

@[simp]
theorem enqueued_append (history notes : List Note) :
    enqueued (history ++ notes) = enqueued history ++ enqueued notes :=
  List.flatMap_append

@[simp]
theorem fates_append (history notes : List Note) :
    fates (history ++ notes) = fates history ++ fates notes :=
  List.flatMap_append

theorem drops_append (history notes : List Note) :
    drops (history ++ notes) = drops history + drops notes := by
  rw [drops, fates_append, List.countP_append, drops, drops]

theorem flatMap_keptMessage_dropped {lost : List (Message × Fate)}
    (gone : ∀ fate ∈ lost, fate.2 = .dropped) : lost.flatMap keptMessage = [] := by
  rw [List.flatMap_eq_nil_iff]
  intro fate member
  obtain ⟨message, fate⟩ := fate
  rw [show fate = .dropped from gone _ member]
  rfl

/-- What an event says about kept messages. -/
theorem Tells.messages (event : Event) (told : List (Message × Fate)) (tells : Tells event told) :
    told.flatMap keptMessage = event.messages := by
  cases event with
  | lagged dropped => exact flatMap_keptMessage_dropped tells.2.2
  | _ =>
      subst tells
      rfl

theorem Tells.length (event : Event) (told : List (Message × Fate)) (tells : Tells event told) :
    told.length = event.messages.length + event.lag := by
  cases event with
  | lagged dropped => simpa [Event.messages, Event.lag] using tells.1
  | _ =>
      subst tells
      rfl

theorem sublist_of_keptMessage (history : List (Message × Fate)) :
    (history.flatMap keptMessage).Sublist (history.map Prod.fst) := by
  induction history with
  | nil => exact .slnil
  | cons fate rest ih =>
      obtain ⟨message, fate⟩ := fate
      cases fate with
      | kept => exact ih.cons_cons message
      | dropped => exact ih.cons message

/-! ## One step -/

/-- Everything dropped has been reported. -/
def Location.flushed : Location → Bool
  | .delivering _ | .reporting _ _ | .waiting _ | .connecting _ | .resuming => true
  | _ => false

/-- No message is dropped and not reported when a disconnect is. -/
def Note.Clean : Note → Prop
  | .enqueued (.disconnected _ _) dropped => dropped = 0
  | _ => True

/-- What holds between the steps of the task; the channel does not matter. -/
structure Inv (dropped : Nat) (location : Location) (history : List Note) : Prop where
  decided : received history = (fates history).map Prod.fst ++ location.inHand
  told : ∃ lost, Reported Tells (enqueued history) (fates history) lost ∧
    lost.length = dropped ∧ ∀ fate ∈ lost, fate.2 = .dropped
  flushed : location.flushed → dropped = 0
  flushing : location = .flushing → 0 < dropped
  clean : ∀ note ∈ history, note.Clean

section Step

variable {dropped : Nat} {location location' : Location} {history : List Note}

theorem Inv.dropped_le (inv : Inv dropped location history) : dropped ≤ drops history := by
  obtain ⟨lost, ⟨told, _, same⟩, count, gone⟩ := inv.told
  have all : (lost.countP fun fate => decide (fate.2 = .dropped)) = lost.length := by
    rw [List.countP_eq_length]
    intro fate member
    exact decide_eq_true (gone fate member)
  rw [drops, same, List.countP_append, all, count]
  omega

/-- The task moves on with the same message in hand. -/
theorem Inv.move (inv : Inv dropped location history)
    (hand : location'.inHand = location.inHand) (flushed : location'.flushed → dropped = 0)
    (flushing : location' = .flushing → 0 < dropped) : Inv dropped location' history where
  decided := by rw [hand, inv.decided]
  told := inv.told
  flushed := flushed
  flushing := flushing
  clean := inv.clean

theorem Inv.arrive (inv : Inv dropped .listening history) (message : Message) :
    Inv dropped (.handling message) (history ++ [.received message]) where
  decided := by
    have before := inv.decided
    simp only [received_append, fates_append, before]
    simp [received, fates, Note.arrival, Note.fate, Location.inHand]
  told := by simpa [enqueued, fates, Note.event, Note.fate] using inv.told
  flushed := nofun
  flushing := nofun
  clean := List.forall_mem_append.mpr ⟨inv.clean, by simp [Note.Clean]⟩

/-- A message that does not fit. -/
theorem Inv.discard {message : Message} (inv : Inv dropped location history)
    (hand : location.inHand = [message])
    (few : drops (history ++ [.discarded message]) < 2 ^ 64) :
    Inv (min (dropped + 1) maxDropped) .listening (history ++ [.discarded message]) where
  decided := by
    have before := inv.decided
    rw [hand] at before
    simp only [received_append, fates_append, before]
    simp [received, fates, Note.arrival, Note.fate, Location.inHand]
  told := by
    obtain ⟨lost, reported, count, gone⟩ := inv.told
    refine ⟨lost ++ [(message, .dropped)], ?_, ?_, ?_⟩
    · simpa [enqueued, fates, Note.event, Note.fate] using reported.arrive (message, .dropped)
    · have bound := inv.dropped_le
      have one : drops [.discarded message] = 1 := rfl
      rw [drops_append, one] at few
      rw [List.length_append, List.length_singleton, count, maxDropped]
      omega
    · intro fate member
      rcases List.mem_append.mp member with old | new
      · exact gone fate old
      · rw [List.mem_singleton.mp new]
  flushed := nofun
  flushing := nofun
  clean := List.forall_mem_append.mpr ⟨inv.clean, by simp [Note.Clean]⟩

/-- A message that fits, when everything dropped before it has been reported. -/
theorem Inv.deliver {message : Message} (inv : Inv dropped (.delivering message) history) :
    Inv dropped .listening (history ++ [.enqueued (.message message) dropped]) where
  decided := by
    have before := inv.decided
    simp only [received_append, fates_append, before]
    simp [received, fates, Note.arrival, Note.fate, Location.inHand]
  told := by
    obtain ⟨lost, reported, count, _⟩ := inv.told
    have none : lost = [] := by
      rw [← List.length_eq_zero_iff, count]
      exact inv.flushed rfl
    subst none
    refine ⟨[], ?_, count, nofun⟩
    rw [enqueued_append, fates_append]
    have tells : Tells (.message message) [(message, .kept)] := rfl
    refine Reported.report _ ?_ tells
    simpa [fates, Note.fate] using reported.arrive (message, .kept)
  flushed := nofun
  flushing := nofun
  clean := List.forall_mem_append.mpr ⟨inv.clean, by simp [Note.Clean]⟩

/-- `Lagged` reports everything dropped so far. -/
theorem Inv.report_lag (inv : Inv dropped location history) (some : 0 < dropped)
    (hand : location'.inHand = location.inHand) (flushing : location' ≠ .flushing) :
    Inv 0 location' (history ++ [.enqueued (.lagged dropped) dropped]) where
  decided := by
    have before := inv.decided
    simp only [received_append, fates_append, before, hand]
    simp [received, fates, Note.arrival, Note.fate]
  told := by
    obtain ⟨lost, reported, count, gone⟩ := inv.told
    refine ⟨[], ?_, rfl, nofun⟩
    rw [enqueued_append, fates_append]
    refine Reported.report lost ?_ ⟨count, some, gone⟩
    simpa [fates, Note.fate] using reported
  flushed := fun _ => rfl
  flushing := fun same => absurd same flushing
  clean := List.forall_mem_append.mpr ⟨inv.clean, by simp [Note.Clean]⟩

/-- An event that is not about messages. -/
theorem Inv.announce {event : Event} (inv : Inv dropped location history)
    (tells : Tells event []) (quiet : event.messages = [])
    (clean : Note.Clean (.enqueued event dropped))
    (hand : location'.inHand = location.inHand) (flushed : location'.flushed → dropped = 0)
    (flushing : location' ≠ .flushing) :
    Inv dropped location' (history ++ [.enqueued event dropped]) := by
  have none : fates [.enqueued event dropped] = [] := by
    cases event with
    | message message => cases quiet
    | _ => rfl
  refine ⟨?_, ?_, flushed, fun same => absurd same flushing, ?_⟩
  · have before := inv.decided
    simp only [received_append, fates_append, none, before, hand]
    simp [received, Note.arrival]
  · obtain ⟨lost, reported, count, gone⟩ := inv.told
    refine ⟨lost, ?_, count, gone⟩
    rw [enqueued_append, fates_append, none, List.append_nil]
    exact Reported.report [] reported tells
  · exact List.forall_mem_append.mpr ⟨inv.clean, by simpa using clean⟩

theorem inHand_of_selects (selects : location.selects) : location.inHand = [] := by
  cases location with
  | handling message => cases selects
  | delivering message => cases selects
  | _ => rfl

/-- A `send` that completes. -/
theorem Inv.send {config : Config} {event : Event} {dropped' : Nat}
    (inv : Inv dropped location history)
    (waits : pending config dropped location = some (event, dropped', location')) :
    Inv dropped' location' (history ++ [.enqueued event dropped]) := by
  unfold pending at waits
  split at waits
  · cases waits
    exact inv.report_lag (inv.flushing rfl) rfl nofun
  · cases waits
    exact inv.announce rfl rfl (inv.flushed rfl) rfl (fun _ => inv.flushed rfl) nofun
  · cases waits
    exact inv.announce rfl rfl trivial rfl nofun nofun
  · cases waits
    exact inv.announce rfl rfl trivial rfl nofun nofun
  · cases waits

theorem Inv.enqueue {config : Config} {state state' : State} {notes : List Note}
    (inv : Inv state.dropped state.location history) (few : drops (history ++ notes) < 2 ^ 64)
    (taken : enqueueSubscriptionMessage config state = some (state', notes)) :
    Inv state'.dropped state'.location (history ++ notes) := by
  unfold enqueueSubscriptionMessage at taken
  split at taken
  · -- before the check of `dropped`
    rename_i message at_
    rw [at_] at inv
    split at taken
    · rename_i some
      split at taken
      · cases taken
        exact inv.report_lag some rfl nofun
      · cases taken
        exact inv.discard rfl few
    · rename_i none
      cases taken
      rw [List.append_nil]
      refine inv.move rfl (fun _ => ?_) nofun
      exact Nat.eq_zero_of_not_pos none
  · -- before the send of the message
    rename_i message at_
    rw [at_] at inv
    split at taken
    · cases taken
      exact inv.deliver
    · cases taken
      exact inv.discard rfl few
  · cases taken

theorem Inv.step {config : Config} {keyPrefix : String} {state state' : State}
    {notes : List Note} {action : Action}
    (inv : Inv state.dropped state.location history) (few : drops (history ++ notes) < 2 ^ 64)
    (taken : advance config keyPrefix state action = some (state', notes)) :
    Inv state'.dropped state'.location (history ++ notes) := by
  cases action with
  | arrive message =>
      simp only [advance, Option.ite_none_right_eq_some] at taken
      obtain ⟨here, moved⟩ := taken
      cases moved
      rw [here] at inv
      exact inv.arrive _
  | attempt => exact inv.enqueue few taken
  | disconnect =>
      simp only [advance, Option.ite_none_right_eq_some] at taken
      obtain ⟨here, moved⟩ := taken
      rw [here] at inv
      split at moved
      · rename_i some
        cases moved
        rw [List.append_nil]
        exact inv.move rfl nofun fun _ => some
      · rename_i none
        cases moved
        rw [List.append_nil]
        exact inv.move rfl (fun _ => Nat.eq_zero_of_not_pos none) nofun
  | send =>
      simp only [advance, Option.bind_eq_bind, Option.bind_eq_some_iff,
        Option.ite_none_right_eq_some] at taken
      obtain ⟨⟨event, dropped', location'⟩, waits, _, moved⟩ := taken
      cases moved
      exact inv.send waits
  | elapse =>
      simp only [advance] at taken
      split at taken
      · rename_i delay at_
        cases taken
        rw [at_] at inv
        rw [List.append_nil]
        exact inv.move rfl (fun _ => inv.flushed rfl) nofun
      · cases taken
  | connected result =>
      simp only [advance] at taken
      split at taken
      · rename_i delay at_
        cases taken
        rw [at_] at inv
        rw [List.append_nil]
        exact inv.move rfl (fun _ => inv.flushed rfl) nofun
      · rename_i delay error at_
        cases taken
        rw [at_] at inv
        rw [List.append_nil]
        exact inv.move rfl (fun _ => inv.flushed rfl) nofun
      · cases taken
  | shutdown =>
      simp only [advance, Option.ite_none_right_eq_some] at taken
      obtain ⟨selects, moved⟩ := taken
      cases moved
      rw [List.append_nil]
      exact inv.move (inHand_of_selects selects).symm nofun nofun
  | stop =>
      simp only [advance, Option.ite_none_right_eq_some, Bool.and_eq_true, Bool.or_eq_true,
        decide_eq_true_eq] at taken
      obtain ⟨⟨_, here⟩, moved⟩ := taken
      cases moved
      rw [List.append_nil]
      refine inv.move ?_ nofun nofun
      rcases here with selects | closing
      · exact (inHand_of_selects selects).symm
      · rw [closing]
        rfl
  | receive =>
      simp only [advance] at taken
      split at taken
      · cases taken
      · cases taken
        rw [List.append_nil]
        exact inv
  | abandon =>
      cases taken
      rw [List.append_nil]
      exact inv

end Step

/-- In every interleaving with the consumer, with fewer than `2 ^ 64` drops, the events
enqueued and the counter account for every message received. -/
theorem subscription_accounted (config : Config) (keyPrefix : String) {state : State}
    {history : List Note} (reach : (system config keyPrefix).Reachable (state, history))
    (few : drops history < 2 ^ 64) : Accounted state history := by
  have inv : drops history < 2 ^ 64 → Inv state.dropped state.location history := by
    refine reach.emitting_invariant (I := fun state history => drops history < 2 ^ 64 →
      Inv state.dropped state.location history) ?_ ?_
    · intro _
      exact ⟨rfl, ⟨[], Reported.start, rfl, nofun⟩, nofun, nofun, nofun⟩
    · intro before earlier action after notes held _ taken few
      refine (held ?_).step few taken
      rw [drops_append] at few
      omega
  have inv := inv few
  obtain ⟨lost, reported, count, gone⟩ := inv.told
  have kept := reported.flatMap_eq Tells.messages
  rw [flatMap_keptMessage_dropped gone, List.append_nil] at kept
  refine ⟨inv.decided, inv.told, ?_, ?_, ?_, ?_⟩
  · have length := reported.length_eq Tells.length
    rw [inv.decided, List.length_append, List.length_map, length, count, List.sum_map_add,
      List.length_flatMap]
  · rw [inv.decided, ← kept]
    exact (sublist_of_keptMessage _).trans (List.sublist_append_left _ _)
  · intro before dropped after same
    rw [same] at reported
    obtain ⟨earlier, mine, later, split, ⟨size, some, dropped⟩, ofBefore, ofAfter⟩ :=
      reported.split
    refine ⟨some, earlier, mine, later, split, size, dropped, ?_, ?_⟩
    · simpa using ofBefore.flatMap_eq Tells.messages
    · have rest := ofAfter.flatMap_eq Tells.messages
      rwa [flatMap_keptMessage_dropped gone, List.append_nil] at rest
  · intro error retryIn dropped member
    exact inv.clean _ member

/-- Room for two events: the third message is dropped and reported before the fourth, and
the fifth, which is dropped too, before the loss of the connection. -/
theorem two_lags_accounted : ∃ state history,
    (system ⟨2, 100, 5000⟩ "app:").Reachable (state, history) ∧
      (enqueued history).map Event.lag = [0, 0, 1, 0, 1, 0] ∧ Accounted state history := by
  have run : ((system ⟨2, 100, 5000⟩ "app:").exec (system ⟨2, 100, 5000⟩ "app:").init
      [.arrive ⟨"app:events", none, [1]⟩, .attempt, .attempt,
        .arrive ⟨"app:events", some "app:*", [2]⟩, .attempt, .attempt,
        .arrive ⟨"app:events", none, [3]⟩, .attempt, .attempt, .receive,
        .arrive ⟨"app:events", none, [4]⟩, .attempt, .receive, .attempt,
        .arrive ⟨"app:events", none, [5]⟩, .attempt, .attempt, .receive, .disconnect,
        .send, .receive, .send]).map (fun reached =>
          (drops reached.2, (enqueued reached.2).map Event.lag)) =
      some (2, [0, 0, 1, 0, 1, 0]) := by
    decide +kernel
  obtain ⟨⟨state, history⟩, executed, ends⟩ := Option.map_eq_some_iff.mp run
  obtain ⟨count, lags⟩ := Prod.mk.inj ends
  have reach := Lts.reachable_of_exec _ executed
  have few : drops history < 2 ^ 64 := by
    change drops history = 2 at count
    omega
  exact ⟨state, history, reach, lags, subscription_accounted _ _ reach few⟩

end RustZero.RedisSubscription
