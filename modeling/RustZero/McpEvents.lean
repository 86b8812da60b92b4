import RustZero.Lib.Lts
import RustZero.Lib.Phases
import RustZero.Mcp

/-!
# Events of an MCP session

`Session::publish`, `Session::terminate` and `Session::event_stream_after` of
`mcp/src/lib.rs` as they interleave on one session.

* A publication takes its id, pushes the event into the replay deque under the
  lock, and sends it on the broadcast channel: three steps.
* A stream gets the session from the server's map, subscribes to the channel,
  takes its snapshot of the deque under the lock, and is then polled; one `poll`
  is one turn of the loop of the source.  It may be dropped at any time.
* A termination swaps the flag and, the first time, sends `Terminated`.
  `http_delete` takes the session out of the map before; `close_event_streams`
  only reaches sessions that are still in it.

`System` adds three ghost columns to what the source keeps: everything pushed so
far, where in the channel the `Terminated` of a termination stands, and for each
stream what it has emitted and missed.
-/

namespace RustZero.McpEvents

open Lib Mcp

/-! ## Parties -/

inductive Publisher (α : Type) where
  | idle
  /-- The id is drawn. -/
  | numbered (event : StoredEvent α)
  /-- The event is in the deque and not yet sent. -/
  | pushed (event : StoredEvent α)
  | returned (event : StoredEvent α)
  deriving DecidableEq, Repr

/-- `State` of `event_stream_after`; `preamble` is its `prefix`. -/
structure StreamState (α : Type) where
  preamble : List String
  replay : List (StoredEvent α)
  receiver : Nat
  lastId : Nat
  /-- Ghost: the `Last-Event-ID` the stream was opened with. -/
  after : Nat
  /-- Ghost: how many events had left the deque when the stream was opened. -/
  forgotten : Nat
  /-- Ghost: the events emitted, oldest first. -/
  emitted : List (StoredEvent α)
  /-- Ghost: events that were gone from the deque when the stream refilled from
  it after falling behind on the channel. -/
  missed : List (StoredEvent α)

inductive Stream (α : Type) where
  | idle
  /-- The session is looked up, the stream is not yet built. -/
  | obtained
  /-- Subscribed to the channel, the snapshot is not yet taken. -/
  | subscribed (after : Nat) (preamble : List String) (receiver : Nat)
  | live (state : StreamState α)
  /-- The stream has returned `None`. -/
  | ended (state : StreamState α)
  | dropped

inductive Terminator where
  | idle
  /-- The flag is swapped and this call was the first. -/
  | signalling
  | finished
  deriving DecidableEq, Repr

structure System (ρ π κ τ α : Type) where
  session : Session ρ α
  /-- The session is in the server's map. -/
  registered : Bool
  /-- Ghost: every event pushed, oldest first. -/
  pushed : List (StoredEvent α)
  /-- Ghost: the position of the `Terminated` that a termination sent. -/
  farewell : Option Nat
  publishers : π → Publisher α
  streams : κ → Stream α
  terminators : τ → Terminator

inductive Action (π κ τ α : Type) where
  | fetchAdd (publisher : π) (payload : α)
  | push (publisher : π)
  | send (publisher : π)
  /-- `request_session`, or the session `legacy_sse_get` has just created. -/
  | obtain (stream : κ)
  | subscribe (stream : κ) (after : Nat) (preamble : List String)
  | snapshot (stream : κ)
  | poll (stream : κ)
  | drop (stream : κ)
  | unregister
  | swapTerminated (call : τ)
  | sendTerminated (call : τ)
  | closeEventStreams

/-! ## One turn of a stream -/

/-- The refill after falling behind. -/
def refill {ρ α : Type} (session : Session ρ α) (pushed : List (StoredEvent α))
    (state : StreamState α) (receiver : Nat) : StreamState α :=
  { state with
    receiver := receiver
    replay := session.events.filter fun event => state.lastId < event.id
    missed := state.missed ++ pushed.filter fun event =>
      state.lastId < event.id && !session.events.any fun kept => kept.id == event.id }

def emit {α : Type} (state : StreamState α) (event : StoredEvent α) : StreamState α :=
  { state with lastId := event.id, emitted := state.emitted ++ [event] }

/-- One turn of the loop in `event_stream_after`. -/
def turn {ρ α : Type} (session : Session ρ α) (pushed : List (StoredEvent α))
    (state : StreamState α) : Stream α :=
  match state.preamble with
  | _ :: preamble => .live { state with preamble := preamble }
  | [] =>
      match state.replay with
      | event :: replay => .live (emit { state with replay := replay } event)
      | [] =>
          match session.sender.recv state.receiver with
          | (.pending, _) => .live state
          | (.message (.message event), receiver) =>
              if state.lastId < event.id then
                .live (emit { state with receiver := receiver } event)
              else .live { state with receiver := receiver }
          | (.message .terminated, _) => .ended state
          | (.lagged, receiver) => .live (refill session pushed state receiver)

/-- What a turn can be. -/
inductive Turns {ρ α : Type} (session : Session ρ α) (pushed : List (StoredEvent α))
    (state : StreamState α) : Stream α → Prop
  | preamble (item : String) (rest : List String) (items : state.preamble = item :: rest) :
      Turns session pushed state (.live { state with preamble := rest })
  | replay (event : StoredEvent α) (rest : List (StoredEvent α))
      (first : state.preamble = []) (events : state.replay = event :: rest) :
      Turns session pushed state (.live (emit { state with replay := rest } event))
  | wait (first : state.preamble = []) (second : state.replay = [])
      (drained : session.sender.log.length ≤ state.receiver) :
      Turns session pushed state (.live state)
  | receive (event : StoredEvent α) (first : state.preamble = []) (second : state.replay = [])
      (read : session.sender.log[state.receiver]? = some (.message event))
      (new : state.lastId < event.id) :
      Turns session pushed state
        (.live (emit { state with receiver := state.receiver + 1 } event))
  | skip (event : StoredEvent α) (first : state.preamble = []) (second : state.replay = [])
      (read : session.sender.log[state.receiver]? = some (.message event))
      (old : event.id ≤ state.lastId) :
      Turns session pushed state (.live { state with receiver := state.receiver + 1 })
  | finish (first : state.preamble = []) (second : state.replay = [])
      (read : session.sender.log[state.receiver]? = some .terminated) :
      Turns session pushed state (.ended state)
  | lag (first : state.preamble = []) (second : state.replay = [])
      (behind : state.receiver + session.sender.size < session.sender.log.length) :
      Turns session pushed state
        (.live (refill session pushed state (session.sender.log.length - session.sender.size)))

theorem turns_turn {ρ α : Type} (session : Session ρ α) (pushed : List (StoredEvent α))
    (state : StreamState α) : Turns session pushed state (turn session pushed state) := by
  unfold turn
  split
  · rename_i item rest items
    exact .preamble item rest items
  · rename_i first
    split
    · rename_i event rest events
      exact .replay event rest first events
    · rename_i second
      rcases session.sender.recv_cases state.receiver with ⟨behind, answer⟩ |
        ⟨drained, answer⟩ | ⟨message, read, _, answer⟩
      · rw [answer]
        exact .lag first second behind
      · rw [answer]
        exact .wait first second drained
      · rw [answer]
        cases message with
        | terminated => exact .finish first second read
        | message event =>
            by_cases new : state.lastId < event.id
            · simp only [new, if_true]
              exact .receive event first second read new
            · simp only [new, if_false]
              exact .skip event first second read (Nat.not_lt.mp new)

/-- The state a stream starts from. -/
def openStream {ρ α : Type} (session : Session ρ α) (pushed : List (StoredEvent α))
    (after : Nat) (preamble : List String) (receiver : Nat) : StreamState α where
  preamble := preamble
  replay := session.events.filter fun event => after < event.id
  receiver := receiver
  lastId := after
  after := after
  forgotten := pushed.length - session.events.length
  emitted := []
  missed := []

/-! ## Steps -/

section Step

variable {ρ π κ τ α : Type} [DecidableEq π] [DecidableEq κ] [DecidableEq τ]

def System.publisher (s : System ρ π κ τ α) (publisher : π) (phase : Publisher α) :
    System ρ π κ τ α :=
  { s with publishers := Function.update s.publishers publisher phase }

def System.stream (s : System ρ π κ τ α) (stream : κ) (phase : Stream α) : System ρ π κ τ α :=
  { s with streams := Function.update s.streams stream phase }

def System.terminator (s : System ρ π κ τ α) (call : τ) (phase : Terminator) :
    System ρ π κ τ α :=
  { s with terminators := Function.update s.terminators call phase }

def step (s : System ρ π κ τ α) : Action π κ τ α → Option (System ρ π κ τ α)
  | .fetchAdd publisher payload =>
      match s.publishers publisher with
      | .idle =>
          some { s.publisher publisher (.numbered ⟨s.session.nextEventId, payload⟩) with
            session := s.session.fetchAddEventId }
      | _ => none
  | .push publisher =>
      match s.publishers publisher with
      | .numbered event =>
          some { s.publisher publisher (.pushed event) with
            session := s.session.push event
            pushed := s.pushed ++ [event] }
      | _ => none
  | .send publisher =>
      match s.publishers publisher with
      | .pushed event =>
          some { s.publisher publisher (.returned event) with
            session := s.session.send (.message event) }
      | _ => none
  | .obtain stream =>
      match s.streams stream with
      | .idle => if s.registered then some (s.stream stream .obtained) else none
      | _ => none
  | .subscribe stream after preamble =>
      match s.streams stream with
      | .obtained =>
          some (s.stream stream (.subscribed after preamble s.session.sender.subscribe))
      | _ => none
  | .snapshot stream =>
      match s.streams stream with
      | .subscribed after preamble receiver =>
          some (s.stream stream (.live (openStream s.session s.pushed after preamble receiver)))
      | _ => none
  | .poll stream =>
      match s.streams stream with
      | .live state => some (s.stream stream (turn s.session s.pushed state))
      | _ => none
  | .drop stream =>
      match s.streams stream with
      | .live _ => some (s.stream stream .dropped)
      | _ => none
  | .unregister => some { s with registered := false }
  | .swapTerminated call =>
      match s.terminators call with
      | .idle =>
          some { s.terminator call (if s.session.terminated then .finished else .signalling) with
            session := { s.session with terminated := true } }
      | _ => none
  | .sendTerminated call =>
      match s.terminators call with
      | .signalling =>
          some { s.terminator call .finished with
            session := s.session.send .terminated
            farewell := some s.session.sender.log.length }
      | _ => none
  | .closeEventStreams =>
      if s.registered then some { s with session := s.session.send .terminated } else none

/-- Every interleaving on a session created with `replayCapacity`. -/
def lts (ρ π κ τ α : Type) [DecidableEq π] [DecidableEq κ] [DecidableEq τ]
    (replayCapacity : Nat) : Lts (System ρ π κ τ α) (Action π κ τ α) where
  init := {
    session := Session.new ρ α "" 0 replayCapacity
    registered := true
    pushed := []
    farewell := none
    publishers := fun _ => .idle
    streams := fun _ => .idle
    terminators := fun _ => .idle }
  step := step

/-- What a step can be. -/
inductive Takes (s : System ρ π κ τ α) : Action π κ τ α → System ρ π κ τ α → Prop
  | fetchAdd (publisher : π) (payload : α) (idle : s.publishers publisher = .idle) :
      Takes s (.fetchAdd publisher payload)
        { s.publisher publisher (.numbered ⟨s.session.nextEventId, payload⟩) with
          session := s.session.fetchAddEventId }
  | push (publisher : π) (event : StoredEvent α)
      (numbered : s.publishers publisher = .numbered event) :
      Takes s (.push publisher)
        { s.publisher publisher (.pushed event) with
          session := s.session.push event
          pushed := s.pushed ++ [event] }
  | send (publisher : π) (event : StoredEvent α)
      (pushed : s.publishers publisher = .pushed event) :
      Takes s (.send publisher)
        { s.publisher publisher (.returned event) with
          session := s.session.send (.message event) }
  | obtain (stream : κ) (idle : s.streams stream = .idle) :
      Takes s (.obtain stream) (s.stream stream .obtained)
  | subscribe (stream : κ) (after : Nat) (preamble : List String)
      (obtained : s.streams stream = .obtained) :
      Takes s (.subscribe stream after preamble)
        (s.stream stream (.subscribed after preamble s.session.sender.subscribe))
  | snapshot (stream : κ) (after : Nat) (preamble : List String) (receiver : Nat)
      (subscribed : s.streams stream = .subscribed after preamble receiver) :
      Takes s (.snapshot stream)
        (s.stream stream (.live (openStream s.session s.pushed after preamble receiver)))
  | poll (stream : κ) (state : StreamState α) (live : s.streams stream = .live state) :
      Takes s (.poll stream) (s.stream stream (turn s.session s.pushed state))
  | drop (stream : κ) (state : StreamState α) (live : s.streams stream = .live state) :
      Takes s (.drop stream) (s.stream stream .dropped)
  | unregister : Takes s .unregister { s with registered := false }
  | swapTerminated (call : τ) (idle : s.terminators call = .idle) :
      Takes s (.swapTerminated call)
        { s.terminator call (if s.session.terminated then .finished else .signalling) with
          session := { s.session with terminated := true } }
  | sendTerminated (call : τ) (signalling : s.terminators call = .signalling) :
      Takes s (.sendTerminated call)
        { s.terminator call .finished with
          session := s.session.send .terminated
          farewell := some s.session.sender.log.length }
  | closeEventStreams (registered : s.registered = true) :
      Takes s .closeEventStreams { s with session := s.session.send .terminated }

variable {s s' : System ρ π κ τ α} {a : Action π κ τ α}

theorem step_takes (taken : step s a = some s') : Takes s a s' := by
  cases a with
  | fetchAdd publisher payload =>
      simp only [step] at taken
      split at taken
      · rename_i idle
        cases taken
        exact .fetchAdd publisher payload idle
      · cases taken
  | push publisher =>
      simp only [step] at taken
      split at taken
      · rename_i event numbered
        cases taken
        exact .push publisher event numbered
      · cases taken
  | send publisher =>
      simp only [step] at taken
      split at taken
      · rename_i event pushed
        cases taken
        exact .send publisher event pushed
      · cases taken
  | obtain stream =>
      simp only [step] at taken
      split at taken
      · rename_i idle
        split at taken
        · cases taken
          exact .obtain stream idle
        · cases taken
      · cases taken
  | subscribe stream after preamble =>
      simp only [step] at taken
      split at taken
      · rename_i obtained
        cases taken
        exact .subscribe stream after preamble obtained
      · cases taken
  | snapshot stream =>
      simp only [step] at taken
      split at taken
      · rename_i after preamble receiver subscribed
        cases taken
        exact .snapshot stream after preamble receiver subscribed
      · cases taken
  | poll stream =>
      simp only [step] at taken
      split at taken
      · rename_i state live
        cases taken
        exact .poll stream state live
      · cases taken
  | drop stream =>
      simp only [step] at taken
      split at taken
      · rename_i state live
        cases taken
        exact .drop stream state live
      · cases taken
  | unregister =>
      cases taken
      exact .unregister
  | swapTerminated call =>
      simp only [step] at taken
      split at taken
      · rename_i idle
        cases taken
        exact .swapTerminated call idle
      · cases taken
  | sendTerminated call =>
      simp only [step] at taken
      split at taken
      · rename_i signalling
        cases taken
        exact .sendTerminated call signalling
      · cases taken
  | closeEventStreams =>
      simp only [step] at taken
      split at taken
      · rename_i registered
        cases taken
        exact .closeEventStreams registered
      · cases taken

end Step

end RustZero.McpEvents
