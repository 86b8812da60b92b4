import RustZero.Lib.Broadcast

/-!
# MCP servers and sessions

`mcp/src/lib.rs`: the server configuration with its validation, and the session
that the streamable and the legacy transport share.  `Session` has the fields of
the source; the broadcast sender is the channel of everything sent on it, and an
abort handle is the request `ι` it aborts.  Payloads of events are an arbitrary
type `α`.

`replay_buffer_bounded` is about the replay deque.  `publish` tests for a full
deque by equality before it pushes, which bounds the deque by the capacity
except when the capacity is zero; validation excludes zero for stateful servers
only, and the legacy transport creates sessions on the others too.
-/

namespace RustZero.Mcp

open Lib

/-! ## Configuration -/

inductive McpTransport where
  | streamableHttp
  | legacySse
  | both
  deriving DecidableEq, Repr

def McpTransport.streamableHttp? : McpTransport → Bool
  | .streamableHttp | .both => true
  | .legacySse => false

def McpTransport.legacySse? : McpTransport → Bool
  | .legacySse | .both => true
  | .streamableHttp => false

/-- `McpServerConfig` without the address and the allowed origins, which neither
validation nor the sessions read. -/
structure McpServerConfig where
  workers : Nat := 1
  shutdownTimeoutMs : Nat := 30000
  endpoint : String := "/mcp"
  transport : McpTransport := .streamableHttp
  legacySseEndpoint : String := "/sse"
  legacyMessageEndpoint : String := "/message"
  name : String := "rust-zero-mcp"
  version : String := "1.0.0"
  messageTimeoutMs : Nat := 30000
  stateful : Bool := false
  sessionIdleTimeoutMs : Nat := 30 * 60 * 1000
  eventReplayCapacity : Nat := 256
  deriving DecidableEq, Repr

/-- `char::is_whitespace`, the Unicode property `White_Space`. -/
def isWhitespace (c : Char) : Bool :=
  let n := c.toNat
  (9 ≤ n && n ≤ 13) || n == 0x20 || n == 0x85 || n == 0xa0 || n == 0x1680 ||
    (0x2000 ≤ n && n ≤ 0x200a) || n == 0x2028 || n == 0x2029 || n == 0x202f || n == 0x205f ||
    n == 0x3000

/-- `text.trim().is_empty()`. -/
def isBlank (text : String) : Bool :=
  text.toList.all isWhitespace

def isAbsolutePath (path : String) : Bool :=
  path.toList.head? == some '/' && !path.toList.contains '?'

/-- `McpServerConfig::validate`; the error is the text of `McpConfigError`. -/
def McpServerConfig.validate (config : McpServerConfig) : Except String Unit :=
  if config.workers = 0 then .error "workers must be positive"
  else if config.shutdownTimeoutMs = 0 then .error "shutdown_timeout_ms must be positive"
  else if config.transport.streamableHttp? ∧ ¬ isAbsolutePath config.endpoint then
    .error "endpoint must be an absolute path"
  else if config.transport.legacySse? ∧
      (¬ isAbsolutePath config.legacySseEndpoint ∨
        ¬ isAbsolutePath config.legacyMessageEndpoint) then
    .error "legacy endpoints must be absolute paths without queries"
  else if config.transport.legacySse? ∧
      config.legacySseEndpoint = config.legacyMessageEndpoint then
    .error "legacy endpoints must be distinct"
  else if config.transport = .both ∧ (config.endpoint = config.legacySseEndpoint ∨
      config.endpoint = config.legacyMessageEndpoint) then
    .error "transport endpoints must be distinct"
  else if isBlank config.name then .error "name must not be empty"
  else if isBlank config.version then .error "version must not be empty"
  else if config.messageTimeoutMs = 0 then .error "message_timeout_ms must be positive"
  else if config.stateful ∧ config.sessionIdleTimeoutMs = 0 then
    .error "session_idle_timeout_ms must be positive"
  else if config.stateful ∧ config.eventReplayCapacity = 0 then
    .error "event_replay_capacity must be positive"
  else .ok ()

/-- The defaults pass validation. -/
theorem validate_default : ({} : McpServerConfig).validate = .ok () := by
  decide

/-- An accepted configuration has passed the check at hand and the later ones. -/
theorem of_check {failing : Prop} [Decidable failing] {message : String}
    {rest : Except String Unit} (valid : (if failing then .error message else rest) = .ok ()) :
    ¬ failing ∧ rest = .ok () := by
  split at valid
  · cases valid
  · rename_i passed
    exact ⟨passed, valid⟩

/-- An accepted stateful server has room in its replay buffers. -/
theorem capacity_pos_of_stateful {config : McpServerConfig} (valid : config.validate = .ok ())
    (stateful : config.stateful = true) : 0 < config.eventReplayCapacity := by
  unfold McpServerConfig.validate at valid
  -- the capacity is the last of the eleven checks
  iterate 10
    replace valid := (of_check valid).2
  refine Nat.pos_of_ne_zero ?_
  intro zero
  exact (of_check valid).1 ⟨stateful, zero⟩

/-! ## Sessions -/

structure StoredEvent (α : Type) where
  id : Nat
  payload : α
  deriving DecidableEq, Repr

inductive SessionEvent (α : Type) where
  | message (event : StoredEvent α)
  | terminated
  deriving DecidableEq, Repr

structure Session (ι α : Type) where
  id : String
  /-- In milliseconds. -/
  lastAccess : Nat
  nextEventId : Nat
  /-- The replay deque, oldest event first. -/
  events : List (StoredEvent α)
  sender : Channel (SessionEvent α)
  /-- The abort handles by request key; no key occurs twice. -/
  requests : List (String × ι)
  terminated : Bool
  activeStreams : Nat
  replayCapacity : Nat

variable {ι α : Type}

/-- `Session::new` with the identifier drawn for it. -/
def Session.new (ι α : Type) (id : String) (now replayCapacity : Nat) : Session ι α where
  id := id
  lastAccess := now
  nextEventId := 1
  events := []
  sender := Channel.new _ (max replayCapacity 16)
  requests := []
  terminated := false
  activeStreams := 0
  replayCapacity := replayCapacity

def Session.touch (session : Session ι α) (now : Nat) : Session ι α :=
  { session with lastAccess := now }

def Session.isExpired (session : Session ι α) (now idleTimeout : Nat) : Bool :=
  session.terminated ||
    (session.activeStreams == 0 && session.requests.isEmpty &&
      decide (idleTimeout ≤ now - session.lastAccess))

/-- `next_event_id.fetch_add(1)`. -/
def Session.fetchAddEventId (session : Session ι α) : Session ι α :=
  { session with nextEventId := (session.nextEventId + 1) % 2 ^ 64 }

/-- The critical section of `publish` on a deque. -/
def pushEvent (capacity : Nat) (events : List (StoredEvent α)) (event : StoredEvent α) :
    List (StoredEvent α) :=
  (if events.length = capacity then events.drop 1 else events) ++ [event]

def Session.push (session : Session ι α) (event : StoredEvent α) : Session ι α :=
  { session with events := pushEvent session.replayCapacity session.events event }

def Session.send (session : Session ι α) (event : SessionEvent α) : Session ι α :=
  { session with sender := session.sender.send event }

/-- `Session::publish` run without interruption. -/
def Session.publish (session : Session ι α) (payload : α) : StoredEvent α × Session ι α :=
  let event := ⟨session.nextEventId, payload⟩
  (event, ((session.fetchAddEventId).push event).send (.message event))

/-! ## The server -/

/-- The sessions by identifier. -/
abbrev Sessions (ι α : Type) := List (String × Session ι α)

/-- `remove_expired_sessions`: the sessions kept. -/
def removeExpiredSessions (config : McpServerConfig) (now : Nat) (sessions : Sessions ι α) :
    Sessions ι α :=
  sessions.filter fun entry => !entry.2.isExpired now config.sessionIdleTimeoutMs

/-- `create_session`, with the identifier drawn for the session. -/
def createSession (config : McpServerConfig) (sessions : Sessions ι α) (id : String) (now : Nat) :
    Session ι α × Sessions ι α :=
  let session := Session.new ι α id now config.eventReplayCapacity
  (session, (id, session) ::
    (removeExpiredSessions config now sessions).filter fun entry => entry.1 ≠ id)

/-- The requests that create a session. -/
inductive Opening where
  /-- An initialization sent to `http_post`. -/
  | httpPost
  /-- `legacy_sse_get`. -/
  | legacySse
  deriving DecidableEq, Repr

/-- The session an opening request gets: the routes of a transport exist only
when the configuration installs them, and `http_post` keeps sessions only on a
stateful server. -/
def openSession (config : McpServerConfig) (sessions : Sessions ι α) (opening : Opening)
    (id : String) (now : Nat) : Option (Session ι α) :=
  match opening with
  | .httpPost =>
      if config.transport.streamableHttp? && config.stateful then
        some (createSession config sessions id now).1
      else none
  | .legacySse =>
      if config.transport.legacySse? then some (createSession config sessions id now).1 else none

/-! ## The replay buffer -/

/-- Publish a sequence of payloads and collect the events. -/
def publishAll (session : Session ι α) : List α → List (StoredEvent α) × Session ι α
  | [] => ([], session)
  | payload :: rest =>
      let (event, session) := session.publish payload
      let (events, session) := publishAll session rest
      (event :: events, session)

/-- At most `capacity` events, the most recently pushed ones. -/
def Retains (capacity : Nat) (events pushed : List (StoredEvent α)) : Prop :=
  events.length ≤ capacity ∧ events <:+ pushed

theorem length_pushEvent {capacity : Nat} {events : List (StoredEvent α)} {event : StoredEvent α}
    (bounded : events.length ≤ capacity) (room : 0 < capacity) :
    (pushEvent capacity events event).length ≤ capacity := by
  unfold pushEvent
  split
  · simp only [List.length_append, List.length_drop, List.length_singleton]
    omega
  · simp only [List.length_append, List.length_singleton]
    omega

/-- What a push keeps are the latest events, whatever the capacity. -/
theorem suffix_pushEvent {capacity : Nat} {events pushed : List (StoredEvent α)}
    {event : StoredEvent α} (latest : events <:+ pushed) :
    pushEvent capacity events event <:+ pushed ++ [event] := by
  have kept : (if events.length = capacity then events.drop 1 else events) <:+ pushed := by
    split
    · exact (List.drop_suffix 1 events).trans latest
    · exact latest
  obtain ⟨older, split⟩ := kept
  refine ⟨older, ?_⟩
  unfold pushEvent
  rw [← List.append_assoc, split]

theorem pushEvent_ne_nil (capacity : Nat) (events : List (StoredEvent α)) (event : StoredEvent α) :
    pushEvent capacity events event ≠ [] := by
  unfold pushEvent
  exact List.append_ne_nil_of_right_ne_nil _ (List.cons_ne_nil _ _)

theorem publish_events (session : Session ι α) (payload : α) :
    (session.publish payload).2.events =
      pushEvent session.replayCapacity session.events (session.publish payload).1 :=
  rfl

theorem publish_replayCapacity (session : Session ι α) (payload : α) :
    (session.publish payload).2.replayCapacity = session.replayCapacity :=
  rfl

/-- One publication after another keeps the latest events. -/
theorem publishAll_retains (session : Session ι α) {pushed : List (StoredEvent α)}
    (payloads : List α) (room : 0 < session.replayCapacity)
    (retains : Retains session.replayCapacity session.events pushed) :
    Retains session.replayCapacity (publishAll session payloads).2.events
      (pushed ++ (publishAll session payloads).1) := by
  induction payloads generalizing session pushed with
  | nil =>
      simp only [publishAll, List.append_nil]
      exact retains
  | cons payload rest ih =>
      have next : Retains (session.publish payload).2.replayCapacity
          (session.publish payload).2.events (pushed ++ [(session.publish payload).1]) := by
        rw [publish_replayCapacity, publish_events]
        exact ⟨length_pushEvent retains.1 room, suffix_pushEvent retains.2⟩
      have later := ih (session.publish payload).2 room next
      rw [List.append_assoc, List.singleton_append] at later
      exact later

theorem openSession_eq {config : McpServerConfig} {sessions : Sessions ι α} {opening : Opening}
    {id : String} {now : Nat} {session : Session ι α}
    (opened : openSession config sessions opening id now = some session) :
    session = Session.new ι α id now config.eventReplayCapacity ∧
      (config.stateful = true ∨ config.transport.legacySse? = true) := by
  cases opening with
  | httpPost =>
      simp only [openSession] at opened
      split at opened
      · rename_i installed
        cases opened
        exact ⟨rfl, .inl (Bool.and_eq_true_iff.mp installed).2⟩
      · cases opened
  | legacySse =>
      simp only [openSession] at opened
      split at opened
      · rename_i installed
        cases opened
        exact ⟨rfl, .inr installed⟩
      · cases opened

/-- **Replay buffers are bounded** under an accepted configuration exactly when
its capacity is positive or it installs no legacy route: then the deque of every
session the server creates holds at most `event_replay_capacity` events, the
most recently pushed ones, after every sequence of publications. -/
theorem replay_buffer_bounded [Inhabited α] (config : McpServerConfig)
    (valid : config.validate = .ok ()) :
    (∀ (sessions : Sessions ι α) (opening : Opening) (id : String) (now : Nat)
      (session : Session ι α), openSession config sessions opening id now = some session →
      ∀ payloads : List α, Retains config.eventReplayCapacity
        (publishAll session payloads).2.events (publishAll session payloads).1) ↔
    (0 < config.eventReplayCapacity ∨ config.transport = .streamableHttp) := by
  constructor
  · intro bounded
    by_contra neither
    obtain ⟨zero, legacy⟩ := not_or.mp neither
    have installed : config.transport.legacySse? = true := by
      cases transport : config.transport with
      | streamableHttp => exact absurd transport legacy
      | legacySse => rfl
      | both => rfl
    have first := bounded [] .legacySse "" 0 _ (if_pos installed) [default]
    -- one event is already more than none
    have one : 1 ≤ config.eventReplayCapacity := by
      simpa [publishAll, publish_events, createSession, Session.new, pushEvent] using first.1
    omega
  · intro condition sessions opening id now session opened payloads
    obtain ⟨fresh, kind⟩ := openSession_eq opened
    have room : 0 < config.eventReplayCapacity := by
      rcases condition with positive | streamable
      · exact positive
      · rcases kind with stateful | legacy
        · exact capacity_pos_of_stateful valid stateful
        · rw [streamable] at legacy
          cases legacy
    subst fresh
    have empty : Retains config.eventReplayCapacity ([] : List (StoredEvent α)) [] :=
      ⟨Nat.zero_le _, List.suffix_refl _⟩
    exact publishAll_retains (Session.new ι α id now config.eventReplayCapacity) payloads room empty

/-- The default server, made stateful. -/
theorem replay_buffer_bounded_default :
    ({ stateful := true } : McpServerConfig).validate = .ok () ∧
    ∃ session : Session Unit Nat,
      openSession { stateful := true } [] .httpPost "id" 0 = some session ∧
      Retains 256 (publishAll session [10, 20, 30]).2.events
        (publishAll session [10, 20, 30]).1 := by
  refine ⟨by decide, _, rfl, ?_⟩
  have bounded := (replay_buffer_bounded (ι := Unit) (α := Nat) { stateful := true }
    (by decide)).mpr (.inl (by decide))
  exact bounded [] .httpPost "id" 0 _ rfl [10, 20, 30]

/-- A legacy server without replay capacity is accepted, and retains every event
it publishes. -/
theorem zero_capacity_retains_everything :
    ({ transport := .legacySse, eventReplayCapacity := 0 } : McpServerConfig).validate = .ok () ∧
    ∃ session : Session Unit Nat,
      openSession { transport := .legacySse, eventReplayCapacity := 0 } [] .legacySse "id" 0 =
        some session ∧
      (publishAll session [10, 20, 30]).2.events = [⟨1, 10⟩, ⟨2, 20⟩, ⟨3, 30⟩] ∧
      ¬ Retains 0 (publishAll session [10, 20, 30]).2.events
        (publishAll session [10, 20, 30]).1 := by
  refine ⟨by decide, _, rfl, by decide, ?_⟩
  intro retains
  have tooMany : ¬ 3 ≤ 0 := by decide
  exact tooMany retains.1

end RustZero.Mcp
