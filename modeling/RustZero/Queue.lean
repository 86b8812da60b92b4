import RustZero.Lib.Lts

/-!
# Supervised queues

`QueueRuntime` of `core/src/queue.rs`: producers push into a bounded channel, workers
share its receiver behind a lock, and a `RunningQueue` pauses, resumes and stops them
through a watched state.

A worker is stopped at the points where `worker_loop` waits or where another thread may
move: before it reads the state, between the polls of its `select!` and inside one, after
it was given a value, and while its handler runs.  A poll of the `select!` looks for a
change of state first and only then at the receiver.  A change drops the future of the
other branch and with it the lock, if it held it.

* `workerLoop` is a step of one worker, `supervise` a step of the owner of the
  `RunningQueue`, and `advance` one of the whole queue.
* `Note` is the history of what was accepted, taken, handed over and observed.  No step
  looks at it.
-/

namespace RustZero.Queue

open RustZero.Lib

universe u

variable {T : Type u}

inductive QueueState where
  | running
  | paused
  | shutdown
  deriving DecidableEq

inductive QueueRuntimeError where
  | workerPanicked (message : String)
  | shutdownTimeout (remaining : Nat)
  deriving DecidableEq

/-- `mpsc::error::TrySendError`. -/
inductive TrySendError (T : Type u) where
  | full (value : T)
  | closed (value : T)
  deriving DecidableEq

/-- Where a worker is in `worker_loop`. -/
inductive Location (T : Type u) where
  /-- Before it reads the state. -/
  | looking
  /-- Waits for a change of the state. -/
  | parked
  /-- Between two polls of the `select!`, with or without the receiver's lock. -/
  | selecting (locked : Bool)
  /-- In a poll that has found no change. -/
  | receiving (locked : Bool)
  | received (value : T)
  | handling (value : T)
  | returned
  | panicked (message : String)
  /-- Stopped by `abort_all` or by the destructor of the `JoinSet`. -/
  | aborted
  deriving DecidableEq

structure Worker (T : Type u) where
  /-- The version of the state that `changed` has seen. -/
  seen : Nat
  location : Location T
  /-- `join_next` has returned its result. -/
  joined : Bool
  deriving DecidableEq

def Worker.goto (worker : Worker T) (location : Location T) : Worker T :=
  { worker with location := location }

inductive Operation where
  | wait
  | shutdown
  deriving DecidableEq

/-- The owner of the `RunningQueue`; the operations consume it. -/
inductive Owner where
  | holds
  | joins (operation : Operation)
  | done (operation : Operation) (result : Except QueueRuntimeError Unit)

structure State (T : Type u) where
  capacity : Nat
  messages : List T
  /-- The places in the channel that pending pushes have been given. -/
  reserved : Nat
  producers : Nat
  state : QueueState
  version : Nat
  workers : List (Worker T)
  owner : Owner
  /-- `RunningQueue::workers`. -/
  remaining : Nat

inductive Note (T : Type u) where
  | accepted (value : T)
  /-- A worker takes a value out of the channel. -/
  | taken (worker : Nat) (value : T)
  /-- It calls the handler. -/
  | handed (worker : Nat) (value : T)
  /-- It reads the state. -/
  | observed (worker : Nat) (state : QueueState) (version : Nat)
  deriving DecidableEq

inductive WorkerAction where
  | look
  | changed
  | poll
  | receive
  | handle
  | complete (result : Except String Unit)
  | panic (message : String)
  | abort

inductive Action (T : Type u) where
  /-- A `push` is given a place in the channel. -/
  | reserve
  /-- A `push` is dropped before it has sent. -/
  | release
  | push (value : T)
  | tryPush (value : T)
  | cloneProducer
  | dropProducer
  | work (worker : Nat) (action : WorkerAction)
  | pause
  | resume
  | wait
  | shutdown
  /-- `join_next` returns the result of a worker. -/
  | join (worker : Nat)
  /-- `join_next` returns `None`. -/
  | joined
  /-- The shutdown timeout is over. -/
  | expire

/-- `QueueRuntime::start_inner`, with its first producer. -/
def start (capacity workers : Nat) : State T where
  capacity := capacity
  messages := []
  reserved := 0
  producers := 1
  state := .running
  version := 0
  workers := List.replicate workers ⟨0, .looking, false⟩
  owner := .holds
  remaining := workers

/-! ## The channel -/

/-- The task of a worker is over by itself. -/
def Location.ended : Location T → Bool
  | .returned | .panicked _ => true
  | _ => false

def Location.finished (location : Location T) : Bool :=
  location.ended || location matches .aborted

/-- The last worker takes the receiver with it. -/
def State.closed (state : State T) : Bool :=
  state.workers.all fun worker => worker.location.finished

def State.hasRoom (state : State T) : Bool :=
  state.messages.length + state.reserved < state.capacity

def State.push (state : State T) (value : T) : State T :=
  { state with messages := state.messages ++ [value] }

/-- `QueueProducer::try_push`. -/
def State.tryPush (state : State T) (value : T) : Except (TrySendError T) (State T) :=
  if state.closed then .error (.closed value)
  else if state.hasRoom then .ok (state.push value)
  else .error (.full value)

/-! ## Workers -/

/-- A value that a worker has taken and not yet handed to the handler. -/
def Location.inHand : Location T → List T
  | .received value => [value]
  | _ => []

def Location.hasLock : Location T → Bool
  | .selecting locked | .receiving locked => locked
  | _ => false

def State.unlocked (state : State T) : Bool :=
  state.workers.all fun worker => !worker.location.hasLock

/-- The state has no sender any more. -/
def Owner.isDone : Owner → Bool
  | .done _ _ => true
  | _ => false

/-- `state.changed()` returns: where the worker goes on. -/
def changed (state : State T) (worker : Worker T) : Option (Worker T) :=
  if worker.seen ≠ state.version then
    some { worker with seen := state.version, location := .looking }
  else if state.owner.isDone then some (worker.goto .returned)
  else none

/-- Where a worker goes on in a state. -/
def enter : QueueState → Location T
  | .shutdown => .returned
  | .paused => .parked
  | .running => .selecting false

/-- A step of a worker: what becomes of it and of the channel. -/
def workerLoop (state : State T) (index : Nat) (worker : Worker T) :
    WorkerAction → Option (Worker T × List T × List (Note T))
  | .look =>
      match worker.location with
      | .looking =>
          some (worker.goto (enter state.state), state.messages,
            [.observed index state.state state.version])
      | _ => none
  | .changed =>
      match worker.location with
      | .parked | .selecting _ =>
          (changed state worker).map fun worker => (worker, state.messages, [])
      | _ => none
  | .poll =>
      match worker.location with
      | .selecting locked =>
          if changed state worker = none then
            some (worker.goto (.receiving locked), state.messages, [])
          else none
      | _ => none
  | .receive =>
      match worker.location with
      | .receiving false =>
          let next := if state.unlocked then .receiving true else .selecting false
          some (worker.goto next, state.messages, [])
      | .receiving true =>
          match state.messages with
          | value :: messages =>
              some (worker.goto (.received value), messages, [.taken index value])
          | [] =>
              let next := if state.producers = 0 then .returned else .selecting true
              some (worker.goto next, [], [])
      | _ => none
  | .handle =>
      match worker.location with
      | .received value =>
          some (worker.goto (.handling value), state.messages,
            [.handed index value])
      | _ => none
  | .complete _ =>
      match worker.location with
      | .handling _ => some (worker.goto .looking, state.messages, [])
      | _ => none
  | .panic message =>
      match worker.location with
      | .handling _ => some (worker.goto (.panicked message), state.messages, [])
      | _ => none
  | .abort =>
      match worker.location with
      -- a task that is not polled yet, or waits
      | .looking | .parked | .selecting _ | .handling _ =>
          if state.owner.isDone then
            some (worker.goto .aborted, state.messages, [])
          else none
      | _ => none

/-! ## Supervision -/

/-- `watch::Sender::send`, which fails when every worker has dropped its receiver. -/
def State.send (state : State T) (value : QueueState) : State T :=
  if state.closed then state
  else { state with state := value, version := state.version + 1 }

/-- `join_error`, if the task ended with one. -/
def joinError : Location T → Option QueueRuntimeError
  | .panicked message => some (.workerPanicked message)
  | _ => none

/-- What `wait` and `drain` do with the result of a worker. -/
def joinNext (operation : Operation) (state : State T) (index : Nat) (worker : Worker T) :
    State T :=
  let state := { state with
    workers := state.workers.set index { worker with joined := true }
    remaining := state.remaining - 1 }
  match joinError worker.location, operation with
  | none, _ => state
  | some error, .wait => { state.send .shutdown with owner := .done .wait (.error error) }
  | some error, .shutdown => { state with owner := .done .shutdown (.error error) }

def supervise (state : State T) : Action T → Option (State T)
  | .pause =>
      match state.owner with
      | .holds => some (if state.state = .running then state.send .paused else state)
      | _ => none
  | .resume =>
      match state.owner with
      | .holds => some (if state.state = .paused then state.send .running else state)
      | _ => none
  | .wait =>
      match state.owner with
      | .holds => some { state with owner := .joins .wait }
      | _ => none
  | .shutdown =>
      match state.owner with
      | .holds => some { state.send .shutdown with owner := .joins .shutdown }
      | _ => none
  | .join index => do
      let worker ← state.workers[index]?
      match state.owner with
      | .joins operation =>
          if worker.location.ended && !worker.joined then
            some (joinNext operation state index worker)
          else none
      | _ => none
  | .joined =>
      match state.owner with
      | .joins operation =>
          if state.workers.all Worker.joined then
            some { state with owner := .done operation (.ok ()) }
          else none
      | _ => none
  | .expire =>
      match state.owner with
      | .joins .shutdown => some { state with
          owner := .done .shutdown (.error (.shutdownTimeout state.remaining)) }
      | _ => none
  | _ => none

def advance (state : State T) : Action T → Option (State T × List (Note T))
  | .reserve =>
      if 0 < state.producers ∧ !state.closed ∧ state.hasRoom then
        some ({ state with reserved := state.reserved + 1 }, [])
      else none
  | .release =>
      if 0 < state.reserved then some ({ state with reserved := state.reserved - 1 }, [])
      else none
  | .push value =>
      if 0 < state.reserved then
        some ({ state.push value with reserved := state.reserved - 1 }, [.accepted value])
      else none
  | .tryPush value =>
      if 0 < state.producers then
        match state.tryPush value with
        | .ok state => some (state, [.accepted value])
        | .error _ => some (state, [])
      else none
  | .cloneProducer =>
      if 0 < state.producers then some ({ state with producers := state.producers + 1 }, [])
      else none
  | .dropProducer =>
      -- a pending push borrows a producer
      if 1 < state.producers ∨ state.producers = 1 ∧ state.reserved = 0 then
        some ({ state with producers := state.producers - 1 }, [])
      else none
  | .work index action => do
      let worker ← state.workers[index]?
      let (worker, messages, notes) ← workerLoop state index worker action
      some ({ state with messages := messages, workers := state.workers.set index worker }, notes)
  | action => (supervise state action).map fun state => (state, [])

def system (T : Type u) (capacity workers : Nat) : Lts (State T × List (Note T)) (Action T) :=
  .emitting (start capacity workers) advance

/-! ## What a step does -/

def Location.waitsForChange : Location T → Bool
  | .parked | .selecting _ => true
  | _ => false

/-- The steps of a worker, with what they need. -/
inductive WorkerStep (state : State T) (index : Nat) (worker : Worker T) :
    WorkerAction → Worker T → List T → List (Note T) → Prop
  | look (before : worker.location = .looking) :
      WorkerStep state index worker .look (worker.goto (enter state.state)) state.messages
        [.observed index state.state state.version]
  | changed (before : worker.location.waitsForChange)
      (unseen : worker.seen ≠ state.version) :
      WorkerStep state index worker .changed
        { worker with seen := state.version, location := .looking } state.messages []
  | orphaned (before : worker.location.waitsForChange)
      (seen : worker.seen = state.version) (done : state.owner.isDone) :
      WorkerStep state index worker .changed (worker.goto .returned) state.messages []
  | poll (locked : Bool) (before : worker.location = .selecting locked)
      (seen : worker.seen = state.version) :
      WorkerStep state index worker .poll (worker.goto (.receiving locked))
        state.messages []
  | lock (before : worker.location = .receiving false) (unlocked : state.unlocked) :
      WorkerStep state index worker .receive (worker.goto (.receiving true)) state.messages []
  | wait (before : worker.location = .receiving false) (held : state.unlocked = false) :
      WorkerStep state index worker .receive (worker.goto (.selecting false))
        state.messages []
  | take (value : T) (messages : List T) (before : worker.location = .receiving true)
      (stored : state.messages = value :: messages) :
      WorkerStep state index worker .receive (worker.goto (.received value)) messages
        [.taken index value]
  | drained (before : worker.location = .receiving true) (stored : state.messages = [])
      (dropped : state.producers = 0) :
      WorkerStep state index worker .receive (worker.goto .returned) state.messages []
  | empty (before : worker.location = .receiving true) (stored : state.messages = [])
      (held : state.producers ≠ 0) :
      WorkerStep state index worker .receive (worker.goto (.selecting true)) state.messages []
  | handle (value : T) (before : worker.location = .received value) :
      WorkerStep state index worker .handle (worker.goto (.handling value)) state.messages
        [.handed index value]
  | complete (value : T) (result : Except String Unit)
      (before : worker.location = .handling value) :
      WorkerStep state index worker (.complete result) (worker.goto .looking) state.messages []
  | panic (value : T) (message : String) (before : worker.location = .handling value) :
      WorkerStep state index worker (.panic message) (worker.goto (.panicked message))
        state.messages []
  | abort (before : worker.location.inHand = []) (unended : ¬ worker.location.ended)
      (done : state.owner.isDone) :
      WorkerStep state index worker .abort (worker.goto .aborted) state.messages []

theorem changed_cases {state : State T} {index : Nat} {worker worker' : Worker T}
    (before : worker.location.waitsForChange)
    (moved : changed state worker = some worker') :
    WorkerStep state index worker .changed worker' state.messages [] := by
  unfold changed at moved
  split at moved
  · rename_i unseen
    cases moved
    exact .changed before unseen
  · rename_i seen
    split at moved
    · rename_i done
      cases moved
      exact .orphaned before (of_not_not seen) done
    · cases moved

theorem changed_eq_none {state : State T} {worker : Worker T}
    (still : changed state worker = none) :
    worker.seen = state.version ∧ state.owner.isDone = false := by
  unfold changed at still
  split at still
  · cases still
  · rename_i seen
    split at still
    · cases still
    · rename_i open_
      exact ⟨of_not_not seen, Bool.eq_false_iff.mpr open_⟩

theorem workerLoop_cases {state : State T} {index : Nat} {worker worker' : Worker T}
    {action : WorkerAction} {messages : List T} {notes : List (Note T)}
    (taken : workerLoop state index worker action = some (worker', messages, notes)) :
    WorkerStep state index worker action worker' messages notes := by
  cases action with
  | look =>
      simp only [workerLoop] at taken
      split at taken
      · rename_i before
        cases taken
        exact .look before
      · cases taken
  | changed =>
      simp only [workerLoop] at taken
      split at taken
      · rename_i before
        obtain ⟨next, moved, same⟩ := Option.map_eq_some_iff.mp taken
        cases same
        exact changed_cases (by rw [before]; rfl) moved
      · rename_i locked before
        obtain ⟨next, moved, same⟩ := Option.map_eq_some_iff.mp taken
        cases same
        exact changed_cases (by rw [before]; rfl) moved
      · cases taken
  | poll =>
      simp only [workerLoop] at taken
      split at taken
      · rename_i locked before
        obtain ⟨still, same⟩ := Option.ite_none_right_eq_some.mp taken
        cases same
        exact .poll locked before (changed_eq_none still).1
      · cases taken
  | receive =>
      simp only [workerLoop] at taken
      split at taken
      · rename_i before
        cases taken
        split
        · rename_i unlocked
          exact .lock before unlocked
        · rename_i held
          exact .wait before (Bool.eq_false_iff.mpr held)
      · rename_i before
        split at taken
        · rename_i value messages stored
          cases taken
          exact .take value _ before stored
        · rename_i stored
          cases taken
          rw [← stored]
          split
          · rename_i dropped
            exact .drained before stored dropped
          · rename_i held
            exact .empty before stored held
      · cases taken
  | handle =>
      simp only [workerLoop] at taken
      split at taken
      · rename_i value before
        cases taken
        exact .handle value before
      · cases taken
  | complete result =>
      simp only [workerLoop] at taken
      split at taken
      · rename_i value before
        cases taken
        exact .complete value result before
      · cases taken
  | panic message =>
      simp only [workerLoop] at taken
      split at taken
      · rename_i value before
        cases taken
        exact .panic value message before
      · cases taken
  | abort =>
      simp only [workerLoop] at taken
      split at taken
      all_goals first
        | cases taken
        | (rename_i before
           obtain ⟨done, same⟩ := Option.ite_none_right_eq_some.mp taken
           cases same
           refine .abort ?_ ?_ done
           · rw [before]
             rfl
           · rw [before]
             nofun)

/-- A worker that has ended makes no step, and none joins itself. -/
theorem WorkerStep.unended {state : State T} {index : Nat} {worker worker' : Worker T}
    {action : WorkerAction} {messages : List T} {notes : List (Note T)}
    (step : WorkerStep state index worker action worker' messages notes) :
    worker.location.ended = false ∧ worker'.joined = worker.joined := by
  have waits (before : worker.location.waitsForChange) : worker.location.ended = false := by
    revert before
    cases worker.location <;> simp [Location.waitsForChange, Location.ended]
  cases step with
  | changed before => exact ⟨waits before, rfl⟩
  | orphaned before => exact ⟨waits before, rfl⟩
  | abort _ unended => exact ⟨Bool.eq_false_iff.mpr unended, rfl⟩
  | look before => exact ⟨by rw [before]; rfl, rfl⟩
  | poll locked before => exact ⟨by rw [before]; rfl, rfl⟩
  | lock before => exact ⟨by rw [before]; rfl, rfl⟩
  | wait before => exact ⟨by rw [before]; rfl, rfl⟩
  | take value messages before => exact ⟨by rw [before]; rfl, rfl⟩
  | drained before => exact ⟨by rw [before]; rfl, rfl⟩
  | empty before => exact ⟨by rw [before]; rfl, rfl⟩
  | handle value before => exact ⟨by rw [before]; rfl, rfl⟩
  | complete value result before => exact ⟨by rw [before]; rfl, rfl⟩
  | panic value message before => exact ⟨by rw [before]; rfl, rfl⟩

section Send

variable (state : State T) (value : QueueState)

@[simp]
theorem send_messages : (state.send value).messages = state.messages := by
  unfold State.send
  split <;> rfl

@[simp]
theorem send_reserved : (state.send value).reserved = state.reserved := by
  unfold State.send
  split <;> rfl

@[simp]
theorem send_producers : (state.send value).producers = state.producers := by
  unfold State.send
  split <;> rfl

@[simp]
theorem send_workers : (state.send value).workers = state.workers := by
  unfold State.send
  split <;> rfl

@[simp]
theorem send_owner : (state.send value).owner = state.owner := by
  unfold State.send
  split <;> rfl

end Send

section JoinNext

variable (operation : Operation) (state : State T) (index : Nat) (worker : Worker T)

@[simp]
theorem joinNext_workers : (joinNext operation state index worker).workers =
    state.workers.set index { worker with joined := true } := by
  unfold joinNext
  split <;> simp

theorem joinNext_channel : (joinNext operation state index worker).messages = state.messages ∧
    (joinNext operation state index worker).reserved = state.reserved ∧
    (joinNext operation state index worker).producers = state.producers := by
  unfold joinNext
  split <;> simp

end JoinNext

/-- The steps of the owner, with what they need. -/
inductive OwnerStep (state : State T) : Action T → State T → Prop
  | pause (held : state.owner = .holds) (running : state.state = .running) :
      OwnerStep state .pause (state.send .paused)
  | resume (held : state.owner = .holds) (paused : state.state = .paused) :
      OwnerStep state .resume (state.send .running)
  | ignore (action : Action T) : OwnerStep state action state
  | wait (held : state.owner = .holds) :
      OwnerStep state .wait { state with owner := .joins .wait }
  | shutdown (held : state.owner = .holds) :
      OwnerStep state .shutdown { state.send .shutdown with owner := .joins .shutdown }
  | join (operation : Operation) (index : Nat) (worker : Worker T)
      (joining : state.owner = .joins operation) (found : state.workers[index]? = some worker)
      (ended : worker.location.ended) (fresh : worker.joined = false) :
      OwnerStep state (.join index) (joinNext operation state index worker)
  | joined (operation : Operation) (joining : state.owner = .joins operation)
      (all : ∀ worker ∈ state.workers, worker.joined) :
      OwnerStep state .joined { state with owner := .done operation (.ok ()) }
  | expire (joining : state.owner = .joins .shutdown) :
      OwnerStep state .expire { state with
        owner := .done .shutdown (.error (.shutdownTimeout state.remaining)) }

theorem supervise_cases {state state' : State T} {action : Action T}
    (taken : supervise state action = some state') : OwnerStep state action state' := by
  cases action with
  | pause =>
      simp only [supervise] at taken
      split at taken
      · rename_i held
        cases taken
        split
        · rename_i running
          exact .pause held running
        · exact .ignore _
      · cases taken
  | resume =>
      simp only [supervise] at taken
      split at taken
      · rename_i held
        cases taken
        split
        · rename_i paused
          exact .resume held paused
        · exact .ignore _
      · cases taken
  | wait =>
      simp only [supervise] at taken
      split at taken
      · rename_i held
        cases taken
        exact .wait held
      · cases taken
  | shutdown =>
      simp only [supervise] at taken
      split at taken
      · rename_i held
        cases taken
        exact .shutdown held
      · cases taken
  | join index =>
      simp only [supervise, Option.bind_eq_bind, Option.bind_eq_some_iff] at taken
      obtain ⟨worker, found, taken⟩ := taken
      split at taken
      · rename_i operation joining
        obtain ⟨ready, same⟩ := Option.ite_none_right_eq_some.mp taken
        cases same
        simp only [Bool.and_eq_true, Bool.not_eq_true'] at ready
        exact .join operation index worker joining found ready.1 ready.2
      · cases taken
  | joined =>
      simp only [supervise] at taken
      split at taken
      · rename_i operation joining
        obtain ⟨all, same⟩ := Option.ite_none_right_eq_some.mp taken
        cases same
        exact .joined operation joining (List.all_eq_true.mp all)
      · cases taken
  | expire =>
      simp only [supervise] at taken
      split at taken
      · rename_i joining
        cases taken
        exact .expire joining
      · cases taken
  | _ => cases taken

/-- The owner leaves the channel as it is. -/
theorem OwnerStep.channel {state state' : State T} {action : Action T}
    (step : OwnerStep state action state') : state'.messages = state.messages ∧
      state'.reserved = state.reserved ∧ state'.producers = state.producers := by
  cases step with
  | join operation index worker => exact joinNext_channel operation state index worker
  | _ => simp

/-- The owner moves no worker. -/
theorem OwnerStep.workers {state state' : State T} {action : Action T}
    (step : OwnerStep state action state') {index : Nat} {worker' : Worker T}
    (found : state'.workers[index]? = some worker') :
    ∃ worker, state.workers[index]? = some worker ∧ worker'.seen = worker.seen ∧
      worker'.location = worker.location := by
  cases step with
  | join operation joined worker _ before =>
      rw [joinNext_workers] at found
      by_cases same : joined = index
      · subst same
        obtain ⟨within, new⟩ := List.getElem?_eq_some_iff.mp found
        rw [List.getElem_set_self] at new
        exact ⟨worker, before, by rw [← new], by rw [← new]⟩
      · rw [List.getElem?_set_ne same] at found
        exact ⟨worker', found, rfl, rfl⟩
  | pause | resume | shutdown =>
      simp only [send_workers] at found
      exact ⟨worker', found, rfl, rfl⟩
  | _ => exact ⟨worker', found, rfl, rfl⟩

theorem OwnerStep.length {state state' : State T} {action : Action T}
    (step : OwnerStep state action state') : state'.workers.length = state.workers.length := by
  cases step with
  | join => rw [joinNext_workers, List.length_set]
  | _ => simp

/-- The steps of a queue: a use of the channel, a worker's, or the owner's. -/
inductive Step (state : State T) : Action T → State T → List (Note T) → Prop
  | reserve (held : 0 < state.producers) (open_ : state.closed = false)
      (room : state.hasRoom) :
      Step state .reserve { state with reserved := state.reserved + 1 } []
  | release : Step state .release { state with reserved := state.reserved - 1 } []
  | push (value : T) (given : 0 < state.reserved) :
      Step state (.push value) { state.push value with reserved := state.reserved - 1 }
        [.accepted value]
  | tryPush (value : T) (held : 0 < state.producers) (open_ : state.closed = false)
      (room : state.hasRoom) : Step state (.tryPush value) (state.push value) [.accepted value]
  | refuse (value : T) : Step state (.tryPush value) state []
  | cloneProducer (held : 0 < state.producers) :
      Step state .cloneProducer { state with producers := state.producers + 1 } []
  | dropProducer (unborrowed : 1 < state.producers ∨ state.producers = 1 ∧ state.reserved = 0) :
      Step state .dropProducer { state with producers := state.producers - 1 } []
  | work (index : Nat) (action : WorkerAction) (worker worker' : Worker T) (messages : List T)
      (notes : List (Note T)) (found : state.workers[index]? = some worker)
      (step : WorkerStep state index worker action worker' messages notes) :
      Step state (.work index action)
        { state with messages := messages, workers := state.workers.set index worker' } notes
  | supervise (action : Action T) (state' : State T) (step : OwnerStep state action state') :
      Step state action state' []

/-- A reservation borrows a producer. -/
theorem Step.borrowed {state state' : State T} {action : Action T} {notes : List (Note T)}
    (step : Step state action state' notes) (before : state.producers = 0 → state.reserved = 0)
    (none : state'.producers = 0) : state'.reserved = 0 := by
  cases step with
  | reserve held =>
      change state.producers = 0 at none
      omega
  | release | push =>
      have := before none
      change state.reserved - 1 = 0
      omega
  | tryPush | refuse | work => exact before none
  | cloneProducer => cases none
  | dropProducer unborrowed =>
      change state.producers - 1 = 0 at none
      change state.reserved = 0
      omega
  | supervise action state' step =>
      obtain ⟨_, reserved, producers⟩ := step.channel
      rw [reserved]
      exact before (producers.symm.trans none)

theorem advance_cases {state state' : State T} {action : Action T} {notes : List (Note T)}
    (taken : advance state action = some (state', notes)) : Step state action state' notes := by
  cases action with
  | reserve =>
      obtain ⟨⟨held, open_, room⟩, same⟩ := Option.ite_none_right_eq_some.mp taken
      cases same
      exact .reserve held (by simpa using open_) room
  | release =>
      obtain ⟨_, same⟩ := Option.ite_none_right_eq_some.mp taken
      cases same
      exact .release
  | push value =>
      obtain ⟨given, same⟩ := Option.ite_none_right_eq_some.mp taken
      cases same
      exact .push value given
  | tryPush value =>
      obtain ⟨held, same⟩ := Option.ite_none_right_eq_some.mp taken
      unfold State.tryPush at same
      by_cases closed : state.closed
      · rw [if_pos closed] at same
        cases same
        exact .refuse value
      · by_cases room : state.hasRoom
        · rw [if_neg closed, if_pos room] at same
          cases same
          exact .tryPush value held (Bool.eq_false_iff.mpr closed) room
        · rw [if_neg closed, if_neg room] at same
          cases same
          exact .refuse value
  | cloneProducer =>
      obtain ⟨held, same⟩ := Option.ite_none_right_eq_some.mp taken
      cases same
      exact .cloneProducer held
  | dropProducer =>
      obtain ⟨unborrowed, same⟩ := Option.ite_none_right_eq_some.mp taken
      cases same
      exact .dropProducer unborrowed
  | work index action =>
      simp only [advance, Option.bind_eq_bind, Option.bind_eq_some_iff] at taken
      obtain ⟨worker, found, ⟨worker', messages, notes'⟩, looped, same⟩ := taken
      cases same
      exact .work index action worker worker' messages _ found (workerLoop_cases looped)
  | _ =>
      obtain ⟨next, supervised, same⟩ := Option.map_eq_some_iff.mp taken
      cases same
      exact .supervise _ _ (supervise_cases supervised)

end RustZero.Queue
