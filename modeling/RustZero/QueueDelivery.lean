import RustZero.Lib.Phases
import RustZero.Queue

/-!
# What a queue does with its messages

`Delivered` says what the history of a queue and its state have to do with each other.
It holds in every run without a shutdown and without a panic of a handler, whatever the
producers, the owner and the workers do in between (`delivered_of_reach`).
-/

namespace RustZero.Queue

open RustZero.Lib

universe u

variable {T : Type u}

/-! ## What the history says -/

def Note.acceptedValue : Note T → List T
  | .accepted value => [value]
  | _ => []

def Note.takenBy : Note T → List (Nat × T)
  | .taken worker value => [(worker, value)]
  | _ => []

def Note.handedBy : Note T → List (Nat × T)
  | .handed worker value => [(worker, value)]
  | _ => []

def Note.observedBy : Note T → List (Nat × QueueState × Nat)
  | .observed worker state version => [(worker, state, version)]
  | _ => []

/-- The messages the queue has accepted, oldest first. -/
def accepted (history : List (Note T)) : List T :=
  history.flatMap Note.acceptedValue

/-- The messages taken out of the channel, each by a worker that hands it to its handler. -/
def taken (history : List (Note T)) : List (Nat × T) :=
  history.flatMap Note.takenBy

def handed (history : List (Note T)) : List (Nat × T) :=
  history.flatMap Note.handedBy

def observed (history : List (Note T)) : List (Nat × QueueState × Nat) :=
  history.flatMap Note.observedBy

/-- What is listed for one worker. -/
def ofWorker {α : Type*} (index : Nat) (listed : List (Nat × α)) : List α :=
  (listed.filter fun entry => entry.1 = index).map Prod.snd

/-- A worker that has read `Paused` reads `Running` in a later version of the state before
it hands a message to its handler. -/
def Pauses (history : List (Note T)) : Prop :=
  ∀ before index version middle value after,
    history = before ++ .observed index .paused version :: middle ++
      .handed index value :: after →
    ∃ later, .observed index .running later ∈ middle ∧ version < later

structure Delivered (state : State T) (history : List (Note T)) : Prop where
  /-- What was accepted is what was taken, in that order, and what is still there. -/
  fifo : accepted history = (taken history).map Prod.snd ++ state.messages
  /-- A worker hands over what it takes, once and before it takes the next message. -/
  once : ∀ (index : Nat) (worker : Worker T), state.workers[index]? = some worker →
    ofWorker index (taken history) = ofWorker index (handed history) ++ worker.location.inHand
  pauses : Pauses history
  /-- A worker stops when there is nothing left and nobody to push more. -/
  drained : ∀ worker ∈ state.workers, worker.location.finished →
    state.messages = [] ∧ state.producers = 0

/-! ## Reading the history -/

@[simp]
theorem accepted_append (history notes : List (Note T)) :
    accepted (history ++ notes) = accepted history ++ accepted notes :=
  List.flatMap_append

@[simp]
theorem taken_append (history notes : List (Note T)) :
    taken (history ++ notes) = taken history ++ taken notes :=
  List.flatMap_append

@[simp]
theorem handed_append (history notes : List (Note T)) :
    handed (history ++ notes) = handed history ++ handed notes :=
  List.flatMap_append

@[simp]
theorem observed_append (history notes : List (Note T)) :
    observed (history ++ notes) = observed history ++ observed notes :=
  List.flatMap_append

@[simp]
theorem ofWorker_append {α : Type*} (index : Nat) (listed more : List (Nat × α)) :
    ofWorker index (listed ++ more) = ofWorker index listed ++ ofWorker index more := by
  rw [ofWorker, List.filter_append, List.map_append, ofWorker, ofWorker]

theorem mem_ofWorker_observed {history : List (Note T)} {index version : Nat}
    {state : QueueState} (member : (state, version) ∈ ofWorker index (observed history)) :
    .observed index state version ∈ history := by
  obtain ⟨⟨worker, entry⟩, listed, same⟩ := List.mem_map.mp member
  obtain ⟨listed, mine⟩ := List.mem_filter.mp listed
  obtain ⟨note, noted, read⟩ := List.mem_flatMap.mp listed
  cases note with
  | observed worker' state' version' =>
      rw [Note.observedBy, List.mem_singleton] at read
      cases read
      cases same
      rw [← of_decide_eq_true mine]
      exact noted
  | _ => cases read

/-! ## One step of a worker -/

section Worker

variable {state : State T} {index : Nat} {worker worker' : Worker T} {action : WorkerAction}
  {messages : List T} {notes : List (Note T)}

/-- A worker takes messages from the front and accepts none. -/
theorem WorkerStep.channel (step : WorkerStep state index worker action worker' messages notes) :
    accepted notes = [] ∧ state.messages = (taken notes).map Prod.snd ++ messages := by
  cases step with
  | take value messages _ stored => exact ⟨rfl, stored⟩
  | _ => exact ⟨rfl, rfl⟩

/-- What a worker takes is in its hand until it hands it over. -/
theorem WorkerStep.mine (step : WorkerStep state index worker action worker' messages notes) :
    worker.location.inHand ++ ofWorker index (taken notes) =
      ofWorker index (handed notes) ++ worker'.location.inHand := by
  have none (notes : List (Note T)) (taken_ : taken notes = []) (handed_ : handed notes = [])
      (before : worker.location.inHand = []) (after : worker'.location.inHand = []) :
      worker.location.inHand ++ ofWorker index (taken notes) =
        ofWorker index (handed notes) ++ worker'.location.inHand := by
    rw [taken_, handed_, before, after]
    rfl
  cases step with
  | look before =>
      refine none _ rfl rfl (by rw [before]; rfl) ?_
      cases state.state <;> rfl
  | changed before =>
      refine none _ rfl rfl ?_ rfl
      revert before
      cases worker.location <;> simp [Location.waitsForChange, Location.inHand]
  | orphaned before =>
      refine none _ rfl rfl ?_ rfl
      revert before
      cases worker.location <;> simp [Location.waitsForChange, Location.inHand]
  | take value messages before =>
      rw [before]
      simp [Location.inHand, taken, handed, Note.takenBy, Note.handedBy, ofWorker, Worker.goto]
  | handle value before =>
      rw [before]
      simp [Location.inHand, taken, handed, Note.takenBy, Note.handedBy, ofWorker, Worker.goto]
  | abort before => exact none _ rfl rfl before rfl
  | poll locked before => exact none _ rfl rfl (by rw [before]; rfl) rfl
  | complete value result before => exact none _ rfl rfl (by rw [before]; rfl) rfl
  | panic value message before => exact none _ rfl rfl (by rw [before]; rfl) rfl
  | lock before => exact none _ rfl rfl (by rw [before]; rfl) rfl
  | wait before => exact none _ rfl rfl (by rw [before]; rfl) rfl
  | drained before => exact none _ rfl rfl (by rw [before]; rfl) rfl
  | empty before => exact none _ rfl rfl (by rw [before]; rfl) rfl

/-- The notes of a step are about the worker that moves. -/
theorem WorkerStep.others (step : WorkerStep state index worker action worker' messages notes)
    {other : Nat} (different : other ≠ index) :
    ofWorker other (taken notes) = [] ∧ ofWorker other (handed notes) = [] ∧
      ofWorker other (observed notes) = [] := by
  have foreign : ¬ index = other := Ne.symm different
  cases step <;>
    simp [taken, handed, observed, Note.takenBy, Note.handedBy, Note.observedBy, ofWorker, foreign]

end Worker

/-! ## One step of the queue -/

section Queue

variable {state state' : State T} {history notes : List (Note T)} {action : Action T}

/-- The first two parts of `Delivered`, which every run keeps. -/
structure Handover (state : State T) (history : List (Note T)) : Prop where
  fifo : accepted history = (taken history).map Prod.snd ++ state.messages
  once : ∀ (index : Nat) (worker : Worker T), state.workers[index]? = some worker →
    ofWorker index (taken history) = ofWorker index (handed history) ++ worker.location.inHand

theorem Handover.push (inv : Handover state history) (value : T) :
    Handover (state.push value) (history ++ [.accepted value]) where
  fifo := by
    have before := inv.fifo
    simp only [accepted_append, taken_append, before]
    simp [accepted, taken, Note.acceptedValue, Note.takenBy, State.push]
  once := by
    have none : taken [.accepted value] = [] ∧ handed [.accepted value] = [] := ⟨rfl, rfl⟩
    rw [taken_append, handed_append, none.1, none.2, List.append_nil, List.append_nil]
    exact inv.once

theorem Handover.step (inv : Handover state history) (step : Step state action state' notes) :
    Handover state' (history ++ notes) := by
  cases step with
  | push value =>
      have pushed := inv.push value
      exact ⟨pushed.fifo, pushed.once⟩
  | tryPush value => exact inv.push value
  | work index action worker worker' messages notes found step =>
      refine ⟨?_, ?_⟩
      · obtain ⟨none, stored⟩ := step.channel
        have before := inv.fifo
        rw [stored] at before
        rw [accepted_append, none, List.append_nil, before, taken_append, List.map_append,
          List.append_assoc]
      · refine forall_set ?_ ?_
        · have moved := step.mine
          rw [taken_append, handed_append, ofWorker_append, ofWorker_append,
            inv.once index worker found, List.append_assoc, moved, List.append_assoc]
        · intro other party different there
          obtain ⟨noneTaken, noneHanded, _⟩ := step.others different
          rw [taken_append, handed_append, ofWorker_append, ofWorker_append, noneTaken,
            noneHanded, List.append_nil, List.append_nil]
          exact inv.once other party there
  | supervise action state' step =>
      rw [List.append_nil]
      refine ⟨?_, ?_⟩
      · rw [step.channel.1]
        exact inv.fifo
      · intro index worker' found
        obtain ⟨worker, before, _, same⟩ := step.workers found
        rw [same]
        exact inv.once index worker before
  | _ =>
      rw [List.append_nil]
      exact ⟨inv.fifo, inv.once⟩

/-! ### Versions of the state -/

/-- The states a worker has read, in the order of their versions, and the current one. -/
structure Watched (state : State T) (read : List (QueueState × Nat)) : Prop where
  ordered : read.Pairwise fun first second =>
    first.2 ≤ second.2 ∧ (first.2 = second.2 → first.1 = second.1)
  current : ∀ entry ∈ read, entry.2 ≤ state.version ∧
    (entry.2 = state.version → entry.1 = state.state)

theorem Watched.read {read : List (QueueState × Nat)} (watched : Watched state read) :
    Watched state (read ++ [(state.state, state.version)]) where
  ordered := List.pairwise_append.mpr ⟨watched.ordered, List.pairwise_singleton _ _, by
    intro entry member last same
    rw [List.mem_singleton.mp same]
    exact watched.current entry member⟩
  current := by
    intro entry member
    rcases List.mem_append.mp member with old | new
    · exact watched.current entry old
    · rw [List.mem_singleton.mp new]
      exact ⟨Nat.le_refl _, fun _ => rfl⟩

theorem Watched.of_same {read : List (QueueState × Nat)} (watched : Watched state read)
    (same : state'.state = state.state) (version : state'.version = state.version) :
    Watched state' read := by
  refine ⟨watched.ordered, ?_⟩
  rw [same, version]
  exact watched.current

theorem Watched.send {read : List (QueueState × Nat)} (watched : Watched state read)
    (value : QueueState) : Watched (state.send value) read := by
  unfold State.send
  split
  · exact watched
  · refine ⟨watched.ordered, ?_⟩
    intro entry member
    have before := (watched.current entry member).1
    refine ⟨Nat.le_succ_of_le before, ?_⟩
    intro same
    change entry.2 = state.version + 1 at same
    omega

theorem Watched.supervise {read : List (QueueState × Nat)} (watched : Watched state read)
    (step : OwnerStep state action state') : Watched state' read := by
  cases step with
  | pause | resume => exact watched.send _
  | shutdown => exact (watched.send .shutdown).of_same rfl rfl
  | join operation index worker =>
      unfold joinNext
      split
      · exact watched.of_same rfl rfl
      · have marked : Watched { state with
            workers := state.workers.set index { worker with joined := true }
            remaining := state.remaining - 1 } read := watched.of_same rfl rfl
        exact (marked.send .shutdown).of_same rfl rfl
      · exact watched.of_same rfl rfl
  | _ => exact watched.of_same rfl rfl

/-- A worker on the way to its handler has last read `Running`. -/
def Location.started : Location T → Bool
  | .selecting _ | .receiving _ | .received _ => true
  | _ => false

structure Observing (state : State T) (history : List (Note T)) : Prop where
  watched : ∀ index, Watched state (ofWorker index (observed history))
  started : ∀ (index : Nat) (worker : Worker T), state.workers[index]? = some worker →
    worker.location.started →
    ∃ version, (ofWorker index (observed history)).getLast? = some (.running, version)
  pauses : Pauses history

/-- An entry of a list that grows at its end is the new one or was there before. -/
theorem concat_eq_append_cons {α : Type*} {items before after : List α} {last entry : α}
    (same : items ++ [last] = before ++ entry :: after) :
    items = before ∧ last = entry ∨ ∃ rest, items = before ++ entry :: rest := by
  rcases List.eq_nil_or_concat after with none | ⟨rest, final, more⟩
  · subst none
    obtain ⟨whole, ends⟩ := List.append_inj' same rfl
    cases ends
    exact .inl ⟨whole, rfl⟩
  · subst more
    rw [List.concat_eq_append, ← List.cons_append, ← List.append_assoc] at same
    exact .inr ⟨rest, List.append_inj_left' same rfl⟩

theorem Pauses.quiet (pauses : Pauses history) {note : Note T}
    (quiet : ∀ index value, note ≠ .handed index value) : Pauses (history ++ [note]) := by
  intro before index version middle value after same
  rcases concat_eq_append_cons same with ⟨_, last⟩ | ⟨rest, old⟩
  · exact absurd last (quiet index value)
  · exact pauses before index version middle value rest old

/-- A worker that hands a message over has last read `Running`. -/
theorem Pauses.handed (pauses : Pauses history) {index version : Nat} (value : T)
    (watched : Watched state (ofWorker index (observed history)))
    (running : (ofWorker index (observed history)).getLast? = some (.running, version)) :
    Pauses (history ++ [.handed index value]) := by
  intro before index' version' middle value' after same
  rcases concat_eq_append_cons same with ⟨whole, last⟩ | ⟨rest, old⟩
  · cases last
    subst whole
    have split : ofWorker index (observed (before ++ .observed index .paused version' :: middle)) =
        ofWorker index (observed before) ++ (.paused, version') ::
          ofWorker index (observed middle) := by
      rw [← List.singleton_append, observed_append, observed_append, ofWorker_append,
        ofWorker_append]
      simp [observed, Note.observedBy, ofWorker]
    rw [split] at watched running
    have later : (.running, version) ∈ ofWorker index (observed middle) := by
      rw [List.getLast?_append, List.getLast?_cons] at running
      cases tail : (ofWorker index (observed middle)).getLast? with
      | none => simp [tail] at running
      | some entry =>
          simp only [tail, Option.getD_some, Option.some_or, Option.some.injEq] at running
          rw [← running]
          exact List.mem_of_getLast? tail
    have order := (List.pairwise_cons.mp (List.pairwise_append.mp watched.ordered).2.1).1 _ later
    refine ⟨version, mem_ofWorker_observed later, ?_⟩
    have different : version' ≠ version := fun equal => by cases order.2 equal
    exact Nat.lt_of_le_of_ne order.1 different
  · exact pauses before index' version' middle value' rest old

/-- A worker reads the state, or reads nothing and starts nothing. -/
theorem WorkerStep.reads {index : Nat} {worker worker' : Worker T} {action : WorkerAction}
    {messages : List T} (step : WorkerStep state index worker action worker' messages notes) :
    (notes = [.observed index state.state state.version] ∧
        (worker'.location.started → state.state = .running)) ∨
      observed notes = [] ∧ (worker'.location.started → worker.location.started) := by
  cases step with
  | look =>
      refine .inl ⟨rfl, ?_⟩
      cases state.state <;> simp [enter, Worker.goto, Location.started]
  | poll locked before => exact .inr ⟨rfl, fun _ => by rw [before]; rfl⟩
  | lock before => exact .inr ⟨rfl, fun _ => by rw [before]; rfl⟩
  | wait before => exact .inr ⟨rfl, fun _ => by rw [before]; rfl⟩
  | take value messages before => exact .inr ⟨rfl, fun _ => by rw [before]; rfl⟩
  | empty before => exact .inr ⟨rfl, fun _ => by rw [before]; rfl⟩
  | _ => exact .inr ⟨rfl, nofun⟩

theorem Observing.work (inv : Observing state history) {index : Nat} {worker worker' : Worker T}
    {work : WorkerAction} {messages : List T} (found : state.workers[index]? = some worker)
    (step : WorkerStep state index worker work worker' messages notes) :
    Observing { state with messages := messages, workers := state.workers.set index worker' }
      (history ++ notes) := by
  have others : ∀ other, other ≠ index → ofWorker other (observed (history ++ notes)) =
      ofWorker other (observed history) := by
    intro other different
    rw [observed_append, ofWorker_append, (step.others different).2.2, List.append_nil]
  refine ⟨?_, ?_, ?_⟩
  · intro other
    by_cases same : other = index
    · subst same
      rcases step.reads with ⟨read, _⟩ | ⟨none, _⟩
      · subst read
        have grown : ofWorker other (observed (history ++
            [.observed other state.state state.version])) =
              ofWorker other (observed history) ++ [(state.state, state.version)] := by
          rw [observed_append, ofWorker_append]
          simp [observed, Note.observedBy, ofWorker]
        rw [grown]
        exact (inv.watched other).read.of_same rfl rfl
      · rw [observed_append, none, List.append_nil]
        exact (inv.watched other).of_same rfl rfl
    · rw [others other same]
      exact (inv.watched other).of_same rfl rfl
  · refine forall_set ?_ ?_
    · intro started
      rcases step.reads with ⟨read, running⟩ | ⟨none, before⟩
      · subst read
        refine ⟨state.version, ?_⟩
        rw [observed_append, ofWorker_append, ← running started]
        simp [observed, Note.observedBy, ofWorker]
      · rw [observed_append, none, List.append_nil]
        exact inv.started index worker found (before started)
    · intro other party different there started
      rw [others other different]
      exact inv.started other party there started
  · cases step with
    | look => exact inv.pauses.quiet nofun
    | take => exact inv.pauses.quiet nofun
    | handle value before =>
        obtain ⟨version, running⟩ := inv.started index worker found (by rw [before]; rfl)
        exact inv.pauses.handed value (inv.watched index) running
    | _ =>
        rw [List.append_nil]
        exact inv.pauses

theorem Observing.push (inv : Observing state history) (value : T) :
    Observing (state.push value) (history ++ [.accepted value]) := by
  have none : observed [(.accepted value : Note T)] = [] := rfl
  refine ⟨?_, ?_, inv.pauses.quiet nofun⟩
  · intro index
    rw [observed_append, none, List.append_nil]
    exact (inv.watched index).of_same rfl rfl
  · rw [observed_append, none, List.append_nil]
    exact inv.started

theorem Observing.step (inv : Observing state history)
    (step : Step state action state' notes) : Observing state' (history ++ notes) := by
  cases step with
  | push value =>
      have pushed := inv.push value
      exact ⟨fun index => (pushed.watched index).of_same rfl rfl, pushed.started, pushed.pauses⟩
  | tryPush value => exact inv.push value
  | work index action worker worker' messages notes found step => exact inv.work found step
  | supervise action state' step =>
      rw [List.append_nil]
      refine ⟨fun index => (inv.watched index).supervise step, ?_, inv.pauses⟩
      intro index worker' found started
      obtain ⟨worker, before, _, same⟩ := step.workers found
      rw [same] at started
      exact inv.started index worker before started
  | _ =>
      rw [List.append_nil]
      exact ⟨fun index => (inv.watched index).of_same rfl rfl, inv.started, inv.pauses⟩

/-! ### Runs without shutdown and panics -/

/-- Neither a shutdown nor a panic of a handler. -/
def Action.calm : Action T → Bool
  | .shutdown | .work _ (.panic _) => false
  | _ => true

structure Calm (state : State T) : Prop where
  open_ : state.state ≠ .shutdown
  borrowed : state.producers = 0 → state.reserved = 0
  returned : ∀ worker ∈ state.workers, worker.location.finished →
    worker.location = .returned ∧ state.messages = [] ∧ state.producers = 0
  joined : ∀ worker ∈ state.workers, worker.joined → worker.location.finished
  done : state.owner.isDone → ∀ worker ∈ state.workers, worker.location.finished
  owner : state.owner ≠ .joins .shutdown

/-- A worker that moves is not finished, and finishes when it has drained the channel. -/
theorem Calm.finishes (calm : Calm state) {index : Nat} {worker worker' : Worker T}
    {work : WorkerAction} {messages : List T} (found : state.workers[index]? = some worker)
    (step : WorkerStep state index worker work worker' messages notes)
    (quiet : (Action.work index work : Action T).calm) :
    worker.location.finished = false ∧ worker'.joined = worker.joined ∧
      (worker'.location.finished →
        worker'.location = .returned ∧ messages = [] ∧ state.producers = 0) := by
  have member := List.mem_of_getElem? found
  have alive (before : worker.location.finished = false) : state.owner.isDone = false := by
    rw [Bool.eq_false_iff]
    intro done
    rw [calm.done done worker member] at before
    cases before
  have waits (before : worker.location.waitsForChange) : worker.location.finished = false := by
    revert before
    cases worker.location <;> simp [Location.waitsForChange, Location.finished, Location.ended]
  have goesOn (after : worker'.location.finished = false) : worker'.location.finished →
      worker'.location = .returned ∧ messages = [] ∧ state.producers = 0 := by
    intro finished
    rw [after] at finished
    cases finished
  cases step with
  | look before =>
      refine ⟨by rw [before]; rfl, rfl, goesOn ?_⟩
      have open_ := calm.open_
      cases current : state.state with
      | shutdown => exact absurd current open_
      | paused => rfl
      | running => rfl
  | changed before => exact ⟨waits before, rfl, goesOn rfl⟩
  | orphaned before _ done =>
      rw [alive (waits before)] at done
      cases done
  | drained before stored dropped =>
      exact ⟨by rw [before]; rfl, rfl, fun _ => ⟨rfl, stored, dropped⟩⟩
  | panic => cases quiet
  | abort _ unended done =>
      have stopped := (calm.returned worker member (calm.done done worker member)).1
      rw [stopped] at unended
      exact absurd rfl unended
  | poll locked before => exact ⟨by rw [before]; rfl, rfl, goesOn rfl⟩
  | lock before => exact ⟨by rw [before]; rfl, rfl, goesOn rfl⟩
  | wait before => exact ⟨by rw [before]; rfl, rfl, goesOn rfl⟩
  | take value messages before => exact ⟨by rw [before]; rfl, rfl, goesOn rfl⟩
  | empty before => exact ⟨by rw [before]; rfl, rfl, goesOn rfl⟩
  | handle value before => exact ⟨by rw [before]; rfl, rfl, goesOn rfl⟩
  | complete value result before => exact ⟨by rw [before]; rfl, rfl, goesOn rfl⟩

/-- With a producer left, no worker is finished. -/
theorem Calm.busy (calm : Calm state) (held : 0 < state.producers) (worker : Worker T)
    (member : worker ∈ state.workers) : worker.location.finished = false := by
  rw [Bool.eq_false_iff]
  intro finished
  have := (calm.returned worker member finished).2.2
  omega

theorem Calm.push (calm : Calm state) (value : T) (held : 0 < state.producers) :
    Calm (state.push value) where
  open_ := calm.open_
  borrowed := calm.borrowed
  returned := by
    intro worker member finished
    rw [calm.busy held worker member] at finished
    cases finished
  joined := calm.joined
  done := calm.done
  owner := calm.owner

theorem Calm.work (calm : Calm state) {index : Nat} {worker worker' : Worker T}
    {work : WorkerAction} {messages : List T} (found : state.workers[index]? = some worker)
    (step : WorkerStep state index worker work worker' messages notes)
    (quiet : (Action.work index work : Action T).calm) :
    Calm { state with messages := messages, workers := state.workers.set index worker' } := by
  obtain ⟨unfinished, same, finishes⟩ := calm.finishes found step quiet
  have member := List.mem_of_getElem? found
  have alive : state.owner.isDone = false := by
    rw [Bool.eq_false_iff]
    intro done
    rw [calm.done done worker member] at unfinished
    cases unfinished
  refine ⟨calm.open_, calm.borrowed, ?_, ?_, ?_, calm.owner⟩
  · intro other there finished
    rcases List.mem_or_eq_of_mem_set there with old | new
    · -- there is nothing left to take
      obtain ⟨returned, none, dropped⟩ := calm.returned other old finished
      have stored := step.channel.2
      rw [none] at stored
      exact ⟨returned, (List.append_eq_nil_iff.mp stored.symm).2, dropped⟩
    · subst new
      exact finishes finished
  · intro other there joined
    rcases List.mem_or_eq_of_mem_set there with old | new
    · exact calm.joined other old joined
    · subst new
      rw [same] at joined
      rw [calm.joined worker member joined] at unfinished
      cases unfinished
  · intro done
    change state.owner.isDone at done
    rw [alive] at done
    cases done

theorem Calm.send (calm : Calm state) {value : QueueState} (open_ : value ≠ .shutdown) :
    Calm (state.send value) := by
  unfold State.send
  split
  · exact calm
  · exact ⟨open_, calm.borrowed, calm.returned, calm.joined, calm.done, calm.owner⟩

theorem Calm.supervise (calm : Calm state) (step : OwnerStep state action state')
    (quiet : action.calm) : Calm state' := by
  cases step with
  | pause => exact calm.send nofun
  | resume => exact calm.send nofun
  | ignore => exact calm
  | wait => exact ⟨calm.open_, calm.borrowed, calm.returned, calm.joined, nofun, nofun⟩
  | shutdown => cases quiet
  | join operation index worker joining found ended =>
      have member := List.mem_of_getElem? found
      have stopped : worker.location.finished := by
        unfold Location.finished
        rw [ended]
        rfl
      have returned := (calm.returned worker member stopped).1
      have after : joinNext operation state index worker = { state with
          workers := state.workers.set index { worker with joined := true }
          remaining := state.remaining - 1 } := by
        simp [joinNext, returned, joinError]
      rw [after]
      refine ⟨calm.open_, calm.borrowed, ?_, ?_, ?_, calm.owner⟩
      · intro other there finished
        rcases List.mem_or_eq_of_mem_set there with old | new
        · exact calm.returned other old finished
        · subst new
          exact calm.returned worker member finished
      · intro other there joined
        rcases List.mem_or_eq_of_mem_set there with old | new
        · exact calm.joined other old joined
        · subst new
          exact stopped
      · intro done
        change state.owner.isDone at done
        rw [joining] at done
        cases done
  | joined operation joining all =>
      exact ⟨calm.open_, calm.borrowed, calm.returned, calm.joined,
        fun _ worker member => calm.joined worker member (all worker member), nofun⟩
  | expire joining => exact absurd joining calm.owner

theorem Calm.step (calm : Calm state) (step : Step state action state' notes)
    (quiet : action.calm) : Calm state' := by
  have borrowed := step.borrowed calm.borrowed
  cases step with
  | reserve | release =>
      exact ⟨calm.open_, borrowed, calm.returned, calm.joined, calm.done, calm.owner⟩
  | push value given =>
      have held : 0 < state.producers := by
        rw [Nat.pos_iff_ne_zero]
        intro none
        have := calm.borrowed none
        omega
      have pushed := calm.push value held
      exact ⟨pushed.open_, borrowed, pushed.returned, pushed.joined, pushed.done, pushed.owner⟩
  | tryPush value held => exact calm.push value held
  | refuse => exact calm
  | cloneProducer held =>
      refine ⟨calm.open_, borrowed, ?_, calm.joined, calm.done, calm.owner⟩
      intro worker member finished
      rw [calm.busy held worker member] at finished
      cases finished
  | dropProducer unborrowed =>
      have held : 0 < state.producers := by omega
      refine ⟨calm.open_, borrowed, ?_, calm.joined, calm.done, calm.owner⟩
      intro worker member finished
      rw [calm.busy held worker member] at finished
      cases finished
  | work index action worker worker' messages notes found step =>
      exact calm.work found step quiet
  | supervise action state' step => exact calm.supervise step quiet

end Queue

/-! ## One queue -/

theorem delivered_of_reach (capacity workers : Nat) {state : State T} {history : List (Note T)}
    (reach : (system T capacity workers).Reach (fun _ action => action.calm) (state, history)) :
    Delivered state history := by
  have inv : Handover state history ∧ Observing state history ∧ Calm state := by
    refine reach.emitting_invariant (I := fun state history =>
      Handover state history ∧ Observing state history ∧ Calm state) ?_ ?_
    · have fresh (worker : Worker T)
          (member : worker ∈ (start capacity workers : State T).workers) :
          worker = ⟨0, .looking, false⟩ := List.eq_of_mem_replicate member
      refine ⟨⟨rfl, ?_⟩, ⟨?_, ?_, ?_⟩, ⟨nofun, nofun, ?_, ?_, nofun, nofun⟩⟩
      · intro index worker found
        rw [fresh worker (List.mem_of_getElem? found)]
        rfl
      · intro index
        exact ⟨.nil, nofun⟩
      · intro index worker found started
        rw [fresh worker (List.mem_of_getElem? found)] at started
        cases started
      · intro before index version middle value after same
        simp at same
      · intro worker member finished
        rw [fresh worker member] at finished
        cases finished
      · intro worker member joined
        rw [fresh worker member] at joined
        cases joined
    · intro before history action after notes held quiet taken
      obtain ⟨handover, observing, calm⟩ := held
      have step := advance_cases taken
      exact ⟨handover.step step, observing.step step, calm.step step quiet⟩
  obtain ⟨handover, observing, calm⟩ := inv
  exact ⟨handover.fifo, handover.once, observing.pauses, fun worker member finished =>
    (calm.returned worker member finished).2⟩

end RustZero.Queue
