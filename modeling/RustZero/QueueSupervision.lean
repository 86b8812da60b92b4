import RustZero.Lib.Phases
import RustZero.Queue

/-!
# How a queue ends

`wait` and `drain` of `core/src/queue.rs` join the workers one after the other.  `wait`
cannot end while a worker waits for a paused queue to go on, since nobody can resume it
any more, and `drain` returns as soon as it joins a worker whose handler panicked, which
aborts the others.

* `Supervised` says that a wait can always end and that a shutdown cuts no worker short
  before its timeout.
* `Safe` is the condition on the steps of a run under which it holds
  (`supervised_of_safe`).
-/

namespace RustZero.Queue

open RustZero.Lib

universe u

variable {T : Type u}

/-! ## What the owner may rely on -/

/-- A step of a worker or of `join_next`, without panics. -/
def Action.proceeds : Action T → Bool
  | .work _ (.panic _) => false
  | .work _ _ | .join _ | .joined => true
  | _ => false

/-- The owner has stopped the workers: a worker panicked in a `wait`, or the shutdown
timeout was over. -/
def Owner.cuts : Owner → Bool
  | .done .wait (.error _) => true
  | .done .shutdown (.error (.shutdownTimeout _)) => true
  | _ => false

structure Supervised (capacity workers : Nat) (state : State T) (history : List (Note T)) :
    Prop where
  /-- With all producers gone, a `wait` can come to its end. -/
  unblocked : state.owner = .joins .wait → state.producers = 0 →
    ∃ last, (system T capacity workers).Steps (fun _ action => action.proceeds)
      (state, history) last ∧ last.1.owner.isDone
  /-- A shutdown that returns before its timeout has seen every worker end. -/
  prompt : ∀ result, state.owner = .done .shutdown result →
    (∃ remaining, result = .error (.shutdownTimeout remaining)) ∨
      ∀ worker ∈ state.workers, worker.location.ended
  whole : ∀ worker ∈ state.workers, worker.location = .aborted → state.owner.cuts

/-- The only worker left is about to find the channel empty and without producers. -/
def Leaving (state : State T) : Prop :=
  state.messages = [] ∧ state.producers = 0 ∧ ∃ (index : Nat) (worker : Worker T),
    state.workers[index]? = some worker ∧ (∃ locked, worker.location = .receiving locked) ∧
      ∀ (other : Nat) (party : Worker T), other ≠ index → state.workers[other]? = some party →
        party.location.ended

/-- No worker is left that could wait for a paused queue. -/
def NoneParks (state : State T) : Prop :=
  (∀ worker ∈ state.workers, worker.location.ended) ∨ Leaving state

/-- A paused queue is not waited for, and a shutdown joins no panicked worker while
another one has not ended. -/
def Safe (state : State T) : Action T → Prop
  | .wait => state.state = .paused → NoneParks state
  | .join index => state.owner = .joins .shutdown →
      ∀ message, (state.workers[index]?).map Worker.location = some (.panicked message) →
        ∀ worker ∈ state.workers, worker.location.ended
  | _ => True

/-! ## Cutting workers short -/

section Step

variable {state state' : State T} {notes : List (Note T)} {action : Action T}

/-- What holds of a worker between any steps. -/
structure WorkerSound (state : State T) (worker : Worker T) : Prop where
  joined : worker.joined → worker.location.ended
  aborted : worker.location = .aborted → state.owner.isDone
  seen : worker.seen ≤ state.version
  /-- Who waits for a change has seen the pause, or will see another state. -/
  parked : worker.location = .parked → worker.seen = state.version → state.state = .paused

theorem WorkerSound.work {index : Nat} {worker worker' : Worker T} {work : WorkerAction}
    {messages : List T} (sound : WorkerSound state worker)
    (step : WorkerStep state index worker work worker' messages notes) :
    WorkerSound state worker' := by
  obtain ⟨unended, same⟩ := step.unended
  have unjoined : worker.joined = false := by
    rw [Bool.eq_false_iff]
    intro joined
    rw [sound.joined joined] at unended
    cases unended
  have joined : worker'.joined → worker'.location.ended := by
    rw [same, unjoined]
    nofun
  cases step with
  | look =>
      refine ⟨joined, ?_, sound.seen, ?_⟩
      · cases state.state <;> nofun
      · intro parked _
        cases current : state.state with
        | paused => rfl
        | running => simp [current, enter, Worker.goto] at parked
        | shutdown => simp [current, enter, Worker.goto] at parked
  | changed => exact ⟨joined, nofun, Nat.le_refl _, nofun⟩
  | abort _ _ done => exact ⟨joined, fun _ => done, sound.seen, nofun⟩
  | _ => exact ⟨joined, nofun, sound.seen, nofun⟩

/-- What is sent is a version that no worker has seen. -/
theorem WorkerSound.send {worker : Worker T} (sound : WorkerSound state worker)
    (value : QueueState) : WorkerSound (state.send value) worker := by
  unfold State.send
  split
  · exact sound
  · refine ⟨sound.joined, sound.aborted, Nat.le_succ_of_le sound.seen, ?_⟩
    intro _ seen
    have := sound.seen
    change worker.seen = state.version + 1 at seen
    omega

theorem WorkerSound.owned {worker : Worker T} (sound : WorkerSound state worker)
    (same : state'.state = state.state) (version : state'.version = state.version)
    (open_ : state.owner.isDone = false ∨ state'.owner.isDone) : WorkerSound state' worker := by
  refine ⟨sound.joined, ?_, ?_, ?_⟩
  · intro aborted
    rcases open_ with before | after
    · rw [sound.aborted aborted] at before
      cases before
    · exact after
  · rw [version]
    exact sound.seen
  · rw [version, same]
    exact sound.parked

structure Sound (state : State T) : Prop where
  borrowed : state.producers = 0 → state.reserved = 0
  workers : ∀ worker ∈ state.workers, WorkerSound state worker

theorem Sound.supervise (sound : Sound state) (step : OwnerStep state action state') :
    ∀ worker ∈ state'.workers, WorkerSound state' worker := by
  cases step with
  | pause | resume =>
      rw [send_workers]
      exact fun worker member => (sound.workers worker member).send _
  | ignore => exact sound.workers
  | wait held =>
      intro worker member
      exact (sound.workers worker member).owned rfl rfl (.inl (by rw [held]; rfl))
  | shutdown held =>
      intro worker member
      have before := (sound.workers worker (by simpa using member)).send .shutdown
      exact before.owned rfl rfl (.inl (by rw [send_owner, held]; rfl))
  | join operation index worker joining found ended =>
      rw [joinNext_workers]
      have open_ : state.owner.isDone = false := by
        rw [joining]
        rfl
      have marked (other : Worker T) (there : WorkerSound state other) :
          WorkerSound { state with
            workers := state.workers.set index { worker with joined := true }
            remaining := state.remaining - 1 } other :=
        ⟨there.joined, there.aborted, there.seen, there.parked⟩
      have after (other : Worker T) (there : WorkerSound state other) :
          WorkerSound (joinNext operation state index worker) other := by
        unfold joinNext
        split
        · exact marked other there
        · exact ((marked other there).send .shutdown).owned rfl rfl (.inr rfl)
        · exact (marked other there).owned rfl rfl (.inr rfl)
      have mine := sound.workers worker (List.mem_of_getElem? found)
      refine forall_mem_set (after _ ?_) ?_
      · exact ⟨fun _ => ended, mine.aborted, mine.seen, mine.parked⟩
      · intro other member
        exact after other (sound.workers other member)
  | joined operation joining | expire joining =>
      intro worker member
      exact (sound.workers worker member).owned rfl rfl (.inr rfl)

theorem Sound.step (sound : Sound state) (step : Step state action state' notes) :
    Sound state' := by
  have untouched {state' : State T} (same : state'.workers = state.workers)
      (value : state'.state = state.state) (version : state'.version = state.version)
      (owner : state'.owner = state.owner) :
      ∀ worker ∈ state'.workers, WorkerSound state' worker := by
    rw [same]
    intro worker member
    have before := sound.workers worker member
    refine ⟨before.joined, ?_, ?_, ?_⟩
    · rw [owner]
      exact before.aborted
    · rw [version]
      exact before.seen
    · rw [version, value]
      exact before.parked
  refine ⟨step.borrowed sound.borrowed, ?_⟩
  cases step with
  | reserve | release | push | tryPush | cloneProducer | dropProducer =>
      exact untouched rfl rfl rfl rfl
  | refuse => exact sound.workers
  | work index action worker worker' messages notes found step =>
      refine forall_mem_set ?_ ?_
      · have moved := (sound.workers worker (List.mem_of_getElem? found)).work step
        exact ⟨moved.joined, moved.aborted, moved.seen, moved.parked⟩
      · intro other member
        have before := sound.workers other member
        exact ⟨before.joined, before.aborted, before.seen, before.parked⟩
  | supervise action state' step => exact sound.supervise step

/-- An owner that is done has cut the workers short or seen every one end. -/
def Unhurried (state : State T) : Prop :=
  state.owner.isDone → state.owner.cuts ∨ ∀ worker ∈ state.workers, worker.location.ended

theorem Unhurried.work (unhurried : Unhurried state) {index : Nat} {worker worker' : Worker T}
    {work : WorkerAction} {messages : List T} (found : state.workers[index]? = some worker)
    (step : WorkerStep state index worker work worker' messages notes) :
    Unhurried { state with messages := messages, workers := state.workers.set index worker' } := by
  intro done
  rcases unhurried done with cuts | ended
  · exact .inl cuts
  · have unended := step.unended.1
    rw [ended worker (List.mem_of_getElem? found)] at unended
    cases unended

theorem Unhurried.supervise (unhurried : Unhurried state) (sound : Sound state)
    (safe : Safe state action) (step : OwnerStep state action state') : Unhurried state' := by
  cases step with
  | pause held | resume held =>
      intro done
      rw [send_owner, held] at done
      cases done
  | ignore => exact unhurried
  | wait | shutdown => nofun
  | join operation index worker joining found ended =>
      intro done
      unfold joinNext at done ⊢
      split
      · rename_i fine
        simp only [fine] at done
        rw [joining] at done
        cases done
      · exact .inl rfl
      · rename_i error failed
        right
        have panicked : ∃ message, worker.location = .panicked message := by
          revert failed
          cases worker.location <;> simp [joinError]
        obtain ⟨message, panicked⟩ := panicked
        have all := safe joining message (by rw [found, Option.map_some, panicked])
        exact forall_mem_set ended all
  | joined operation joining all =>
      intro _
      exact .inr fun worker member => (sound.workers worker member).joined (all worker member)
  | expire => exact fun _ => .inl rfl

theorem Unhurried.step (unhurried : Unhurried state) (sound : Sound state)
    (safe : Safe state action) (step : Step state action state' notes) : Unhurried state' := by
  cases step with
  | work index action worker worker' messages notes found step => exact unhurried.work found step
  | supervise action state' step => exact unhurried.supervise sound safe step
  | _ => exact unhurried

/-! ## Waiting -/

/-- The queue that is waited for runs, or no worker is left that could wait for it. -/
structure Waits (state : State T) : Prop where
  open_ : state.owner = .holds → state.state ≠ .shutdown
  ready : state.owner = .joins .wait → state.state = .running ∨ NoneParks state

theorem Leaving.unlocked {index : Nat} {worker : Worker T}
    (found : state.workers[index]? = some worker) (free : worker.location.hasLock = false)
    (others : ∀ (other : Nat) (party : Worker T), other ≠ index →
      state.workers[other]? = some party → party.location.ended) : state.unlocked = true := by
  rw [State.unlocked, List.all_eq_true]
  intro party member
  obtain ⟨other, there⟩ := List.mem_iff_getElem?.mp member
  by_cases same : other = index
  · subst same
    rw [found] at there
    cases there
    rw [free]
    rfl
  · have ended := others other party same there
    revert ended
    cases party.location <;> simp [Location.ended, Location.hasLock]

theorem NoneParks.work (none : NoneParks state) (open_ : state.owner.isDone = false) {index : Nat}
    {worker worker' : Worker T} {work : WorkerAction} {messages : List T}
    (found : state.workers[index]? = some worker)
    (step : WorkerStep state index worker work worker' messages notes) :
    NoneParks { state with messages := messages, workers := state.workers.set index worker' } := by
  have unended := step.unended.1
  rcases none with ended | ⟨stored, dropped, last, party, there, ⟨locked, receiving⟩, others⟩
  · rw [ended worker (List.mem_of_getElem? found)] at unended
    cases unended
  · have same : index = last := by
      by_contra different
      rw [others index worker different found] at unended
      cases unended
    subst same
    rw [found] at there
    cases there
    have rest (next : Worker T) (other : Nat) (party : Worker T) (different : other ≠ index)
        (there : (state.workers.set index next)[other]? = some party) : party.location.ended := by
      rw [List.getElem?_set_ne (Ne.symm different)] at there
      exact others other party different there
    cases step with
    | lock before =>
        refine .inr ⟨stored, dropped, index, _, List.getElem?_set_self ?_, ⟨true, rfl⟩, rest _⟩
        exact (List.getElem?_eq_some_iff.mp found).1
    | wait before held =>
        rw [Leaving.unlocked found (by rw [before]; rfl) others] at held
        cases held
    | take value messages _ more =>
        rw [stored] at more
        cases more
    | drained =>
        refine .inl ?_
        intro party member
        obtain ⟨other, there⟩ := List.mem_iff_getElem?.mp member
        exact forall_set (P := fun _ party => party.location.ended) rfl
          (fun other party => others other party) other party there
    | empty _ _ held => exact absurd dropped held
    | abort _ _ done =>
        rw [open_] at done
        cases done
    | changed before | orphaned before =>
        rw [receiving] at before
        cases before
    | look before | handle _ before | complete _ _ before | panic _ _ before | poll _ before =>
        rw [receiving] at before
        cases before

theorem NoneParks.step (none : NoneParks state) (sound : Sound state)
    (open_ : state.owner.isDone = false) (open_' : state'.owner.isDone = false)
    (step : Step state action state' notes) : NoneParks state' := by
  cases step with
  | reserve held =>
      rcases none with ended | ⟨_, dropped, _⟩
      · exact .inl ended
      · omega
  | release => exact none
  | push value given =>
      rcases none with ended | ⟨_, dropped, _⟩
      · exact .inl ended
      · have := sound.borrowed dropped
        omega
  | tryPush value held =>
      rcases none with ended | ⟨_, dropped, _⟩
      · exact .inl ended
      · omega
  | refuse => exact none
  | cloneProducer held =>
      rcases none with ended | ⟨_, dropped, _⟩
      · exact .inl ended
      · omega
  | dropProducer unborrowed =>
      rcases none with ended | ⟨_, dropped, _⟩
      · exact .inl ended
      · omega
  | work index action worker worker' messages notes found step => exact none.work open_ found step
  | supervise action state' step =>
      rcases none with ended | ⟨stored, dropped, last, party, there, ⟨locked, receiving⟩, others⟩
      · refine .inl ?_
        intro worker' member
        obtain ⟨index, there⟩ := List.mem_iff_getElem?.mp member
        obtain ⟨worker, before, _, same⟩ := step.workers there
        rw [same]
        exact ended worker (List.mem_of_getElem? before)
      · obtain ⟨messages, _, producers⟩ := step.channel
        have within : last < state'.workers.length := by
          rw [step.length]
          exact (List.getElem?_eq_some_iff.mp there).1
        have there' := List.getElem?_eq_getElem within
        refine .inr ⟨messages.trans stored, producers.trans dropped, last, _, there', ?_, ?_⟩
        · obtain ⟨worker, before, _, same⟩ := step.workers there'
          rw [there] at before
          cases before
          exact ⟨locked, same.trans receiving⟩
        · intro other party' different found
          obtain ⟨worker, before, _, same⟩ := step.workers found
          rw [same]
          exact others other worker different before

/-- Nobody changes the state of a queue that is waited for. -/
theorem Waits.step (waits : Waits state) (sound : Sound state) (safe : Safe state action)
    (step : Step state action state' notes) : Waits state' := by
  have kept (before : state.owner = .joins .wait) (after : state'.owner = .joins .wait)
      (same : state'.state = state.state) : state'.state = .running ∨ NoneParks state' := by
    rcases waits.ready before with running | none
    · exact .inl (same.trans running)
    · exact .inr (none.step sound (by rw [before]; rfl) (by rw [after]; rfl) step)
  cases step with
  | supervise action state' step =>
      cases step with
      | pause held | resume held =>
          refine ⟨?_, ?_⟩
          · intro _
            unfold State.send
            split
            · exact waits.open_ held
            · nofun
          · intro after
            rw [send_owner, held] at after
            cases after
      | ignore => exact waits
      | wait held =>
          refine ⟨nofun, fun _ => ?_⟩
          cases current : state.state with
          | running => exact .inl rfl
          | paused => exact .inr (safe current)
          | shutdown => exact absurd current (waits.open_ held)
      | shutdown | joined | expire => exact ⟨nofun, nofun⟩
      | join operation index worker joining =>
          refine ⟨?_, ?_⟩
          · intro after
            unfold joinNext at after
            split at after
            · rw [joining] at after
              cases after
            · cases after
            · cases after
          · intro after
            refine kept ?_ after ?_
            · unfold joinNext at after
              split at after
              · exact after
              · cases after
              · cases after
            · unfold joinNext at after ⊢
              split at after
              · rfl
              · cases after
              · cases after
  | work => exact ⟨waits.open_, fun before => kept before before rfl⟩
  | refuse => exact waits
  | reserve => exact ⟨waits.open_, fun before => kept before before rfl⟩
  | release => exact ⟨waits.open_, fun before => kept before before rfl⟩
  | push => exact ⟨waits.open_, fun before => kept before before rfl⟩
  | tryPush => exact ⟨waits.open_, fun before => kept before before rfl⟩
  | cloneProducer => exact ⟨waits.open_, fun before => kept before before rfl⟩
  | dropProducer => exact ⟨waits.open_, fun before => kept before before rfl⟩

end Step

/-! ## The end of a wait -/

/-- How far a location is from the end of its worker, if nothing is pushed any more. -/
def Location.weight : Location T → Nat
  | .returned | .panicked _ | .aborted => 1
  | .receiving true => 2
  | .selecting true => 3
  | .receiving false => 4
  | .selecting false => 5
  | .looking => 6
  | .parked => 7
  | .handling _ => 8
  | .received _ => 9

theorem Location.weight_pos (location : Location T) : 0 < location.weight := by
  unfold Location.weight
  split <;> omega

def Worker.weight (version : Nat) (worker : Worker T) : Nat :=
  if worker.joined then 0
  else worker.location.weight + if worker.location.ended || worker.seen == version then 0 else 4

/-- A message in the channel weighs more than a round of a worker. -/
def State.weight (state : State T) : Nat :=
  if state.owner.isDone then 0
  else 1 + (8 * state.messages.length +
    (state.workers.map (Worker.weight state.version)).sum)

theorem weight_of_done {state state' : State T} (open_ : state.owner.isDone = false)
    (done : state'.owner.isDone) : state'.weight < state.weight := by
  rw [State.weight, if_pos done, State.weight, open_, if_neg Bool.false_ne_true]
  omega

section Wait

variable {state : State T} {index : Nat} {worker : Worker T}

theorem goto_weight (unended : worker.location.ended = false) (unjoined : worker.joined = false)
    (version : Nat) (location : Location T) (goes : location.ended = false) :
    (worker.goto location).weight version + worker.location.weight =
      worker.weight version + location.weight := by
  simp only [Worker.weight, Worker.goto, unjoined, unended, goes]
  simp only [Bool.false_eq_true, if_false, Bool.false_or]
  omega

/-- Where a worker waits for a change, one that it has not seen brings it nearer its end. -/
theorem exists_changed (unjoined : worker.joined = false)
    (waits : worker.location = .parked ∨ ∃ locked, worker.location = .selecting locked)
    (unseen : worker.seen ≠ state.version) :
    ∃ worker', workerLoop state index worker .changed = some (worker', state.messages, []) ∧
      worker'.weight state.version < worker.weight state.version := by
  refine ⟨{ worker with seen := state.version, location := .looking }, ?_, ?_⟩
  · rcases waits with parked | ⟨locked, selecting⟩
    · simp [workerLoop, parked, changed, unseen]
    · simp [workerLoop, selecting, changed, unseen]
  · rcases waits with parked | ⟨locked, selecting⟩
    · simp [Worker.weight, unjoined, parked, Location.weight, Location.ended, unseen]
    · cases locked <;>
        simp [Worker.weight, unjoined, selecting, Location.weight, Location.ended, unseen]

/-- A worker that has not ended makes a step towards its end, if it is its turn. -/
theorem exists_work (index : Nat) (unended : worker.location.ended = false)
    (sound : WorkerSound state worker) (open_ : state.owner.isDone = false)
    (dropped : state.producers = 0)
    (running : state.state = .running ∨ ∃ locked, worker.location = .receiving locked)
    (turn : worker.location = .receiving false → state.unlocked) :
    ∃ work worker' messages notes,
      workerLoop state index worker work = some (worker', messages, notes) ∧
        (Action.work index work : Action T).proceeds ∧
        8 * messages.length + worker'.weight state.version <
          8 * state.messages.length + worker.weight state.version := by
  have unjoined : worker.joined = false := by
    rw [Bool.eq_false_iff]
    intro joined
    rw [sound.joined joined] at unended
    cases unended
  have moves := goto_weight unended unjoined state.version
  cases at_ : worker.location with
  | looking =>
      rcases running with running | ⟨locked, receiving⟩
      · refine ⟨.look, worker.goto (.selecting false), state.messages,
          [.observed index .running state.version], ?_, rfl, ?_⟩
        · simp [workerLoop, at_, running, enter]
        · have moved := moves (.selecting false) rfl
          rw [at_] at moved
          simp only [Location.weight] at moved
          omega
      · rw [at_] at receiving
        cases receiving
  | parked =>
      have unseen : worker.seen ≠ state.version := by
        intro seen
        have paused := sound.parked at_ seen
        rcases running with running | ⟨locked, receiving⟩
        · rw [paused] at running
          cases running
        · rw [at_] at receiving
          cases receiving
      obtain ⟨worker', moves, lower⟩ := exists_changed unjoined (.inl at_) unseen
      exact ⟨.changed, worker', _, _, moves, rfl, by omega⟩
  | selecting locked =>
      by_cases seen : worker.seen = state.version
      · refine ⟨.poll, worker.goto (.receiving locked), state.messages, [], ?_, rfl, ?_⟩
        · simp [workerLoop, at_, changed, seen, open_]
        · have moved := moves (.receiving locked) rfl
          rw [at_] at moved
          cases locked <;> simp only [Location.weight] at moved <;> omega
      · obtain ⟨worker', moves, lower⟩ := exists_changed unjoined (.inr ⟨locked, at_⟩) seen
        exact ⟨.changed, worker', _, _, moves, rfl, by omega⟩
  | receiving locked =>
      cases locked with
      | false =>
          refine ⟨.receive, worker.goto (.receiving true), state.messages, [], ?_, rfl, ?_⟩
          · simp [workerLoop, at_, turn at_]
          · have moved := moves (.receiving true) rfl
            rw [at_] at moved
            simp only [Location.weight] at moved
            omega
      | true =>
          cases stored : state.messages with
          | nil =>
              refine ⟨.receive, worker.goto .returned, [], [], ?_, rfl, ?_⟩
              · simp [workerLoop, at_, stored, dropped]
              · simp only [Worker.weight, Worker.goto, unjoined, at_]
                simp only [Location.weight, Location.ended, Bool.false_eq_true, if_false,
                  Bool.true_or, if_true]
                omega
          | cons value messages =>
              refine ⟨.receive, worker.goto (.received value), messages, [.taken index value], ?_,
                rfl, ?_⟩
              · simp [workerLoop, at_, stored]
              · have moved := moves (.received value) rfl
                rw [at_] at moved
                simp only [Location.weight] at moved
                rw [List.length_cons]
                omega
  | received value =>
      refine ⟨.handle, worker.goto (.handling value), state.messages, [.handed index value], ?_,
        rfl, ?_⟩
      · simp [workerLoop, at_]
      · have moved := moves (.handling value) rfl
        rw [at_] at moved
        simp only [Location.weight] at moved
        omega
  | handling value =>
      refine ⟨.complete (.ok ()), worker.goto .looking, state.messages, [], ?_, rfl, ?_⟩
      · simp [workerLoop, at_]
      · have moved := moves .looking rfl
        rw [at_] at moved
        simp only [Location.weight] at moved
        omega
  | returned | panicked message =>
      rw [at_] at unended
      cases unended
  | aborted =>
      rw [sound.aborted at_] at open_
      cases open_

/-- Some worker that has not ended has its turn. -/
theorem exists_turn (left : ∃ worker ∈ state.workers, worker.location.ended = false) :
    ∃ (index : Nat) (worker : Worker T), state.workers[index]? = some worker ∧
      worker.location.ended = false ∧
      (worker.location = .receiving false → state.unlocked) := by
  by_cases unlocked : state.unlocked
  · obtain ⟨worker, member, unended⟩ := left
    obtain ⟨index, found⟩ := List.mem_iff_getElem?.mp member
    exact ⟨index, worker, found, unended, fun _ => unlocked⟩
  · -- the one with the lock
    unfold State.unlocked at unlocked
    simp only [List.all_eq_true, Bool.not_eq_true', not_forall, Bool.not_eq_false] at unlocked
    obtain ⟨worker, member, locked⟩ := unlocked
    obtain ⟨index, found⟩ := List.mem_iff_getElem?.mp member
    refine ⟨index, worker, found, ?_, ?_⟩
    · revert locked
      cases worker.location <;> simp [Location.hasLock, Location.ended]
    · intro receiving
      rw [receiving] at locked
      cases locked

/-- A `wait` that goes on, with all producers gone. -/
structure Waiting (state : State T) : Prop where
  sound : Sound state
  waits : Waits state
  owner : state.owner = .joins .wait
  dropped : state.producers = 0

theorem Waiting.step {state' : State T} {notes : List (Note T)} {action : Action T}
    (waiting : Waiting state) (step : Step state action state' notes)
    (open_ : state'.owner = .joins .wait) (proceeds : action.proceeds) : Waiting state' := by
  have safe : Safe state action := by
    cases action with
    | wait => cases proceeds
    | join index =>
        intro shutdown
        rw [waiting.owner] at shutdown
        cases shutdown
    | _ => trivial
  refine ⟨waiting.sound.step step, waiting.waits.step waiting.sound safe step, open_, ?_⟩
  cases step with
  | work => exact waiting.dropped
  | supervise action state' step => exact step.channel.2.2.trans waiting.dropped
  | _ => cases proceeds

/-- The end of a worker is joined. -/
theorem Waiting.join (waiting : Waiting state) (found : state.workers[index]? = some worker)
    (ended : worker.location.ended) (fresh : worker.joined = false) :
    ∃ state', supervise state (.join index) = some state' ∧
      (state'.owner.isDone ∨ state'.owner = .joins .wait) ∧ state'.weight < state.weight := by
  have open_ : state.owner.isDone = false := by
    rw [waiting.owner]
    rfl
  refine ⟨joinNext .wait state index worker, ?_, ?_⟩
  · simp [supervise, found, waiting.owner, ended, fresh]
  · cases failed : joinError worker.location with
    | none =>
        refine ⟨.inr ?_, ?_⟩
        · simp only [joinNext, failed]
          exact waiting.owner
        · have moved := sum_map_set_add (Worker.weight state.version) found
            { worker with joined := true }
          have gone : Worker.weight state.version { worker with joined := true } = 0 := rfl
          have heavy : 0 < worker.weight state.version := by
            rw [Worker.weight, fresh, if_neg Bool.false_ne_true]
            exact Nat.lt_of_lt_of_le worker.location.weight_pos (Nat.le_add_right _ _)
          simp only [joinNext, failed, State.weight, open_, if_neg Bool.false_ne_true]
          omega
    | some error =>
        have done : (joinNext .wait state index worker).owner.isDone := by
          simp only [joinNext, failed]
          rfl
        exact ⟨.inl done, weight_of_done open_ done⟩

/-- As long as a `wait` goes on, a step of a worker or of `join_next` brings it nearer to
its end. -/
theorem Waiting.lowers (waiting : Waiting state) : ∃ action state' notes,
    advance state action = some (state', notes) ∧ action.proceeds ∧
      (state'.owner.isDone ∨ state'.owner = .joins .wait) ∧ state'.weight < state.weight := by
  have open_ : state.owner.isDone = false := by
    rw [waiting.owner]
    rfl
  by_cases left : ∃ worker ∈ state.workers, worker.location.ended = false
  · obtain ⟨index, worker, found, unended, turn⟩ := exists_turn left
    have running : state.state = .running ∨ ∃ locked, worker.location = .receiving locked := by
      rcases waiting.waits.ready waiting.owner with running | all |
        ⟨_, _, last, party, there, receiving, others⟩
      · exact .inl running
      · rw [all worker (List.mem_of_getElem? found)] at unended
        cases unended
      · by_cases same : index = last
        · subst same
          rw [found] at there
          cases there
          exact .inr receiving
        · rw [others index worker same found] at unended
          cases unended
    obtain ⟨work, worker', messages, notes, moves, proceeds, lower⟩ := exists_work index unended
      (waiting.sound.workers worker (List.mem_of_getElem? found)) open_ waiting.dropped running
      turn
    refine ⟨.work index work, { state with
      messages := messages, workers := state.workers.set index worker' }, notes, ?_, proceeds,
      .inr waiting.owner, ?_⟩
    · simp [advance, found, moves]
    · have moved := sum_map_set_add (Worker.weight state.version) found worker'
      simp only [State.weight, open_, if_neg Bool.false_ne_true]
      omega
  · have ended (worker : Worker T) (member : worker ∈ state.workers) : worker.location.ended := by
      by_contra unended
      exact left ⟨worker, member, Bool.eq_false_iff.mpr unended⟩
    by_cases all : ∀ worker ∈ state.workers, worker.joined
    · refine ⟨.joined, { state with owner := .done .wait (.ok ()) }, [], ?_, rfl, .inl rfl,
        weight_of_done open_ rfl⟩
      have every : state.workers.all Worker.joined = true := List.all_eq_true.mpr all
      simp [advance, supervise, waiting.owner, every]
    · simp only [not_forall] at all
      obtain ⟨worker, member, fresh⟩ := all
      obtain ⟨index, found⟩ := List.mem_iff_getElem?.mp member
      obtain ⟨state', joins, owner, lower⟩ := waiting.join found (ended worker member)
        (Bool.eq_false_iff.mpr fresh)
      exact ⟨.join index, state', [], by simp [advance, joins], rfl, owner, lower⟩

theorem Waiting.ends (waiting : Waiting state) (capacity workers : Nat)
    (history : List (Note T)) :
    ∃ last, (system T capacity workers).Steps (fun _ action => action.proceeds)
      (state, history) last ∧ last.1.owner.isDone := by
  refine Lts.exists_steps_of_rank
    (I := fun reached : State T × List (Note T) => reached.1.owner.isDone ∨ Waiting reached.1)
    (fun reached => reached.1.weight) ?_ (.inr waiting)
  intro reached held open_
  have waiting := held.resolve_left open_
  obtain ⟨action, state', notes, moves, proceeds, owner, lower⟩ := waiting.lowers
  refine ⟨action, (state', reached.2 ++ notes), proceeds, ?_, ?_, lower⟩
  · exact Option.map_eq_some_iff.mpr ⟨(state', notes), moves, rfl⟩
  · rcases owner with done | waits
    · exact .inl done
    · exact .inr (waiting.step (advance_cases moves) waits proceeds)

end Wait

/-! ## A wait that never ends -/

/-- Every worker waits for a queue that stays paused. -/
structure Stuck (state : State T) : Prop where
  owner : state.owner = .joins .wait
  dropped : state.producers = 0
  sent : state.reserved = 0
  paused : state.state = .paused
  some : state.workers ≠ []
  parked : ∀ worker ∈ state.workers,
    worker.location = .parked ∧ worker.seen = state.version ∧ worker.joined = false

theorem Stuck.step {state state' : State T} {notes : List (Note T)} {action : Action T}
    (stuck : Stuck state) (step : Step state action state' notes) : Stuck state' := by
  have owner := stuck.owner
  have none := stuck.dropped
  cases step with
  | reserve held => omega
  | release =>
      refine ⟨owner, none, ?_, stuck.paused, stuck.some, stuck.parked⟩
      have := stuck.sent
      change state.reserved - 1 = 0
      omega
  | push value given =>
      have := stuck.sent
      omega
  | tryPush value held => omega
  | refuse => exact stuck
  | cloneProducer held => omega
  | dropProducer unborrowed => omega
  | work index action worker worker' messages notes found step =>
      obtain ⟨parked, seen, _⟩ := stuck.parked worker (List.mem_of_getElem? found)
      cases step with
      | changed _ unseen => exact absurd seen unseen
      | orphaned _ _ done | abort _ _ done =>
          rw [owner] at done
          cases done
      | look before | lock before | wait before | drained before | empty before =>
          rw [parked] at before
          cases before
      | poll _ before | take _ _ before | handle _ before =>
          rw [parked] at before
          cases before
      | complete _ _ before | panic _ _ before =>
          rw [parked] at before
          cases before
  | supervise action state' step =>
      cases step with
      | ignore => exact stuck
      | pause held | resume held | wait held | shutdown held =>
          rw [owner] at held
          cases held
      | join operation index worker joining found ended =>
          rw [(stuck.parked worker (List.mem_of_getElem? found)).1] at ended
          cases ended
      | joined operation joining all =>
          obtain ⟨worker, member⟩ := List.exists_mem_of_ne_nil _ stuck.some
          have joined := all worker member
          rw [(stuck.parked worker member).2.2] at joined
          cases joined
      | expire joining =>
          rw [owner] at joining
          cases joining

/-- No run gets it out of there. -/
theorem Stuck.run {capacity workers : Nat} {state : State T} {history : List (Note T)}
    (stuck : Stuck state) {last : State T × List (Note T)}
    (run : (system T capacity workers).Steps Lts.Always (state, history) last) :
    Stuck last.1 := by
  refine run.preserved (I := fun reached => Stuck reached.1) ?_ stuck
  intro before action after held _ taken
  obtain ⟨before, earlier⟩ := before
  obtain ⟨after, later⟩ := after
  obtain ⟨notes, moved, _⟩ := Lts.emitting_step taken
  exact Stuck.step held (advance_cases moved)

/-- In every run in which no paused queue is waited for and a shutdown joins no panicked
worker before the others have ended, a `wait` can end and no worker is cut short before
the shutdown timeout. -/
theorem supervised_of_safe (capacity workers : Nat) {state : State T} {history : List (Note T)}
    (reach : (system T capacity workers).Reach (fun reached action => Safe reached.1 action)
      (state, history)) : Supervised capacity workers state history := by
  have inv : Sound state ∧ Unhurried state ∧ Waits state := by
    refine reach.emitting_invariant (I := fun state _ =>
      Sound state ∧ Unhurried state ∧ Waits state) ?_ ?_
    · refine ⟨⟨nofun, ?_⟩, nofun, ⟨nofun, nofun⟩⟩
      intro worker member
      have fresh : worker = ⟨0, .looking, false⟩ := List.eq_of_mem_replicate member
      rw [fresh]
      exact ⟨nofun, nofun, Nat.le_refl _, nofun⟩
    · intro before history action after notes held safe taken
      obtain ⟨sound, unhurried, waits⟩ := held
      have step := advance_cases taken
      exact ⟨sound.step step, unhurried.step sound safe step, waits.step sound safe step⟩
  obtain ⟨sound, unhurried, waits⟩ := inv
  refine ⟨?_, ?_, ?_⟩
  · intro owner dropped
    exact Waiting.ends ⟨sound, waits, owner, dropped⟩ capacity workers history
  · intro result done
    rcases unhurried (by rw [done]; rfl) with cuts | ended
    · rw [done] at cuts
      unfold Owner.cuts at cuts
      split at cuts
      · rename_i same
        cases same
      · rename_i remaining same
        cases same
        exact .inl ⟨remaining, rfl⟩
      · cases cuts
    · exact .inr ended
  · intro worker member aborted
    rcases unhurried ((sound.workers worker member).aborted aborted) with cuts | ended
    · exact cuts
    · have := ended worker member
      rw [aborted] at this
      cases this

/-- A condition that implies `Safe`, for runs that are given. -/
def cautious (state : State T) : Action T → Bool
  | .wait => state.state != .paused
  | .join _ => match state.owner with
    | .joins .shutdown => false
    | _ => true
  | _ => true

theorem safe_of_cautious (state : State T) (action : Action T)
    (careful : cautious state action = true) : Safe state action := by
  cases action with
  | wait =>
      intro paused
      simp [cautious, paused] at careful
  | join index =>
      intro shutdown
      simp [cautious, shutdown] at careful
  | _ => trivial

/-- A queue that is paused and resumed, and then waited for with a message in it. -/
theorem resumed_queue_supervised : ∃ state history,
    (system Nat 1 2).Reach (fun reached action => Safe reached.1 action) (state, history) ∧
      state.messages = [7] ∧ state.producers = 0 ∧ Supervised 1 2 state history := by
  have run : ((system Nat 1 2).exec (system Nat 1 2).init
      [.pause, .work 0 .look, .tryPush 7, .resume, .wait, .dropProducer]).map (fun reached =>
        (reached.1.messages, reached.1.producers)) = some ([7], 0) := by
    decide +kernel
  obtain ⟨⟨state, history⟩, executed, ends⟩ := Option.map_eq_some_iff.mp run
  obtain ⟨messages, producers⟩ := Prod.mk.inj ends
  have careful := Lts.reach_of_exec
    (P := fun reached action => cautious reached.1 action = true) _ (by decide +kernel) executed
  have reach : (system Nat 1 2).Reach (fun reached action => Safe reached.1 action)
      (state, history) :=
    Lts.Steps.weaken (fun reached action careful =>
      safe_of_cautious (Prod.fst reached) action careful) careful
  exact ⟨state, history, reach, messages, producers, supervised_of_safe 1 2 reach⟩

/-- A paused queue that is waited for: its worker waits too, and no run ends the wait.  And
two handlers at work when the queue is shut down: the panic of one ends the shutdown, which
aborts the other. -/
theorem paused_wait_blocks_and_panic_cuts :
    (∃ state history, (system Nat 1 1).Reachable (state, history) ∧
      state.owner = .joins .wait ∧ state.producers = 0 ∧
      (∀ worker ∈ state.workers, worker.location = .parked) ∧
      ∀ last, (system Nat 1 1).Steps Lts.Always (state, history) last →
        last.1.owner = .joins .wait) ∧
    ∃ state history, (system Nat 2 2).Reachable (state, history) ∧
      state.owner = .done .shutdown (.error (.workerPanicked "boom")) ∧
      ∃ worker ∈ state.workers, worker.location = .aborted := by
  refine ⟨?_, ?_⟩
  · have run : ((system Nat 1 1).exec (system Nat 1 1).init
        [.pause, .work 0 .look, .work 0 .changed, .work 0 .look, .wait, .dropProducer]).map
          (fun reached => (reached.1.owner, reached.1.producers, reached.1.reserved,
            reached.1.state, reached.1.version, reached.1.workers)) =
        some (.joins .wait, 0, 0, .paused, 1, [⟨1, .parked, false⟩]) := rfl
    obtain ⟨⟨state, history⟩, executed, ends⟩ := Option.map_eq_some_iff.mp run
    simp only [Prod.mk.injEq] at ends
    obtain ⟨owner, dropped, sent, paused, version, workers⟩ := ends
    have stuck : Stuck state := by
      refine ⟨owner, dropped, sent, paused, by simp [workers], ?_⟩
      intro worker member
      rw [workers, List.mem_singleton] at member
      rw [member, version]
      exact ⟨rfl, rfl, rfl⟩
    exact ⟨state, history, Lts.reachable_of_exec _ executed, owner, dropped,
      fun worker member => (stuck.parked worker member).1, fun last run => (stuck.run run).owner⟩
  · have run : ((system Nat 2 2).exec (system Nat 2 2).init
        [.tryPush 7, .tryPush 8, .work 0 .look, .work 0 .poll, .work 0 .receive,
          .work 0 .receive, .work 0 .handle, .work 1 .look, .work 1 .poll, .work 1 .receive,
          .work 1 .receive, .work 1 .handle, .shutdown, .work 0 (.panic "boom"), .join 0,
          .work 1 .abort]).map
          (fun reached => (reached.1.owner, reached.1.workers.map Worker.location)) =
        some (.done .shutdown (.error (.workerPanicked "boom")),
          [.panicked "boom", .aborted]) := rfl
    obtain ⟨⟨state, history⟩, executed, ends⟩ := Option.map_eq_some_iff.mp run
    obtain ⟨owner, locations⟩ := Prod.mk.inj ends
    have aborted : .aborted ∈ state.workers.map Worker.location := by
      change state.workers.map Worker.location = _ at locations
      rw [locations]
      exact List.mem_cons_of_mem _ (List.mem_singleton_self _)
    obtain ⟨worker, member, same⟩ := List.mem_map.mp aborted
    exact ⟨state, history, Lts.reachable_of_exec _ executed, owner, worker, member, same⟩

end RustZero.Queue
