import RustZero.Lib.Executions
import RustZero.Lib.Phases

/-!
# Service groups

`core/src/service.rs`: `ServiceGroup` starts a set of services and `wait`
supervises them.  `wait` first selects between the shutdown signal and the first
service that ends, and then drains the remaining services under a timeout.

* A `State` is the group between two steps of anybody: a service that ends, a call
  of `ShutdownHandle::shutdown`, the passing of time, and the steps of `wait`.
  `tokio::select!` takes any branch that is ready.
* `Clean` describes a clean shutdown: requested before any service ended, and
  every service returned `Ok` within the timeout.
* `Unraced` is the condition under which a clean shutdown is reported as one: a
  poll that finds the shutdown requested does not take the other branch.

Times are nanoseconds.  The process signal that `wait_for_signal` listens to is a
call of `shutdown` here.
-/

namespace RustZero.ServiceGroup

open RustZero.Lib (Lts countP_set_add)

/-- How a service ends. -/
inductive Outcome where
  | ok
  | failed (message : String)
  | panicked (message : String)
  deriving DecidableEq

/-- The end of a service: when, and whether shutdown had been requested by then. -/
structure Finish where
  outcome : Outcome
  time : Nat
  requested : Bool
  deriving DecidableEq

structure Task where
  name : String
  finish : Option Finish
  joined : Bool
  deriving DecidableEq

/-- `ServiceGroupError`. -/
inductive Error where
  | empty
  | unexpectedExit (name : String)
  | serviceFailed (name message : String)
  | servicePanicked (message : String)
  | shutdownTimeout (remaining : Nat)
  | signalClosed
  | signal (message : String)
  deriving DecidableEq

/-- Where `wait` is.  `draining` holds the first error and the deadline. -/
inductive Waiter where
  | unpolled
  | selecting
  | draining (first : Option Error) (deadline : Nat)
  | done (result : Except Error Unit)
  deriving DecidableEq

structure State where
  clock : Nat
  /-- The value of the watch channel. -/
  requested : Bool
  /-- When a `ShutdownHandle` first requested the shutdown. -/
  requestedAt : Option Nat
  tasks : List Task
  serviceCount : Nat
  waiter : Waiter

inductive Action where
  | elapse (duration : Nat)
  | request
  | finish (index : Nat) (outcome : Outcome)
  /-- The first poll of `wait`. -/
  | poll
  | takeChanged
  | takeJoin (index : Nat)
  | join (index : Nat)
  | drained
  | timeout

/-- A group that `start` accepts. -/
structure Group where
  services : List String
  shutdownTimeout : Nat
  services_nonempty : services ≠ []
  timeout_pos : 0 < shutdownTimeout

def Group.start (group : Group) : State where
  clock := 0
  requested := false
  requestedAt := none
  tasks := group.services.map fun name => ⟨name, none, false⟩
  serviceCount := group.services.length
  waiter := .unpolled

/-- A service that has ended and that `wait` has not joined. -/
def State.ready (state : State) (index : Nat) : Option (Task × Outcome) :=
  match state.tasks[index]? with
  | some ⟨name, some finish, false⟩ => some (⟨name, some finish, false⟩, finish.outcome)
  | _ => none

def State.markJoined (state : State) (index : Nat) (task : Task) : State :=
  { state with
    tasks := state.tasks.set index { task with joined := true }
    serviceCount := state.serviceCount - 1 }

/-- What `wait` makes of a service that ends first. -/
def failure (name : String) : Outcome → Error
  | .ok => .unexpectedExit name
  | .failed message => .serviceFailed name message
  | .panicked message => .servicePanicked message

/-- What `drain` remembers after another service. -/
def firstError (first : Option Error) (name : String) (outcome : Outcome) : Option Error :=
  match first, outcome with
  | some error, _ => some error
  | none, .ok => none
  | none, .failed message => some (.serviceFailed name message)
  | none, .panicked message => some (.servicePanicked message)

def result : Option Error → Except Error Unit
  | some error => .error error
  | none => .ok ()

def advance (group : Group) (state : State) : Action → Option State
  | .elapse duration => some { state with clock := state.clock + duration }
  | .request =>
      some { state with
        requested := true
        requestedAt := state.requestedAt <|> some state.clock }
  | .finish index outcome =>
      match state.tasks[index]? with
      | some ⟨name, none, joined⟩ =>
          some { state with
            tasks := state.tasks.set index
              ⟨name, some ⟨outcome, state.clock, state.requested⟩, joined⟩ }
      | _ => none
  | .poll =>
      match state.waiter with
      | .unpolled =>
          some { state with
            waiter :=
              if state.requested then .draining none (state.clock + group.shutdownTimeout)
              else .selecting }
      | _ => none
  | .takeChanged =>
      match state.waiter, state.requested with
      | .selecting, true =>
          some { state with waiter := .draining none (state.clock + group.shutdownTimeout) }
      | _, _ => none
  | .takeJoin index =>
      match state.waiter, state.ready index with
      | .selecting, some (task, outcome) =>
          some { state.markJoined index task with
            requested := true
            waiter := .draining (some (failure task.name outcome))
              (state.clock + group.shutdownTimeout) }
      | _, _ => none
  | .join index =>
      match state.waiter, state.ready index with
      | .draining first deadline, some (task, outcome) =>
          some { state.markJoined index task with
            waiter := .draining (firstError first task.name outcome) deadline }
      | _, _ => none
  | .drained =>
      match state.waiter with
      | .draining first _ =>
          if state.tasks.all Task.joined then some { state with waiter := .done (result first) }
          else none
      | _ => none
  | .timeout =>
      match state.waiter with
      | .draining _ deadline =>
          -- the services that have ended are joined before the timer is looked at
          if deadline ≤ state.clock ∧ (state.tasks.any fun task => !task.joined) ∧
              state.tasks.all fun task => task.joined || task.finish.isNone then
            some { state with waiter := .done (.error (.shutdownTimeout state.serviceCount)) }
          else none
      | _ => none

def system (group : Group) : Lts State Action where
  init := group.start
  step := advance group

/-- A poll of the `select!` that finds the shutdown requested does not take the
branch of a service that ended. -/
def Unraced (state : State) : Action → Prop
  | .takeJoin _ => state.requested = false
  | _ => True

/-- Shutdown was requested by a handle before any service ended, and every service
returned `Ok` within the timeout, or still has time left. -/
def Clean (group : Group) (state : State) : Prop :=
  ∃ requestedAt, state.requestedAt = some requestedAt ∧ ∀ task ∈ state.tasks,
    match task.finish with
    | none => state.clock < requestedAt + group.shutdownTimeout
    | some finish => finish.outcome = .ok ∧ finish.requested = true ∧
        finish.time < requestedAt + group.shutdownTimeout

/-! ## The steps -/

section Steps

variable {group : Group} {state state' : State} {action : Action}

/-- What each step does. -/
inductive Takes (group : Group) (state : State) : Action → State → Prop
  | elapse (duration : Nat) :
      Takes group state (.elapse duration) { state with clock := state.clock + duration }
  | request :
      Takes group state .request
        { state with
          requested := true
          requestedAt := state.requestedAt <|> some state.clock }
  | finish (index : Nat) (name : String) (joined : Bool) (outcome : Outcome)
      (found : state.tasks[index]? = some ⟨name, none, joined⟩) :
      Takes group state (.finish index outcome)
        { state with
          tasks := state.tasks.set index
            ⟨name, some ⟨outcome, state.clock, state.requested⟩, joined⟩ }
  | poll (here : state.waiter = .unpolled) :
      Takes group state .poll
        { state with
          waiter :=
            if state.requested then .draining none (state.clock + group.shutdownTimeout)
            else .selecting }
  | takeChanged (here : state.waiter = .selecting) (requested : state.requested = true) :
      Takes group state .takeChanged
        { state with waiter := .draining none (state.clock + group.shutdownTimeout) }
  | takeJoin (index : Nat) (name : String) (finish : Finish) (here : state.waiter = .selecting)
      (found : state.tasks[index]? = some ⟨name, some finish, false⟩) :
      Takes group state (.takeJoin index)
        { state.markJoined index ⟨name, some finish, false⟩ with
          requested := true
          waiter := .draining (some (failure name finish.outcome))
            (state.clock + group.shutdownTimeout) }
  | join (index : Nat) (name : String) (finish : Finish) (first : Option Error) (deadline : Nat)
      (here : state.waiter = .draining first deadline)
      (found : state.tasks[index]? = some ⟨name, some finish, false⟩) :
      Takes group state (.join index)
        { state.markJoined index ⟨name, some finish, false⟩ with
          waiter := .draining (firstError first name finish.outcome) deadline }
  | drained (first : Option Error) (deadline : Nat)
      (here : state.waiter = .draining first deadline)
      (all : ∀ task ∈ state.tasks, task.joined = true) :
      Takes group state .drained { state with waiter := .done (result first) }
  | timeout (first : Option Error) (deadline : Nat)
      (here : state.waiter = .draining first deadline) (late : deadline ≤ state.clock)
      (left : ∃ task ∈ state.tasks, task.finish = none) :
      Takes group state .timeout
        { state with waiter := .done (.error (.shutdownTimeout state.serviceCount)) }

theorem ready_eq_some {index : Nat} {task : Task} {outcome : Outcome}
    (ready : state.ready index = some (task, outcome)) :
    ∃ name finish, task = ⟨name, some finish, false⟩ ∧ outcome = finish.outcome ∧
      state.tasks[index]? = some ⟨name, some finish, false⟩ := by
  unfold State.ready at ready
  split at ready
  · rename_i name finish found
    cases ready
    exact ⟨name, finish, rfl, rfl, found⟩
  · cases ready

theorem takes_of_advance (taken : advance group state action = some state') :
    Takes group state action state' := by
  cases action with
  | elapse duration =>
      cases taken
      exact .elapse duration
  | request =>
      cases taken
      exact .request
  | finish index outcome =>
      simp only [advance] at taken
      split at taken
      · rename_i name joined found
        cases taken
        exact .finish index name joined outcome found
      · cases taken
  | poll =>
      simp only [advance] at taken
      split at taken
      · rename_i here
        cases taken
        exact .poll here
      · cases taken
  | takeChanged =>
      simp only [advance] at taken
      split at taken
      · rename_i here requested
        cases taken
        exact .takeChanged here requested
      · cases taken
  | takeJoin index =>
      simp only [advance] at taken
      split at taken
      · rename_i task outcome here ready
        obtain ⟨name, finish, rfl, rfl, found⟩ := ready_eq_some ready
        cases taken
        exact .takeJoin index name finish here found
      · cases taken
  | join index =>
      simp only [advance] at taken
      split at taken
      · rename_i first deadline task outcome here ready
        obtain ⟨name, finish, rfl, rfl, found⟩ := ready_eq_some ready
        cases taken
        exact .join index name finish first deadline here found
      · cases taken
  | drained =>
      simp only [advance] at taken
      split at taken
      · rename_i first deadline here
        split at taken
        · rename_i all
          cases taken
          exact .drained first deadline here (by simpa using all)
        · cases taken
      · cases taken
  | timeout =>
      simp only [advance] at taken
      split at taken
      · rename_i first deadline here
        split at taken
        · rename_i holds
          obtain ⟨late, some, ended⟩ := holds
          cases taken
          obtain ⟨task, member, unjoined⟩ := List.any_eq_true.mp some
          have open_ := List.all_eq_true.mp ended task member
          refine .timeout first deadline here late ⟨task, member, ?_⟩
          cases joined : task.joined with
          | true => simp [joined] at unjoined
          | false => simpa [joined] using open_
        · cases taken
      · cases taken

end Steps

/-! ## Every error has a cause -/

/-- The service returned `Ok` before shutdown was requested. -/
def Early (state : State) (name : String) : Prop :=
  ∃ task ∈ state.tasks, task.name = name ∧ ∃ finish, task.finish = some finish ∧
    finish.outcome = .ok ∧ finish.requested = false

/-- A service ended before shutdown was requested, or did not return `Ok`. -/
def Blemished (state : State) : Prop :=
  ∃ task ∈ state.tasks, ∃ finish, task.finish = some finish ∧
    (finish.outcome ≠ .ok ∨ finish.requested = false)

/-- A service had not ended at the deadline. -/
def Late (state : State) (deadline : Nat) : Prop :=
  ∃ task ∈ state.tasks, match task.finish with
    | none => deadline ≤ state.clock
    | some finish => deadline ≤ finish.time

/-- The cause of an error that `wait` returns. -/
def Caused (group : Group) (state : State) : Error → Prop
  | .unexpectedExit name => Early state name
  | .serviceFailed _ _ => Blemished state
  | .servicePanicked _ => Blemished state
  | .shutdownTimeout _ => Blemished state ∨
      ∃ requestedAt, state.requestedAt = some requestedAt ∧
        Late state (requestedAt + group.shutdownTimeout)
  | .empty => False
  | .signalClosed => False
  | .signal _ => False

theorem Early.blemished {state : State} {name : String} (early : Early state name) :
    Blemished state := by
  obtain ⟨task, member, -, finish, ended, -, before⟩ := early
  exact ⟨task, member, finish, ended, .inr before⟩

/-- A clean shutdown gives no cause for an error. -/
theorem Clean.not_caused {group : Group} {state : State} (clean : Clean group state)
    (error : Error) : ¬ Caused group state error := by
  obtain ⟨requestedAt, requested, tasks⟩ := clean
  have unblemished : ¬ Blemished state := by
    intro blemished
    obtain ⟨task, member, finish, ended, fault⟩ := blemished
    have fine := tasks task member
    rw [ended] at fine
    rcases fault with failed | early
    · exact failed fine.1
    · exact absurd (early.symm.trans fine.2.1) (by decide)
  cases error with
  | unexpectedExit name => exact fun early => unblemished early.blemished
  | serviceFailed name message => exact unblemished
  | servicePanicked message => exact unblemished
  | shutdownTimeout remaining =>
      intro cause
      rcases cause with blemished | ⟨time, same, task, member, late⟩
      · exact unblemished blemished
      · cases requested.symm.trans same
        have fine := tasks task member
        cases ended : task.finish with
        | none =>
            rw [ended] at fine late
            exact absurd late (Nat.not_le.mpr fine)
        | some finish =>
            rw [ended] at fine late
            exact absurd late (Nat.not_le.mpr fine.2.2)
  | empty => exact id
  | signalClosed => exact id
  | signal message => exact id

/-- What happened stays: ends of services are final, and so is the first request. -/
structure Extends (state state' : State) : Prop where
  clock : state.clock ≤ state'.clock
  requestedAt : ∀ time, state.requestedAt = some time → state'.requestedAt = some time
  tasks : ∀ task ∈ state.tasks, ∃ task' ∈ state'.tasks, task'.name = task.name ∧
    (task'.finish = task.finish ∨ task.finish = none ∧
      ∃ finish, task'.finish = some finish ∧ state.clock ≤ finish.time)

theorem extends_set {state state' : State} {index : Nat} {task replaced : Task}
    (found : state.tasks[index]? = some task)
    (tasks : state'.tasks = state.tasks.set index replaced) (name : replaced.name = task.name)
    (finish : replaced.finish = task.finish ∨ task.finish = none ∧
      ∃ finish, replaced.finish = some finish ∧ state.clock ≤ finish.time)
    (clock : state'.clock = state.clock) (requestedAt : state'.requestedAt = state.requestedAt) :
    Extends state state' := by
  refine ⟨Nat.le_of_eq clock.symm, ?_, ?_⟩
  · intro time requested
    rw [requestedAt, requested]
  · intro other member
    rw [tasks]
    obtain ⟨position, within⟩ := List.mem_iff_getElem?.mp member
    by_cases same : index = position
    · subst same
      cases found.symm.trans within
      refine ⟨replaced, ?_, name, finish⟩
      apply List.mem_iff_getElem?.mpr
      exact ⟨index, by rw [List.getElem?_set_self' , found]; rfl⟩
    · refine ⟨other, ?_, rfl, .inl rfl⟩
      apply List.mem_iff_getElem?.mpr
      exact ⟨position, by rw [List.getElem?_set_ne same, within]⟩

theorem Takes.extends {group : Group} {state state' : State} {action : Action}
    (taken : Takes group state action state') : Extends state state' := by
  have same : ∀ waiter, Extends state { state with waiter := waiter } := fun _ =>
    ⟨Nat.le_refl _, fun _ => id, fun task member => ⟨task, member, rfl, .inl rfl⟩⟩
  cases taken with
  | elapse duration =>
      exact ⟨Nat.le_add_right _ _, fun _ => id, fun task member => ⟨task, member, rfl, .inl rfl⟩⟩
  | request =>
      refine ⟨Nat.le_refl _, ?_, fun task member => ⟨task, member, rfl, .inl rfl⟩⟩
      intro time requested
      simp [requested]
  | finish index name joined outcome found =>
      exact extends_set found rfl rfl (.inr ⟨rfl, _, rfl, Nat.le_refl _⟩) rfl rfl
  | poll here => exact same _
  | takeChanged here requested => exact same _
  | takeJoin index name finish here found => exact extends_set found rfl rfl (.inl rfl) rfl rfl
  | join index name finish first deadline here found =>
      exact extends_set found rfl rfl (.inl rfl) rfl rfl
  | drained first deadline here all => exact same _
  | timeout first deadline here late left => exact same _

section Extends

variable {group : Group} {state state' : State}

/-- An ended service of the earlier state is one of the later state. -/
theorem Extends.ended (grown : Extends state state') {task : Task} {finish : Finish}
    (member : task ∈ state.tasks) (ended : task.finish = some finish) :
    ∃ task' ∈ state'.tasks, task'.name = task.name ∧ task'.finish = some finish := by
  obtain ⟨task', member', name, same | ⟨running, -⟩⟩ := grown.tasks task member
  · exact ⟨task', member', name, same.trans ended⟩
  · rw [ended] at running
    cases running

theorem Extends.blemished (grown : Extends state state') (blemished : Blemished state) :
    Blemished state' := by
  obtain ⟨task, member, finish, ended, fault⟩ := blemished
  obtain ⟨task', member', -, ended'⟩ := grown.ended member ended
  exact ⟨task', member', finish, ended', fault⟩

theorem Extends.late (grown : Extends state state') {deadline : Nat} (late : Late state deadline) :
    Late state' deadline := by
  obtain ⟨task, member, late⟩ := late
  obtain ⟨task', member', -, same | ⟨running, finish, ended, after⟩⟩ := grown.tasks task member
  · refine ⟨task', member', ?_⟩
    rw [same]
    have clock := grown.clock
    split
    · rename_i running
      rw [running] at late
      exact Nat.le_trans late clock
    · rename_i finish ended
      rw [ended] at late
      exact late
  · refine ⟨task', member', ?_⟩
    rw [running] at late
    rw [ended]
    exact Nat.le_trans late after

theorem Extends.caused (grown : Extends state state') {error : Error}
    (caused : Caused group state error) : Caused group state' error := by
  cases error with
  | unexpectedExit name =>
      obtain ⟨task, member, named, finish, ended, ok, early⟩ := caused
      obtain ⟨task', member', name', ended'⟩ := grown.ended member ended
      exact ⟨task', member', name'.trans named, finish, ended', ok, early⟩
  | serviceFailed name message => exact grown.blemished caused
  | servicePanicked message => exact grown.blemished caused
  | shutdownTimeout remaining =>
      rcases caused with blemished | ⟨time, requested, late⟩
      · exact .inl (grown.blemished blemished)
      · exact .inr ⟨time, grown.requestedAt time requested, grown.late late⟩
  | empty => exact caused
  | signalClosed => exact caused
  | signal message => exact caused

end Extends

/-! ## The supervisor -/

/-- Until `wait` drains, only a handle requests the shutdown.  A drain without an
error so far began after that request; the error it carries or that `wait`
returned has a cause. -/
structure Supervised (group : Group) (state : State) : Prop where
  before : ∀ time, state.requestedAt = some time → time ≤ state.clock
  undrained : state.waiter = .unpolled ∨ state.waiter = .selecting →
    state.requested = state.requestedAt.isSome
  draining : ∀ first deadline, state.waiter = .draining first deadline →
    Blemished state ∨
      ∃ time, state.requestedAt = some time ∧ time + group.shutdownTimeout ≤ deadline
  remembered : ∀ error deadline, state.waiter = .draining (some error) deadline →
    Caused group state error
  returned : ∀ error, state.waiter = .done (.error error) → Caused group state error
  early : ∀ task ∈ state.tasks, ∀ finish, task.finish = some finish →
    state.requested = false → finish.requested = false

section Supervised

variable {group : Group} {state state' : State} {action : Action}

theorem supervised_start (group : Group) : Supervised group group.start := by
  refine ⟨fun _ none => ?_, fun _ => rfl, fun _ _ none => ?_, fun _ _ none => ?_,
    fun _ none => ?_, ?_⟩
  · cases none
  · cases none
  · cases none
  · cases none
  · intro task member finish ended _
    obtain ⟨name, -, same⟩ := List.mem_map.mp member
    rw [← same] at ended
    cases ended

/-- Why a drain is under way, in a later state. -/
theorem Supervised.drain_later (supervised : Supervised group state) {first : Option Error}
    {deadline : Nat} (grown : Extends state state')
    (here : state.waiter = .draining first deadline) :
    Blemished state' ∨
      ∃ time, state'.requestedAt = some time ∧ time + group.shutdownTimeout ≤ deadline := by
  rcases supervised.draining first deadline here with blemished | ⟨time, requested, bound⟩
  · exact .inl (grown.blemished blemished)
  · exact .inr ⟨time, grown.requestedAt time requested, bound⟩

/-- Why a drain that begins now may begin. -/
theorem Supervised.drain_now (supervised : Supervised group state)
    (here : state.waiter = .unpolled ∨ state.waiter = .selecting)
    (requested : state.requested = true) :
    ∃ time, state.requestedAt = some time ∧
      time + group.shutdownTimeout ≤ state.clock + group.shutdownTimeout := by
  have known := supervised.undrained here
  rw [requested] at known
  obtain ⟨time, same⟩ := Option.isSome_iff_exists.mp known.symm
  have before := supervised.before time same
  exact ⟨time, same, by omega⟩

theorem firstError_caused {first : Option Error} {name : String} {task : Task} {finish : Finish}
    (earlier : ∀ error, first = some error → Caused group state error)
    (member : task ∈ state.tasks) (ended : task.finish = some finish) {error : Error}
    (remembered : firstError first name finish.outcome = some error) :
    Caused group state error := by
  cases first with
  | some known =>
      have same : known = error := Option.some.inj remembered
      rw [← same]
      exact earlier known rfl
  | none =>
      have blemished (bad : finish.outcome ≠ .ok) : Blemished state :=
        ⟨task, member, finish, ended, .inl bad⟩
      cases outcome : finish.outcome with
      | ok =>
          rw [outcome] at remembered
          cases remembered
      | failed message =>
          rw [outcome] at remembered
          cases remembered
          exact blemished (by simp [outcome])
      | panicked message =>
          rw [outcome] at remembered
          cases remembered
          exact blemished (by simp [outcome])

theorem failure_caused {name : String} {task : Task} {finish : Finish}
    (member : task ∈ state.tasks) (named : task.name = name) (ended : task.finish = some finish)
    (early : finish.requested = false) : Caused group state (failure name finish.outcome) := by
  cases outcome : finish.outcome with
  | ok => exact ⟨task, member, named, finish, ended, outcome, early⟩
  | failed message => exact ⟨task, member, finish, ended, .inr early⟩
  | panicked message => exact ⟨task, member, finish, ended, .inr early⟩

/-- Joining a service does not change how any service ended. -/
theorem finish_of_mem_set {tasks : List Task} {index : Nat} {task other : Task} {joined : Bool}
    (found : tasks[index]? = some task)
    (member : other ∈ tasks.set index { task with joined := joined }) :
    ∃ task' ∈ tasks, task'.finish = other.finish := by
  rcases List.mem_or_eq_of_mem_set member with kept | new
  · exact ⟨other, kept, rfl⟩
  · exact ⟨task, List.mem_of_getElem? found, by rw [new]⟩

/-- A step that does not move `wait` on. -/
theorem Supervised.beside (supervised : Supervised group state) (grown : Extends state state')
    (waiter : state'.waiter = state.waiter)
    (before : ∀ time, state'.requestedAt = some time → time ≤ state'.clock)
    (undrained : state.waiter = .unpolled ∨ state.waiter = .selecting →
      state'.requested = state'.requestedAt.isSome)
    (early : ∀ task ∈ state'.tasks, ∀ finish, task.finish = some finish →
      state'.requested = false → finish.requested = false) :
    Supervised group state' := by
  refine ⟨before, ?_, ?_, ?_, ?_, early⟩
  · intro here
    rw [waiter] at here
    exact undrained here
  · intro first deadline here
    exact supervised.drain_later grown (waiter.symm.trans here)
  · intro error deadline here
    exact grown.caused (supervised.remembered error deadline (waiter.symm.trans here))
  · intro error here
    exact grown.caused (supervised.returned error (waiter.symm.trans here))

theorem Supervised.step (supervised : Supervised group state) (unraced : Unraced state action)
    (taken : Takes group state action state') : Supervised group state' := by
  have grown := taken.extends
  obtain ⟨before, undrained, draining, remembered, returned, early⟩ := id supervised
  cases taken with
  | elapse duration =>
      refine supervised.beside grown rfl ?_ undrained early
      intro time requested
      exact Nat.le_trans (before time requested) grown.clock
  | request =>
      refine supervised.beside grown rfl ?_ ?_ ?_
      · intro time requested
        cases known : state.requestedAt with
        | none =>
            have now : some state.clock = some time := by simpa [known] using requested
            exact Nat.le_of_eq (Option.some.inj now).symm
        | some first =>
            have same : some first = some time := by simpa [known] using requested
            exact Option.some.inj same ▸ before first known
      · intro _
        cases state.requestedAt <;> rfl
      · intro task member finish ended unrequested
        cases unrequested
  | finish index name joined outcome found =>
      refine supervised.beside grown rfl before undrained ?_
      intro task member finish ended unrequested
      rcases List.mem_or_eq_of_mem_set member with kept | new
      · exact early task kept finish ended unrequested
      · rw [new] at ended
        cases ended
        exact unrequested
  | poll here =>
      refine ⟨before, fun _ => undrained (.inl here), ?_, ?_, ?_, early⟩
      · intro first deadline now
        simp only at now
        split at now
        · rename_i requested
          cases now
          exact .inr (supervised.drain_now (.inl here) requested)
        · cases now
      · intro error deadline now
        simp only at now
        split at now <;> cases now
      · intro error now
        simp only at now
        split at now <;> cases now
  | takeChanged here requested =>
      refine ⟨before, fun _ => undrained (.inr here), ?_, ?_, ?_, early⟩
      · intro first deadline now
        cases now
        exact .inr (supervised.drain_now (.inr here) requested)
      · intro error deadline now
        cases now
      · intro error now
        cases now
  | takeJoin index name finish here found =>
      have unrequested : state.requested = false := unraced
      have first := early _ (List.mem_of_getElem? found) finish rfl unrequested
      have caused : Caused group state (failure name finish.outcome) :=
        failure_caused (List.mem_of_getElem? found) rfl rfl first
      have blemished : Blemished state :=
        ⟨_, List.mem_of_getElem? found, finish, rfl, .inr first⟩
      refine ⟨before, ?_, ?_, ?_, ?_, ?_⟩
      · intro now
        rcases now with now | now <;> cases now
      · intro _ _ _
        exact .inl (grown.blemished blemished)
      · intro error deadline now
        cases now
        exact grown.caused caused
      · intro error now
        cases now
      · intro task member finish ended unrequested
        cases unrequested
  | join index name finish first deadline here found =>
      refine ⟨before, ?_, ?_, ?_, ?_, ?_⟩
      · intro now
        rcases now with now | now <;> cases now
      · intro first' deadline' now
        cases now
        exact supervised.drain_later grown here
      · intro error deadline' now
        have kept : firstError first name finish.outcome = some error := by
          injection now
        refine grown.caused (firstError_caused ?_ (List.mem_of_getElem? found) rfl kept)
        intro error' known
        exact remembered error' deadline (known ▸ here)
      · intro error now
        cases now
      · intro task member finish' ended unrequested
        obtain ⟨task', member', same⟩ := finish_of_mem_set found member
        exact early task' member' finish' (same.trans ended) unrequested
  | drained first deadline here all =>
      refine ⟨before, ?_, ?_, ?_, ?_, early⟩
      · intro now
        rcases now with now | now <;> cases now
      · intro first' deadline' now
        cases now
      · intro error deadline' now
        cases now
      · intro error now
        cases first with
        | none => cases now
        | some known =>
            have same : known = error := by
              injection now with same
              injection same
            rw [← same]
            exact grown.caused (remembered known deadline here)
  | timeout first deadline here late left =>
      refine ⟨before, ?_, ?_, ?_, ?_, early⟩
      · intro now
        rcases now with now | now <;> cases now
      · intro first' deadline' now
        cases now
      · intro error deadline' now
        cases now
      · intro error now
        cases now
        rcases draining first deadline here with blemished | ⟨time, requested, bound⟩
        · exact .inl (grown.blemished blemished)
        · obtain ⟨task, member, running⟩ := left
          refine .inr ⟨time, requested, task, member, ?_⟩
          rw [running]
          exact Nat.le_trans bound late

theorem supervised_of_reach (reach : (system group).Reach Unraced state) :
    Supervised group state := by
  refine reach.invariant (supervised_start group) ?_
  intro before action after supervised unraced step
  exact supervised.step unraced (takes_of_advance step)

end Supervised

/-! ## A clean shutdown ends -/

/-- The steps of `wait`. -/
def ByWait : Action → Prop
  | .elapse _ => False
  | .request => False
  | .finish _ _ => False
  | _ => True

def Waiter.distance : Waiter → Nat
  | .unpolled => 3
  | .selecting => 2
  | .draining _ _ => 1
  | .done _ => 0

/-- Steps `wait` is away from its end once every service has ended. -/
def rank (state : State) : Nat :=
  (state.tasks.countP fun task => !task.joined) + state.waiter.distance

def AllEnded (state : State) : Prop :=
  ∀ task ∈ state.tasks, task.finish.isSome

section Liveness

variable {group : Group} {state state' : State} {action : Action}

theorem unjoined_set {index : Nat} {task : Task} (replaced : Task)
    (found : state.tasks[index]? = some task) :
    (state.tasks.set index replaced).countP (fun task => !task.joined) +
        (if task.joined then 0 else 1) =
      state.tasks.countP (fun task => !task.joined) + (if replaced.joined then 0 else 1) := by
  have counted := countP_set_add (fun task : Task => !task.joined) found replaced
  have flag (joined : Bool) : (if (!joined) = true then 1 else 0) = if joined then 0 else 1 := by
    cases joined <;> rfl
  rw [flag, flag] at counted
  exact counted

theorem rank_step (taken : Takes group state action state') :
    rank state' ≤ rank state ∧ (ByWait action → rank state' < rank state) := by
  cases taken with
  | elapse duration => exact ⟨Nat.le_refl _, False.elim⟩
  | request => exact ⟨Nat.le_refl _, False.elim⟩
  | finish index name joined outcome found =>
      refine ⟨?_, False.elim⟩
      have same := unjoined_set
        ⟨name, some ⟨outcome, state.clock, state.requested⟩, joined⟩ found
      simp only [rank] at same ⊢
      omega
  | poll here =>
      have nearer : (if state.requested then
          Waiter.draining none (state.clock + group.shutdownTimeout) else .selecting).distance <
          Waiter.unpolled.distance := by
        split
        · exact Nat.lt_of_sub_eq_succ rfl
        · exact Nat.lt_of_sub_eq_succ rfl
      simp only [rank, here]
      exact ⟨by omega, fun _ => by omega⟩
  | takeChanged here requested =>
      simp only [rank, here, Waiter.distance]
      exact ⟨by omega, fun _ => by omega⟩
  | takeJoin index name finish here found =>
      have fewer := unjoined_set ⟨name, some finish, true⟩ found
      simp only [rank, here, Waiter.distance, State.markJoined] at fewer ⊢
      simp only [Bool.false_eq_true, if_false, if_true] at fewer
      exact ⟨by omega, fun _ => by omega⟩
  | join index name finish first deadline here found =>
      have fewer := unjoined_set ⟨name, some finish, true⟩ found
      simp only [rank, here, Waiter.distance, State.markJoined] at fewer ⊢
      simp only [Bool.false_eq_true, if_false, if_true] at fewer
      exact ⟨by omega, fun _ => by omega⟩
  | drained first deadline here all =>
      simp only [rank, here, Waiter.distance]
      exact ⟨by omega, fun _ => by omega⟩
  | timeout first deadline here late left =>
      simp only [rank, here, Waiter.distance]
      exact ⟨by omega, fun _ => by omega⟩

/-- Once every service has ended, no step changes how they did. -/
theorem finish_of_mem_later (ended : AllEnded state) (taken : Takes group state action state')
    {task : Task} (member : task ∈ state'.tasks) :
    ∃ task' ∈ state.tasks, task'.finish = task.finish := by
  cases taken with
  | finish index name joined outcome found =>
      have done := ended _ (List.mem_of_getElem? found)
      cases done
  | takeJoin index name finish here found => exact finish_of_mem_set found member
  | join index name finish first deadline here found => exact finish_of_mem_set found member
  | _ => exact ⟨task, member, rfl⟩

theorem AllEnded.step (ended : AllEnded state) (taken : Takes group state action state') :
    AllEnded state' := by
  intro task member
  obtain ⟨task', member', same⟩ := finish_of_mem_later ended taken member
  rw [← same]
  exact ended task' member'

theorem Clean.step (clean : Clean group state) (ended : AllEnded state)
    (taken : Takes group state action state') : Clean group state' := by
  obtain ⟨time, requested, tasks⟩ := clean
  refine ⟨time, taken.extends.requestedAt time requested, ?_⟩
  intro task member
  obtain ⟨task', member', same⟩ := finish_of_mem_later ended taken member
  have fine := tasks task' member'
  have done := ended task' member'
  rw [same] at fine done
  obtain ⟨finish, known⟩ := Option.isSome_iff_exists.mp done
  rw [known] at fine ⊢
  exact fine

/-- `wait` has a step to take until it returns. -/
theorem wait_enabled (supervised : Supervised group state) (clean : Clean group state)
    (ended : AllEnded state) (running : ∀ result, state.waiter ≠ .done result) :
    ∃ action, ByWait action ∧ (advance group state action).isSome := by
  obtain ⟨time, requested, -⟩ := clean
  cases here : state.waiter with
  | unpolled => exact ⟨.poll, trivial, by simp [advance, here]⟩
  | selecting =>
      have known := supervised.undrained (.inr here)
      rw [requested] at known
      have known : state.requested = true := known
      exact ⟨.takeChanged, trivial, by simp [advance, here, known]⟩
  | draining first deadline =>
      by_cases all : state.tasks.all Task.joined
      · exact ⟨.drained, trivial, by simp only [advance, here, if_pos all]; rfl⟩
      · obtain ⟨task, member, unjoined⟩ : ∃ task ∈ state.tasks, task.joined = false := by
          simpa using all
        obtain ⟨index, found⟩ := List.mem_iff_getElem?.mp member
        obtain ⟨finish, known⟩ := Option.isSome_iff_exists.mp (ended task member)
        obtain ⟨name, finished, joined⟩ := task
        have known : finished = some finish := known
        have unjoined : joined = false := unjoined
        subst known unjoined
        have ready : state.ready index = some (⟨name, some finish, false⟩, finish.outcome) := by
          simp [State.ready, found]
        exact ⟨.join index, trivial, by simp [advance, here, ready]⟩
  | done result => exact absurd here (running result)

theorem wait_returns (run : (system group).Execution Unraced)
    (start : run.state 0 = (system group).init) (fair : run.WeaklyFair ByWait) {n : Nat}
    (clean : Clean group (run.state n)) (ended : AllEnded (run.state n)) :
    ∃ m, (run.state m).waiter = .done (.ok ()) := by
  have supervised : ∀ m, Supervised group (run.state m) := by
    refine run.invariant ?_ ?_
    · rw [start]
      exact supervised_start group
    · intro before action after supervised unraced step
      exact supervised.step unraced (takes_of_advance step)
  have later : ∀ i, Clean group ((run.drop n).state i) ∧ AllEnded ((run.drop n).state i) := by
    refine (run.drop n).invariant
      (I := fun state => Clean group state ∧ AllEnded state) ⟨clean, ended⟩ ?_
    intro before action after held _ step
    have taken := takes_of_advance step
    exact ⟨held.1.step held.2 taken, held.2.step taken⟩
  obtain ⟨i, result, done⟩ := (fair.drop n).eventually
    (fun state => ∃ result, state.waiter = .done result) rank
    (fun i unfinished => wait_enabled (supervised (n + i)) (later i).1 (later i).2
      fun result done => unfinished ⟨result, done⟩)
    (fun i _ => (rank_step (takes_of_advance ((run.drop n).step i))).1)
    (fun i helps _ _ => (rank_step (takes_of_advance ((run.drop n).step i))).2 helps)
  refine ⟨n + i, ?_⟩
  have done : (run.state (n + i)).waiter = .done result := done
  cases result with
  | ok value => exact done
  | error error =>
      exact absurd ((supervised (n + i)).returned error done) ((later i).1.not_caused error)

/-- Where no poll takes the branch of an ended service although the shutdown has
been requested: a clean shutdown is reported as success whenever `wait` returns,
`wait` does return once the services have ended, and an unexpected exit is only
reported of a service that returned `Ok` before the request. -/
theorem cleanShutdown_succeeds_unless_raced (group : Group) :
    (∀ state, (system group).Reach Unraced state → Clean group state →
      ∀ result, state.waiter = .done result → result = .ok ()) ∧
    (∀ run : (system group).Execution Unraced, run.state 0 = (system group).init →
      run.WeaklyFair ByWait → ∀ n, Clean group (run.state n) → AllEnded (run.state n) →
      ∃ m, (run.state m).waiter = .done (.ok ())) ∧
    ∀ state name, (system group).Reach Unraced state →
      state.waiter = .done (.error (.unexpectedExit name)) → Early state name := by
  refine ⟨?_, ?_, ?_⟩
  · intro state reach clean result done
    cases result with
    | ok value => rfl
    | error error =>
        have caused := (supervised_of_reach reach).returned error done
        exact absurd caused (clean.not_caused error)
  · intro run start fair n clean ended
    exact wait_returns run start fair clean ended
  · intro state name reach done
    exact (supervised_of_reach reach).returned _ done

end Liveness

section Sample

/-- One service and the default timeout. -/
def sampleGroup : Group :=
  ⟨["http"], 30000000000, by decide, by decide⟩

/-- The service ends as soon as shutdown is requested, and the poll that finds
both branches ready takes the one of the service. -/
def racedActions : List Action :=
  [.poll, .request, .finish 0 .ok, .takeJoin 0, .drained]

/-- The same, with the other branch taken. -/
def unracedActions : List Action :=
  [.poll, .request, .finish 0 .ok, .takeChanged, .join 0, .drained]

def sampleLast (waiter : Waiter) : State :=
  ⟨0, true, some 0, [⟨"http", some ⟨.ok, 0, true⟩, true⟩], 0, waiter⟩

theorem sampleLast_clean (waiter : Waiter) : Clean sampleGroup (sampleLast waiter) := by
  refine ⟨0, rfl, ?_⟩
  intro task member
  cases List.mem_singleton.mp member
  exact ⟨rfl, rfl, by decide⟩

theorem sampleLast_ended (waiter : Waiter) : AllEnded (sampleLast waiter) := by
  intro task member
  cases List.mem_singleton.mp member
  rfl

/-- A clean shutdown of one service, reported as its unexpected exit. -/
theorem cleanShutdown_reported_as_unexpectedExit :
    ∃ state, (system sampleGroup).Reachable state ∧ Clean sampleGroup state ∧ AllEnded state ∧
      state.waiter = .done (.error (.unexpectedExit "http")) ∧ ¬ Early state "http" := by
  have run : (system sampleGroup).exec (system sampleGroup).init racedActions =
      some (sampleLast (.done (.error (.unexpectedExit "http")))) := rfl
  refine ⟨_, Lts.reachable_of_exec _ run, sampleLast_clean _, sampleLast_ended _, rfl, ?_⟩
  intro early
  obtain ⟨task, member, -, finish, ended, -, before⟩ := early
  cases List.mem_singleton.mp member
  cases ended
  cases before

theorem unracedActions_unraced :
    (system sampleGroup).Meets Unraced (system sampleGroup).init unracedActions := by
  refine Lts.meets_of_forall ?_ _
  intro action member _
  simp only [unracedActions, List.mem_cons, List.not_mem_nil, or_false] at member
  rcases member with same | same | same | same | same | same <;> (rw [same]; trivial)

def sampleRun : (system sampleGroup).Execution Unraced :=
  .padded unracedActions (.elapse 0) (sampleLast (.done (.ok ()))) rfl
    unracedActions_unraced rfl trivial

theorem sampleRun_fair : sampleRun.WeaklyFair ByWait := by
  apply Lts.Execution.padded_weaklyFair
  intro action byWait
  cases action with
  | elapse duration => exact absurd byWait id
  | request => exact absurd byWait id
  | finish index outcome => exact absurd byWait id
  | _ => rfl

/-- The unraced schedule of the same shutdown succeeds. -/
theorem cleanShutdown_of_one_service_succeeds :
    ∃ m, (sampleRun.state m).waiter = .done (.ok ()) :=
  (cleanShutdown_succeeds_unless_raced sampleGroup).2.1 sampleRun rfl sampleRun_fair 6
    (sampleLast_clean _) (sampleLast_ended _)

end Sample

end RustZero.ServiceGroup
