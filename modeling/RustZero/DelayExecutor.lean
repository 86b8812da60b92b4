import RustZero.Lib.Executions

/-!
# The delay executor

`core/src/executor.rs`: `DelayExecutor` coalesces triggers into at most one
delayed execution.  One logical bit, an execution is pending, is spread over an
atomic flag, a channel of capacity one and the place the worker has reached.

* `advance` gives the steps of the worker and of any number of concurrent
  `trigger` calls.  A call's compare-exchange and its `try_send` are two steps,
  and so are the worker's clearing of the flag and its start of the job.
* The message is `()`; here it names the call that sent it, and the worker
  remembers which call it serves, so that runs can be matched with triggers.
* `Coalesced` is the invariant.  `Execution`s give the liveness half.

`shutdown` takes the executor by value, so no call is in progress when it is
requested and none is made later.  Dropping the executor does the same.
-/

namespace RustZero.DelayExecutor

open RustZero.Lib (Lts)

/-- Where the worker is, and the call it serves there. -/
inductive Worker (C : Type) where
  | receiving
  | sleeping (served : C)
  /-- The delay is over, the flag is still set. -/
  | slept (served : C)
  /-- The flag is cleared, the job has not started. -/
  | cleared (served : C)
  | running
  | stopped
  | failed
  deriving DecidableEq

structure State (C : Type) where
  triggered : Bool
  channel : Option C
  /-- Calls between a successful compare-exchange and their `try_send`. -/
  sending : List C
  /-- Calls whose `try_send` failed, before they clear the flag again. -/
  undoing : List C
  worker : Worker C
  stopping : Bool

inductive Action (C : Type) where
  | compareExchange (caller : C)
  | trySend (caller : C)
  | undo (caller : C)
  | receive
  | wake
  | clear
  | run
  | finish
  | fail
  | shutdown
  | stop
  | abort
  /-- Nothing happens. -/
  | idle

inductive Note (C : Type) where
  | returned (caller : C) (result : Bool)
  | started (served : C)
  deriving DecidableEq

variable {C : Type}

namespace Worker

/-- The worker still holds the receiving end of the channel. -/
def alive : Worker C → Bool
  | .stopped => false
  | .failed => false
  | _ => true

/-- The call whose execution the worker has received and not yet released the
flag for. -/
def waiting : Worker C → List C
  | .sleeping served => [served]
  | .slept served => [served]
  | _ => []

/-- The call whose execution the worker has received and not yet started. -/
def unstarted : Worker C → List C
  | .sleeping served => [served]
  | .slept served => [served]
  | .cleared served => [served]
  | _ => []

end Worker

variable [DecidableEq C]

def advance (state : State C) : Action C → Option (State C × List (Note C))
  | .compareExchange caller =>
      if state.stopping then none
      else if state.triggered then some (state, [.returned caller false])
      else some ({ state with triggered := true, sending := caller :: state.sending }, [])
  | .trySend caller =>
      if caller ∈ state.sending then
        let sending := state.sending.erase caller
        match state.worker.alive, state.channel with
        | true, none =>
            some ({ state with sending := sending, channel := some caller },
              [.returned caller true])
        | _, _ => some ({ state with sending := sending, undoing := caller :: state.undoing }, [])
      else none
  | .undo caller =>
      if caller ∈ state.undoing then
        some ({ state with triggered := false, undoing := state.undoing.erase caller },
          [.returned caller false])
      else none
  | .receive =>
      match state.worker, state.channel with
      | .receiving, some served =>
          some ({ state with channel := none, worker := .sleeping served }, [])
      | _, _ => none
  | .wake =>
      match state.worker with
      | .sleeping served => some ({ state with worker := .slept served }, [])
      | _ => none
  | .clear =>
      match state.worker with
      | .slept served => some ({ state with triggered := false, worker := .cleared served }, [])
      | _ => none
  | .run =>
      match state.worker with
      | .cleared served => some ({ state with worker := .running }, [.started served])
      | _ => none
  | .finish =>
      match state.worker with
      | .running => some ({ state with worker := .receiving }, [])
      | _ => none
  | .fail =>
      match state.worker with
      | .running => some ({ state with worker := .failed }, [])
      | _ => none
  | .shutdown =>
      match state.stopping, state.sending, state.undoing with
      | false, [], [] => some ({ state with stopping := true }, [])
      | _, _, _ => none
  | .stop =>
      -- either branch of the two `select!`s that sees `stopping`, and the closed channel
      match state.stopping, state.worker with
      | true, .receiving => some ({ state with worker := .stopped }, [])
      | true, .sleeping _ => some ({ state with worker := .stopped }, [])
      | _, _ => none
  | .abort =>
      -- the deadline of `shutdown` passed
      match state.stopping, state.worker.alive with
      | true, true => some ({ state with worker := .stopped }, [])
      | _, _ => none
  | .idle => some (state, [])

def system : Lts (State C × List (Note C)) (Action C) :=
  Lts.emitting ⟨false, none, [], [], .receiving, false⟩ advance

/-! ## The pending execution -/

/-- The executions that are claimed or sent but whose flag the worker has not
released yet. -/
def State.pending (state : State C) : List C :=
  state.sending ++ state.channel.toList ++ state.worker.waiting

/-- The calls that returned `true`, in order. -/
def accepted (emitted : List (Note C)) : List C :=
  emitted.filterMap fun
    | .returned caller true => some caller
    | _ => none

/-- The calls whose execution started, in order. -/
def started (emitted : List (Note C)) : List C :=
  emitted.filterMap fun
    | .started served => some served
    | _ => none

omit [DecidableEq C] in
@[simp] theorem accepted_append (emitted out : List (Note C)) :
    accepted (emitted ++ out) = accepted emitted ++ accepted out :=
  List.filterMap_append

omit [DecidableEq C] in
@[simp] theorem started_append (emitted out : List (Note C)) :
    started (emitted ++ out) = started emitted ++ started out :=
  List.filterMap_append

/-- While the worker lives, the flag says whether an execution is pending, no
`try_send` has failed, and the accepted calls are those started and then those
the worker and the channel still hold. -/
structure Coalesced (state : State C) (emitted : List (Note C)) : Prop where
  flag : state.worker.alive = true →
    state.pending.length = if state.triggered then 1 else 0
  undoing : state.worker.alive = true → state.undoing = []
  held : state.worker.alive = true →
    accepted emitted = started emitted ++ state.worker.unstarted ++ state.channel.toList
  inOrder : ∃ rest, accepted emitted = started emitted ++ rest

/-! ## The steps -/

/-- What each step does. -/
inductive Takes (state : State C) : Action C → State C → List (Note C) → Prop
  | refuse (caller : C) (set : state.triggered = true) :
      Takes state (.compareExchange caller) state [.returned caller false]
  | claim (caller : C) (unset : state.triggered = false) :
      Takes state (.compareExchange caller)
        { state with triggered := true, sending := caller :: state.sending } []
  | send (caller : C) (claimed : caller ∈ state.sending) (alive : state.worker.alive = true)
      (empty : state.channel = none) :
      Takes state (.trySend caller)
        { state with sending := state.sending.erase caller, channel := some caller }
        [.returned caller true]
  | reject (caller : C) (claimed : caller ∈ state.sending)
      (blocked : state.worker.alive = true → state.channel ≠ none) :
      Takes state (.trySend caller)
        { state with sending := state.sending.erase caller, undoing := caller :: state.undoing } []
  | undo (caller : C) (rejected : caller ∈ state.undoing) :
      Takes state (.undo caller)
        { state with triggered := false, undoing := state.undoing.erase caller }
        [.returned caller false]
  | receive (served : C) (here : state.worker = .receiving) (queued : state.channel = some served) :
      Takes state .receive { state with channel := none, worker := .sleeping served } []
  | wake (served : C) (here : state.worker = .sleeping served) :
      Takes state .wake { state with worker := .slept served } []
  | clear (served : C) (here : state.worker = .slept served) :
      Takes state .clear { state with triggered := false, worker := .cleared served } []
  | run (served : C) (here : state.worker = .cleared served) :
      Takes state .run { state with worker := .running } [.started served]
  | finish (here : state.worker = .running) :
      Takes state .finish { state with worker := .receiving } []
  | shutdown : Takes state .shutdown { state with stopping := true } []
  | die (action : Action C)
      (cause : action = .fail ∨ (action = .stop ∨ action = .abort) ∧ state.stopping = true)
      (worker : Worker C) (dead : worker.alive = false) :
      Takes state action { state with worker := worker } []
  | idle : Takes state .idle state []

theorem takes_of_advance {state state' : State C} {action : Action C} {out : List (Note C)}
    (taken : advance state action = some (state', out)) : Takes state action state' out := by
  obtain ⟨triggered, channel, sending, undoing, worker, stopping⟩ := state
  cases action with
  | compareExchange caller =>
      simp only [advance] at taken
      split at taken
      · cases taken
      · split at taken
        · rename_i set
          cases taken
          exact .refuse caller set
        · rename_i unset
          cases taken
          exact .claim caller (by simpa using unset)
  | trySend caller =>
      simp only [advance] at taken
      split at taken
      · rename_i claimed
        split at taken
        · rename_i _ alive
          cases taken
          exact .send caller claimed alive rfl
        · rename_i blocked
          cases taken
          exact .reject caller claimed fun alive empty => blocked alive empty
      · cases taken
  | undo caller =>
      simp only [advance] at taken
      split at taken
      · rename_i rejected
        cases taken
        exact .undo caller rejected
      · cases taken
  | receive =>
      cases worker <;> cases channel <;> cases taken
      exact .receive _ rfl rfl
  | wake =>
      cases worker <;> cases taken
      exact .wake _ rfl
  | clear =>
      cases worker <;> cases taken
      exact .clear _ rfl
  | run =>
      cases worker <;> cases taken
      exact .run _ rfl
  | finish =>
      cases worker <;> cases taken
      exact .finish rfl
  | fail =>
      cases worker <;> cases taken
      exact .die .fail (.inl rfl) .failed rfl
  | shutdown =>
      cases stopping <;> cases sending <;> cases undoing <;> cases taken
      exact .shutdown
  | stop =>
      cases stopping <;> cases worker <;> cases taken
      · exact .die .stop (.inr ⟨.inl rfl, rfl⟩) .stopped rfl
      · exact .die .stop (.inr ⟨.inl rfl, rfl⟩) .stopped rfl
  | abort =>
      simp only [advance] at taken
      split at taken
      · cases taken
        exact .die .abort (.inr ⟨.inr rfl, rfl⟩) .stopped rfl
      · cases taken
  | idle =>
      cases taken
      exact .idle

omit [DecidableEq C] in
/-- Of a dead worker only the order of the runs there were is known. -/
theorem Coalesced.dead {state : State C} {emitted : List (Note C)}
    (dead : state.worker.alive ≠ true)
    (inOrder : ∃ rest, accepted emitted = started emitted ++ rest) : Coalesced state emitted :=
  ⟨fun alive => absurd alive dead, fun alive => absurd alive dead,
    fun alive => absurd alive dead, inOrder⟩

omit [DecidableEq C] in
/-- The worker moves on with the same execution pending and the same calls to serve. -/
theorem Coalesced.move {state : State C} {emitted : List (Note C)}
    (coalesced : Coalesced state emitted) (alive : state.worker.alive = true)
    {channel : Option C} {worker : Worker C}
    (pending : ({ state with channel := channel, worker := worker } : State C).pending.length =
      state.pending.length)
    (unserved : worker.unstarted ++ channel.toList =
      state.worker.unstarted ++ state.channel.toList) :
    Coalesced { state with channel := channel, worker := worker } emitted := by
  refine ⟨?_, fun _ => coalesced.undoing alive, ?_, coalesced.inOrder⟩
  · intro _
    rw [pending]
    exact coalesced.flag alive
  · intro _
    rw [List.append_assoc, unserved, ← List.append_assoc]
    exact coalesced.held alive

theorem Coalesced.step {state state' : State C} {action : Action C}
    {emitted out : List (Note C)} (coalesced : Coalesced state emitted)
    (taken : Takes state action state' out) :
    Coalesced state' (emitted ++ out) := by
  obtain ⟨flag, undoing, held, inOrder⟩ := id coalesced
  cases taken with
  | refuse caller set =>
      exact ⟨flag, undoing, by simpa [accepted, started] using held,
        by simpa [accepted, started] using inOrder⟩
  | claim caller unset =>
      rw [List.append_nil]
      refine ⟨?_, undoing, held, inOrder⟩
      intro alive
      have before := flag alive
      rw [unset] at before
      simp only [State.pending, List.cons_append, List.length_cons] at before ⊢
      simpa using before
  | send caller claimed alive empty =>
      have last : accepted (emitted ++ [Note.returned caller true]) =
          started (emitted ++ [Note.returned caller true]) ++ state.worker.unstarted ++
            [caller] := by
        have before := held alive
        rw [empty, Option.toList_none, List.append_nil] at before
        rw [accepted_append, started_append, before]
        simp [accepted, started]
      refine ⟨?_, undoing, fun _ => last, ⟨state.worker.unstarted ++ [caller], ?_⟩⟩
      · intro _
        have before := flag alive
        have one := List.length_erase_of_mem claimed
        have positive := List.length_pos_of_mem claimed
        simp only [State.pending, empty, List.length_append, Option.toList_none,
          Option.toList_some, List.length_nil, List.length_singleton] at before ⊢
        omega
      · rw [last, List.append_assoc]
  | reject caller claimed blocked =>
      rw [List.append_nil]
      have dead : state.worker.alive ≠ true := by
        intro alive
        have before := flag alive
        have positive := List.length_pos_of_mem claimed
        obtain ⟨queued, full⟩ := Option.ne_none_iff_exists'.mp (blocked alive)
        simp only [State.pending, full, List.length_append, Option.toList_some,
          List.length_singleton] at before
        split at before <;> omega
      exact Coalesced.dead dead inOrder
  | undo caller rejected =>
      have dead : state.worker.alive ≠ true := by
        intro alive
        rw [undoing alive] at rejected
        cases rejected
      exact Coalesced.dead dead (by simpa [accepted, started] using inOrder)
  | receive served here queued =>
      rw [List.append_nil]
      have alive : state.worker.alive = true := by rw [here]; rfl
      refine coalesced.move alive ?_ ?_
      · simp [State.pending, here, queued, Worker.waiting]
      · simp [here, queued, Worker.unstarted]
  | wake served here =>
      rw [List.append_nil]
      have alive : state.worker.alive = true := by rw [here]; rfl
      refine coalesced.move alive ?_ ?_
      · simp [State.pending, here, Worker.waiting]
      · simp [here, Worker.unstarted]
  | clear served here =>
      rw [List.append_nil]
      have alive : state.worker.alive = true := by rw [here]; rfl
      refine ⟨?_, fun _ => undoing alive, ?_, inOrder⟩
      · intro _
        have before := flag alive
        simp only [State.pending, here, Worker.waiting, List.length_append,
          List.length_singleton] at before ⊢
        split at before
        · simpa using before
        · omega
      · intro _
        have before := held alive
        rw [here] at before
        exact before
  | run served here =>
      have alive : state.worker.alive = true := by rw [here]; rfl
      have after : accepted (emitted ++ [Note.started served]) =
          started (emitted ++ [Note.started served]) ++ state.channel.toList := by
        have before := held alive
        rw [here] at before
        rw [accepted_append, started_append, before]
        simp [accepted, started, Worker.unstarted]
      refine ⟨?_, fun _ => undoing alive, ?_, ⟨_, after⟩⟩
      · intro _
        have before := flag alive
        simp only [State.pending, here, Worker.waiting] at before ⊢
        exact before
      · intro _
        rw [after]
        simp [Worker.unstarted]
  | finish here =>
      rw [List.append_nil]
      have alive : state.worker.alive = true := by rw [here]; rfl
      refine coalesced.move alive ?_ ?_
      · simp [State.pending, here, Worker.waiting]
      · simp [here, Worker.unstarted]
  | shutdown =>
      rw [List.append_nil]
      exact ⟨flag, undoing, held, inOrder⟩
  | die action cause worker dead =>
      rw [List.append_nil]
      exact Coalesced.dead (by simp [dead]) inOrder
  | idle =>
      rw [List.append_nil]
      exact ⟨flag, undoing, held, inOrder⟩

omit [DecidableEq C] in
theorem Coalesced.init : Coalesced (C := C) ⟨false, none, [], [], .receiving, false⟩ [] :=
  ⟨fun _ => rfl, fun _ => rfl, fun _ => rfl, ⟨[], rfl⟩⟩

theorem coalesced_of_reach {P : State C × List (Note C) → Action C → Prop} {state : State C}
    {emitted : List (Note C)} (reach : system.Reach P (state, emitted)) :
    Coalesced state emitted := by
  refine reach.emitting_invariant (I := Coalesced) Coalesced.init ?_
  intro state emitted action state' out coalesced _ taken
  exact coalesced.step (takes_of_advance taken)

/-! ## Every accepted trigger is served -/

/-- No shutdown is requested and no job fails. -/
def Undisturbed (_ : State C × List (Note C)) (action : Action C) : Prop :=
  action ≠ .shutdown ∧ action ≠ .fail

/-- The steps of the worker that lead it from one run to the next. -/
def ByWorker (action : Action C) : Prop :=
  action = .receive ∨ action = .wake ∨ action = .clear ∨ action = .run ∨ action = .finish

/-- Steps the worker is away from starting the next run. -/
def Worker.distance : Worker C → Nat
  | .running => 5
  | .receiving => 4
  | .sleeping _ => 3
  | .slept _ => 2
  | .cleared _ => 1
  | .stopped => 0
  | .failed => 0

/-- Steps the worker is away from the start of run `target`. -/
def rank (target : Nat) (reached : State C × List (Note C)) : Nat :=
  (target + 1 - (started reached.2).length) * 6 + reached.1.worker.distance

/-- A worker that nothing stops, in a state of a run. -/
structure Working (reached : State C × List (Note C)) : Prop where
  coalesced : Coalesced reached.1 reached.2
  alive : reached.1.worker.alive = true
  unstopped : reached.1.stopping = false

theorem Working.step {before after : State C × List (Note C)} {action : Action C}
    (working : Working before) (undisturbed : Undisturbed before action)
    (step : system.step before action = some after) : Working after := by
  obtain ⟨state, emitted⟩ := before
  obtain ⟨state', emitted'⟩ := after
  obtain ⟨out, taken, grown⟩ := Lts.emitting_step step
  obtain ⟨coalesced, alive, unstopped⟩ := working
  have taken := takes_of_advance taken
  subst grown
  refine ⟨coalesced.step taken, ?_, ?_⟩
  · cases taken with
    | die action cause worker dead =>
        rcases cause with failed | ⟨-, stopping⟩
        · exact absurd failed undisturbed.2
        · exact absurd (unstopped.symm.trans stopping) (by decide)
    | receive served here queued => rfl
    | wake served here => rfl
    | clear served here => rfl
    | run served here => rfl
    | finish here => rfl
    | _ => exact alive
  · cases taken with
    | shutdown => exact absurd rfl undisturbed.1
    | _ => exact unstopped

/-- The worker has a step to take while an accepted call is not served. -/
theorem Working.enabled {reached : State C × List (Note C)} (working : Working reached)
    (owed : (started reached.2).length < (accepted reached.2).length) :
    ∃ action, ByWorker action ∧ (system.step reached action).isSome := by
  obtain ⟨⟨triggered, channel, sending, undoing, worker, stopping⟩, emitted⟩ := reached
  obtain ⟨coalesced, alive, -⟩ := working
  have held := congrArg List.length (coalesced.held alive)
  simp only [List.length_append] at held owed
  cases worker with
  | receiving =>
      cases channel with
      | none => simp [Worker.unstarted] at held; omega
      | some served => exact ⟨.receive, .inl rfl, rfl⟩
  | sleeping served => exact ⟨.wake, .inr (.inl rfl), rfl⟩
  | slept served => exact ⟨.clear, .inr (.inr (.inl rfl)), rfl⟩
  | cleared served => exact ⟨.run, .inr (.inr (.inr (.inl rfl))), rfl⟩
  | running => exact ⟨.finish, .inr (.inr (.inr (.inr rfl))), rfl⟩
  | stopped => cases alive
  | failed => cases alive

/-- No step takes the worker further from a run that has not started, and its own
steps bring it nearer. -/
theorem rank_step (target : Nat) (emitted : List (Note C)) {state state' : State C}
    {action : Action C} {out : List (Note C)} (taken : Takes state action state' out)
    (owed : (started (emitted ++ out)).length ≤ target) :
    rank target (state', emitted ++ out) ≤ rank target (state, emitted) ∧
      (ByWorker action → rank target (state', emitted ++ out) < rank target (state, emitted)) := by
  cases taken with
  | receive served here queued => simp [rank, here, Worker.distance]
  | wake served here => simp [rank, here, Worker.distance]
  | clear served here => simp [rank, here, Worker.distance]
  | run served here =>
      have one : (started (emitted ++ [Note.started served])).length =
          (started emitted).length + 1 := by
        rw [started_append, List.length_append]
        rfl
      simp only [rank, here, Worker.distance, one] at owed ⊢
      exact ⟨by omega, fun _ => by omega⟩
  | finish here => simp [rank, here, Worker.distance]
  | die action cause worker dead =>
      have none : worker.distance = 0 := by
        cases worker <;> first | rfl | cases dead
      simp only [rank, none, List.append_nil]
      refine ⟨by omega, ?_⟩
      intro byWorker
      rcases cause with failed | ⟨stopped | aborted, -⟩
      · simp [ByWorker, failed] at byWorker
      · simp [ByWorker, stopped] at byWorker
      · simp [ByWorker, aborted] at byWorker
  | _ => simp [rank, started, ByWorker]

/-- A step of an execution, with what it emits. -/
theorem run_step (run : system.Execution (Undisturbed (C := C))) (n : Nat) :
    ∃ out, advance (run.state n).1 (run.action n) = some ((run.state (n + 1)).1, out)
      ∧ (run.state (n + 1)).2 = (run.state n).2 ++ out :=
  Lts.emitting_step (run.step n)

theorem emitted_grows (run : system.Execution (Undisturbed (C := C))) (n i : Nat) :
    ∃ more, (run.state (n + i)).2 = (run.state n).2 ++ more := by
  induction i with
  | zero => exact ⟨[], (List.append_nil _).symm⟩
  | succ i ih =>
      obtain ⟨more, grown⟩ := ih
      obtain ⟨out, -, next⟩ := run_step run (n + i)
      exact ⟨more ++ out, by rw [← Nat.add_assoc, next, grown, List.append_assoc]⟩

/-- In an undisturbed execution whose worker is scheduled fairly, every accepted
call is served. -/
theorem eventually_started (run : system.Execution (Undisturbed (C := C)))
    (start : Working (run.state 0)) (fair : run.WeaklyFair ByWorker) (n k : Nat)
    (owed : k < (accepted (run.state n).2).length) :
    ∃ i, k < (started (run.state (n + i)).2).length := by
  have working : ∀ m, Working (run.state m) :=
    run.invariant start fun _ _ _ working undisturbed step => working.step undisturbed step
  refine (fair.drop n).eventually (fun reached => k < (started reached.2).length) (rank k)
    ?_ ?_ ?_
  · intro i unserved
    have unserved : ¬ k < (started (run.state (n + i)).2).length := unserved
    obtain ⟨more, grown⟩ := emitted_grows run n i
    apply (working (n + i)).enabled
    rw [grown, accepted_append, List.length_append]
    rw [grown] at unserved
    omega
  · intro i unserved
    obtain ⟨out, taken, grown⟩ := run_step run (n + i)
    have nearer := rank_step k (run.state (n + i)).2 (takes_of_advance taken)
      (by rw [← grown]; exact Nat.le_of_not_lt unserved)
    rw [← grown] at nearer
    exact nearer.1
  · intro i helps _ unserved
    obtain ⟨out, taken, grown⟩ := run_step run (n + i)
    have nearer := rank_step k (run.state (n + i)).2 (takes_of_advance taken)
      (by rw [← grown]; exact Nat.le_of_not_lt unserved)
    rw [← grown] at nearer
    exact nearer.2 helps

/-- Whatever the interleaving: while the worker lives at most one execution is
pending, a `try_send` succeeds, and the compare-exchange of a call fails exactly
when one is pending; the runs that started serve the accepted calls in order, one
each; and unless a shutdown is requested or a job fails, every accepted call is
served in the end. -/
theorem delayExecutor_serves_each_accepted_trigger :
    (∀ (state : State C) (emitted : List (Note C)), system.Reachable (state, emitted) →
      (state.worker.alive = true →
        state.pending.length ≤ 1 ∧
        (∀ caller ∈ state.sending, ∃ after,
          advance state (.trySend caller) = some (after, [.returned caller true])) ∧
        (∀ caller, state.stopping = false → state.pending ≠ [] →
          advance state (.compareExchange caller) = some (state, [.returned caller false])) ∧
        (∀ caller, state.stopping = false → state.pending = [] →
          ∃ after, advance state (.compareExchange caller) = some (after, []) ∧
            caller ∈ after.sending) ∧
        accepted emitted =
          started emitted ++ state.worker.unstarted ++ state.channel.toList) ∧
      ∃ rest, accepted emitted = started emitted ++ rest) ∧
    ∀ run : system.Execution (Undisturbed (C := C)), run.state 0 = system.init →
      run.WeaklyFair ByWorker → ∀ n k, k < (accepted (run.state n).2).length →
        ∃ m, n ≤ m ∧ k < (started (run.state m).2).length ∧
          (started (run.state m).2)[k]? = (accepted (run.state n).2)[k]? := by
  refine ⟨?_, ?_⟩
  · intro state emitted reach
    have coalesced := coalesced_of_reach reach
    refine ⟨?_, coalesced.inOrder⟩
    intro alive
    have flag := coalesced.flag alive
    refine ⟨?_, ?_, ?_, ?_, coalesced.held alive⟩
    · rw [flag]
      split <;> omega
    · intro caller claimed
      have positive := List.length_pos_of_mem claimed
      have empty : state.channel = none := by
        cases queued : state.channel with
        | none => rfl
        | some other =>
            simp only [State.pending, queued, List.length_append, Option.toList_some,
              List.length_singleton] at flag
            split at flag <;> omega
      simp only [advance, if_pos claimed, alive, empty]
      exact ⟨_, rfl⟩
    · intro caller unstopped some
      have set : state.triggered = true := by
        by_contra unset
        rw [if_neg unset] at flag
        exact some (List.length_eq_zero_iff.mp flag)
      simp [advance, unstopped, set]
    · intro caller unstopped none
      have unset : state.triggered = false := by
        rw [none] at flag
        by_contra set
        rw [if_pos (by simpa using set)] at flag
        cases flag
      simp only [advance, unstopped, unset]
      exact ⟨_, rfl, List.mem_cons_self⟩
  · intro run start fair n k owed
    have working : Working (run.state 0) := by
      rw [start]
      exact ⟨Coalesced.init, rfl, rfl⟩
    obtain ⟨i, served⟩ := eventually_started run working fair n k owed
    obtain ⟨more, grown⟩ := emitted_grows run n i
    have coalesced : Coalesced (run.state (n + i)).1 (run.state (n + i)).2 :=
      (run.invariant working (fun _ _ _ working undisturbed step =>
        working.step undisturbed step) (n + i)).coalesced
    obtain ⟨rest, whole⟩ := coalesced.inOrder
    refine ⟨n + i, by omega, served, ?_⟩
    calc (started (run.state (n + i)).2)[k]?
        = (started (run.state (n + i)).2 ++ rest)[k]? := (List.getElem?_append_left served).symm
      _ = (accepted (run.state n).2)[k]? := by
          rw [← whole, grown, accepted_append, List.getElem?_append_left owed]

section Sample

/-- One call is accepted and served, and then nothing happens any more. -/
def sampleActions : List (Action Nat) :=
  [.compareExchange 1, .trySend 1, .receive, .wake, .clear, .run, .finish]

def sampleLast : State Nat × List (Note Nat) :=
  (⟨false, none, [], [], .receiving, false⟩, [.returned 1 true, .started 1])

theorem sampleActions_undisturbed :
    system.Meets Undisturbed (system (C := Nat)).init sampleActions := by
  refine Lts.meets_of_forall ?_ _
  intro action member _
  simp only [sampleActions, List.mem_cons, List.not_mem_nil, or_false] at member
  rcases member with same | same | same | same | same | same | same <;>
    exact ⟨by simp [same], by simp [same]⟩

def sampleRun : system.Execution (Undisturbed (C := Nat)) :=
  .padded sampleActions .idle sampleLast rfl
    sampleActions_undisturbed rfl ⟨by simp, by simp⟩

theorem sampleRun_fair : sampleRun.WeaklyFair ByWorker := by
  apply Lts.Execution.padded_weaklyFair
  intro action byWorker
  rcases byWorker with same | same | same | same | same <;> (subst same; rfl)

/-- A call accepted by an idle worker is the one its next run serves. -/
theorem delayExecutor_serves_one_trigger :
    ∃ m, (started (sampleRun.state m).2)[0]? = some 1 := by
  obtain ⟨m, -, -, same⟩ := (delayExecutor_serves_each_accepted_trigger (C := Nat)).2 sampleRun
    rfl sampleRun_fair 2 0 (by decide)
  exact ⟨m, same⟩

end Sample

end RustZero.DelayExecutor
