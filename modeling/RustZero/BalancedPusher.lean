import RustZero.QueueDelivery

/-!
# Pushing to several queues

`BalancedPusher::try_push` of `core/src/queue.rs` tries its producers in turn, from one
that a shared counter picks.  `Pushers` is a pusher, its calls and the queues, whose own
steps and those of other calls come between any two tries of a call.  The history notes
what state the queue of each try was in.
-/

namespace RustZero.Queue

open RustZero.Lib

variable {T : Type}

inductive PusherConfigError where
  | empty
  deriving DecidableEq

/-- The queues of the producers. -/
structure BalancedPusher (queues : Nat) where
  producers : List (Fin queues)
  nonempty : producers ≠ []

def BalancedPusher.new {queues : Nat} (producers : List (Fin queues)) :
    Except PusherConfigError (BalancedPusher queues) :=
  if nonempty : producers = [] then .error .empty else .ok ⟨producers, nonempty⟩

/-- A call of `try_push`. -/
structure Call (T : Type) where
  start : Nat
  offset : Nat
  given : T
  value : T
  result : Option (Except T Nat)

structure Pushers (T : Type) where
  queues : List (State T)
  /-- `AtomicUsize`. -/
  next : Nat
  calls : List (Call T)
  /-- The producers that the destructor of the pusher has dropped. -/
  dropped : Nat

inductive PusherAction (T : Type) where
  /-- A step of a queue, its workers, its owner or its other producers. -/
  | queue (index : Nat) (action : Action T)
  | call (value : T)
  /-- The next try of a call. -/
  | attempt (call : Nat)
  | drop

/-- The state of a queue that `try_push` asks for. -/
inductive Status where
  | free
  | full
  | closed
  deriving DecidableEq

def State.status (state : State T) : Status :=
  if state.closed then .closed else if state.hasRoom then .free else .full

inductive PusherNote (T : Type) where
  /-- What happens in a queue, by a call or not. -/
  | queue (call : Option Nat) (index : Nat) (note : Note T)
  | tried (call index : Nat) (status : Status)

def TrySendError.value : TrySendError T → T
  | .full value | .closed value => value

/-- The producers of a queue that the pusher still has. -/
def BalancedPusher.holds {queues : Nat} (pusher : BalancedPusher queues) (dropped index : Nat) :
    Nat :=
  (pusher.producers.drop dropped).countP fun queue => queue.val = index

/-- The others of a queue drop one of theirs. -/
def dropsOthers {queues : Nat} (pusher : BalancedPusher queues) (dropped index : Nat)
    (queue : State T) : Action T → Bool
  | .dropProducer => pusher.holds dropped index < queue.producers
  | _ => true

def BalancedPusher.producerAt {queues : Nat} (pusher : BalancedPusher queues)
    (start offset : Nat) : Nat :=
  (start + offset) % pusher.producers.length

/-- What a try makes of its call. -/
def afterTry {queues : Nat} (pusher : BalancedPusher queues) (queue : State T)
    (call : Call T) : Call T :=
  match queue.tryPush call.value with
  | .ok _ => { call with result := some (.ok (pusher.producerAt call.start call.offset)) }
  | .error error =>
      if call.offset + 1 < pusher.producers.length then
        { call with offset := call.offset + 1, value := error.value }
      else { call with offset := call.offset + 1, result := some (.error error.value) }

def pusherAdvance {queues : Nat} (pusher : BalancedPusher queues) (state : Pushers T) :
    PusherAction T → Option (Pushers T × List (PusherNote T))
  | .queue index action => do
      let queue ← state.queues[index]?
      if dropsOthers pusher state.dropped index queue action then
        let (queue, notes) ← advance queue action
        some ({ state with queues := state.queues.set index queue },
          notes.map (.queue none index))
      else none
  | .call value =>
      if state.dropped = 0 then
        some ({ state with
          next := (state.next + 1) % 2 ^ 64
          calls := state.calls ++
            [⟨state.next % pusher.producers.length, 0, value, value, none⟩] }, [])
      else none
  | .attempt index => do
      let call ← state.calls[index]?
      if call.result.isSome then none
      else
        let producer := pusher.producerAt call.start call.offset
        let target ← pusher.producers[producer]?
        let queue ← state.queues[target.val]?
        let (after, notes) ← advance queue (.tryPush call.value)
        some ({ state with
          queues := state.queues.set target.val after
          calls := state.calls.set index (afterTry pusher queue call) },
          .tried index producer queue.status :: notes.map (.queue (some index) target.val))
  | .drop => do
      let target ← pusher.producers[state.dropped]?
      let queue ← state.queues[target.val]?
      if state.calls.all fun call => call.result.isSome then
        let (queue, notes) ← advance queue .dropProducer
        some ({ state with
          queues := state.queues.set target.val queue, dropped := state.dropped + 1 },
          notes.map (.queue none target.val))
      else none

/-- The queues with their capacities and numbers of workers; each has a producer besides
those of the pusher. -/
def Pushers.start (T : Type) (configs : List (Nat × Nat))
    (pusher : BalancedPusher configs.length) : Pushers T where
  queues := configs.mapIdx fun index config =>
    { Queue.start config.1 config.2 with producers := 1 + pusher.holds 0 index }
  next := 0
  calls := []
  dropped := 0

def pusherSystem (T : Type) (configs : List (Nat × Nat))
    (pusher : BalancedPusher configs.length) :
    Lts (Pushers T × List (PusherNote T)) (PusherAction T) :=
  .emitting (.start T configs pusher) (pusherAdvance pusher)

/-! ## What the history says -/

def PusherNote.inQueue (index : Nat) : PusherNote T → List (Note T)
  | .queue _ target note => if target = index then [note] else []
  | .tried _ _ _ => []

def PusherNote.triedBy (index : Nat) : PusherNote T → List (Nat × Status)
  | .tried call producer status => if call = index then [(producer, status)] else []
  | .queue _ _ _ => []

def PusherNote.placedBy (index : Nat) : PusherNote T → List (Nat × T)
  | .queue (some call) target (.accepted value) => if call = index then [(target, value)] else []
  | _ => []

/-- What happened in one queue. -/
def queueHistory (index : Nat) (history : List (PusherNote T)) : List (Note T) :=
  history.flatMap (PusherNote.inQueue index)

/-- The producers a call tried, with the state each queue was in. -/
def tries (index : Nat) (history : List (PusherNote T)) : List (Nat × Status) :=
  history.flatMap (PusherNote.triedBy index)

/-- The queues a call put a message in, with the message. -/
def placed (index : Nat) (history : List (PusherNote T)) : List (Nat × T) :=
  history.flatMap (PusherNote.placedBy index)

/-- What a call of `try_push` has done. -/
structure Balanced {queues : Nat} (pusher : BalancedPusher queues)
    (history : List (PusherNote T)) (index : Nat) (call : Call T) : Prop where
  /-- It tries the producers in turn. -/
  order : (tries index history).map Prod.fst =
    (List.range (tries index history).length).map (pusher.producerAt call.start)
  /-- It returns the first producer whose queue has room. -/
  ok : ∀ producer, call.result = some (.ok producer) ↔ ∃ refused,
    tries index history = refused ++ [(producer, .free)] ∧ ∀ try_ ∈ refused, try_.2 ≠ .free
  /-- It returns the message exactly when every queue was full or closed when tried. -/
  error : ∀ value, call.result = some (.error value) ↔ value = call.given ∧
    ∀ producer < pusher.producers.length, ∃ status, (producer, status) ∈ tries index history ∧
      status ≠ .free
  /-- The message is in the queue of the producer returned, and in no other. -/
  placed : placed index history = match call.result with
    | some (.ok producer) => (pusher.producers[producer]?).toList.map fun queue =>
        (queue.val, call.given)
    | _ => []

section History

variable (index : Nat) (history notes : List (PusherNote T))

@[simp]
theorem queueHistory_append : queueHistory index (history ++ notes) =
    queueHistory index history ++ queueHistory index notes :=
  List.flatMap_append

@[simp]
theorem tries_append : tries index (history ++ notes) =
    tries index history ++ tries index notes :=
  List.flatMap_append

@[simp]
theorem placed_append : placed index (history ++ notes) =
    placed index history ++ placed index notes :=
  List.flatMap_append

end History

theorem queueHistory_map (origin : Option Nat) (target index : Nat) (notes : List (Note T)) :
    queueHistory index (notes.map (.queue origin target)) =
      if target = index then notes else [] := by
  induction notes with
  | nil => simp [queueHistory]
  | cons note notes ih =>
      rw [List.map_cons, queueHistory, List.flatMap_cons, ← queueHistory, ih]
      by_cases same : target = index <;> simp [PusherNote.inQueue, same]

theorem tries_map (origin : Option Nat) (target index : Nat) (notes : List (Note T)) :
    tries index (notes.map (.queue origin target)) = [] := by
  induction notes with
  | nil => rfl
  | cons note notes ih =>
      rw [List.map_cons, tries, List.flatMap_cons, ← tries, ih]
      rfl

theorem placed_map {origin : Option Nat} {index : Nat} (other : origin ≠ some index)
    (target : Nat) (notes : List (Note T)) :
    placed index (notes.map (.queue origin target)) = [] := by
  induction notes with
  | nil => rfl
  | cons note notes ih =>
      rw [List.map_cons, placed, List.flatMap_cons, ← placed, ih, List.append_nil]
      cases origin with
      | none => rfl
      | some call =>
          have different : ¬ call = index := fun same => other (congrArg some same)
          cases note <;> simp [PusherNote.placedBy, different]

/-! ## The producers of a pusher -/

section Producers

variable {queues : Nat} (pusher : BalancedPusher queues)

theorem BalancedPusher.length_pos : 0 < pusher.producers.length :=
  List.length_pos_iff.mpr pusher.nonempty

theorem BalancedPusher.producerAt_lt (start offset : Nat) :
    pusher.producerAt start offset < pusher.producers.length :=
  Nat.mod_lt _ pusher.length_pos

/-- As many tries as there are producers reach every one. -/
theorem BalancedPusher.exists_producerAt {start producer : Nat}
    (within : producer < pusher.producers.length) (first : start < pusher.producers.length) :
    ∃ offset < pusher.producers.length, pusher.producerAt start offset = producer := by
  refine ⟨(producer + pusher.producers.length - start) % pusher.producers.length,
    Nat.mod_lt _ pusher.length_pos, ?_⟩
  rw [producerAt, Nat.add_mod_mod]
  have around : start + (producer + pusher.producers.length - start) =
      producer + pusher.producers.length := by omega
  rw [around, Nat.add_mod_right, Nat.mod_eq_of_lt within]

/-- Fewer tries meet no producer twice. -/
theorem BalancedPusher.producerAt_inj {start first second : Nat}
    (within : first < pusher.producers.length) (within' : second < pusher.producers.length)
    (same : pusher.producerAt start first = pusher.producerAt start second) : first = second := by
  have congruent : first ≡ second [MOD pusher.producers.length] :=
    Nat.ModEq.add_left_cancel' start same
  rwa [Nat.ModEq, Nat.mod_eq_of_lt within, Nat.mod_eq_of_lt within'] at congruent

end Producers

/-! ## One call -/

section Call

variable {queues : Nat} {pusher : BalancedPusher queues} {history : List (PusherNote T)}
  {index : Nat} {call : Call T}

/-- The first tries of a call, none of which found room. -/
structure Refused (pusher : BalancedPusher queues) (start count : Nat)
    (tried : List (Nat × Status)) : Prop where
  order : tried.map Prod.fst = (List.range count).map (pusher.producerAt start)
  refused : ∀ try_ ∈ tried, try_.2 ≠ .free

theorem Refused.length {start count : Nat} {tried : List (Nat × Status)}
    (refused : Refused pusher start count tried) : tried.length = count := by
  have lengths := congrArg List.length refused.order
  rwa [List.length_map, List.length_map, List.length_range] at lengths

theorem Refused.mem_iff {start count producer : Nat} {tried : List (Nat × Status)}
    (refused : Refused pusher start count tried) :
    (∃ status, (producer, status) ∈ tried ∧ status ≠ .free) ↔
      ∃ offset < count, pusher.producerAt start offset = producer := by
  have listed : producer ∈ tried.map Prod.fst ↔
      ∃ offset < count, pusher.producerAt start offset = producer := by
    rw [refused.order]
    simp
  rw [← listed]
  refine ⟨?_, ?_⟩
  · intro found
    obtain ⟨status, member, _⟩ := found
    exact List.mem_map_of_mem (f := Prod.fst) member
  · intro found
    obtain ⟨⟨producer', status⟩, member, same⟩ := List.mem_map.mp found
    cases same
    exact ⟨status, member, refused.refused _ member⟩

theorem Refused.snoc {start count : Nat} {tried : List (Nat × Status)}
    (refused : Refused pusher start count tried) {status : Status} (busy : status ≠ .free) :
    Refused pusher start (count + 1) (tried ++ [(pusher.producerAt start count, status)]) where
  order := by
    rw [List.map_append, refused.order, List.range_succ, List.map_append]
    rfl
  refused := by
    intro try_ member
    rcases List.mem_append.mp member with old | new
    · exact refused.refused try_ old
    · rw [List.mem_singleton.mp new]
      exact busy

/-- What holds of a call between its tries. -/
structure Trying (pusher : BalancedPusher queues) (history : List (PusherNote T)) (index : Nat)
    (call : Call T) : Prop where
  start : call.start < pusher.producers.length
  value : call.value = call.given
  result : match call.result with
    | none => call.offset < pusher.producers.length ∧
        Refused pusher call.start call.offset (tries index history) ∧ placed index history = []
    | some (.ok producer) => producer = pusher.producerAt call.start call.offset ∧
        call.offset < pusher.producers.length ∧
        (∃ refused, Refused pusher call.start call.offset refused ∧
          tries index history = refused ++ [(producer, .free)]) ∧
        placed index history = (pusher.producers[producer]?).toList.map fun queue =>
          (queue.val, call.given)
    | some (.error value) => value = call.given ∧
        Refused pusher call.start pusher.producers.length (tries index history) ∧
        placed index history = []

theorem Trying.balanced (trying : Trying pusher history index call) :
    Balanced pusher history index call := by
  obtain ⟨start, offset, given, current, result⟩ := call
  obtain ⟨first, _, so_far⟩ := trying
  have different (refused : List (Nat × Status)) (producer : Nat)
      (none : ∀ try_ ∈ refused ++ [(producer, Status.free)], try_.2 ≠ .free) : False :=
    none (producer, .free) (List.mem_append_right _ (List.mem_singleton_self _)) rfl
  rcases result with _ | value | producer
  · obtain ⟨within, refused, nowhere⟩ := so_far
    refine ⟨?_, ?_, ?_, nowhere⟩
    · rw [refused.length]
      exact refused.order
    · intro producer
      refine ⟨nofun, ?_⟩
      intro found
      obtain ⟨earlier, same, _⟩ := found
      have none := refused.refused
      rw [same] at none
      exact (different earlier producer none).elim
    · intro value
      refine ⟨nofun, ?_⟩
      intro found
      -- the next producer has not been tried
      obtain ⟨first, before, same⟩ := refused.mem_iff.mp
        (found.2 _ (pusher.producerAt_lt start offset))
      have := pusher.producerAt_inj (Nat.lt_trans before within) within same
      omega
  · obtain ⟨same, refused, nowhere⟩ := so_far
    refine ⟨?_, ?_, ?_, nowhere⟩
    · rw [refused.length]
      exact refused.order
    · intro producer
      refine ⟨nofun, ?_⟩
      intro found
      obtain ⟨earlier, same, _⟩ := found
      have none := refused.refused
      rw [same] at none
      exact (different earlier producer none).elim
    · intro value'
      refine ⟨?_, ?_⟩
      · intro equal
        cases equal
        refine ⟨same, ?_⟩
        intro producer within
        exact refused.mem_iff.mpr (pusher.exists_producerAt within first)
      · intro found
        rw [same, found.1]
  · obtain ⟨mine, within, ⟨refused, before, tried⟩, somewhere⟩ := so_far
    refine ⟨?_, ?_, ?_, somewhere⟩
    · rw [tried, List.length_append, before.length, List.length_singleton, List.map_append,
        before.order, List.range_succ, List.map_append, mine]
      rfl
    · intro producer'
      refine ⟨?_, ?_⟩
      · intro equal
        cases equal
        exact ⟨refused, tried, before.refused⟩
      · intro found
        obtain ⟨earlier, same, _⟩ := found
        rw [tried] at same
        cases (List.append_inj' same rfl).2
        rfl
    · intro value
      refine ⟨nofun, ?_⟩
      intro found
      -- the producer returned was not tried before
      obtain ⟨status, member, busy⟩ := found.2 producer (mine ▸ pusher.producerAt_lt _ _)
      rw [tried] at member
      rcases List.mem_append.mp member with old | new
      · obtain ⟨first, earlier, same⟩ := before.mem_iff.mp ⟨status, old, busy⟩
        rw [mine] at same
        have := pusher.producerAt_inj (Nat.lt_trans earlier within) within same
        omega
      · cases List.mem_singleton.mp new
        exact absurd rfl busy

theorem Trying.quiet (trying : Trying pusher history index call) {notes : List (PusherNote T)}
    (noTries : tries index notes = []) (nowhere : placed index notes = []) :
    Trying pusher (history ++ notes) index call := by
  refine ⟨trying.start, trying.value, ?_⟩
  rw [tries_append, placed_append, noTries, nowhere, List.append_nil, List.append_nil]
  exact trying.result

/-- A try is refused exactly where the queue is full or closed. -/
theorem tryPush_cases (queue : State T) (value : T) :
    queue.tryPush value = .ok (queue.push value) ∧ queue.status = .free ∨
      ∃ error, queue.tryPush value = .error error ∧ error.value = value ∧
        queue.status ≠ .free := by
  unfold State.tryPush State.status
  by_cases closed : queue.closed
  · rw [if_pos closed, if_pos closed]
    exact .inr ⟨_, rfl, rfl, nofun⟩
  · rw [if_neg closed, if_neg closed]
    by_cases room : queue.hasRoom
    · rw [if_pos room, if_pos room]
      exact .inl ⟨rfl, rfl⟩
    · rw [if_neg room, if_neg room]
      exact .inr ⟨_, rfl, rfl, nofun⟩

theorem Trying.attempt (trying : Trying pusher history index call) (open_ : call.result = none)
    {target : Fin queues}
    (found : pusher.producers[pusher.producerAt call.start call.offset]? = some target)
    {queue after : State T} {notes : List (Note T)}
    (pushed : advance queue (.tryPush call.value) = some (after, notes)) :
    Trying pusher (history ++ .tried index (pusher.producerAt call.start call.offset)
        queue.status :: notes.map (.queue (some index) target.val)) index
      (afterTry pusher queue call) := by
  obtain ⟨start, offset, given, current, result⟩ := call
  obtain ⟨first, same, soFar⟩ := trying
  cases open_
  obtain ⟨within, refused, nowhere⟩ := soFar
  change current = given at same
  change offset < pusher.producers.length at within
  subst same
  obtain ⟨_, moved⟩ := Option.ite_none_right_eq_some.mp pushed
  have tried (notes : List (Note T)) : tries index (history ++
      .tried index (pusher.producerAt start offset) queue.status ::
        notes.map (.queue (some index) target.val)) =
      tries index history ++ [(pusher.producerAt start offset, queue.status)] := by
    rw [tries_append, ← List.singleton_append, tries_append, tries_map, List.append_nil]
    simp [tries, PusherNote.triedBy]
  rcases tryPush_cases queue current with ⟨ok, free⟩ | ⟨error, refuses, returned, busy⟩
  · rw [ok] at moved
    cases moved
    have placedHere : placed index (history ++
        .tried index (pusher.producerAt start offset) queue.status ::
          [.accepted current].map (.queue (some index) target.val)) =
        [(target.val, current)] := by
      rw [placed_append, nowhere]
      simp [placed, PusherNote.placedBy]
    refine ⟨?_, ?_, ?_⟩
    · simpa [afterTry, ok] using first
    · simp [afterTry, ok]
    · simp only [afterTry, ok]
      refine ⟨trivial, within, ⟨_, refused, ?_⟩, ?_⟩
      · rw [tried, free]
      · rw [placedHere, found]
        rfl
  · rw [refuses] at moved
    cases moved
    have more := refused.snoc busy
    have still : placed index (history ++
        [PusherNote.tried index (pusher.producerAt start offset) queue.status]) = [] := by
      rw [placed_append, nowhere]
      rfl
    simp only [afterTry, refuses, returned]
    split
    · rename_i more_
      refine ⟨first, rfl, more_, ?_, still⟩
      rw [tried]
      exact more
    · rename_i last
      have all : offset + 1 = pusher.producers.length := by omega
      refine ⟨first, rfl, rfl, ?_, still⟩
      rw [tried, ← all]
      exact more

end Call

/-! ## Runs -/

/-- Neither a shutdown nor a panic of a handler in any queue. -/
def PusherAction.calm : PusherAction T → Bool
  | .queue _ action => action.calm
  | _ => true

section Run

variable {configs : List (Nat × Nat)} {pusher : BalancedPusher configs.length}
  {state : Pushers T} {history : List (PusherNote T)}

/-- Each queue is in a state that it reaches by itself with its part of the history. -/
def Projects (queues : List (State T)) (history : List (PusherNote T)) : Prop :=
  ∀ (index : Nat) (queue : State T), queues[index]? = some queue → ∃ capacity workers,
    (system T capacity workers).Reach (fun _ action => action.calm)
      (queue, queueHistory index history)

theorem Projects.move {queues : List (State T)} (projects : Projects queues history)
    {target : Nat} {queue after : State T} {action : Action T} {notes : List (Note T)}
    (found : queues[target]? = some queue) (quiet : action.calm)
    (moved : advance queue action = some (after, notes)) {more : List (PusherNote T)}
    (mine : ∀ index, queueHistory index more = if target = index then notes else []) :
    Projects (queues.set target after) (history ++ more) := by
  refine forall_set ?_ ?_
  · obtain ⟨capacity, workers, reach⟩ := projects target queue found
    refine ⟨capacity, workers, Lts.Steps.tail reach (a := action) quiet ?_⟩
    rw [queueHistory_append, mine, if_pos rfl]
    exact Option.map_eq_some_iff.mpr ⟨(after, notes), moved, rfl⟩
  · intro index other different there
    rw [queueHistory_append, mine, if_neg (Ne.symm different), List.append_nil]
    exact projects index other there

/-- A queue loses a producer only where one is dropped. -/
theorem Step.producers {queue after : State T} {action : Action T} {notes : List (Note T)}
    (step : Step queue action after notes) : queue.producers ≤ after.producers ∨
      action = .dropProducer ∧ queue.producers ≤ after.producers + 1 := by
  cases step with
  | dropProducer =>
      refine .inr ⟨rfl, ?_⟩
      change queue.producers ≤ queue.producers - 1 + 1
      omega
  | cloneProducer => exact .inl (Nat.le_succ _)
  | supervise action after step => exact .inl (Nat.le_of_eq step.channel.2.2.symm)
  | _ => exact .inl (Nat.le_refl _)

/-- Each queue has the producers that the pusher holds. -/
def Holds {queues : Nat} (pusher : BalancedPusher queues) (dropped : Nat)
    (states : List (State T)) : Prop :=
  ∀ (index : Nat) (queue : State T), states[index]? = some queue →
    pusher.holds dropped index ≤ queue.producers

theorem holds_succ {queues : Nat} {pusher : BalancedPusher queues} {dropped : Nat}
    {target : Fin queues} (found : pusher.producers[dropped]? = some target) (index : Nat) :
    pusher.holds dropped index =
      pusher.holds (dropped + 1) index + if target.val = index then 1 else 0 := by
  obtain ⟨within, same⟩ := List.getElem?_eq_some_iff.mp found
  rw [BalancedPusher.holds, List.drop_eq_getElem_cons within, List.countP_cons, same,
    BalancedPusher.holds]
  simp

structure Inv (configs : List (Nat × Nat)) (pusher : BalancedPusher configs.length)
    (state : Pushers T) (history : List (PusherNote T)) : Prop where
  calls : ∀ (index : Nat) (call : Call T), state.calls[index]? = some call →
    Trying pusher history index call
  /-- Nothing is noted of a call before it is made. -/
  fresh : ∀ index, state.calls.length ≤ index →
    tries index history = [] ∧ placed index history = []
  queues : Projects state.queues history
  length : state.queues.length = configs.length
  holds : Holds pusher state.dropped state.queues
  waits : state.dropped = 0 ∨ ∀ call ∈ state.calls, call.result.isSome

/-- Steps that no call takes. -/
theorem Inv.quiet {state' : Pushers T} (inv : Inv configs pusher state history)
    (same : state'.calls = state.calls) {notes : List (PusherNote T)}
    (none : ∀ index, tries index notes = [] ∧ placed index notes = [])
    (queues : Projects state'.queues (history ++ notes))
    (length : state'.queues.length = state.queues.length)
    (holds : Holds pusher state'.dropped state'.queues)
    (waits : state'.dropped = 0 ∨ ∀ call ∈ state.calls, call.result.isSome) :
    Inv configs pusher state' (history ++ notes) := by
  refine ⟨?_, ?_, queues, length.trans inv.length, holds, ?_⟩
  · rw [same]
    intro index call found
    exact (inv.calls index call found).quiet (none index).1 (none index).2
  · rw [same]
    intro index later
    rw [tries_append, placed_append, (none index).1, (none index).2, List.append_nil,
      List.append_nil]
    exact inv.fresh index later
  · rw [same]
    exact waits

/-- A call is made. -/
theorem Inv.call (inv : Inv configs pusher state history) (value : T)
    (whole : state.dropped = 0) :
    Inv configs pusher { state with
      next := (state.next + 1) % 2 ^ 64
      calls := state.calls ++
        [⟨state.next % pusher.producers.length, 0, value, value, none⟩] } history := by
  refine ⟨?_, ?_, inv.queues, inv.length, inv.holds, .inl whole⟩
  · intro index call found
    rcases Nat.lt_trichotomy index state.calls.length with old | new | beyond
    · rw [List.getElem?_append_left old] at found
      exact inv.calls index call found
    · subst new
      rw [List.getElem?_concat_length] at found
      cases found
      obtain ⟨noTries, nowhere⟩ := inv.fresh state.calls.length (Nat.le_refl _)
      refine ⟨Nat.mod_lt _ pusher.length_pos, rfl, pusher.length_pos, ?_, nowhere⟩
      rw [noTries]
      exact ⟨rfl, nofun⟩
    · rw [List.getElem?_eq_none (by simpa using beyond)] at found
      cases found
  · intro index later
    rw [List.length_append, List.length_singleton] at later
    exact inv.fresh index (by omega)

/-- A call tries its next producer. -/
theorem Inv.attempt (inv : Inv configs pusher state history) {index : Nat} {call : Call T}
    (called : state.calls[index]? = some call) (open_ : call.result = none)
    {target : Fin configs.length}
    (found : pusher.producers[pusher.producerAt call.start call.offset]? = some target)
    {queue after : State T} {own : List (Note T)}
    (there : state.queues[target.val]? = some queue)
    (pushed : advance queue (.tryPush call.value) = some (after, own)) :
    Inv configs pusher { state with
      queues := state.queues.set target.val after
      calls := state.calls.set index (afterTry pusher queue call) }
      (history ++ .tried index (pusher.producerAt call.start call.offset) queue.status ::
        own.map (.queue (some index) target.val)) := by
  have mine : index < state.calls.length := (List.getElem?_eq_some_iff.mp called).1
  have others (other : Nat) (different : other ≠ index) :
      tries other (.tried index (pusher.producerAt call.start call.offset) queue.status ::
        own.map (.queue (some index) target.val)) = [] ∧
      placed other (.tried index (pusher.producerAt call.start call.offset) queue.status ::
        own.map (.queue (some index) target.val)) = [] := by
    have foreign : ¬ index = other := Ne.symm different
    rw [← List.singleton_append, tries_append, placed_append, tries_map,
      placed_map (by simpa using foreign)]
    simp [tries, placed, PusherNote.triedBy, PusherNote.placedBy, foreign]
  refine ⟨?_, ?_, ?_, List.length_set.trans inv.length, ?_, ?_⟩
  · refine forall_set ((inv.calls index call called).attempt open_ found pushed) ?_
    intro other party different there
    have none := others other different
    exact (inv.calls other party there).quiet none.1 none.2
  · intro other later
    have later : state.calls.length ≤ other := by simpa using later
    have none := others other (by omega)
    rw [tries_append, placed_append, none.1, none.2, List.append_nil, List.append_nil]
    exact inv.fresh other later
  · have noted (index' : Nat) : queueHistory index' (.tried index
        (pusher.producerAt call.start call.offset) queue.status ::
          own.map (.queue (some index) target.val)) =
        if target.val = index' then own else [] := by
      rw [← List.singleton_append, queueHistory_append, queueHistory_map]
      rfl
    exact inv.queues.move there rfl pushed noted
  · refine forall_set ?_ fun index other _ there => inv.holds index other there
    have before := inv.holds target queue there
    rcases (advance_cases pushed).producers with more | ⟨other, _⟩
    · exact Nat.le_trans before more
    · cases other
  · rcases inv.waits with whole | answered
    · exact .inl whole
    · have := answered call (List.mem_of_getElem? called)
      rw [open_] at this
      cases this

theorem Inv.step {state' : Pushers T} {notes : List (PusherNote T)} {action : PusherAction T}
    (inv : Inv configs pusher state history) (quiet : action.calm)
    (taken : pusherAdvance pusher state action = some (state', notes)) :
    Inv configs pusher state' (history ++ notes) := by
  cases action with
  | queue target action =>
      simp only [pusherAdvance, Option.bind_eq_bind, Option.bind_eq_some_iff] at taken
      obtain ⟨queue, found, taken⟩ := taken
      obtain ⟨others, taken⟩ := Option.ite_none_right_eq_some.mp taken
      obtain ⟨⟨after, own⟩, moved, same⟩ := Option.bind_eq_some_iff.mp taken
      cases same
      refine inv.quiet ?_ ?_ ?_ ?_ ?_ inv.waits
      · rfl
      · intro index
        exact ⟨tries_map _ _ _ _, placed_map (Option.some_ne_none index).symm _ _⟩
      · exact inv.queues.move found quiet moved fun index => queueHistory_map _ _ _ _
      · exact List.length_set
      · refine forall_set ?_ fun index other _ there => inv.holds index other there
        have before := inv.holds target queue found
        rcases (advance_cases moved).producers with more | ⟨same, one⟩
        · exact Nat.le_trans before more
        · subst same
          have others := of_decide_eq_true others
          change pusher.holds state.dropped target ≤ after.producers
          omega
  | call value =>
      obtain ⟨whole, same⟩ := Option.ite_none_right_eq_some.mp taken
      cases same
      rw [List.append_nil]
      exact inv.call value whole
  | attempt index =>
      simp only [pusherAdvance, Option.bind_eq_bind, Option.bind_eq_some_iff] at taken
      obtain ⟨call, called, taken⟩ := taken
      split at taken
      · cases taken
      · rename_i unanswered
        have open_ : call.result = none := by simpa using unanswered
        simp only [Option.bind_eq_some_iff] at taken
        obtain ⟨target, found, queue, there, ⟨after, own⟩, pushed, same⟩ := taken
        cases same
        exact inv.attempt called open_ found there pushed
  | drop =>
      simp only [pusherAdvance, Option.bind_eq_bind, Option.bind_eq_some_iff] at taken
      obtain ⟨target, found, queue, there, taken⟩ := taken
      obtain ⟨answered, taken⟩ := Option.ite_none_right_eq_some.mp taken
      obtain ⟨⟨after, own⟩, moved, same⟩ := Option.bind_eq_some_iff.mp taken
      cases same
      refine inv.quiet ?_ ?_ ?_ ?_ ?_ (.inr (List.all_eq_true.mp answered))
      · rfl
      · intro index
        exact ⟨tries_map _ _ _ _, placed_map (Option.some_ne_none index).symm _ _⟩
      · exact inv.queues.move there rfl moved fun index => queueHistory_map _ _ _ _
      · exact List.length_set
      · refine forall_set ?_ ?_
        · have before := inv.holds target queue there
          rw [holds_succ found, if_pos rfl] at before
          have fewer : queue.producers ≤ after.producers + 1 := by
            rcases (advance_cases moved).producers with more | ⟨_, one⟩
            · exact Nat.le_succ_of_le more
            · exact one
          change pusher.holds (state.dropped + 1) target ≤ after.producers
          omega
        · intro index other different there
          have before := inv.holds index other there
          rw [holds_succ found, if_neg (Ne.symm different)] at before
          exact before

/-- A call that has not returned can try its next producer. -/
theorem Inv.goes_on (inv : Inv configs pusher state history) {index : Nat} {call : Call T}
    (called : state.calls[index]? = some call) (open_ : call.result = none) :
    (pusherAdvance pusher state (.attempt index)).isSome := by
  have whole : state.dropped = 0 := by
    rcases inv.waits with whole | answered
    · exact whole
    · have := answered call (List.mem_of_getElem? called)
      rw [open_] at this
      cases this
  have within := pusher.producerAt_lt call.start call.offset
  have found := List.getElem?_eq_getElem within
  have bound : (pusher.producers[pusher.producerAt call.start call.offset]).val <
      state.queues.length := by
    rw [inv.length]
    exact Fin.isLt _
  have there := List.getElem?_eq_getElem bound
  have held : 0 < (state.queues[(pusher.producers[pusher.producerAt call.start
      call.offset]).val]).producers := by
    refine Nat.lt_of_lt_of_le ?_ (inv.holds _ _ there)
    rw [whole, BalancedPusher.holds, List.drop_zero]
    exact List.countP_pos_iff.mpr ⟨_, List.getElem_mem within, decide_eq_true rfl⟩
  simp only [pusherAdvance, called, open_, found, there, Option.bind_eq_bind, Option.bind_some,
    Option.isSome_none, Bool.false_eq_true, if_false, advance, held, if_true]
  rcases tryPush_cases (state.queues[(pusher.producers[pusher.producerAt call.start
      call.offset]).val]) call.value with ⟨ok, _⟩ | ⟨error, refuses, _⟩
  · rw [ok]
    rfl
  · rw [refuses]
    rfl

theorem inv_start (configs : List (Nat × Nat)) (pusher : BalancedPusher configs.length) :
    Inv configs pusher (.start T configs pusher) [] := by
  have cloned (capacity workers clones : Nat) : (system T capacity workers).Reach
      (fun _ action => action.calm)
      ({ Queue.start capacity workers with producers := 1 + clones }, []) := by
    induction clones with
    | zero => exact Lts.Steps.refl _
    | succ clones ih =>
        refine Lts.Steps.tail ih (a := .cloneProducer) rfl ?_
        simp [system, Lts.emitting, advance, Nat.add_assoc]
  have configured (index : Nat) (queue : State T)
      (found : (Pushers.start T configs pusher).queues[index]? = some queue) :
      ∃ config : Nat × Nat, queue =
        { Queue.start config.1 config.2 with producers := 1 + pusher.holds 0 index } := by
    rw [Pushers.start, List.getElem?_mapIdx] at found
    obtain ⟨config, _, same⟩ := Option.map_eq_some_iff.mp found
    exact ⟨config, same.symm⟩
  refine ⟨?_, fun _ _ => ⟨rfl, rfl⟩, ?_, List.length_mapIdx, ?_, .inl rfl⟩
  · intro index call found
    cases found
  · intro index queue found
    obtain ⟨config, same⟩ := configured index queue found
    subst same
    exact ⟨config.1, config.2, cloned _ _ _⟩
  · intro index queue found
    obtain ⟨config, same⟩ := configured index queue found
    subst same
    exact Nat.le_add_left _ _

end Run

/-- What the queues and the calls of a pusher have done with the messages. -/
structure DeliveredOnce {queues : Nat} (pusher : BalancedPusher queues) (state : Pushers T)
    (history : List (PusherNote T)) : Prop where
  queues : ∀ (index : Nat) (queue : State T), state.queues[index]? = some queue →
    Delivered queue (queueHistory index history)
  calls : ∀ (index : Nat) (call : Call T), state.calls[index]? = some call →
    Balanced pusher history index call
  goes_on : ∀ (index : Nat) (call : Call T), state.calls[index]? = some call →
    call.result = none → (pusherAdvance pusher state (.attempt index)).isSome

/-- Without shutdowns and panics, every queue hands each message it accepts to one handler,
and every call of `try_push` puts its message in one queue or returns it. -/
theorem queues_deliver_once (configs : List (Nat × Nat)) (pusher : BalancedPusher configs.length)
    {state : Pushers T} {history : List (PusherNote T)}
    (reach : (pusherSystem T configs pusher).Reach (fun _ action => action.calm)
      (state, history)) : DeliveredOnce pusher state history := by
  have inv : Inv configs pusher state history := by
    refine reach.emitting_invariant (I := Inv configs pusher) (inv_start configs pusher) ?_
    intro before history action after notes held quiet taken
    exact held.step quiet taken
  refine ⟨?_, fun index call found => (inv.calls index call found).balanced, ?_⟩
  · intro index queue found
    obtain ⟨capacity, workers, reach⟩ := inv.queues index queue found
    exact delivered_of_reach capacity workers reach
  · intro index call found open_
    exact inv.goes_on found open_

def twoQueues : BalancedPusher 2 :=
  ⟨[0, 1], nofun⟩

/-- Two queues with room for one message each and a worker that is paused: the third message
fits nowhere.  After the pause the worker hands over the first. -/
theorem three_pushes_delivered_once : ∃ state history,
    (pusherSystem Nat [(1, 1), (1, 1)] twoQueues).Reach (fun _ action => action.calm)
        (state, history) ∧
      state.calls.map (fun call => call.result.map Except.toOption) =
        [some (some 0), some (some 1), some none] ∧
      handed (queueHistory 0 history) = [(0, 7)] ∧
      DeliveredOnce twoQueues state history := by
  have run : ((pusherSystem Nat [(1, 1), (1, 1)] twoQueues).exec
      (pusherSystem Nat [(1, 1), (1, 1)] twoQueues).init
      [.queue 0 .pause, .queue 0 (.work 0 .look), .call 7, .attempt 0, .call 8, .call 9,
        .attempt 2, .attempt 1, .attempt 2, .queue 0 .resume, .queue 0 (.work 0 .changed),
        .queue 0 (.work 0 .look), .queue 0 (.work 0 .poll), .queue 0 (.work 0 .receive),
        .queue 0 (.work 0 .receive), .queue 0 (.work 0 .handle)]).map (fun reached =>
          (reached.1.calls.map (fun call => call.result.map Except.toOption),
            handed (queueHistory 0 reached.2))) =
      some ([some (some 0), some (some 1), some none], [(0, 7)]) := by
    decide +kernel
  obtain ⟨⟨state, history⟩, executed, ends⟩ := Option.map_eq_some_iff.mp run
  obtain ⟨results, first⟩ := Prod.mk.inj ends
  have reach := Lts.reach_of_exec (P := fun _ action => PusherAction.calm action = true) _
    (by decide +kernel) executed
  exact ⟨state, history, reach, results, first, queues_deliver_once _ _ reach⟩

end RustZero.Queue
