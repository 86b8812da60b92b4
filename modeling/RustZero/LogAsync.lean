import RustZero.Lib.Lts
import RustZero.Lib.Phases
import RustZero.LogRecords
import RustZero.LogSizeRotation

/-!
# The non-blocking logger

`AsyncSink` of `core/src/log.rs`: callers hand their records to a bounded channel and never wait,
and a writer thread takes them out and writes them to the target.  `LogSampler` decides before
that which calls are logged at all.

* A call of `log_sampled` or `log` goes through `sampling` and `sending`; `allow` and `tryWrite`
  are its two shared steps, and calls interleave.
* The thread is a `Worker`.  Its target is a parameter: a write may succeed, fail or panic, and a
  panic takes the channel with it.
* `Accounts` says where every record went, in which order, and what `dropped_records` counts.
* Over a rotating file nothing panics, and `asyncLog_keeps_suffix` joins the two.
-/

namespace RustZero.LogAsync

open Lib Lib.Files
open LogRecords (SerdeJson LogConfig LogLevel LogContext LogField Duration logWithContext)

/-! ## The sampler -/

structure LogSampler where
  first : Nat
  thereafter : Nat

/-- `allow`, at a value of the counter. -/
def LogSampler.allows (sampler : LogSampler) (seen : Nat) : Bool :=
  seen < sampler.first || (seen - sampler.first) % sampler.thereafter = 0

/-- How many of the first calls a sampler allows. -/
def LogSampler.quota (sampler : LogSampler) (calls : Nat) : Nat :=
  min calls sampler.first + (calls - sampler.first + sampler.thereafter - 1) / sampler.thereafter

theorem round_up (past : Nat) {width : Nat} (positive : 0 < width) :
    (past + width - 1) / width = past / width + if past % width = 0 then 0 else 1 := by
  have parts := Nat.div_add_mod past width
  have below := Nat.mod_lt past positive
  split
  case isTrue whole =>
    have small : (width - 1) / width = 0 := Nat.div_eq_of_lt (by omega)
    rw [show past + width - 1 = width * (past / width) + (width - 1) by omega,
      Nat.mul_add_div positive, small]
  case isFalse rest =>
    have small : (past % width - 1) / width = 0 := Nat.div_eq_of_lt (by omega)
    have split : past + width - 1 = width * (past / width + 1) + (past % width - 1) := by
      rw [Nat.mul_add]
      omega
    rw [split, Nat.mul_add_div positive, small]

/-- A burst, and then one call in so many. -/
theorem LogSampler.quota_eq (sampler : LogSampler) (positive : 0 < sampler.thereafter)
    (calls : Nat) : (List.range calls).countP sampler.allows = sampler.quota calls := by
  unfold quota
  rw [round_up _ positive]
  induction calls with
  | zero => simp
  | succ calls ih =>
      rw [List.range_succ, List.countP_append, ih, List.countP_singleton]
      rcases Nat.lt_or_ge calls sampler.first with burst | later
      · have allowed : sampler.allows calls = true := by simp [allows, burst]
        rw [if_pos allowed, Nat.sub_eq_zero_of_le (Nat.le_of_lt burst), Nat.sub_eq_zero_of_le burst]
        omega
      · obtain ⟨past, same⟩ := Nat.exists_eq_add_of_le later
        subst same
        have allowed : sampler.allows (sampler.first + past) =
            decide (past % sampler.thereafter = 0) := by
          simp [allows]
        have grown := round_up (past + 1) positive
        have same := round_up past positive
        rw [show past + 1 + sampler.thereafter - 1 = past + sampler.thereafter by omega,
          Nat.add_div_right _ positive] at grown
        rw [Nat.add_assoc sampler.first past 1, Nat.add_sub_cancel_left, Nat.add_sub_cancel_left,
          ← grown, allowed]
        by_cases whole : past % sampler.thereafter = 0
        · simp only [whole, decide_true, if_true]
          omega
        · simp only [whole, decide_false, Bool.false_eq_true, if_false]
          omega

/-! ## The system -/

/-- What a call of the logger has come to. -/
inductive Outcome where
  /-- The level is off. -/
  | disabled
  | sampledOut
  /-- The channel is full or gone. -/
  | refused
  | accepted (record : Bytes)
  deriving DecidableEq

/-- What the call returns. -/
def Outcome.result : Outcome → Bool
  | accepted _ => true
  | _ => false

inductive Phase where
  /-- Before `sampler.allow`. -/
  | sampling (record : Bytes)
  /-- Encoded, before the sink is locked. -/
  | sending (record : Bytes)
  | returned (outcome : Outcome)
  deriving DecidableEq

structure Call where
  sampled : Bool
  phase : Phase
  deriving DecidableEq

/-- The writer thread. -/
inductive Worker where
  | receiving
  | writing (record : Bytes)
  /-- The channel is closed and empty. -/
  | finished
  /-- A write panicked; these records went with it. -/
  | panicked (lost : List Bytes)
  deriving DecidableEq

/-- A target of the writer thread: the outcome of a write and the target after it, or nothing
where it panics.  A write may read something from outside. -/
structure Target (β ι : Type) where
  start : β
  write : ι → Bytes → β → Option (Bool × β)

structure State (β : Type) where
  target : β
  worker : Worker
  queue : List Bytes
  /-- A logger exists. -/
  loggers : Bool
  dropped : Nat
  seen : Nat
  calls : List Call
  sent : List Bytes
  /-- The records the thread has written, and whether that succeeded. -/
  handled : List (Bytes × Bool)

/-- What one call is given. -/
structure Entry where
  now : Duration
  level : LogLevel
  message : String
  context : Option LogContext
  fields : List LogField

inductive Action (ι : Type) where
  | log (entry : Entry) (sampled : Bool)
  | allow (index : Nat)
  | send (index : Nat)
  | receive
  | write (input : ι)
  /-- The last logger is dropped. -/
  | close

/-- `fetch_add` of a 64-bit counter. -/
def next (counter : Nat) : Nat :=
  (counter + 1) % 2 ^ 64

section System

variable {β ι : Type} (serde : SerdeJson) (config : LogConfig) (sampler : LogSampler)
  (capacity : Nat) (target : Target β ι)

/-- `log_sampled`, or `log` without a sampler, up to its first shared step. -/
def enter (entry : Entry) (sampled : Bool) : Call :=
  match logWithContext serde config entry.now entry.level entry.message entry.context
      entry.fields with
  | none => ⟨sampled, .returned .disabled⟩
  | some record => ⟨sampled, if sampled then .sampling record else .sending record⟩

def allow (s : State β) (index : Nat) (call : Call) (record : Bytes) : State β :=
  { s with
    seen := next s.seen
    calls := s.calls.set index { call with
      phase := if sampler.allows s.seen then .sending record else .returned .sampledOut } }

/-- The receiver is gone. -/
def Worker.gone : Worker → Bool
  | .finished | .panicked _ => true
  | _ => false

/-- `AsyncSink::try_write`. -/
def tryWrite (s : State β) (index : Nat) (call : Call) (record : Bytes) : State β :=
  if s.worker.gone = false ∧ s.queue.length < capacity then
    { s with
      queue := s.queue ++ [record]
      sent := s.sent ++ [record]
      calls := s.calls.set index { call with phase := .returned (.accepted record) } }
  else
    { s with
      dropped := next s.dropped
      calls := s.calls.set index { call with phase := .returned .refused } }

/-- `receiver.recv`; nothing where it waits. -/
def receive (s : State β) : Option (State β) :=
  match s.queue with
  | record :: queue => some { s with queue := queue, worker := .writing record }
  | [] => if s.loggers then none else some { s with worker := .finished }

/-- The thread writes the record that it took. -/
def write (target : Target β ι) (s : State β) (input : ι) (record : Bytes) : State β :=
  match target.write input record s.target with
  | some (done, after) =>
      { s with
        target := after
        worker := .receiving
        dropped := if done then s.dropped else next s.dropped
        handled := s.handled ++ [(record, done)] }
  | none => { s with worker := .panicked (record :: s.queue), queue := [] }

def advance (target : Target β ι) (s : State β) : Action ι → Option (State β)
  | .log entry sampled =>
      if s.loggers then some { s with calls := s.calls ++ [enter serde config entry sampled] }
      else none
  | .allow index => do
      let call ← s.calls[index]?
      match call.phase with
      | .sampling record => some (allow sampler s index call record)
      | _ => none
  | .send index => do
      let call ← s.calls[index]?
      match call.phase with
      | .sending record => some (tryWrite capacity s index call record)
      | _ => none
  | .receive =>
      match s.worker with
      | .receiving => receive s
      | _ => none
  | .write input =>
      match s.worker with
      | .writing record => some (write target s input record)
      | _ => none
  -- a call borrows its logger
  | .close =>
      if s.calls.all fun call => call.phase matches .returned _ then
        some { s with loggers := false }
      else none

def system (target : Target β ι) : Lts (State β) (Action ι) where
  init := ⟨target.start, .receiving, [], true, 0, 0, [], [], []⟩
  step := advance serde config sampler capacity target

end System

/-! ## Where records go -/

/-- The records that the thread holds or has lost. -/
def Worker.holds : Worker → List Bytes
  | .writing record => [record]
  | .panicked lost => lost
  | _ => []

namespace Call

/-- The record the call was told is accepted. -/
def accepted (call : Call) : Option Bytes :=
  match call.phase with
  | .returned (.accepted record) => some record
  | _ => none

def refused (call : Call) : Bool :=
  call.phase = .returned .refused

/-- The call has asked the sampler. -/
def drew (call : Call) : Bool :=
  call.sampled && match call.phase with
    | .sampling _ | .returned .disabled => false
    | _ => true

/-- The sampler let the call go on. -/
def passed (call : Call) : Bool :=
  call.drew && call.phase ≠ .returned .sampledOut

end Call

/-- The loggers, the channel and the thread agree. -/
structure Accounts {β : Type} (sampler : LogSampler) (capacity : Nat) (s : State β) : Prop where
  /-- Every record that was sent is written, tried, held or waiting, in the order of sending. -/
  fifo : s.sent = s.handled.map Prod.fst ++ s.worker.holds ++ s.queue
  bound : s.queue.length ≤ capacity
  /-- Exactly the calls that return `true` have sent their records. -/
  accepted : (s.calls.filterMap Call.accepted).Perm s.sent
  dropped : s.dropped =
    (s.calls.countP Call.refused + s.handled.countP fun record => !record.2) % 2 ^ 64
  seen : s.seen = s.calls.countP Call.drew % 2 ^ 64
  sampled : s.calls.countP Call.passed =
    (List.range (s.calls.countP Call.drew)).countP fun call => sampler.allows (call % 2 ^ 64)
  asks : ∀ call ∈ s.calls, ∀ record, call.phase = .sampling record → call.sampled = true
  gone : s.worker.gone = true → s.queue = []
  finished : s.worker = .finished → s.loggers = false ∧ s.sent = s.handled.map Prod.fst

section Accounts

variable {β ι : Type} {serde : SerdeJson} {config : LogConfig} {sampler : LogSampler}
  {capacity : Nat} {target : Target β ι} {s s' : State β}

theorem enter_spec (serde : SerdeJson) (config : LogConfig) (entry : Entry) (sampled : Bool) :
    (enter serde config entry sampled).accepted = none ∧
      (enter serde config entry sampled).refused = false ∧
      (enter serde config entry sampled).drew = false ∧
      ∀ record, (enter serde config entry sampled).phase = .sampling record →
        (enter serde config entry sampled).sampled = true := by
  unfold enter
  split
  · simp [Call.accepted, Call.refused, Call.drew]
  · cases sampled with
    | true => simp [Call.accepted, Call.refused, Call.drew]
    | false => simp [Call.accepted, Call.refused, Call.drew]

theorem Accounts.enter (accounts : Accounts sampler capacity s) (entry : Entry) (sampled : Bool) :
    Accounts sampler capacity
      { s with calls := s.calls ++ [enter serde config entry sampled] } := by
  obtain ⟨unaccepted, unrefused, undrawn, asks⟩ := enter_spec serde config entry sampled
  have unpassed : (LogAsync.enter serde config entry sampled).passed = false := by
    rw [Call.passed, undrawn]
    rfl
  refine ⟨accounts.fifo, accounts.bound, ?_, ?_, ?_, ?_, ?_, accounts.gone, accounts.finished⟩
  · simpa [unaccepted] using accounts.accepted
  · simpa [unrefused] using accounts.dropped
  · simpa [undrawn] using accounts.seen
  · simpa [undrawn, unpassed] using accounts.sampled
  · intro call member
    rcases List.mem_append.mp member with old | new
    · exact accounts.asks call old
    · rw [List.mem_singleton.mp new]
      exact asks

theorem Accounts.allow (accounts : Accounts sampler capacity s) {index : Nat} {call : Call}
    {record : Bytes} (found : s.calls[index]? = some call) (here : call.phase = .sampling record) :
    Accounts sampler capacity (allow sampler s index call record) := by
  have mine := accounts.asks call (List.mem_of_getElem? found) record here
  obtain ⟨after, same⟩ : ∃ after : Call, { call with
      phase := if sampler.allows s.seen then .sending record else .returned .sampledOut } = after :=
    ⟨_, rfl⟩
  have before : call.accepted = none ∧ call.refused = false ∧ call.drew = false ∧
      call.passed = false := by
    simp [Call.accepted, Call.refused, Call.drew, Call.passed, here]
  have now : after.accepted = none ∧ after.refused = false ∧ after.drew = true ∧
      after.passed = sampler.allows s.seen := by
    rw [← same]
    cases sampler.allows s.seen with
    | true => simp [Call.accepted, Call.refused, Call.drew, Call.passed, mine]
    | false => simp [Call.accepted, Call.refused, Call.drew, Call.passed, mine]
  have refusals := countP_set_add Call.refused found after
  have draws := countP_set_add Call.drew found after
  have passes := countP_set_add Call.passed found after
  rw [before.2.1, now.2.1] at refusals
  rw [before.2.2.1, now.2.2.1] at draws
  rw [before.2.2.2, now.2.2.2] at passes
  simp only [Bool.false_eq_true, if_false, if_true, Nat.add_zero] at refusals draws passes
  have kept := filterMap_set_keep Call.accepted found (now.1.trans before.1.symm)
  unfold LogAsync.allow
  rw [same]
  refine ⟨accounts.fifo, accounts.bound, kept.trans accounts.accepted, ?_, ?_, ?_, ?_,
    accounts.gone, accounts.finished⟩
  · simp only [refusals]
    exact accounts.dropped
  · simp only [draws, next, accounts.seen]
    omega
  · simp only [draws, passes]
    rw [List.range_succ, List.countP_append, List.countP_singleton, ← accounts.seen,
      accounts.sampled]
  · refine forall_mem_set ?_ accounts.asks
    intro record' asking
    rw [← same]
    exact mine

/-- A call that sends and is answered has drawn as before. -/
theorem countP_answered {index : Nat} {call : Call} {record : Bytes}
    (found : s.calls[index]? = some call) (here : call.phase = .sending record)
    {outcome : Outcome} (asked : outcome ≠ .disabled) (kept : outcome ≠ .sampledOut) :
    (s.calls.set index { call with phase := .returned outcome }).countP Call.drew =
        s.calls.countP Call.drew ∧
      (s.calls.set index { call with phase := .returned outcome }).countP Call.passed =
        s.calls.countP Call.passed := by
  have draws := countP_set_add Call.drew found { call with phase := .returned outcome }
  have passes := countP_set_add Call.passed found { call with phase := .returned outcome }
  have drew : Call.drew { call with phase := .returned outcome } = call.drew := by
    cases outcome with
    | disabled => exact absurd rfl asked
    | _ => simp [Call.drew, here]
  have passed : Call.passed { call with phase := .returned outcome } = call.passed := by
    rw [Call.passed, drew, Call.passed]
    simp [here, kept]
  rw [drew] at draws
  rw [passed] at passes
  exact ⟨Nat.add_right_cancel draws, Nat.add_right_cancel passes⟩

/-- A call sends its record. -/
theorem Accounts.sent (accounts : Accounts sampler capacity s) {index : Nat} {call : Call}
    {record : Bytes} (found : s.calls[index]? = some call) (here : call.phase = .sending record)
    (receiver : s.worker.gone = false) (room : s.queue.length < capacity) :
    Accounts sampler capacity { s with
      queue := s.queue ++ [record]
      sent := s.sent ++ [record]
      calls := s.calls.set index { call with phase := .returned (.accepted record) } } := by
  have answers : Outcome.accepted record ≠ .disabled ∧ Outcome.accepted record ≠ .sampledOut := by
    simp
  obtain ⟨draws, passes⟩ := countP_answered found here answers.1 answers.2
  have refusals := countP_set_add Call.refused found
    { call with phase := .returned (.accepted record) }
  have without : call.accepted = none := by
    simp [Call.accepted, here]
  have takes : Call.accepted { call with phase := .returned (.accepted record) } = some record :=
    rfl
  have entered := filterMap_set_enter found without takes
  simp only [Call.refused, here, reduceCtorEq, decide_false, Bool.false_eq_true, if_false,
    Nat.add_zero, Phase.returned.injEq] at refusals
  refine ⟨?_, ?_, ?_, ?_, ?_, ?_, ?_, ?_, ?_⟩
  · simp only [accounts.fifo]
    simp
  · rw [List.length_append, List.length_singleton]
    exact room
  · refine entered.trans ((accounts.accepted.cons record).trans ?_)
    exact (List.perm_append_singleton _ _).symm
  · exact accounts.dropped.trans (congrArg (fun refused => (refused + _) % 2 ^ 64) refusals.symm)
  · simp only [draws]
    exact accounts.seen
  · simp only [draws, passes]
    exact accounts.sampled
  · refine forall_mem_set ?_ accounts.asks
    intro record' asking
    cases asking
  · intro gone
    rw [receiver] at gone
    cases gone
  · intro finished
    rw [finished] at receiver
    cases receiver

/-- A call is refused. -/
theorem Accounts.refuse (accounts : Accounts sampler capacity s) {index : Nat} {call : Call}
    {record : Bytes} (found : s.calls[index]? = some call) (here : call.phase = .sending record) :
    Accounts sampler capacity { s with
      dropped := next s.dropped
      calls := s.calls.set index { call with phase := .returned .refused } } := by
  have answers : Outcome.refused ≠ .disabled ∧ Outcome.refused ≠ .sampledOut := by
    simp
  obtain ⟨draws, passes⟩ := countP_answered found here answers.1 answers.2
  have refusals := countP_set_add Call.refused found { call with phase := .returned .refused }
  have same : Call.accepted { call with phase := .returned .refused } = call.accepted := by
    simp [Call.accepted, here]
  have kept := filterMap_set_keep Call.accepted found same
  simp only [Call.refused, here, reduceCtorEq, decide_false, decide_true, Bool.false_eq_true,
    if_false, if_true, Nat.add_zero] at refusals
  refine ⟨accounts.fifo, accounts.bound, kept.trans accounts.accepted, ?_, ?_, ?_, ?_,
    accounts.gone, accounts.finished⟩
  · have counted := accounts.dropped
    have grown : (s.calls.set index { call with phase := .returned .refused }).countP
        Call.refused = s.calls.countP Call.refused + 1 := refusals
    simp only [next, counted, grown]
    omega
  · simp only [draws]
    exact accounts.seen
  · simp only [draws, passes]
    exact accounts.sampled
  · refine forall_mem_set ?_ accounts.asks
    intro record' asking
    cases asking

theorem Accounts.tryWrite (accounts : Accounts sampler capacity s) {index : Nat} {call : Call}
    {record : Bytes} (found : s.calls[index]? = some call) (here : call.phase = .sending record) :
    Accounts sampler capacity (tryWrite capacity s index call record) := by
  unfold LogAsync.tryWrite
  split
  case isTrue room => exact accounts.sent found here room.1 room.2
  case isFalse => exact accounts.refuse found here

theorem Accounts.receive (accounts : Accounts sampler capacity s) (idle : s.worker = .receiving)
    (taken : receive s = some s') : Accounts sampler capacity s' := by
  unfold LogAsync.receive at taken
  split at taken
  · rename_i record queue waiting
    cases taken
    refine ⟨?_, ?_, accounts.accepted, accounts.dropped, accounts.seen, accounts.sampled,
      accounts.asks, ?_, ?_⟩
    · rw [accounts.fifo, idle, waiting]
      simp [Worker.holds]
    · have bound := accounts.bound
      rw [waiting, List.length_cons] at bound
      exact Nat.le_of_succ_le bound
    · intro gone
      cases gone
    · intro finished
      cases finished
  · rename_i empty
    split at taken
    · cases taken
    · rename_i closed
      cases taken
      refine ⟨?_, accounts.bound, accounts.accepted, accounts.dropped, accounts.seen,
        accounts.sampled, accounts.asks, fun _ => empty,
        fun _ => ⟨Bool.eq_false_iff.mpr closed, ?_⟩⟩
      · rw [accounts.fifo, idle]
        rfl
      · change s.sent = _
        rw [accounts.fifo, idle, empty]
        simp [Worker.holds]

theorem Accounts.write (accounts : Accounts sampler capacity s) {record : Bytes}
    (busy : s.worker = .writing record) (input : ι) :
    Accounts sampler capacity (write target s input record) := by
  unfold LogAsync.write
  have fifo := accounts.fifo
  rw [busy] at fifo
  split
  · rename_i done after wrote
    refine ⟨?_, accounts.bound, accounts.accepted, ?_, accounts.seen, accounts.sampled,
      accounts.asks, ?_, ?_⟩
    · rw [fifo]
      simp [Worker.holds]
    · rw [List.countP_append, List.countP_singleton]
      have before := accounts.dropped
      cases done with
      | true => simpa using before
      | false =>
          simp only [next, before, Bool.false_eq_true, if_false, Bool.not_false, if_true]
          omega
    · intro gone
      cases gone
    · intro finished
      cases finished
  · refine ⟨?_, Nat.zero_le _, accounts.accepted, accounts.dropped, accounts.seen,
      accounts.sampled, accounts.asks, fun _ => rfl, ?_⟩
    · rw [fifo]
      simp [Worker.holds]
    · intro finished
      cases finished

theorem Accounts.advance (accounts : Accounts sampler capacity s) {action : Action ι}
    (taken : advance serde config sampler capacity target s action = some s') :
    Accounts sampler capacity s' := by
  cases action with
  | log entry sampled =>
      simp only [LogAsync.advance] at taken
      split at taken
      · cases taken
        exact accounts.enter entry sampled
      · cases taken
  | allow index =>
      obtain ⟨call, found, taken⟩ := Option.bind_eq_some_iff.mp taken
      split at taken
      · rename_i record here
        cases taken
        exact accounts.allow found here
      · cases taken
  | send index =>
      obtain ⟨call, found, taken⟩ := Option.bind_eq_some_iff.mp taken
      split at taken
      · rename_i record here
        cases taken
        exact accounts.tryWrite found here
      · cases taken
  | receive =>
      simp only [LogAsync.advance] at taken
      split at taken
      · rename_i idle
        exact accounts.receive idle taken
      · cases taken
  | write input =>
      simp only [LogAsync.advance] at taken
      split at taken
      · rename_i record busy
        cases taken
        exact accounts.write busy input
      · cases taken
  | close =>
      simp only [LogAsync.advance] at taken
      split at taken
      · cases taken
        refine ⟨accounts.fifo, accounts.bound, accounts.accepted, accounts.dropped, accounts.seen,
          accounts.sampled, accounts.asks, accounts.gone, ?_⟩
        intro finished
        exact ⟨rfl, (accounts.finished finished).2⟩
      · cases taken

theorem accounts_of_reachable (reach : (system serde config sampler capacity target).Reachable s) :
    Accounts sampler capacity s := by
  refine reach.invariant ?_ ?_
  · refine ⟨rfl, Nat.zero_le _, List.Perm.refl _, rfl, rfl, rfl, ?_, fun _ => rfl, ?_⟩
    · intro call member
      cases member
    · intro finished
      cases finished
  · intro before action after accounts _ taken
    exact accounts.advance taken

/-- What every write of the thread keeps. -/
theorem target_invariant (holds : β → List (Bytes × Bool) → Prop)
    (reach : (system serde config sampler capacity target).Reachable s)
    (start : holds target.start [])
    (keeps : ∀ before handled input record done after, holds before handled →
      target.write input record before = some (done, after) →
        holds after (handled ++ [(record, done)])) : holds s.target s.handled := by
  refine reach.invariant (I := fun s => holds s.target s.handled) start ?_
  intro before action after held _ taken
  cases action with
  | log entry sampled =>
      simp only [system, LogAsync.advance] at taken
      split at taken
      · cases taken
        exact held
      · cases taken
  | allow index =>
      obtain ⟨call, found, taken⟩ := Option.bind_eq_some_iff.mp taken
      split at taken
      · cases taken
        exact held
      · cases taken
  | send index =>
      obtain ⟨call, found, taken⟩ := Option.bind_eq_some_iff.mp taken
      split at taken
      · cases taken
        unfold tryWrite
        split
        · exact held
        · exact held
      · cases taken
  | receive =>
      simp only [system, LogAsync.advance, LogAsync.receive] at taken
      split at taken
      · split at taken
        · cases taken
          exact held
        · split at taken
          · cases taken
          · cases taken
            exact held
      · cases taken
  | write input =>
      simp only [system, LogAsync.advance] at taken
      split at taken
      · cases taken
        unfold LogAsync.write
        split
        · rename_i done later wrote
          exact keeps _ _ _ _ _ _ held wrote
        · exact held
      · cases taken
  | close =>
      simp only [system, LogAsync.advance] at taken
      split at taken
      · cases taken
        exact held
      · cases taken

/-! ## The thread finishes -/

/-- Steps of the writer thread. -/
def Writes : State β → Action ι → Prop
  | _, .receive | _, .write _ => True
  | _, _ => False

/-- What the thread has left to do. -/
def State.left (s : State β) : Nat :=
  2 * s.queue.length + match s.worker with
    | .receiving => 1
    | .writing _ => 2
    | .finished | .panicked _ => 0

/-- Once the loggers are gone, the thread alone comes to an end. -/
theorem worker_ends (input : ι) (closed : s.loggers = false) :
    ∃ s', (system serde config sampler capacity target).Steps Writes s s' ∧
      s'.worker.gone = true := by
  have lowers : ∀ s : State β, s.loggers = false → ¬ s.worker.gone = true →
      ∃ action s', Writes s action ∧
        (system serde config sampler capacity target).step s action = some s' ∧
        s'.loggers = false ∧ s'.left < s.left := by
    intro s closed running
    cases busy : s.worker with
    | receiving =>
        cases waiting : s.queue with
        | nil =>
            refine ⟨.receive, { s with worker := .finished }, trivial, ?_, closed, ?_⟩
            · simp [system, LogAsync.advance, LogAsync.receive, busy, waiting, closed]
            · simp [State.left, busy]
        | cons record queue =>
            refine ⟨.receive, { s with queue := queue, worker := .writing record }, trivial, ?_,
              closed, ?_⟩
            · simp [system, LogAsync.advance, LogAsync.receive, busy, waiting]
            · simp only [State.left, busy, waiting, List.length_cons]
              omega
    | writing record =>
        refine ⟨.write input, LogAsync.write target s input record, trivial, ?_, ?_, ?_⟩
        · simp [system, LogAsync.advance, busy]
        · unfold LogAsync.write
          split
          · exact closed
          · exact closed
        · unfold LogAsync.write
          split
          · simp only [State.left, busy]
            omega
          · simp only [State.left, busy, List.length_nil]
            omega
    | finished =>
        rw [busy] at running
        exact absurd rfl running
    | panicked lost =>
        rw [busy] at running
        exact absurd rfl running
  exact Lts.exists_steps_of_rank State.left lowers closed

/-- In every interleaving of callers and the writer thread, and whatever the target does, each
record is accepted or counted as dropped, the accepted ones are written in order, the sampler
lets through exactly its quota, and without loggers the thread comes to an end. -/
theorem records_accounted (serde : SerdeJson) (config : LogConfig) (sampler : LogSampler)
    (positive : 0 < sampler.thereafter) (capacity : Nat) (target : Target β ι)
    (reach : (system serde config sampler capacity target).Reachable s) :
    Accounts sampler capacity s ∧
      (s.calls.countP Call.drew ≤ 2 ^ 64 →
        s.calls.countP Call.passed = sampler.quota (s.calls.countP Call.drew)) ∧
      (s.loggers = false → ι → ∃ s',
        (system serde config sampler capacity target).Steps Writes s s' ∧
          s'.worker.gone = true) := by
  have accounts := accounts_of_reachable reach
  refine ⟨accounts, ?_, fun closed input => worker_ends input closed⟩
  intro few
  rw [accounts.sampled, ← sampler.quota_eq positive]
  apply List.countP_congr
  intro call member
  rw [Nat.mod_eq_of_lt (Nat.lt_of_lt_of_le (List.mem_range.mp member) few)]

/-! ### A run -/

/-- A target whose first write fails and whose third panics. -/
def unreliable : Target Nat Unit where
  start := 0
  write := fun _ _ writes =>
    if writes = 2 then none else some (decide (writes ≠ 0), writes + 1)

/-- A message at the epoch. -/
def sampleEntry (level : LogLevel) : Entry :=
  ⟨LogRecords.epoch, level, "a", none, []⟩

/-- Two of three calls pass the sampler, one of them finds the channel full, a write fails and
another panics. -/
theorem unreliable_accounted : ∃ s : State Nat,
    s.handled.map Prod.snd = [false, true] ∧ s.dropped = 2 ∧ s.calls.countP Call.passed = 2 ∧
      Accounts ⟨1, 2⟩ 2 s := by
  have run : ((system LogRecords.byInsertion LogRecords.plainConfig ⟨1, 2⟩ 2 unreliable).exec
      (system LogRecords.byInsertion LogRecords.plainConfig ⟨1, 2⟩ 2 unreliable).init
      [.log (sampleEntry .info) true, .log (sampleEntry .info) true, .log (sampleEntry .info) true,
        .log (sampleEntry .warn) false, .log (sampleEntry .debug) true,
        .log (sampleEntry .error) false, .allow 1, .allow 0, .send 1, .send 3, .allow 2, .send 0,
        .receive, .send 5, .write (), .receive, .write (), .receive, .write ()]).map
        (fun s => (s.handled.map Prod.snd, s.dropped, s.calls.countP Call.passed)) =
      some ([false, true], 2, 2) := by
    decide +kernel
  obtain ⟨s, executed, ends⟩ := Option.map_eq_some_iff.mp run
  simp only [Prod.mk.injEq] at ends
  exact ⟨s, ends.1, ends.2.1, ends.2.2, (records_accounted _ _ _ (by decide) _ _
    (Lts.reachable_of_exec _ executed)).1⟩

end Accounts

/-! ## Over a rotating file -/

/-- The rotating file as a target; it never panics. -/
def rotating (gzip : Log.Gzip) (start : Log.LogState) : Target Log.LogState Log.Moment where
  start := start
  write := fun moment record state =>
    match (Log.writeAll gzip moment record).run state with
    | .ok _ after => some (true, after)
    | .error _ after => some (false, after)

/-- What a log that is not waited for comes to. -/
structure KeepsAccepted (gzip : Log.Gzip) (maxBytes maxBackups capacity : Nat)
    (s : State Log.LogState) : Prop where
  /-- The files hold an ordered suffix of the records that were written. -/
  files : Log.KeepsSuffix gzip maxBytes maxBackups s.target.self.activePath s.target.disk.directory
    (s.handled.map Prod.fst)
  /-- Those and the records that wait are the ones that were accepted. -/
  fifo : s.sent = s.handled.map Prod.fst ++ s.worker.holds ++ s.queue
  bound : s.queue.length ≤ capacity
  accepted : (s.calls.filterMap Call.accepted).Perm s.sent
  /-- Only refused calls count as dropped. -/
  dropped : s.dropped = s.calls.countP Call.refused % 2 ^ 64
  /-- When the thread has finished, all accepted records are written. -/
  finished : s.worker = .finished → Log.KeepsSuffix gzip maxBytes maxBackups
    s.target.self.activePath s.target.disk.directory s.sent

/-- A non-blocking logger over a fresh log under size rotation keeps an ordered suffix of the
records it accepts, in every interleaving of its callers. -/
theorem asyncLog_keeps_suffix (serde : SerdeJson) (config : LogConfig) (sampler : LogSampler)
    (capacity : Nat) (gzip : Log.Gzip) (listing : Listing) (today : Int)
    (maxBytes maxBackups : Nat) (retentionDays : Option Nat) (compressRotated : Bool)
    (kept : 1 ≤ maxBackups) : ∃ self disk,
      (Log.RotatingFile.new gzip listing today config.serviceName (.size maxBytes maxBackups)
        retentionDays compressRotated).run (reliable ∅) = .ok self disk ∧
      ∀ s, (system serde config sampler capacity (rotating gzip ⟨self, disk⟩)).Reachable s →
        KeepsAccepted gzip maxBytes maxBackups capacity s := by
  obtain ⟨self, directory, opened, fresh⟩ := Log.new_tracks gzip listing today config.serviceName
    maxBytes maxBackups retentionDays compressRotated
  refine ⟨self, reliable directory, opened, ?_⟩
  intro s reach
  have accounts := accounts_of_reachable reach
  obtain ⟨tracks, whole⟩ : Log.Tracks gzip maxBytes maxBackups s.target (s.handled.map Prod.fst) ∧
      s.handled.countP (fun record => !record.2) = 0 := by
    refine target_invariant (fun state handled =>
      Log.Tracks gzip maxBytes maxBackups state (handled.map Prod.fst) ∧
        handled.countP (fun record => !record.2) = 0) reach ⟨fresh, rfl⟩ ?_
    intro before handled moment record done after held wrote
    obtain ⟨later, ran, tracks⟩ := Log.writeAll_tracks kept held.1 moment record
    simp only [rotating, ran, Option.some.injEq, Prod.mk.injEq] at wrote
    obtain ⟨same, reached⟩ := wrote
    subst same reached
    rw [List.map_append, List.countP_append, held.2]
    exact ⟨tracks, rfl⟩
  have dropped := accounts.dropped
  rw [whole, Nat.add_zero] at dropped
  refine ⟨tracks.keepsSuffix, accounts.fifo, accounts.bound, accounts.accepted, dropped, ?_⟩
  intro finished
  rw [(accounts.finished finished).2]
  exact tracks.keepsSuffix

/-- A line of the plain encoding and the next in a new file; the third call finds the channel
full. -/
theorem asyncLog_keeps_two_lines : ∃ s : State Log.LogState,
    s.worker = .finished ∧ s.sent.length = 2 ∧ s.dropped = 1 ∧
      KeepsAccepted Log.lineGzip 40 1 1 s := by
  obtain ⟨self, disk, opened, each⟩ := asyncLog_keeps_suffix LogRecords.byInsertion
    LogRecords.plainConfig ⟨1, 1⟩ 1 Log.lineGzip .sorted 0 40 1 none false (by decide)
  have run : (match (Log.RotatingFile.new Log.lineGzip .sorted 0 LogRecords.plainConfig.serviceName
        (.size 40 1) none false).run (reliable ∅) with
      | .error _ _ => none
      | .ok self disk =>
          ((system LogRecords.byInsertion LogRecords.plainConfig ⟨1, 1⟩ 1
            (rotating Log.lineGzip ⟨self, disk⟩)).exec (system LogRecords.byInsertion
              LogRecords.plainConfig ⟨1, 1⟩ 1 (rotating Log.lineGzip ⟨self, disk⟩)).init
            [.log (sampleEntry .info) false, .log (sampleEntry .warn) true,
              .log (sampleEntry .error) false, .send 2, .allow 1, .send 0, .receive, .send 1,
              .write ⟨0, 0, 0, .sorted⟩, .close, .receive, .write ⟨0, 0, 0, .sorted⟩,
              .receive]).map fun s => (s.worker, s.sent.length, s.dropped)) =
      some (.finished, 2, 1) := by
    decide +kernel
  simp only [opened] at run
  obtain ⟨s, executed, ends⟩ := Option.map_eq_some_iff.mp run
  simp only [Prod.mk.injEq] at ends
  exact ⟨s, ends.1, ends.2.1, ends.2.2, each s (Lts.reachable_of_exec _ executed)⟩

end RustZero.LogAsync
