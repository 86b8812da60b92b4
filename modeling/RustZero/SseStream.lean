import RustZero.Lib.Lts
import RustZero.Sse

/-!
# Event streams under backpressure

`SseBackpressureStream` of `rest/src/sse.rs` between the source of events and an EventSource.

* The server polls the stream when it can send more, at any time; the source may be pending, and
  the bytes of the frames arrive at the client in pieces of any size.
* A pause is the time from a frame to the next poll.  The policy looks at pauses alone: how long
  the source takes is between two polls of a stream that waits for nothing.
* `Delivers` is what the client, the source and the metrics have seen in every state.

`taken` and `pauses` are read by no step.  Times are nanoseconds.
-/

namespace RustZero.Sse

open Lib Lib.EventStream

/-! ## The policy -/

structure SseBackpressurePolicy where
  slowClientThreshold : Nat
  disconnectThreshold : Nat
  positive : 0 < slowClientThreshold
  ordered : slowClientThreshold ≤ disconnectThreshold

inductive SseBackpressurePolicyError where
  | zeroSlowClientThreshold
  | disconnectBeforeSlowClient
  deriving DecidableEq

def SseBackpressurePolicy.new (slowClientThreshold disconnectThreshold : Nat) :
    Except SseBackpressurePolicyError SseBackpressurePolicy :=
  if zero : slowClientThreshold = 0 then .error .zeroSlowClientThreshold
  else if early : disconnectThreshold < slowClientThreshold then
    .error .disconnectBeforeSlowClient
  else .ok ⟨slowClientThreshold, disconnectThreshold, Nat.pos_of_ne_zero zero, Nat.le_of_not_lt early⟩

/-! ## The stream -/

/-- What the source answers to `poll_next`. -/
inductive Polled where
  | pending
  | event (event : SseEvent)
  | finished

/-- What the stream answers. -/
inductive Item where
  | pending
  | frame (text : String)
  | timedOut
  | finished
  deriving DecidableEq

structure SseBackpressureStream where
  yieldedAt : Option Nat
  done : Bool

/-- The time since the last frame, on the first poll after it. -/
def SseBackpressureStream.pause (stream : SseBackpressureStream) (now : Nat) : Option Nat :=
  if stream.done then none else stream.yieldedAt.map (now - ·)

/-- The answer of the stream, with the decisions it records. -/
def SseBackpressureStream.pollNext (policy : SseBackpressurePolicy)
    (stream : SseBackpressureStream) (now : Nat) (source : Polled) :
    SseBackpressureStream × Item × List String :=
  if stream.done then (stream, .finished, [])
  else
    let elapsed := stream.yieldedAt.map (now - ·)
    if elapsed.any (policy.disconnectThreshold ≤ ·) then (⟨none, true⟩, .timedOut, ["disconnected"])
    else
      let decisions := if elapsed.any (policy.slowClientThreshold ≤ ·) then ["slow"] else []
      match source with
      | .event event => (⟨some now, false⟩, .frame event.encode, decisions)
      | .finished => (⟨none, true⟩, .finished, decisions)
      | .pending => (⟨none, false⟩, .pending, decisions)

structure State where
  now : Nat
  stream : SseBackpressureStream
  items : List Item
  decisions : List String
  /-- Sent and not there yet. -/
  wire : List Char
  received : List Char
  /-- The events that the source gave away. -/
  taken : List SseEvent
  pauses : List Nat

inductive Action where
  | poll (source : Polled)
  | deliver (count : Nat)
  | tick (elapsed : Nat)

def Item.text : Item → Option String
  | .frame text => some text
  | _ => none

/-- The event that a poll took from the source. -/
def takenBy : Item → Polled → List SseEvent
  | .frame _, .event event => [event]
  | _, _ => []

section System

variable (policy : SseBackpressurePolicy) (metrics : Bool)

def advance (s : State) : Action → Option State
  | .poll source =>
      let (stream, item, decisions) := s.stream.pollNext policy s.now source
      some { s with
        stream := stream
        items := s.items ++ [item]
        decisions := s.decisions ++ if metrics then decisions else []
        wire := s.wire ++ (item.text.elim [] String.toList)
        taken := s.taken ++ takenBy item source
        pauses := s.pauses ++ (s.stream.pause s.now).toList }
  | .deliver count => some { s with
      wire := s.wire.drop count
      received := s.received ++ s.wire.take count }
  | .tick elapsed => some { s with now := s.now + elapsed }

/-- `sse_response_with_backpressure`. -/
def system : Lts State Action where
  init := ⟨0, ⟨none, false⟩, [], [], [], [], [], []⟩
  step := advance policy metrics

end System

/-! ## What a poll does -/

/-- The answers of the stream, by its pause. -/
inductive Answer (policy : SseBackpressurePolicy) (stream : SseBackpressureStream) (now : Nat)
    (source : Polled) : SseBackpressureStream × Item × List String → Prop
  | closed (done : stream.done = true) : Answer policy stream now source (stream, .finished, [])
  | disconnected (pause : Nat) (paused : stream.pause now = some pause)
      (late : policy.disconnectThreshold ≤ pause) (live : stream.done = false) :
      Answer policy stream now source (⟨none, true⟩, .timedOut, ["disconnected"])
  | answered (next : SseBackpressureStream) (item : Item) (live : stream.done = false)
      (soon : ∀ pause, stream.pause now = some pause → pause < policy.disconnectThreshold)
      (frame : item.text.toList = (takenBy item source).map SseEvent.encode)
      (waits : (if next.yieldedAt.isSome then 1 else 0) = (takenBy item source).length)
      (ended : next.done = true → next.yieldedAt = none) (timely : item ≠ .timedOut) :
      Answer policy stream now source (next, item,
        if (stream.pause now).any (policy.slowClientThreshold ≤ ·) then ["slow"] else [])

theorem answer (policy : SseBackpressurePolicy) (stream : SseBackpressureStream) (now : Nat)
    (source : Polled) : Answer policy stream now source (stream.pollNext policy now source) := by
  unfold SseBackpressureStream.pollNext
  split
  case isTrue done => exact .closed done
  case isFalse live =>
    have live : stream.done = false := by simpa using live
    have paused : stream.pause now = stream.yieldedAt.map (now - ·) := by
      rw [SseBackpressureStream.pause, live]
      rfl
    rw [← paused]
    dsimp only
    split
    case isTrue late =>
      obtain ⟨pause, same, late⟩ := (Option.any_eq_true _ _).mp late
      exact .disconnected pause same (of_decide_eq_true late) live
    case isFalse soon =>
      have soon (pause : Nat) (same : stream.pause now = some pause) :
          pause < policy.disconnectThreshold := by
        rw [same, Option.any_some, decide_eq_true_eq] at soon
        exact Nat.lt_of_not_le soon
      cases source with
      | pending => exact .answered _ _ live soon rfl rfl nofun nofun
      | event event => exact .answered _ _ live soon rfl rfl nofun nofun
      | finished => exact .answered _ _ live soon rfl rfl (fun _ => rfl) nofun

/-! ## Invariant -/

structure Inv (policy : SseBackpressurePolicy) (metrics : Bool) (s : State) : Prop where
  frames : s.items.filterMap Item.text = s.taken.map SseEvent.encode
  bytes : s.received ++ s.wire = s.taken.flatMap fun event => event.encode.toList
  timed : s.pauses.length + (if s.stream.yieldedAt.isSome then 1 else 0) = s.taken.length
  ended : s.stream.done = true → s.stream.yieldedAt = none
  late : s.items.count .timedOut = s.pauses.countP (policy.disconnectThreshold ≤ ·)
  once : s.items.count .timedOut ≤ if s.stream.done then 1 else 0
  slow : s.decisions.count "slow" = if metrics then s.pauses.countP fun pause =>
    policy.slowClientThreshold ≤ pause && pause < policy.disconnectThreshold else 0
  counted : s.decisions.count "disconnected" = if metrics then s.items.count .timedOut else 0

section Invariant

variable {policy : SseBackpressurePolicy} {metrics : Bool} {s s' : State}

theorem pause_of_done {stream : SseBackpressureStream} (done : stream.done = true) (now : Nat) :
    stream.pause now = none := by
  unfold SseBackpressureStream.pause
  rw [done]
  rfl

theorem length_pause {stream : SseBackpressureStream} (live : stream.done = false) (now : Nat) :
    (stream.pause now).toList.length = if stream.yieldedAt.isSome then 1 else 0 := by
  unfold SseBackpressureStream.pause
  rw [live]
  cases stream.yieldedAt with
  | none => rfl
  | some yieldedAt => rfl

theorem Inv.poll (inv : Inv policy metrics s) {source : Polled}
    (taken : advance policy metrics s (.poll source) = some s') : Inv policy metrics s' := by
  obtain ⟨frames, bytes, timed, ended, late, once, slow, counted⟩ := inv
  have answered := answer policy s.stream s.now source
  unfold advance at taken
  dsimp only at taken
  generalize s.stream.pollNext policy s.now source = result at answered taken
  cases taken
  cases answered with
  | closed done =>
      have none := pause_of_done done s.now
      refine ⟨?_, ?_, ?_, ended, ?_, ?_, ?_, ?_⟩ <;> simp [none, Item.text, takenBy]
      · simpa [Item.text, List.filterMap_cons] using frames
      · exact bytes
      · exact timed
      · exact late
      · exact once
      · exact slow
      · exact counted
  | disconnected pause paused late' live =>
      have length := length_pause live s.now
      rw [paused] at length ⊢
      simp only [live, Bool.false_eq_true, if_false, Nat.le_zero] at once
      simp only [Option.toList_some, List.length_singleton] at length
      refine ⟨?_, ?_, ?_, fun _ => rfl, ?_, ?_, ?_, ?_⟩
      · simpa [Item.text, takenBy, List.filterMap_append, List.filterMap_cons] using frames
      · simpa [Item.text, takenBy] using bytes
      · simp only [Option.toList_some, List.length_append, List.length_singleton]
        simpa [takenBy, ← length] using timed
      · simpa [late'] using late
      · simp [once]
      · cases metrics with
        | false => simpa using slow
        | true =>
            have past : ¬pause < policy.disconnectThreshold := Nat.not_lt.mpr late'
            simpa [List.countP_append, past] using slow
      · cases metrics with
        | false => simpa using counted
        | true => simpa using counted
  | answered next item live soon frame waits ended' timely =>
      have length := length_pause live s.now
      simp only [live, Bool.false_eq_true, if_false, Nat.le_zero] at once
      have none : (s.stream.pause s.now).toList.countP
          (policy.disconnectThreshold ≤ ·) = 0 := by
        rw [List.countP_eq_zero]
        intro pause member
        have before := soon pause (Option.mem_toList.mp member)
        simpa using before
      have single : [item].count .timedOut = 0 :=
        List.count_eq_zero.mpr (by simpa using Ne.symm timely)
      refine ⟨?_, ?_, ?_, ended', ?_, ?_, ?_, ?_⟩
      · rw [List.filterMap_append, List.map_append, frames, ← frame]
        cases text : item.text <;> simp [text]
      · have bytes' : item.text.elim [] String.toList =
            (takenBy item source).flatMap fun event => event.encode.toList := by
          have flat := congrArg (List.flatMap String.toList) frame
          rw [List.flatMap_map] at flat
          rw [← flat]
          cases item.text <;> simp
        change s.received ++ (s.wire ++ item.text.elim [] String.toList) = _
        rw [List.flatMap_append, ← bytes, ← bytes', List.append_assoc]
      · simp only [List.length_append]
        omega
      · rw [List.count_append, List.countP_append, none, late, single]
      · rw [List.count_append, once, single]
        exact Nat.zero_le _
      · cases metrics with
        | false => simpa using slow
        | true =>
            cases paused : s.stream.pause s.now with
            | none => simpa using slow
            | some pause =>
                have before := soon pause paused
                simp only [if_true] at slow
                by_cases slows : policy.slowClientThreshold ≤ pause
                · simp [List.countP_append, slow, slows, before]
                · simp [List.countP_append, slow, slows]
      · rw [List.count_append, List.count_append, counted]
        cases metrics with
        | false => rfl
        | true =>
            rw [if_pos rfl, if_pos rfl, single]
            split <;> rfl

theorem inv_of_reach (reach : (system policy metrics).Reachable s) : Inv policy metrics s := by
  refine reach.invariant ⟨rfl, rfl, rfl, fun _ => rfl, rfl, Nat.le_refl _, ?_, ?_⟩ ?_
  · cases metrics <;> rfl
  · cases metrics <;> rfl
  · intro s action s' inv _ taken
    cases action with
    | poll source => exact inv.poll taken
    | deliver count =>
        cases taken
        obtain ⟨frames, bytes, timed, ended, late, once, slow, counted⟩ := inv
        refine ⟨frames, ?_, timed, ended, late, once, slow, counted⟩
        dsimp only
        rw [List.append_assoc, List.take_append_drop]
        exact bytes
    | tick elapsed =>
        cases taken
        exact ⟨inv.frames, inv.bytes, inv.timed, inv.ended, inv.late, inv.once, inv.slow, inv.counted⟩

/-- A stream that is done takes and records nothing. -/
theorem done_of_steps (run : (system policy metrics).Steps Lts.Always s s')
    (done : s.stream.done = true) :
    s'.stream.done = true ∧ s'.taken = s.taken ∧ s'.decisions = s.decisions := by
  refine run.preserved
    (I := fun t => t.stream.done = true ∧ t.taken = s.taken ∧ t.decisions = s.decisions) ?_
    ⟨done, rfl, rfl⟩
  intro t action t' held _ taken
  cases action with
  | poll source =>
      obtain ⟨done, before, recorded⟩ := held
      have closed : t.stream.pollNext policy t.now source = (t.stream, .finished, []) := by
        unfold SseBackpressureStream.pollNext
        rw [if_pos done]
      change advance policy metrics t (.poll source) = some t' at taken
      unfold advance at taken
      dsimp only at taken
      rw [closed] at taken
      cases taken
      refine ⟨done, ?_, ?_⟩
      · simpa [takenBy] using before
      · simpa using recorded
  | deliver count =>
      cases taken
      exact held
  | tick elapsed =>
      cases taken
      exact held

end Invariant

/-! ## The client -/

/-- The reader after events that arrive as they were sent, and their messages. -/
def expected (source : EventSource) : List SseEvent → EventSource × List Message
  | [] => (source, [])
  | sent :: rest =>
      let (final, messages) := expected (sent.after source) rest
      (final, (sent.message source).toList ++ messages)

theorem exists_encode (sent : SseEvent) : ∃ body, sent.encode.toList = body ++ ['\n'] := by
  unfold SseEvent.encode
  rw [String.toList_append]
  exact ⟨_, rfl⟩

/-- A stream of encoded events is read event by event. -/
theorem receive_encoded {events : List SseEvent}
    (roundTrips : ∀ sent ∈ events, sent.RoundTrips) {source : EventSource} (data : source.data = [])
    (event : source.event = []) :
    source.receive (events.flatMap fun sent => sent.encode.toList) = expected source events := by
  induction events generalizing source with
  | nil => rfl
  | cons sent rest ih =>
      obtain ⟨first, later⟩ := List.forall_mem_cons.mp roundTrips
      obtain ⟨body, ends⟩ := exists_encode sent
      have decoded := first.decoded source data event
      rw [ends] at decoded
      rw [List.flatMap_cons, ends, List.append_assoc, List.singleton_append,
        EventSource.receive_append, decoded, ih later rfl rfl]
      rfl

/-! ## Delivery -/

/-- What the source, the client and the metrics have seen of a stream. -/
structure Delivers (policy : SseBackpressurePolicy) (metrics : Bool) (s : State) : Prop where
  /-- Every event that was taken is a frame, in order. -/
  frames : s.items.filterMap Item.text = s.taken.map SseEvent.encode
  bytes : s.received ++ s.wire = s.taken.flatMap fun event => event.encode.toList
  /-- Every frame but one that is not polled after has one pause. -/
  timed : s.pauses.length ≤ s.taken.length ∧ s.taken.length ≤ s.pauses.length + 1
  late : s.items.count .timedOut = s.pauses.countP (policy.disconnectThreshold ≤ ·)
  once : s.items.count .timedOut ≤ 1 ∧ (.timedOut ∈ s.items → s.stream.done = true)
  slow : s.decisions.count "slow" = if metrics then s.pauses.countP fun pause =>
    policy.slowClientThreshold ≤ pause && pause < policy.disconnectThreshold else 0
  counted : s.decisions.count "disconnected" = if metrics then s.items.count .timedOut else 0
  /-- The client has dispatched the first messages of the events, and all when all has arrived. -/
  messages : (∀ event ∈ s.taken, event.Built ∧ event.Unbroken) →
    (freshSource.receive s.received).2 <+: (expected freshSource s.taken).2 ∧
      (s.wire = [] → freshSource.receive s.received = expected freshSource s.taken)

/-- A stream delivers its events in order until the client stalls once for too long, and then
takes no more of them. -/
theorem stream_delivers {policy : SseBackpressurePolicy} {metrics : Bool} {s s' : State}
    (reach : (system policy metrics).Reachable s)
    (run : (system policy metrics).Steps Lts.Always s s') :
    Delivers policy metrics s ∧
      (s.stream.done = true → s'.taken = s.taken ∧ s'.decisions = s.decisions) := by
  have inv := inv_of_reach reach
  have timed := inv.timed
  have once := inv.once
  refine ⟨⟨inv.frames, inv.bytes, ?_, inv.late, ?_, inv.slow, inv.counted, ?_⟩,
    fun done => (done_of_steps run done).2⟩
  · split at timed <;> omega
  · constructor
    · split at once <;> omega
    · intro member
      have positive := List.count_pos_iff.mpr member
      split at once
      case isTrue done => exact done
      case isFalse => omega
  · intro clean
    have all : freshSource.receive (s.taken.flatMap fun sent => sent.encode.toList) =
        expected freshSource s.taken :=
      receive_encoded (fun event member =>
        (clean event member).2.roundTrips (clean event member).1.wellFormed) rfl rfl
    rw [← inv.bytes] at all
    constructor
    · rw [← all]
      exact EventSource.receive_prefix freshSource s.received s.wire
    · intro arrived
      rw [arrived, List.append_nil] at all
      exact all

/-- A client that stalls after the second event. -/
theorem stream_delivers_stalled :
    ∃ s, Delivers ⟨2, 5, by decide, by decide⟩ true s ∧
      s.items.map Item.text = [some "data: a\n\n", none, some "data: b\n\n", none, none] ∧
      s.decisions = ["slow", "disconnected"] := by
  have reach := (system ⟨2, 5, by decide, by decide⟩ true).reachable_of_exec
    [.poll (.event (.ofData "a")), .tick 3, .poll .pending, .tick 60,
      .poll (.event (.ofData "b")), .deliver 20, .tick 5, .poll .pending, .poll .pending] rfl
  refine ⟨_, (stream_delivers reach (Lts.Steps.refl _)).1, ?_, rfl⟩
  decide +kernel

end RustZero.Sse
