import RustZero.Lib.Executions
import RustZero.McpEvents

/-!
# Streams of a terminated session

A termination tells the streams of its session by one message on the broadcast
channel.  A stream hears it if it subscribed before the message was sent and does
not fall so far behind that the channel has let go of it.

* `Heard` is that condition on the steps of a run.
* `Signals` is the invariant: no stream that listens has read past the message,
  and the channel still keeps it.
* `terminated_streams_end`: along such runs no stream of a terminated session is
  ever left waiting, and one that is polled for as long as it lives returns
  `None`.  Its rank is how far the receiver is from the message and, after that,
  how much it has queued.
* `late_subscriber_waits`: a stream that subscribes after the message waits for
  ever, since nothing sends another (`deaf_step`); the sender lives in the session
  the stream itself keeps alive, so the channel never closes.
-/

namespace RustZero.McpEvents

open Lib Mcp

section Termination

variable {ρ π κ τ α : Type}

/-- The receiver of a stream that listens to the channel. -/
def Stream.receiver? : Stream α → Option Nat
  | .subscribed _ _ receiver => some receiver
  | .live state => some state.receiver
  | _ => none

/-- Another message leaves the channel room for the `Terminated` of a termination
as long as some stream listens. -/
def Room (s : System ρ π κ τ α) : Prop :=
  ∀ place stream receiver, s.farewell = some place →
    (s.streams stream).receiver? = some receiver →
      s.session.sender.log.length < place + s.session.sender.size

/-- No stream subscribes once a termination has sent `Terminated`, and messages
are sent after it only while the channel keeps it for the streams that listen. -/
def Heard (s : System ρ π κ τ α) : Action π κ τ α → Prop
  | .subscribe _ _ _ => s.farewell = none
  | .send _ => Room s
  | .closeEventStreams => Room s
  | _ => True

structure Signals (s : System ρ π κ τ α) : Prop where
  size : 0 < s.session.sender.size
  placed : ∀ place, s.farewell = some place →
    s.session.sender.log[place]? = some .terminated
  sole : ∀ left right, s.terminators left = .signalling → s.terminators right = .signalling →
    left = right
  pending : ∀ call, s.terminators call = .signalling →
    s.farewell = none ∧ s.session.terminated = true
  told : s.session.terminated = true →
    s.farewell ≠ none ∨ ∃ call, s.terminators call = .signalling
  untold : s.session.terminated = false → s.farewell = none
  inside : ∀ stream receiver, (s.streams stream).receiver? = some receiver →
    receiver ≤ s.session.sender.log.length
  ahead : ∀ stream receiver place, (s.streams stream).receiver? = some receiver →
    s.farewell = some place →
      receiver ≤ place ∧ s.session.sender.log.length ≤ place + s.session.sender.size

variable [DecidableEq π] [DecidableEq κ] [DecidableEq τ] {s s' : System ρ π κ τ α}
  {a : Action π κ τ α}

theorem signals_init (replayCapacity : Nat) : Signals (lts ρ π κ τ α replayCapacity).init where
  size := Channel.size_pos _ _
  placed := by
    intro place sent
    cases sent
  sole := by
    intro left right phase
    cases phase
  pending := by
    intro call phase
    cases phase
  told := by
    intro terminated
    cases terminated
  untold := fun _ => rfl
  inside := by
    intro stream receiver listens
    cases listens
  ahead := by
    intro stream receiver place listens
    cases listens

omit [DecidableEq π] [DecidableEq τ] in
/-- A step that changes nothing but one stream. -/
theorem Signals.move {stream : κ} {phase : Stream α} (held : Signals s)
    (next : ∀ receiver, phase.receiver? = some receiver →
      receiver ≤ s.session.sender.log.length ∧ ∀ place, s.farewell = some place →
        receiver ≤ place ∧ s.session.sender.log.length ≤ place + s.session.sender.size) :
    Signals (s.stream stream phase) where
  size := held.size
  placed := held.placed
  sole := held.sole
  pending := held.pending
  told := held.told
  untold := held.untold
  inside := by
    intro other receiver listens
    by_cases mine : other = stream
    · simp only [System.stream, mine, Function.update_self] at listens
      exact (next receiver listens).1
    · simp only [System.stream, Function.update_of_ne mine] at listens
      exact held.inside other receiver listens
  ahead := by
    intro other receiver place listens sent
    by_cases mine : other = stream
    · simp only [System.stream, mine, Function.update_self] at listens
      exact (next receiver listens).2 place sent
    · simp only [System.stream, Function.update_of_ne mine] at listens
      exact held.ahead other receiver place listens sent

omit [DecidableEq π] [DecidableEq κ] [DecidableEq τ] in
/-- A message sent while the channel has room for the `Terminated` before it. -/
theorem Signals.send {publishers : π → Publisher α} {session : Session ρ α}
    {message : SessionEvent α} (held : Signals s) (room : Room s)
    (sent : session.sender = s.session.sender.send message)
    (flag : session.terminated = s.session.terminated) :
    Signals { s with publishers := publishers, session := session } where
  size := by
    rw [sent]
    exact held.size
  placed := by
    intro place farewell
    have before := held.placed place farewell
    rw [sent, Channel.send_log,
      List.getElem?_append_left (List.getElem?_eq_some_iff.mp before).1]
    exact before
  sole := held.sole
  pending := by
    intro call phase
    rw [flag]
    exact held.pending call phase
  told := by
    intro terminated
    rw [flag] at terminated
    exact held.told terminated
  untold := by
    intro running
    rw [flag] at running
    exact held.untold running
  inside := by
    intro stream receiver listens
    rw [sent, Channel.send_log, List.length_append]
    exact Nat.le_trans (held.inside stream receiver listens) (Nat.le_add_right _ _)
  ahead := by
    intro stream receiver place listens farewell
    rw [sent, Channel.send_log, Channel.send_size, List.length_append]
    exact ⟨(held.ahead stream receiver place listens farewell).1,
      room place stream receiver farewell listens⟩

omit [DecidableEq π] [DecidableEq κ] [DecidableEq τ] in
/-- Where a turn leaves the receiver of a stream that the message is ahead of. -/
theorem Signals.turn {stream : κ} {state : StreamState α} {next : Stream α} {receiver : Nat}
    (held : Signals s) (live : s.streams stream = .live state)
    (turns : Turns s.session s.pushed state next) (listens : next.receiver? = some receiver) :
    receiver ≤ s.session.sender.log.length ∧ ∀ place, s.farewell = some place →
      receiver ≤ place ∧ s.session.sender.log.length ≤ place + s.session.sender.size := by
  have here : (s.streams stream).receiver? = some state.receiver := by rw [live]; rfl
  have inside := held.inside stream state.receiver here
  have ahead := fun place => held.ahead stream state.receiver place here
  have passes : ∀ event, s.session.sender.log[state.receiver]? = some (.message event) →
      state.receiver + 1 ≤ s.session.sender.log.length ∧ ∀ place, s.farewell = some place →
        state.receiver + 1 ≤ place ∧
          s.session.sender.log.length ≤ place + s.session.sender.size := by
    intro event read
    refine ⟨(List.getElem?_eq_some_iff.mp read).1, ?_⟩
    intro place farewell
    obtain ⟨upTo, room⟩ := ahead place farewell
    -- what the receiver has just read is not the `Terminated`
    have different : state.receiver ≠ place := by
      intro same
      have := held.placed place farewell
      rw [← same, read] at this
      cases this
    omega
  cases turns with
  | preamble item rest items =>
      cases listens
      exact ⟨inside, ahead⟩
  | replay event rest first events =>
      cases listens
      exact ⟨inside, ahead⟩
  | wait first second drained =>
      cases listens
      exact ⟨inside, ahead⟩
  | receive event first second read new =>
      cases listens
      exact passes event read
  | skip event first second read old =>
      cases listens
      exact passes event read
  | finish first second read => cases listens
  | lag first second behind =>
      cases listens
      refine ⟨Nat.sub_le _ _, ?_⟩
      intro place farewell
      obtain ⟨upTo, room⟩ := ahead place farewell
      exact ⟨Nat.sub_le_iff_le_add.mpr room, room⟩

omit [DecidableEq π] [DecidableEq κ] in
theorem Signals.swapTerminated {call : τ} (held : Signals s)
    (idle : s.terminators call = .idle) :
    Signals { s.terminator call (if s.session.terminated then .finished else .signalling) with
      session := { s.session with terminated := true } } := by
  by_cases again : s.session.terminated = true
  · simp only [again, if_true]
    have phases : ∀ other, Function.update s.terminators call .finished other = .signalling →
        s.terminators other = .signalling := by
      intro other after
      rcases phase_of_update after with ⟨_, impossible⟩ | ⟨_, old⟩
      · cases impossible
      · exact old
    refine ⟨held.size, held.placed, ?_, ?_, ?_, ?_, held.inside, held.ahead⟩
    · intro left right first second
      exact held.sole left right (phases left first) (phases right second)
    · intro other after
      exact ⟨(held.pending other (phases other after)).1, rfl⟩
    · intro _
      rcases held.told again with sent | ⟨other, phase⟩
      · exact .inl sent
      · exact .inr ⟨other, phase_keep phase (by rw [idle]; exact nofun)⟩
    · intro running
      cases running
  · have running : s.session.terminated = false := Bool.not_eq_true _ ▸ again
    have nobody : ∀ other, s.terminators other ≠ .signalling := by
      intro other phase
      exact again (held.pending other phase).2
    simp only [running, Bool.false_eq_true, if_false]
    have mine : ∀ other, Function.update s.terminators call .signalling other = .signalling →
        other = call := by
      intro other after
      rcases phase_of_update after with ⟨same, _⟩ | ⟨_, old⟩
      · exact same
      · exact absurd old (nobody other)
    refine ⟨held.size, held.placed, ?_, ?_, ?_, ?_, held.inside, held.ahead⟩
    · intro left right first second
      rw [mine left first, mine right second]
    · intro other _
      exact ⟨held.untold running, rfl⟩
    · intro _
      exact .inr ⟨call, Function.update_self ..⟩
    · intro impossible
      cases impossible

omit [DecidableEq π] [DecidableEq κ] in
theorem Signals.sendTerminated {call : τ} (held : Signals s)
    (signalling : s.terminators call = .signalling) :
    Signals { s.terminator call .finished with
      session := s.session.send .terminated
      farewell := some s.session.sender.log.length } := by
  obtain ⟨unsent, terminated⟩ := held.pending call signalling
  have nobody : ∀ other, Function.update s.terminators call .finished other ≠
      .signalling := by
    intro other after
    rcases phase_of_update after with ⟨_, impossible⟩ | ⟨different, old⟩
    · cases impossible
    · exact different (held.sole other call old signalling)
  refine ⟨held.size, ?_, ?_, ?_, ?_, ?_, ?_, ?_⟩
  · intro place farewell
    cases farewell
    exact List.getElem?_concat_length
  · intro left right first
    exact absurd first (nobody left)
  · intro other phase
    exact absurd phase (nobody other)
  · intro _
    exact .inl (Option.some_ne_none _)
  · intro running
    exact absurd terminated (Bool.eq_false_iff.mp running)
  · intro stream receiver listens
    simp only [Session.send, Channel.send_log, List.length_append]
    exact Nat.le_trans (held.inside stream receiver listens) (Nat.le_add_right _ _)
  · intro stream receiver place listens farewell
    cases farewell
    have := held.size
    simp only [Session.send, Channel.send_log, Channel.send_size, List.length_append,
      List.length_singleton]
    exact ⟨held.inside stream receiver listens, by omega⟩

theorem Signals.step (held : Signals s) (heard : Heard s a) (taken : step s a = some s') :
    Signals s' := by
  cases step_takes taken with
  | fetchAdd publisher payload idle =>
      exact ⟨held.size, held.placed, held.sole, held.pending, held.told, held.untold, held.inside,
        held.ahead⟩
  | push publisher event numbered =>
      exact ⟨held.size, held.placed, held.sole, held.pending, held.told, held.untold, held.inside,
        held.ahead⟩
  | send publisher event pushed => exact held.send heard rfl rfl
  | obtain stream idle =>
      apply held.move
      intro receiver listens
      cases listens
  | subscribe stream after preamble obtained =>
      apply held.move
      intro receiver listens
      cases listens
      refine ⟨Nat.le_refl _, ?_⟩
      intro place farewell
      have unsent : s.farewell = none := heard
      rw [unsent] at farewell
      cases farewell
  | snapshot stream after preamble receiver subscribed =>
      have here : (s.streams stream).receiver? = some receiver := by rw [subscribed]; rfl
      apply held.move
      intro receiver' listens
      cases listens
      exact ⟨held.inside stream receiver here, fun place => held.ahead stream receiver place here⟩
  | poll stream state live =>
      apply held.move
      intro receiver listens
      exact held.turn live (turns_turn s.session s.pushed state) listens
  | drop stream state live =>
      apply held.move
      intro receiver listens
      cases listens
  | unregister =>
      exact ⟨held.size, held.placed, held.sole, held.pending, held.told, held.untold, held.inside,
        held.ahead⟩
  | swapTerminated call idle => exact held.swapTerminated idle
  | sendTerminated call signalling => exact held.sendTerminated signalling
  | closeEventStreams registered => exact held.send heard rfl rfl

theorem Signals.reach {replayCapacity : Nat}
    (reach : (lts ρ π κ τ α replayCapacity).Reach Heard s) : Signals s :=
  reach.invariant (signals_init replayCapacity) fun _ _ _ held heard taken =>
    held.step heard taken

/-! ## Polled streams end -/

/-- No terminator is about to signal, and one has. -/
def Told (s : System ρ π κ τ α) : Prop :=
  s.session.terminated = true ∧ ∀ call, s.terminators call ≠ .signalling

omit [DecidableEq π] [DecidableEq κ] [DecidableEq τ] in
/-- The `Terminated` of a terminated session is ahead of every stream that
listens. -/
theorem Signals.place {stream : κ} {state : StreamState α} (held : Signals s) (told : Told s)
    (live : s.streams stream = .live state) :
    ∃ place, s.farewell = some place ∧ state.receiver ≤ place ∧
      place < s.session.sender.log.length := by
  rcases held.told told.1 with sent | ⟨call, signalling⟩
  · obtain ⟨place, farewell⟩ := Option.ne_none_iff_exists'.mp sent
    have here : (s.streams stream).receiver? = some state.receiver := by rw [live]; rfl
    exact ⟨place, farewell, (held.ahead stream state.receiver place here farewell).1,
      (List.getElem?_eq_some_iff.mp (held.placed place farewell)).1⟩
  · exact absurd signalling (told.2 call)

/-- How far a stream is from its end: the distance of its receiver from the
`Terminated`, and what it has queued. -/
def rank (stream : κ) (s : System ρ π κ τ α) : Nat ×ₗ Nat :=
  match s.streams stream with
  | .live state => toLex (s.farewell.getD 0 + 1 - state.receiver,
      state.preamble.length + state.replay.length)
  | _ => toLex (0, 0)

omit [DecidableEq π] [DecidableEq κ] [DecidableEq τ] in
theorem rank_live {stream : κ} {state : StreamState α} {place : Nat}
    (live : s.streams stream = .live state) (farewell : s.farewell = some place) :
    rank stream s = toLex (place + 1 - state.receiver,
      state.preamble.length + state.replay.length) := by
  simp only [rank, live, farewell, Option.getD_some]

/-- A termination stays told. -/
theorem told_step (told : Told s) (taken : step s a = some s') : Told s' := by
  obtain ⟨terminated, nobody⟩ := told
  cases step_takes taken with
  | fetchAdd publisher payload idle => exact ⟨terminated, nobody⟩
  | push publisher event numbered => exact ⟨terminated, nobody⟩
  | send publisher event pushed => exact ⟨terminated, nobody⟩
  | obtain moved idle => exact ⟨terminated, nobody⟩
  | subscribe moved after preamble obtained => exact ⟨terminated, nobody⟩
  | snapshot moved after preamble receiver subscribed => exact ⟨terminated, nobody⟩
  | poll moved polled _ => exact ⟨terminated, nobody⟩
  | drop moved dropped _ => exact ⟨terminated, nobody⟩
  | unregister => exact ⟨terminated, nobody⟩
  | swapTerminated call idle =>
      simp only [terminated, if_true]
      refine ⟨rfl, ?_⟩
      intro other after
      rcases phase_of_update after with ⟨_, impossible⟩ | ⟨_, old⟩
      · cases impossible
      · exact nobody other old
  | sendTerminated call signalling => exact absurd signalling (nobody call)
  | closeEventStreams registered => exact ⟨terminated, nobody⟩

/-- Only the one terminator that signals places the `Terminated`. -/
theorem farewell_step (told : Told s) (taken : step s a = some s') :
    s'.farewell = s.farewell := by
  cases step_takes taken with
  | sendTerminated call signalling => exact absurd signalling (told.2 call)
  | fetchAdd publisher payload idle => rfl
  | push publisher event numbered => rfl
  | send publisher event pushed => rfl
  | obtain moved idle => rfl
  | subscribe moved after preamble obtained => rfl
  | snapshot moved after preamble receiver subscribed => rfl
  | poll moved polled _ => rfl
  | drop moved dropped _ => rfl
  | unregister => rfl
  | swapTerminated call idle => rfl
  | closeEventStreams registered => rfl

/-- A stream is touched by its own actions only. -/
theorem streams_frame {stream : κ} {state : StreamState α} (taken : step s a = some s')
    (live : s.streams stream = .live state) (notPolled : a ≠ .poll stream)
    (notDropped : a ≠ .drop stream) : s'.streams stream = .live state := by
  have others : ∀ moved phase, stream ≠ moved →
      Function.update s.streams moved phase stream = .live state := by
    intro moved phase different
    rw [Function.update_of_ne different]
    exact live
  have fresh : ∀ moved phase, (∀ state, s.streams moved ≠ .live state) →
      Function.update s.streams moved phase stream = .live state := by
    intro moved phase notLive
    refine others moved phase ?_
    intro same
    exact notLive state (same ▸ live)
  cases step_takes taken with
  | obtain moved idle => exact fresh moved _ (by rw [idle]; exact nofun)
  | subscribe moved after preamble obtained => exact fresh moved _ (by rw [obtained]; exact nofun)
  | snapshot moved after preamble receiver subscribed =>
      exact fresh moved _ (by rw [subscribed]; exact nofun)
  | poll moved polled _ => exact others moved _ fun same => notPolled (by rw [same])
  | drop moved dropped _ => exact others moved _ fun same => notDropped (by rw [same])
  | fetchAdd publisher payload idle => exact live
  | push publisher event numbered => exact live
  | send publisher event pushed => exact live
  | unregister => exact live
  | swapTerminated call idle => exact live
  | sendTerminated call signalling => exact live
  | closeEventStreams registered => exact live

/-- A turn of a stream that the `Terminated` is ahead of ends it or brings it
closer to its end. -/
theorem rank_poll {stream : κ} {state : StreamState α} (held : Signals s) (told : Told s)
    (live : s.streams stream = .live state) (taken : step s (.poll stream) = some s') :
    (∃ final, s'.streams stream = .ended final) ∨
      ((∃ next, s'.streams stream = .live next) ∧ rank stream s' < rank stream s) := by
  obtain ⟨place, farewell, ahead, inLog⟩ := held.place told live
  have before := rank_live live farewell
  have after : s' = s.stream stream (turn s.session s.pushed state) := by
    simp only [step, live] at taken
    exact (Option.some.inj taken).symm
  have moved : s'.streams stream = turn s.session s.pushed state := by
    rw [after]
    exact Function.update_self ..
  have unchanged : s'.farewell = some place := by
    rw [after]
    exact farewell
  have turns := turns_turn s.session s.pushed state
  generalize turn s.session s.pushed state = next at turns moved
  cases turns with
  | preamble item rest items =>
      refine .inr ⟨⟨_, moved⟩, ?_⟩
      rw [rank_live moved unchanged, before, Prod.Lex.toLex_lt_toLex]
      refine .inr ⟨rfl, ?_⟩
      simp only [items, List.length_cons]
      omega
  | replay event rest first events =>
      refine .inr ⟨⟨_, moved⟩, ?_⟩
      rw [rank_live moved unchanged, before, Prod.Lex.toLex_lt_toLex]
      refine .inr ⟨rfl, ?_⟩
      simp only [emit, first, events, List.length_cons]
      omega
  | wait first second drained => omega
  | receive event first second read new =>
      refine .inr ⟨⟨_, moved⟩, ?_⟩
      rw [rank_live moved unchanged, before, Prod.Lex.toLex_lt_toLex]
      refine .inl ?_
      simp only [emit]
      omega
  | skip event first second read old =>
      refine .inr ⟨⟨_, moved⟩, ?_⟩
      rw [rank_live moved unchanged, before, Prod.Lex.toLex_lt_toLex]
      refine .inl ?_
      simp only
      omega
  | finish first second read => exact .inl ⟨_, moved⟩
  | lag first second behind =>
      refine .inr ⟨⟨_, moved⟩, ?_⟩
      rw [rank_live moved unchanged, before, Prod.Lex.toLex_lt_toLex]
      refine .inl ?_
      simp only [refill]
      omega

/-- A step ends a stream that the `Terminated` is ahead of, or takes it no
further from its end, and closer if it is polled. -/
theorem rank_step {stream : κ} {state : StreamState α} {place : Nat} (held : Signals s)
    (told : Told s) (farewell : s.farewell = some place)
    (live : s.streams stream = .live state) (taken : step s a = some s')
    (kept : a ≠ .drop stream) :
    (∃ final, s'.streams stream = .ended final) ∨
      ((∃ next, s'.streams stream = .live next) ∧ rank stream s' ≤ rank stream s ∧
        (a = .poll stream → rank stream s' < rank stream s)) := by
  by_cases polled : a = .poll stream
  · subst polled
    rcases rank_poll held told live taken with ended | ⟨next, lower⟩
    · exact .inl ended
    · exact .inr ⟨next, le_of_lt lower, fun _ => lower⟩
  · have farewell' := (farewell_step told taken).trans farewell
    have same := streams_frame taken live polled kept
    refine .inr ⟨⟨state, same⟩, ?_, fun polls => absurd polls polled⟩
    rw [rank_live live farewell, rank_live same farewell']

/-- **Streams of a terminated session end**, along every run in which streams
subscribe before the `Terminated` is sent and the channel keeps it until they
have read it.  No stream of a terminated session is left with nothing queued and
nothing to read, and in every continuation one that is not dropped and is polled
for as long as it lives returns `None` after finitely many turns. -/
theorem terminated_streams_end (replayCapacity : Nat) (s : System ρ π κ τ α)
    (reach : (lts ρ π κ τ α replayCapacity).Reach Heard s) (told : Told s) (stream : κ)
    (state : StreamState α) (live : s.streams stream = .live state) :
    ¬ (state.preamble = [] ∧ state.replay = [] ∧
      s.session.sender.log.length ≤ state.receiver) ∧
    ∀ run : (lts ρ π κ τ α replayCapacity).Execution Heard, run.state 0 = s →
      (∀ n, run.action n ≠ .drop stream) →
      (∀ n, ∃ m, n ≤ m ∧ (run.action m = .poll stream ∨
        ∀ next, (run.state m).streams stream ≠ .live next)) →
      ∃ n final, (run.state n).streams stream = .ended final := by
  have held := Signals.reach reach
  obtain ⟨place, farewell, ahead, inLog⟩ := held.place told live
  constructor
  · intro drained
    omega
  · intro run start kept polled
    by_contra absent
    have never : ∀ n final, (run.state n).streams stream ≠ .ended final := by
      intro n final ended
      exact absent ⟨n, final, ended⟩
    have session : ∀ n, Signals (run.state n) ∧ Told (run.state n) ∧
        (run.state n).farewell = some place := by
      refine run.invariant (I := fun t => Signals t ∧ Told t ∧ t.farewell = some place)
        (start ▸ ⟨held, told, farewell⟩) ?_
      intro t a t' here heard taken
      exact ⟨here.1.step heard taken, told_step here.2.1 taken,
        (farewell_step here.2.1 taken).trans here.2.2⟩
    -- a stream that never ends stays live
    have along : ∀ n, ∃ next, (run.state n).streams stream = .live next := by
      intro n
      induction n with
      | zero =>
          rw [start]
          exact ⟨state, live⟩
      | succ n ih =>
          obtain ⟨next, live⟩ := ih
          obtain ⟨signals, told, farewell⟩ := session n
          rcases rank_step signals told farewell live (run.step n) (kept n) with
            ⟨final, ended⟩ | ⟨lives, _⟩
          · exact absurd ended (never (n + 1) final)
          · exact lives
    have lowers : ∀ n, rank stream (run.state (n + 1)) ≤ rank stream (run.state n) ∧
        (run.action n = .poll stream →
          rank stream (run.state (n + 1)) < rank stream (run.state n)) := by
      intro n
      obtain ⟨signals, told, farewell⟩ := session n
      obtain ⟨next, live⟩ := along n
      rcases rank_step signals told farewell live (run.step n) (kept n) with
        ⟨final, ended⟩ | ⟨_, lower⟩
      · exact absurd ended (never (n + 1) final)
      · exact lower
    have ends : ∃ n, ∀ next, (run.state n).streams stream ≠ .live next := by
      apply run.eventually (fun t => ∀ next, t.streams stream ≠ .live next)
        (fun a => a = .poll stream) (rank stream)
      · intro n
        rcases polled n with ⟨m, later, polls | gone⟩
        · exact ⟨m, later, .inr polls⟩
        · exact ⟨m, later, .inl gone⟩
      · exact fun n _ => (lowers n).1
      · exact fun n mine _ _ => (lowers n).2 mine
    obtain ⟨n, gone⟩ := ends
    obtain ⟨next, live⟩ := along n
    exact gone next live

/-! ## Streams that do not hear -/

/-- The session is out of the map and terminated, and the channel has no
`Terminated` for the stream any more. -/
def Deaf (stream : κ) (s : System ρ π κ τ α) : Prop :=
  s.registered = false ∧ Told s ∧
    (s.streams stream = .dropped ∨ ∃ state, s.streams stream = .live state ∧
      ∀ j, state.receiver ≤ j → s.session.sender.log[j]? ≠ some .terminated)

theorem deaf_step {stream : κ} (deaf : Deaf stream s) (taken : step s a = some s') :
    Deaf stream s' := by
  obtain ⟨gone, told, phase⟩ := deaf
  have told' := told_step told taken
  have keep : ∀ moved next, s.streams moved ≠ .dropped → (∀ state, s.streams moved ≠ .live state) →
      Deaf stream (s.stream moved next) := by
    intro moved next notDropped notLive
    have other : stream ≠ moved := by
      intro same
      rcases phase with dropped | ⟨state, live, _⟩
      · exact notDropped (same ▸ dropped)
      · exact notLive state (same ▸ live)
    refine ⟨gone, told, ?_⟩
    simp only [System.stream, Function.update_of_ne other]
    exact phase
  cases step_takes taken with
  | fetchAdd publisher payload idle => exact ⟨gone, told, phase⟩
  | push publisher event numbered => exact ⟨gone, told, phase⟩
  | send publisher event pushed =>
      refine ⟨gone, told, ?_⟩
      rcases phase with dropped | ⟨state, live, silent⟩
      · exact .inl dropped
      · refine .inr ⟨state, live, ?_⟩
        intro j later
        simp only [Session.send, Channel.send_log]
        rcases Nat.lt_or_ge j s.session.sender.log.length with old | new
        · rw [List.getElem?_append_left old]
          exact silent j later
        · rw [List.getElem?_append_right new, List.getElem?_singleton]
          split
          · exact nofun
          · exact nofun
  | obtain moved idle => exact keep moved _ (by rw [idle]; exact nofun) (by rw [idle]; exact nofun)
  | subscribe moved after preamble obtained =>
      exact keep moved _ (by rw [obtained]; exact nofun) (by rw [obtained]; exact nofun)
  | snapshot moved after preamble receiver subscribed =>
      exact keep moved _ (by rw [subscribed]; exact nofun) (by rw [subscribed]; exact nofun)
  | poll moved polled live =>
      refine ⟨gone, told, ?_⟩
      by_cases mine : stream = moved
      · subst mine
        rcases phase with dropped | ⟨state, stillLive, silent⟩
        · rw [dropped] at live
          cases live
        · rw [stillLive] at live
          cases live
          simp only [System.stream, Function.update_self]
          refine .inr ?_
          have turns := turns_turn s.session s.pushed polled
          generalize turn s.session s.pushed polled = next at turns
          cases turns with
          | preamble item rest items => exact ⟨_, rfl, silent⟩
          | replay event rest first events => exact ⟨_, rfl, silent⟩
          | wait first second drained => exact ⟨_, rfl, silent⟩
          | receive event first second read new =>
              exact ⟨_, rfl, fun j later => silent j (Nat.le_of_succ_le later)⟩
          | skip event first second read old =>
              exact ⟨_, rfl, fun j later => silent j (Nat.le_of_succ_le later)⟩
          | finish first second read => exact absurd read (silent _ (Nat.le_refl _))
          | lag first second behind =>
              refine ⟨_, rfl, fun j later => silent j (Nat.le_trans ?_ later)⟩
              simp only [refill]
              omega
      · simp only [System.stream, Function.update_of_ne mine]
        exact phase
  | drop moved dropped live =>
      refine ⟨gone, told, ?_⟩
      by_cases mine : stream = moved
      · refine .inl ?_
        simp only [System.stream, mine, Function.update_self]
      · simp only [System.stream, Function.update_of_ne mine]
        exact phase
  | unregister => exact ⟨rfl, told, phase⟩
  | swapTerminated call idle => exact ⟨gone, told', phase⟩
  | sendTerminated call signalling => exact absurd signalling (told.2 call)
  | closeEventStreams registered =>
      rw [gone] at registered
      cases registered

theorem deaf_steps {stream : κ} {replayCapacity : Nat} (deaf : Deaf stream s)
    (run : (lts ρ π κ τ α replayCapacity).Steps Lts.Always s s') :
    ∀ final, s'.streams stream ≠ .ended final := by
  have still : Deaf stream s' :=
    run.preserved (fun _ _ _ deaf _ taken => deaf_step deaf taken) deaf
  intro final ended
  rcases still.2.2 with dropped | ⟨state, live, _⟩
  · rw [ended] at dropped
    cases dropped
  · rw [ended] at live
    cases live

end Termination

/-- A stream is opened, an event is published and the session is deleted; the
stream has both to read. -/
theorem terminated_streams_end_deleted :
    ∃ (s : System Unit Unit Unit Unit Nat) (state : StreamState Nat),
      s.session.terminated = true ∧ s.streams () = .live state ∧
      ¬ (state.preamble = [] ∧ state.replay = [] ∧
        s.session.sender.log.length ≤ state.receiver) := by
  have meets : (lts Unit Unit Unit Unit Nat 256).Meets Heard (lts _ _ _ _ _ 256).init
      [.obtain (), .subscribe () 0 [], .snapshot (), .fetchAdd () 10, .push (), .send (),
        .unregister, .swapTerminated (), .sendTerminated ()] := by
    refine ⟨trivial, rfl, trivial, trivial, trivial, ?_, trivial, trivial, trivial, trivial⟩
    intro place stream receiver farewell
    cases farewell
  have deleted : ∃ (s : System Unit Unit Unit Unit Nat) (state : StreamState Nat),
      (lts Unit Unit Unit Unit Nat 256).Reach Heard s ∧ Told s ∧ s.streams () = .live state :=
    ⟨_, _, Lts.reach_of_exec _ meets rfl, ⟨rfl, nofun⟩, rfl⟩
  obtain ⟨s, state, reach, told, live⟩ := deleted
  exact ⟨s, state, told.1, live, (terminated_streams_end 256 s reach told () state live).1⟩

/-- The session is looked up for a stream, deleted, and then subscribed to.  The
stream waits with nothing to read, and in no later state has it ended. -/
theorem late_subscriber_waits :
    ∃ (s : System Unit Unit Unit Unit Nat) (state : StreamState Nat),
      (lts Unit Unit Unit Unit Nat 256).Reachable s ∧ Told s ∧ s.streams () = .live state ∧
      state.preamble = [] ∧ state.replay = [] ∧
      s.session.sender.log.length ≤ state.receiver ∧
      ∀ s', (lts Unit Unit Unit Unit Nat 256).Steps Lts.Always s s' →
        ∀ final, s'.streams () ≠ .ended final := by
  have waiting : ∃ (s : System Unit Unit Unit Unit Nat) (state : StreamState Nat),
      (lts Unit Unit Unit Unit Nat 256).Reachable s ∧ Told s ∧ s.streams () = .live state ∧
      state.preamble = [] ∧ state.replay = [] ∧ s.registered = false ∧
      s.session.sender.log.length ≤ state.receiver :=
    ⟨_, _, Lts.reachable_of_exec [.obtain (), .unregister, .swapTerminated (),
      .sendTerminated (), .subscribe () 0 [], .snapshot ()] rfl, ⟨rfl, nofun⟩, rfl, rfl, rfl, rfl,
      by decide⟩
  obtain ⟨s, state, reach, told, live, first, second, gone, drained⟩ := waiting
  refine ⟨s, state, reach, told, live, first, second, drained, ?_⟩
  intro s' run
  refine deaf_steps ⟨gone, told, .inr ⟨state, live, ?_⟩⟩ run
  intro j later read
  have := (List.getElem?_eq_some_iff.mp read).1
  omega

end RustZero.McpEvents
