import RustZero.McpEvents

/-!
# Delivery of session events

An event stream trusts that ids only grow: it emits its snapshot of the deque in
the order it finds it, and drops every message whose id is not above the last one
emitted.  `publish` draws the id before it takes the lock and sends after it has
released it, so neither the deque nor the channel need follow the ids.

* `InOrder` is the condition that no publication pushes, or sends, while one with
  a smaller id still has to.
* `Numbered`, `messages` and `Aligned`: along such runs the events pushed carry
  the ids 1, 2, ..., the deque is the latest part of them and the channel carries
  the first part.
* `Follows` is the invariant of one stream.  `Within state n` says that the
  stream has come to `n` with what it has emitted or has in its replay queue;
  everything it was promised up to there is emitted, queued or was missed, and
  what the channel had before its receiver is not beyond it.
* `streams_deliver_in_order` and, without the condition,
  `overtaken_events_are_lost`.
-/

namespace RustZero.McpEvents

open Lib Mcp

section Numbering

variable {α : Type} {pushed : List (StoredEvent α)} {event other : StoredEvent α}

/-! ## Ids in the order of the pushes -/

/-- The events carry the ids 1, 2, ... -/
def Numbered (pushed : List (StoredEvent α)) : Prop :=
  ∀ i event, pushed[i]? = some event → event.id = i + 1

theorem Numbered.concat (numbered : Numbered pushed) (next : event.id = pushed.length + 1) :
    Numbered (pushed ++ [event]) := by
  intro i later found
  rcases Nat.lt_or_ge i pushed.length with old | new
  · rw [List.getElem?_append_left old] at found
    exact numbered i later found
  · rw [List.getElem?_append_right new] at found
    have last : i - pushed.length = 0 := by
      by_contra beyond
      rw [List.getElem?_singleton, if_neg beyond] at found
      cases found
    rw [last] at found
    cases found
    omega

/-- An event is at the place its id says. -/
theorem Numbered.getElem? (numbered : Numbered pushed) (member : event ∈ pushed) :
    pushed[event.id - 1]? = some event ∧ 0 < event.id ∧ event.id ≤ pushed.length := by
  obtain ⟨i, found⟩ := List.mem_iff_getElem?.mp member
  have id := numbered i event found
  have bound := (List.getElem?_eq_some_iff.mp found).1
  have place : event.id - 1 = i := by omega
  exact ⟨by rw [place, found], by omega, by omega⟩

theorem Numbered.unique (numbered : Numbered pushed) (left : event ∈ pushed)
    (right : other ∈ pushed) (same : event.id = other.id) : event = other := by
  have first := (numbered.getElem? left).1
  have second := (numbered.getElem? right).1
  rw [same, second] at first
  exact (Option.some.inj first).symm

theorem Numbered.sorted (numbered : Numbered pushed) :
    pushed.Pairwise fun left right => left.id < right.id := by
  rw [List.pairwise_iff_getElem]
  intro i j hi hj before
  have first := numbered i _ (List.getElem?_eq_getElem hi)
  have second := numbered j _ (List.getElem?_eq_getElem hj)
  omega

/-! ## The messages of the channel -/

def messages (log : List (SessionEvent α)) : List (StoredEvent α) :=
  log.filterMap fun
    | .message event => some event
    | .terminated => none

theorem messages_append (left right : List (SessionEvent α)) :
    messages (left ++ right) = messages left ++ messages right :=
  List.filterMap_append

theorem mem_messages {log : List (SessionEvent α)} :
    event ∈ messages log ↔ .message event ∈ log := by
  unfold messages
  rw [List.mem_filterMap]
  constructor
  · intro found
    obtain ⟨sent, member, same⟩ := found
    cases sent with
    | message stored =>
        cases same
        exact member
    | terminated => cases same
  · intro member
    exact ⟨_, member, rfl⟩

/-- The channel carries the first of the events pushed, in their order. -/
def Aligned (log : List (SessionEvent α)) (pushed : List (StoredEvent α)) : Prop :=
  messages log <+: pushed

/-- Whatever was pushed before a message of the channel was sent before it. -/
theorem Aligned.before {log : List (SessionEvent α)} {j : Nat} (aligned : Aligned log pushed)
    (numbered : Numbered pushed) (read : log[j]? = some (.message event))
    (member : other ∈ pushed) (smaller : other.id < event.id) :
    ∃ i, i < j ∧ log[i]? = some (.message other) := by
  have split : log = log.take j ++ .message event :: log.drop (j + 1) := by
    obtain ⟨bound, found⟩ := List.getElem?_eq_some_iff.mp read
    rw [← found, List.cons_getElem_drop_succ, List.take_append_drop]
  rw [Aligned, split, messages_append] at aligned
  have next : pushed[(messages (log.take j)).length]? = some event := by
    obtain ⟨rest, whole⟩ := aligned
    rw [← whole, List.append_assoc, List.getElem?_append_right (Nat.le_refl _), Nat.sub_self]
    rfl
  have place := numbered _ _ next
  obtain ⟨found, positive, bound⟩ := numbered.getElem? member
  have earlier : other ∈ messages (log.take j) := by
    have inside : other.id - 1 < (messages (log.take j)).length := by omega
    have pre := (List.prefix_append (messages (log.take j)) _).trans aligned
    rw [List.prefix_iff_eq_take.mp pre, List.mem_iff_getElem?]
    refine ⟨other.id - 1, ?_⟩
    rw [List.getElem?_take_of_lt inside, found]
  obtain ⟨i, sent⟩ := List.mem_iff_getElem?.mp (mem_messages.mp earlier)
  have before : i < j := by
    have := (List.getElem?_eq_some_iff.mp sent).1
    rw [List.length_take] at this
    omega
  rw [List.getElem?_take_of_lt before] at sent
  exact ⟨i, before, sent⟩

theorem Aligned.send {log : List (SessionEvent α)} (aligned : Aligned log pushed)
    (numbered : Numbered pushed) (member : event ∈ pushed)
    (next : event.id = (messages log).length + 1) :
    Aligned (log ++ [.message event]) pushed := by
  have found := (numbered.getElem? member).1
  rw [next, Nat.add_sub_cancel] at found
  obtain ⟨rest, whole⟩ := aligned
  rw [← whole, List.getElem?_append_right (Nat.le_refl _), Nat.sub_self] at found
  cases rest with
  | nil => cases found
  | cons first rest =>
      cases found
      refine ⟨rest, ?_⟩
      rw [messages_append, List.append_assoc]
      exact whole

end Numbering

/-! ## One stream -/

section Stream

variable {ρ α : Type}

/-- The stream has come to id `n`. -/
def Within (state : StreamState α) (n : Nat) : Prop :=
  n ≤ state.lastId ∨ ∃ event ∈ state.replay, n ≤ event.id

structure Follows (events pushed : List (StoredEvent α)) (log : List (SessionEvent α))
    (state : StreamState α) : Prop where
  ascending : state.emitted.Pairwise fun left right => left.id < right.id
  emitted : ∀ event ∈ state.emitted,
    state.after < event.id ∧ event.id ≤ state.lastId ∧ event ∈ pushed
  floor : state.after ≤ state.lastId
  origin : state.lastId = state.after ∨ state.lastId ≤ pushed.length
  queued : state.replay.Pairwise fun left right => left.id < right.id
  replay : ∀ event ∈ state.replay, state.lastId < event.id ∧ event ∈ pushed
  forgotten : state.forgotten ≤ pushed.length
  covered : ∀ event ∈ pushed.drop state.forgotten, state.after < event.id →
    Within state event.id →
      event ∈ state.emitted ∨ event ∈ state.replay ∨ event ∈ state.missed
  behind : ∀ j event, j < state.receiver → log[j]? = some (.message event) →
    Within state event.id
  receiver : state.receiver ≤ log.length
  missed : ∀ event ∈ state.missed, event ∈ pushed ∧ event ∉ events

variable {events pushed : List (StoredEvent α)} {log : List (SessionEvent α)}
  {state : StreamState α} {event : StoredEvent α}

/-- A stream that has just looked at the deque has come to everything pushed. -/
theorem within_of_filter (numbered : Numbered pushed) (latest : events <:+ pushed)
    (nonempty : events = [] → pushed = [])
    (fresh : state.replay = events.filter fun event => state.lastId < event.id)
    (member : event ∈ pushed) : Within state event.id := by
  have retained : events ≠ [] := by
    intro none
    rw [nonempty none] at member
    cases member
  have newest : (events.getLast retained).id = pushed.length := by
    obtain ⟨older, whole⟩ := latest
    have place : pushed[pushed.length - 1]? = some (events.getLast retained) := by
      have long := List.length_pos_of_ne_nil retained
      have total : pushed.length = older.length + events.length := by
        rw [← whole, List.length_append]
      rw [total, ← whole, List.getElem?_append_right (by omega), List.getLast_eq_getElem,
        List.getElem?_eq_some_iff]
      exact ⟨by omega, by congr 1; omega⟩
    have := numbered _ _ place
    have := List.length_pos_of_mem member
    omega
  have bound := (numbered.getElem? member).2.2
  by_cases reached : (events.getLast retained).id ≤ state.lastId
  · exact .inl (by omega)
  · refine .inr ⟨events.getLast retained, ?_, by omega⟩
    rw [fresh, List.mem_filter]
    exact ⟨List.getLast_mem retained, by simpa using reached⟩

theorem filter_queued (numbered : Numbered pushed) (latest : events <:+ pushed) (n : Nat) :
    (events.filter fun event => n < event.id).Pairwise fun left right => left.id < right.id :=
  (numbered.sorted.sublist latest.sublist).sublist List.filter_sublist

theorem follows_open {session : Session ρ α} {after receiver : Nat} {preamble : List String}
    (numbered : Numbered pushed) (latest : session.events <:+ pushed)
    (nonempty : session.events = [] → pushed = []) (aligned : Aligned log pushed)
    (subscribed : receiver ≤ log.length) :
    Follows session.events pushed log (openStream session pushed after preamble receiver) where
  ascending := List.Pairwise.nil
  emitted := by
    intro event member
    cases member
  floor := Nat.le_refl after
  origin := .inl rfl
  queued := filter_queued numbered latest after
  replay := by
    intro event member
    rw [openStream, List.mem_filter] at member
    exact ⟨of_decide_eq_true member.2, latest.subset member.1⟩
  forgotten := Nat.sub_le _ _
  covered := by
    intro event member above _
    refine .inr (.inl ?_)
    have kept : event ∈ session.events := by
      rw [List.suffix_iff_eq_drop.mp latest]
      exact member
    exact List.mem_filter.mpr ⟨kept, decide_eq_true above⟩
  behind := by
    intro j event _ read
    have sent : event ∈ messages log := mem_messages.mpr (List.mem_of_getElem? read)
    exact within_of_filter numbered latest nonempty rfl (aligned.subset sent)
  receiver := subscribed
  missed := by
    intro event member
    cases member

/-- A message sent does not concern what the receiver has read. -/
theorem Follows.send (follows : Follows events pushed log state) (sent : SessionEvent α) :
    Follows events pushed (log ++ [sent]) state where
  ascending := follows.ascending
  emitted := follows.emitted
  floor := follows.floor
  origin := follows.origin
  queued := follows.queued
  replay := follows.replay
  forgotten := follows.forgotten
  covered := follows.covered
  behind := by
    intro j event before read
    have bound := follows.receiver
    rw [List.getElem?_append_left (by omega)] at read
    exact follows.behind j event before read
  receiver := by
    rw [List.length_append]
    exact Nat.le_trans follows.receiver (Nat.le_add_right _ _)
  missed := follows.missed

theorem mem_pushEvent {capacity : Nat} {new : StoredEvent α}
    (member : event ∈ pushEvent capacity events new) : event ∈ events ∨ event = new := by
  unfold pushEvent at member
  rcases List.mem_append.mp member with kept | last
  · split at kept
    · exact .inl (List.mem_of_mem_drop kept)
    · exact .inl kept
  · exact .inr (List.mem_singleton.mp last)

/-- A new event is beyond what any stream has come to, unless it is one the
stream was not asked for. -/
theorem Follows.push {capacity : Nat} {new : StoredEvent α} (numbered : Numbered pushed)
    (next : new.id = pushed.length + 1) (follows : Follows events pushed log state) :
    Follows (pushEvent capacity events new) (pushed ++ [new]) log state where
  ascending := follows.ascending
  emitted := by
    intro event member
    obtain ⟨above, below, old⟩ := follows.emitted event member
    exact ⟨above, below, List.mem_append_left _ old⟩
  floor := follows.floor
  origin := by
    rw [List.length_append]
    rcases follows.origin with same | below
    · exact .inl same
    · exact .inr (by omega)
  queued := follows.queued
  replay := by
    intro event member
    obtain ⟨above, old⟩ := follows.replay event member
    exact ⟨above, List.mem_append_left _ old⟩
  forgotten := by
    rw [List.length_append]
    exact Nat.le_trans follows.forgotten (Nat.le_add_right _ _)
  covered := by
    intro event member above within
    rw [List.drop_append_of_le_length follows.forgotten] at member
    rcases List.mem_append.mp member with old | last
    · exact follows.covered event old above within
    · rw [List.mem_singleton.mp last] at above within
      rcases within with reached | ⟨queued, inReplay, reached⟩
      · rcases follows.origin with same | below
        · omega
        · omega
      · have := (numbered.getElem? (follows.replay queued inReplay).2).2.2
        omega
  behind := follows.behind
  receiver := follows.receiver
  missed := by
    intro event member
    obtain ⟨old, gone⟩ := follows.missed event member
    refine ⟨List.mem_append_left _ old, ?_⟩
    intro kept
    rcases mem_pushEvent kept with still | same
    · exact gone still
    · have := (numbered.getElem? old).2.2
      rw [same] at this
      omega

/-- Emitting a new event keeps the ids ascending. -/
theorem Follows.ascending_emit (follows : Follows events pushed log state)
    (new : state.lastId < event.id) :
    (state.emitted ++ [event]).Pairwise fun left right => left.id < right.id := by
  rw [List.pairwise_append]
  refine ⟨follows.ascending, List.pairwise_singleton _ _, ?_⟩
  intro left member right last
  rw [List.mem_singleton.mp last]
  have := (follows.emitted left member).2.1
  omega

theorem Follows.emitted_emit (follows : Follows events pushed log state)
    (new : state.lastId < event.id) (known : event ∈ pushed) :
    ∀ emitted ∈ state.emitted ++ [event],
      state.after < emitted.id ∧ emitted.id ≤ event.id ∧ emitted ∈ pushed := by
  intro emitted member
  rcases List.mem_append.mp member with old | last
  · obtain ⟨above, below, inPushed⟩ := follows.emitted emitted old
    exact ⟨above, Nat.le_of_lt (Nat.lt_of_le_of_lt below new), inPushed⟩
  · rw [List.mem_singleton.mp last]
    exact ⟨Nat.lt_of_le_of_lt follows.floor new, Nat.le_refl _, known⟩

/-- Emitting the next event of the replay queue. -/
theorem Follows.pop {rest : List (StoredEvent α)} (numbered : Numbered pushed)
    (follows : Follows events pushed log state) (queue : state.replay = event :: rest) :
    Follows events pushed log (emit { state with replay := rest } event) := by
  have queued := follows.queued
  rw [queue, List.pairwise_cons] at queued
  have head := follows.replay event (by rw [queue]; exact List.mem_cons_self)
  have bound := (numbered.getElem? head.2).2.2
  -- the stream has come exactly as far as before
  have within : ∀ n, Within (emit { state with replay := rest } event) n ↔ Within state n := by
    intro n
    unfold Within
    rw [queue, List.exists_mem_cons_iff]
    simp only [emit]
    constructor
    · intro reached
      rcases reached with mine | later
      · exact .inr (.inl mine)
      · exact .inr (.inr later)
    · intro reached
      rcases reached with before | mine | later
      · exact .inl (by omega)
      · exact .inl mine
      · exact .inr later
  constructor
  · exact follows.ascending_emit head.1
  · exact follows.emitted_emit head.1 head.2
  · exact Nat.le_of_lt (Nat.lt_of_le_of_lt follows.floor head.1)
  · exact .inr bound
  · exact queued.2
  · intro later member
    exact ⟨queued.1 later member, (follows.replay later (by
      rw [queue]
      exact List.mem_cons_of_mem _ member)).2⟩
  · exact follows.forgotten
  · intro other member above reached
    rcases follows.covered other member above ((within other.id).mp reached) with
      emitted | inReplay | missed
    · exact .inl (List.mem_append_left _ emitted)
    · rw [queue] at inReplay
      rcases List.mem_cons.mp inReplay with mine | later
      · exact .inl (List.mem_append_right _ (by rw [mine]; exact List.mem_singleton_self _))
      · exact .inr (.inl later)
    · exact .inr (.inr missed)
  · intro j other before read
    exact (within other.id).mpr (follows.behind j other before read)
  · exact follows.receiver
  · exact follows.missed

/-- Emitting the next message of the channel: everything between it and the last
one emitted was sent before it, so there is nothing between them. -/
theorem Follows.receive (numbered : Numbered pushed) (aligned : Aligned log pushed)
    (follows : Follows events pushed log state) (drained : state.replay = [])
    (read : log[state.receiver]? = some (.message event)) (new : state.lastId < event.id) :
    Follows events pushed log (emit { state with receiver := state.receiver + 1 } event) := by
  have known : event ∈ pushed :=
    aligned.subset (mem_messages.mpr (List.mem_of_getElem? read))
  have bound := (numbered.getElem? known).2.2
  have reached : ∀ n, Within state n → n ≤ state.lastId := by
    intro n within
    rcases within with below | ⟨queued, member, _⟩
    · exact below
    · rw [drained] at member
      cases member
  constructor
  · exact follows.ascending_emit new
  · exact follows.emitted_emit new known
  · exact Nat.le_of_lt (Nat.lt_of_le_of_lt follows.floor new)
  · exact .inr bound
  · exact follows.queued
  · intro later member
    have empty : later ∈ state.replay := member
    rw [drained] at empty
    cases empty
  · exact follows.forgotten
  · intro other member above within
    have otherKnown : other ∈ pushed := List.mem_of_mem_drop member
    have upTo : other.id ≤ event.id := by
      rcases within with below | ⟨queued, inReplay, _⟩
      · exact below
      · have empty : queued ∈ state.replay := inReplay
        rw [drained] at empty
        cases empty
    rcases Nat.lt_or_ge other.id event.id with smaller | larger
    · obtain ⟨i, before, sent⟩ := aligned.before numbered read otherKnown smaller
      rcases follows.covered other member above (follows.behind i other before sent) with
        emitted | inReplay | missed
      · exact .inl (List.mem_append_left _ emitted)
      · exact .inr (.inl inReplay)
      · exact .inr (.inr missed)
    · have same := numbered.unique otherKnown known (Nat.le_antisymm upTo larger)
      exact .inl (List.mem_append_right _ (by rw [same]; exact List.mem_singleton_self _))
  · intro j other before earlier
    rcases Nat.lt_or_ge j state.receiver with old | last
    · have := reached _ (follows.behind j other old earlier)
      exact .inl (Nat.le_of_lt (Nat.lt_of_le_of_lt this new))
    · have here : j = state.receiver := Nat.le_antisymm (Nat.lt_succ_iff.mp before) last
      rw [here, read] at earlier
      cases earlier
      exact .inl (Nat.le_refl _)
  · exact (List.getElem?_eq_some_iff.mp read).1
  · exact follows.missed

/-- Passing over a message that was emitted before. -/
theorem Follows.skip (follows : Follows events pushed log state)
    (read : log[state.receiver]? = some (.message event)) (old : event.id ≤ state.lastId) :
    Follows events pushed log { state with receiver := state.receiver + 1 } where
  ascending := follows.ascending
  emitted := follows.emitted
  floor := follows.floor
  origin := follows.origin
  queued := follows.queued
  replay := follows.replay
  forgotten := follows.forgotten
  covered := follows.covered
  behind := by
    intro j other before earlier
    rcases Nat.lt_or_ge j state.receiver with passed | last
    · exact follows.behind j other passed earlier
    · have here : j = state.receiver := Nat.le_antisymm (Nat.lt_succ_iff.mp before) last
      rw [here, read] at earlier
      cases earlier
      exact .inl old
  receiver := (List.getElem?_eq_some_iff.mp read).1
  missed := follows.missed

/-- Refilling from the deque: what is not in it any more is missed. -/
theorem Follows.refill {session : Session ρ α} {receiver : Nat} (numbered : Numbered pushed)
    (latest : session.events <:+ pushed) (nonempty : session.events = [] → pushed = [])
    (aligned : Aligned log pushed) (follows : Follows session.events pushed log state)
    (drained : state.replay = []) (inside : receiver ≤ log.length) :
    Follows session.events pushed log (refill session pushed state receiver) where
  ascending := follows.ascending
  emitted := follows.emitted
  floor := follows.floor
  origin := follows.origin
  queued := filter_queued numbered latest state.lastId
  replay := by
    intro event member
    obtain ⟨kept, above⟩ := List.mem_filter.mp member
    exact ⟨of_decide_eq_true above, latest.subset kept⟩
  forgotten := follows.forgotten
  covered := by
    intro event member above _
    have known : event ∈ pushed := List.mem_of_mem_drop member
    by_cases reached : event.id ≤ state.lastId
    · rcases follows.covered event member above (.inl reached) with emitted | inReplay | missed
      · exact .inl emitted
      · rw [drained] at inReplay
        cases inReplay
      · exact .inr (.inr (List.mem_append_left _ missed))
    · have beyond : state.lastId < event.id := Nat.not_le.mp reached
      by_cases kept : event ∈ session.events
      · exact .inr (.inl (List.mem_filter.mpr ⟨kept, decide_eq_true beyond⟩))
      · refine .inr (.inr (List.mem_append_right _ (List.mem_filter.mpr ⟨known, ?_⟩)))
        rw [Bool.and_eq_true]
        refine ⟨decide_eq_true beyond, ?_⟩
        rw [Bool.not_eq_true', List.any_eq_false]
        intro other inDeque same
        have equal := numbered.unique (latest.subset inDeque) known (beq_iff_eq.mp same)
        exact kept (equal ▸ inDeque)
  behind := by
    intro j event _ read
    have sent : event ∈ messages log := mem_messages.mpr (List.mem_of_getElem? read)
    exact within_of_filter numbered latest nonempty rfl (aligned.subset sent)
  receiver := inside
  missed := by
    intro event member
    rcases List.mem_append.mp member with old | new
    · exact follows.missed event old
    · obtain ⟨known, gone⟩ := List.mem_filter.mp new
      refine ⟨known, ?_⟩
      intro kept
      have absent := (Bool.and_eq_true _ _ ▸ gone).2
      rw [Bool.not_eq_true', List.any_eq_false] at absent
      exact absent event kept (beq_iff_eq.mpr rfl)

/-- The state of a stream that has been opened and not dropped. -/
def Stream.Opened (stream : Stream α) (state : StreamState α) : Prop :=
  stream = .live state ∨ stream = .ended state

theorem Follows.turn {session : Session ρ α} {next : Stream α} {state' : StreamState α}
    (numbered : Numbered pushed) (latest : session.events <:+ pushed)
    (nonempty : session.events = [] → pushed = [])
    (aligned : Aligned session.sender.log pushed)
    (follows : Follows session.events pushed session.sender.log state)
    (turns : Turns session pushed state next) (opened : next.Opened state') :
    Follows session.events pushed session.sender.log state' := by
  cases turns with
  | preamble item rest items =>
      rcases opened with live | ended
      · cases live
        exact ⟨follows.ascending, follows.emitted, follows.floor, follows.origin, follows.queued,
          follows.replay, follows.forgotten, follows.covered, follows.behind, follows.receiver,
          follows.missed⟩
      · cases ended
  | replay event rest first events =>
      rcases opened with live | ended
      · cases live
        exact follows.pop numbered events
      · cases ended
  | wait first second drained =>
      rcases opened with live | ended
      · cases live
        exact follows
      · cases ended
  | receive event first second read new =>
      rcases opened with live | ended
      · cases live
        exact follows.receive numbered aligned second read new
      · cases ended
  | skip event first second read old =>
      rcases opened with live | ended
      · cases live
        exact follows.skip read old
      · cases ended
  | finish first second read =>
      rcases opened with live | ended
      · cases live
      · cases ended
        exact follows
  | lag first second behind =>
      rcases opened with live | ended
      · cases live
        exact follows.refill numbered latest nonempty aligned second (Nat.sub_le _ _)
      · cases ended

end Stream

/-! ## The session -/

section Session

variable {ρ π κ τ α : Type}

def Publisher.toPush : Publisher α → Option Nat
  | .numbered event => some event.id
  | _ => none

def Publisher.toSend : Publisher α → Option Nat
  | .pushed event => some event.id
  | _ => none

/-- The ids do not wrap, and a publication pushes (sends) only when none with a
smaller id still has to. -/
def InOrder (s : System ρ π κ τ α) : Action π κ τ α → Prop
  | .fetchAdd _ _ => s.session.nextEventId + 1 < 2 ^ 64
  | .push publisher => ∀ mine other theirs, s.publishers publisher = .numbered mine →
      s.publishers other = .numbered theirs → mine.id ≤ theirs.id
  | .send publisher => ∀ mine other theirs, s.publishers publisher = .pushed mine →
      s.publishers other = .pushed theirs → mine.id ≤ theirs.id
  | _ => True

/-- What holds along runs in order.  Ids up to the number of events pushed are
in the deque or have been, ids up to the number of messages have been sent. -/
structure Delivers (s : System ρ π κ τ α) : Prop where
  numbered : Numbered s.pushed
  latest : s.session.events <:+ s.pushed
  nonempty : s.session.events = [] → s.pushed = []
  aligned : Aligned s.session.sender.log s.pushed
  drawn : ∃ last, s.session.nextEventId = last + 1 ∧
    Tickets s.publishers Publisher.toPush s.pushed.length last
  sending : Tickets s.publishers Publisher.toSend (messages s.session.sender.log).length
    s.pushed.length
  known : ∀ publisher event, s.publishers publisher = .pushed event → event ∈ s.pushed
  subscribed : ∀ stream after preamble receiver,
    s.streams stream = .subscribed after preamble receiver →
      receiver ≤ s.session.sender.log.length
  streams : ∀ stream state, (s.streams stream).Opened state →
    Follows s.session.events s.pushed s.session.sender.log state

variable [DecidableEq π] [DecidableEq κ] [DecidableEq τ] {s s' : System ρ π κ τ α}
  {a : Action π κ τ α}

theorem delivers_init (replayCapacity : Nat) :
    Delivers (lts ρ π κ τ α replayCapacity).init where
  numbered := by
    intro i event found
    cases found
  latest := List.suffix_refl _
  nonempty := fun _ => rfl
  aligned := List.prefix_refl _
  drawn := ⟨0, rfl, Tickets.empty fun _ => rfl⟩
  sending := Tickets.empty fun _ => rfl
  known := by
    intro publisher event phase
    cases phase
  subscribed := by
    intro stream after preamble receiver phase
    cases phase
  streams := by
    intro stream state opened
    rcases opened with live | ended
    · cases live
    · cases ended

omit [DecidableEq π] [DecidableEq τ] in
/-- A step that changes nothing but one stream. -/
theorem Delivers.move {stream : κ} {phase : Stream α} (held : Delivers s)
    (subscribed : ∀ after preamble receiver, phase = .subscribed after preamble receiver →
      receiver ≤ s.session.sender.log.length)
    (opened : ∀ state, phase.Opened state →
      Follows s.session.events s.pushed s.session.sender.log state) :
    Delivers (s.stream stream phase) where
  numbered := held.numbered
  latest := held.latest
  nonempty := held.nonempty
  aligned := held.aligned
  drawn := held.drawn
  sending := held.sending
  known := held.known
  subscribed := by
    intro other after preamble receiver after'
    rcases phase_of_update after' with ⟨_, mine⟩ | ⟨_, old⟩
    · exact subscribed after preamble receiver mine
    · exact held.subscribed other after preamble receiver old
  streams := by
    intro other state after'
    by_cases mine : other = stream
    · apply opened
      simpa only [System.stream, mine, Function.update_self] using after'
    · apply held.streams other
      simpa only [System.stream, Function.update_of_ne mine] using after'

omit [DecidableEq π] [DecidableEq κ] [DecidableEq τ] in
/-- A `Terminated` sent, and whatever else the session keeps beside its events. -/
theorem Delivers.signal {session : Session ρ α} {registered : Bool} {farewell : Option Nat}
    {terminators : τ → Terminator} (held : Delivers s)
    (same : session.events = s.session.events ∧ session.nextEventId = s.session.nextEventId)
    (log : session.sender.log = s.session.sender.log ∨
      session.sender.log = s.session.sender.log ++ [.terminated]) :
    Delivers { s with
      session := session
      registered := registered
      farewell := farewell
      terminators := terminators } := by
  obtain ⟨events, next⟩ := same
  have silent : messages session.sender.log = messages s.session.sender.log := by
    rcases log with unchanged | sent
    · rw [unchanged]
    · rw [sent, messages_append]
      exact List.append_nil _
  have longer : s.session.sender.log.length ≤ session.sender.log.length := by
    rcases log with unchanged | sent
    · rw [unchanged]
    · rw [sent, List.length_append]
      exact Nat.le_add_right _ _
  constructor
  · exact held.numbered
  · simpa only [events] using held.latest
  · simpa only [events] using held.nonempty
  · simpa only [Aligned, silent] using held.aligned
  · simpa only [next] using held.drawn
  · simpa only [silent] using held.sending
  · exact held.known
  · intro stream after preamble receiver phase
    exact Nat.le_trans (held.subscribed stream after preamble receiver phase) longer
  · intro stream state opened
    have follows := held.streams stream state opened
    simp only [events]
    rcases log with unchanged | sent
    · rw [unchanged]
      exact follows
    · rw [sent]
      exact follows.send .terminated

omit [DecidableEq κ] [DecidableEq τ] in
theorem Delivers.fetchAdd {publisher : π} {payload : α} (held : Delivers s)
    (idle : s.publishers publisher = .idle) (bounded : s.session.nextEventId + 1 < 2 ^ 64) :
    Delivers { s.publisher publisher (.numbered ⟨s.session.nextEventId, payload⟩) with
      session := s.session.fetchAddEventId } := by
  obtain ⟨last, next, tickets⟩ := held.drawn
  refine ⟨held.numbered, held.latest, held.nonempty, held.aligned, ⟨last + 1, ?_, ?_⟩, ?_, ?_,
    held.subscribed, held.streams⟩
  · simp only [Session.fetchAddEventId]
    rw [Nat.mod_eq_of_lt bounded, next]
  · refine tickets.enter (by rw [idle]; rfl) ?_
    rw [next]
    rfl
  · exact held.sending.keep (by rw [idle]; rfl)
  · intro other event after
    rcases phase_of_update after with ⟨_, impossible⟩ | ⟨_, old⟩
    · cases impossible
    · exact held.known other event old

omit [DecidableEq κ] [DecidableEq τ] in
theorem Delivers.push {publisher : π} {event : StoredEvent α} (held : Delivers s)
    (mine : s.publishers publisher = .numbered event)
    (oldest : ∀ other theirs, s.publishers other = .numbered theirs → event.id ≤ theirs.id) :
    Delivers { s.publisher publisher (.pushed event) with
      session := s.session.push event
      pushed := s.pushed ++ [event] } := by
  obtain ⟨last, next, tickets⟩ := held.drawn
  have ticket : Publisher.toPush (s.publishers publisher) = some event.id := by rw [mine]; rfl
  have number : event.id = s.pushed.length + 1 := by
    refine tickets.least ticket ?_
    intro other n holds
    cases phase : s.publishers other with
    | numbered theirs =>
        rw [phase] at holds
        cases holds
        exact oldest other theirs phase
    | idle => rw [phase] at holds; cases holds
    | pushed theirs => rw [phase] at holds; cases holds
    | returned theirs => rw [phase] at holds; cases holds
  have longer : (s.pushed ++ [event]).length = s.pushed.length + 1 := List.length_append
  refine ⟨held.numbered.concat number, suffix_pushEvent held.latest, ?_, ?_,
    ⟨last, next, ?_⟩, ?_, ?_, held.subscribed, ?_⟩
  · intro empty
    exact absurd empty (pushEvent_ne_nil _ _ _)
  · exact held.aligned.trans (List.prefix_append _ _)
  · rw [longer]
    exact tickets.leave (by rw [ticket, number]) rfl
  · rw [longer]
    exact held.sending.enter (by rw [mine]; rfl) (by rw [← number]; rfl)
  · intro other pushed after
    rcases phase_of_update after with ⟨_, same⟩ | ⟨_, old⟩
    · cases same
      exact List.mem_append_right _ (List.mem_singleton_self event)
    · exact List.mem_append_left _ (held.known other pushed old)
  · intro stream state opened
    exact (held.streams stream state opened).push held.numbered number

omit [DecidableEq κ] [DecidableEq τ] in
theorem Delivers.send {publisher : π} {event : StoredEvent α} (held : Delivers s)
    (mine : s.publishers publisher = .pushed event)
    (oldest : ∀ other theirs, s.publishers other = .pushed theirs → event.id ≤ theirs.id) :
    Delivers { s.publisher publisher (.returned event) with
      session := s.session.send (.message event) } := by
  obtain ⟨last, next, tickets⟩ := held.drawn
  have ticket : Publisher.toSend (s.publishers publisher) = some event.id := by rw [mine]; rfl
  have number : event.id = (messages s.session.sender.log).length + 1 := by
    refine held.sending.least ticket ?_
    intro other n holds
    cases phase : s.publishers other with
    | pushed theirs =>
        rw [phase] at holds
        cases holds
        exact oldest other theirs phase
    | idle => rw [phase] at holds; cases holds
    | numbered theirs => rw [phase] at holds; cases holds
    | returned theirs => rw [phase] at holds; cases holds
  have longer : (messages (s.session.sender.log ++ [.message event])).length =
      (messages s.session.sender.log).length + 1 := by
    rw [messages_append, List.length_append]
    rfl
  refine ⟨held.numbered, held.latest, held.nonempty, ?_, ⟨last, next, ?_⟩, ?_, ?_, ?_, ?_⟩
  · exact held.aligned.send held.numbered (held.known publisher event mine) number
  · exact tickets.keep (by rw [mine]; rfl)
  · simp only [Session.send, Channel.send_log, longer]
    exact held.sending.leave (by rw [ticket, number]) rfl
  · intro other pushed after
    rcases phase_of_update after with ⟨_, impossible⟩ | ⟨_, old⟩
    · cases impossible
    · exact held.known other pushed old
  · intro stream after preamble receiver phase
    simp only [Session.send, Channel.send_log, List.length_append]
    exact Nat.le_trans (held.subscribed stream after preamble receiver phase)
      (Nat.le_add_right _ _)
  · intro stream state opened
    exact (held.streams stream state opened).send (.message event)

theorem Delivers.step (held : Delivers s) (inOrder : InOrder s a)
    (taken : step s a = some s') : Delivers s' := by
  cases step_takes taken with
  | fetchAdd publisher payload idle => exact held.fetchAdd idle inOrder
  | push publisher event numbered =>
      exact held.push numbered fun other theirs phase => inOrder event other theirs numbered phase
  | send publisher event pushed =>
      exact held.send pushed fun other theirs phase => inOrder event other theirs pushed phase
  | obtain stream idle =>
      apply held.move
      · intro after preamble receiver impossible
        cases impossible
      · intro state opened
        rcases opened with live | ended
        · cases live
        · cases ended
  | subscribe stream after preamble obtained =>
      apply held.move
      · intro after' preamble' receiver same
        cases same
        exact Nat.le_refl _
      · intro state opened
        rcases opened with live | ended
        · cases live
        · cases ended
  | snapshot stream after preamble receiver subscribed =>
      apply held.move
      · intro after' preamble' receiver' impossible
        cases impossible
      · intro state opened
        rcases opened with live | ended
        · cases live
          exact follows_open held.numbered held.latest held.nonempty held.aligned
            (held.subscribed stream after preamble receiver subscribed)
        · cases ended
  | poll stream state live =>
      have turns := turns_turn s.session s.pushed state
      apply held.move
      · intro after preamble receiver same
        rw [same] at turns
        cases turns
      · intro state' opened
        exact (held.streams stream state (.inl live)).turn held.numbered held.latest held.nonempty
          held.aligned turns opened
  | drop stream state live =>
      apply held.move
      · intro after preamble receiver impossible
        cases impossible
      · intro state' opened
        rcases opened with live' | ended
        · cases live'
        · cases ended
  | unregister => exact held.signal ⟨rfl, rfl⟩ (.inl rfl)
  | swapTerminated call idle => exact held.signal ⟨rfl, rfl⟩ (.inl rfl)
  | sendTerminated call signalling => exact held.signal ⟨rfl, rfl⟩ (.inr rfl)
  | closeEventStreams registered => exact held.signal ⟨rfl, rfl⟩ (.inr rfl)

theorem Delivers.reach {replayCapacity : Nat}
    (reach : (lts ρ π κ τ α replayCapacity).Reach InOrder s) : Delivers s :=
  reach.invariant (delivers_init replayCapacity) fun _ _ _ held inOrder taken =>
    held.step inOrder taken

/-- **Session events are delivered in order**, along every run in which
publications push and send in the order of their ids.  A stream that was opened
with `Last-Event-ID` `after` emits ids in strictly increasing order, all of them above
`after` and published; and once it has nothing left to read, every event above
`after` that was retained when the stream was opened or pushed later has been
emitted, unless its publication has still to send it or it had fallen out of the
replay buffer when the stream refilled from there. -/
theorem streams_deliver_in_order (replayCapacity : Nat) (s : System ρ π κ τ α)
    (reach : (lts ρ π κ τ α replayCapacity).Reach InOrder s) (stream : κ) (state : StreamState α)
    (opened : (s.streams stream).Opened state) :
    (state.emitted.Pairwise fun left right => left.id < right.id) ∧
    (∀ event ∈ state.emitted, state.after < event.id ∧ event ∈ s.pushed) ∧
    (∀ event ∈ state.missed, event ∈ s.pushed ∧ event ∉ s.session.events) ∧
    (state.replay = [] → s.session.sender.log.length ≤ state.receiver →
      ∀ event ∈ s.pushed.drop state.forgotten, state.after < event.id →
        event ∈ state.emitted ∨ event ∈ state.missed ∨
          ∃ publisher, s.publishers publisher = .pushed event) := by
  have held := Delivers.reach reach
  have follows := held.streams stream state opened
  refine ⟨follows.ascending, ?_, follows.missed, ?_⟩
  · intro event member
    obtain ⟨above, _, known⟩ := follows.emitted event member
    exact ⟨above, known⟩
  · intro queue drained event member above
    have known : event ∈ s.pushed := List.mem_of_mem_drop member
    obtain ⟨found, positive, bound⟩ := held.numbered.getElem? known
    by_cases sent : event.id ≤ (messages s.session.sender.log).length
    · -- the event is on the channel, before the receiver
      have onChannel : event ∈ messages s.session.sender.log := by
        rw [List.prefix_iff_eq_take.mp held.aligned, List.mem_iff_getElem?]
        exact ⟨event.id - 1, by rw [List.getElem?_take_of_lt (by omega), found]⟩
      obtain ⟨j, read⟩ := List.mem_iff_getElem?.mp (mem_messages.mp onChannel)
      have passed : j < state.receiver :=
        Nat.lt_of_lt_of_le (List.getElem?_eq_some_iff.mp read).1 drained
      rcases follows.covered event member above (follows.behind j event passed read) with
        emitted | inReplay | missed
      · exact .inl emitted
      · rw [queue] at inReplay
        cases inReplay
      · exact .inr (.inl missed)
    · obtain ⟨publisher, holds⟩ := held.sending.held event.id (by omega) bound
      refine .inr (.inr ⟨publisher, ?_⟩)
      cases phase : s.publishers publisher with
      | pushed pending =>
          rw [phase] at holds
          have same := held.numbered.unique (held.known publisher pending phase) known
            (Option.some.inj holds)
          rw [same]
      | idle => rw [phase] at holds; cases holds
      | numbered pending => rw [phase] at holds; cases holds
      | returned pending => rw [phase] at holds; cases holds

end Session

/-- Two publications one after the other; the stream is opened between the push
and the send of the first. -/
theorem streams_deliver_in_order_interleaved :
    ∃ (s : System Unit Bool Unit Unit Nat) (state : StreamState Nat),
      s.streams () = .live state ∧ state.emitted = [⟨1, 10⟩, ⟨2, 20⟩] ∧
      state.emitted.Pairwise fun left right => left.id < right.id := by
  have meets : (lts Unit Bool Unit Unit Nat 256).Meets InOrder (lts _ _ _ _ _ 256).init
      [.obtain (), .fetchAdd false 10, .push false, .subscribe () 0 [], .snapshot (),
        .send false, .fetchAdd true 20, .push true, .send true, .poll (), .poll (), .poll ()] := by
    have first : 1 + 1 < 2 ^ 64 := by decide
    have second : 2 + 1 < 2 ^ 64 := by decide
    refine ⟨trivial, first, ?_, trivial, trivial, ?_, second, ?_, ?_, trivial, trivial, trivial,
      trivial⟩
    all_goals
      intro mine other theirs first second
      cases other <;> cases first <;> cases second
      exact Nat.le_refl _
  have read : ∃ (s : System Unit Bool Unit Unit Nat) (state : StreamState Nat),
      (lts Unit Bool Unit Unit Nat 256).Reach InOrder s ∧ s.streams () = .live state ∧
      state.emitted = [⟨1, 10⟩, ⟨2, 20⟩] :=
    ⟨_, _, Lts.reach_of_exec _ meets rfl, rfl, rfl⟩
  obtain ⟨s, state, reach, live, emitted⟩ := read
  exact ⟨s, state, live, emitted, (streams_deliver_in_order 256 s reach () state (.inl live)).1⟩

/-- Two publications overtake each other.  When the event with id 2 is sent
first, a stream that has emitted it drops the event with id 1, which stays in the
replay buffer; when it is pushed first, a stream opened afterwards emits 2 before
1. -/
theorem overtaken_events_are_lost :
    (∃ (s : System Unit Bool Unit Unit Nat) (state : StreamState Nat),
      (lts Unit Bool Unit Unit Nat 256).Reachable s ∧ s.streams () = .live state ∧
      state.after = 0 ∧ state.replay = [] ∧ s.session.sender.log.length ≤ state.receiver ∧
      (∀ publisher, ∃ event, s.publishers publisher = .returned event) ∧
      ⟨1, 10⟩ ∈ s.pushed.drop state.forgotten ∧ ⟨1, 10⟩ ∈ s.session.events ∧
      state.emitted = [⟨2, 20⟩] ∧ state.missed = []) ∧
    (∃ (s : System Unit Bool Unit Unit Nat) (state : StreamState Nat),
      (lts Unit Bool Unit Unit Nat 256).Reachable s ∧ s.streams () = .live state ∧
      state.emitted = [⟨2, 20⟩, ⟨1, 10⟩] ∧
      ¬ state.emitted.Pairwise fun left right => left.id < right.id) := by
  constructor
  · refine ⟨_, _, Lts.reachable_of_exec [.obtain (), .subscribe () 0 [], .snapshot (),
      .fetchAdd false 10, .fetchAdd true 20, .push true, .send true, .poll (), .push false,
      .send false, .poll ()] rfl, rfl, rfl, rfl, by decide, ?_, by decide, by decide, rfl, rfl⟩
    intro publisher
    cases publisher with
    | false => exact ⟨_, rfl⟩
    | true => exact ⟨_, rfl⟩
  · exact ⟨_, _, Lts.reachable_of_exec [.fetchAdd false 10, .fetchAdd true 20, .push true,
      .push false, .obtain (), .subscribe () 0 [], .snapshot (), .poll (), .poll ()] rfl, rfl, rfl,
      by decide⟩

end RustZero.McpEvents
