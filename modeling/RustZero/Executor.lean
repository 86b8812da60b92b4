import RustZero.Lib.Batching

/-!
# Batch and chunk executors

`core/src/executor.rs`: the workers behind `BatchExecutor` and `ChunkExecutor`.
A worker owns its buffer, so a run is the sequence of what its `select!` takes
(a command, the end of the channel, a tick) and of the completions of the batches
it awaits.  A reply channel is named by a value of `A`.

* `runWorker` is `Lib.Batching.worker`, full at `max_batch_size` items.
* `runChunkWorker` counts bytes beside the chunk, in a counter that each way of
  flushing has to reset.  `ChunkWorker.Tracks` ties the counter to the sizes of
  the buffered items, and makes the worker a `Lib.Batching.worker` over sized
  items.
-/

namespace RustZero.Executor

open RustZero.Lib (Lts)
open RustZero.Lib.Batching

variable {T A : Type}

/-- `run_worker`. -/
def runWorker (maxBatchSize : Nat) : Lts (State T A × List (Note T T A)) (Action T A) :=
  worker fun batch => maxBatchSize ≤ batch.length

def usizeMax : Nat := 2 ^ 64 - 1

def saturatingAdd (left right : Nat) : Nat :=
  min (left + right) usizeMax

/-! ## The chunk worker -/

structure ChunkWorker (T A : Type) where
  chunk : List T
  chunkBytes : Nat
  phase : Phase T A

/-- Go on after a flush.  The branches that return do not reset the counter. -/
def ChunkWorker.settle (chunk : List T) (chunkBytes : Nat) : Next A → ChunkWorker T A
  | .resume => ⟨chunk, 0, .selecting⟩
  | .acknowledge _ => ⟨chunk, 0, .selecting⟩
  | .stop _ => ⟨chunk, chunkBytes, .returned⟩

/-- `flush_batch`, and what follows it once nothing is left to await. -/
def ChunkWorker.flushBatch (state : ChunkWorker T A) (next : Next A) :
    ChunkWorker T A × List (Note (T × Nat) T A) :=
  if state.chunk.isEmpty then (settle [] state.chunkBytes next, next.replies)
  else (⟨[], state.chunkBytes, .executing state.chunk next⟩, [.handed state.chunk])

/-- One step of `run_chunk_worker`; an item comes with its size. -/
def ChunkWorker.advance (maxChunkBytes : Nat) (state : ChunkWorker T A) :
    Action (T × Nat) A → Option (ChunkWorker T A × List (Note (T × Nat) T A))
  | .start =>
      match state.phase with
      | .starting => some ({ state with phase := .selecting }, [])
      | _ => none
  | .receive command =>
      match state.phase, command with
      | .selecting, some (.item (value, size)) =>
          let chunk := state.chunk ++ [value]
          let chunkBytes := saturatingAdd state.chunkBytes size
          if maxChunkBytes ≤ chunkBytes then
            some (⟨[], chunkBytes, .executing chunk .resume⟩,
              [.received (value, size), .handed chunk])
          else some (⟨chunk, chunkBytes, .selecting⟩, [.received (value, size)])
      | .selecting, some (.flush reply) => some (state.flushBatch (.acknowledge reply))
      | .selecting, some (.shutdown reply) => some (state.flushBatch (.stop (some reply)))
      | .selecting, none => some (state.flushBatch (.stop none))
      | _, _ => none
  | .tick =>
      match state.phase with
      | .selecting => some (state.flushBatch .resume)
      | _ => none
  | .finish =>
      match state.phase with
      | .executing batch next =>
          some (settle state.chunk state.chunkBytes next, .completed batch :: next.replies)
      | _ => none
  | .panic =>
      match state.phase with
      | .executing _ _ => some ({ state with phase := .panicked }, [])
      | _ => none

/-- `run_chunk_worker`. -/
def runChunkWorker (maxChunkBytes : Nat) :
    Lts (ChunkWorker T A × List (Note (T × Nat) T A)) (Action (T × Nat) A) :=
  Lts.emitting ⟨[], 0, .starting⟩ (ChunkWorker.advance maxChunkBytes)

/-! ## The byte counter -/

/-- The sizes of some items, added as the worker adds them. -/
def totalBytes (items : List (T × Nat)) : Nat :=
  items.foldl (fun bytes item => saturatingAdd bytes item.2) 0

@[simp] theorem totalBytes_concat (items : List (T × Nat)) (item : T × Nat) :
    totalBytes (items ++ [item]) = saturatingAdd (totalBytes items) item.2 := by
  rw [totalBytes, List.foldl_append]
  rfl

theorem totalBytes_le (items : List (T × Nat)) : totalBytes items ≤ usizeMax := by
  rcases List.eq_nil_or_concat items with none | ⟨front, last, shape⟩
  · rw [none]
    exact Nat.zero_le _
  · rw [shape, List.concat_eq_append, totalBytes_concat]
    exact Nat.min_le_right _ _

/-- Adding an item never lowers a total. -/
theorem totalBytes_le_concat (items : List (T × Nat)) (item : T × Nat) :
    totalBytes items ≤ totalBytes (items ++ [item]) := by
  have bounded := totalBytes_le items
  rw [totalBytes_concat, saturatingAdd]
  omega

/-- The values of the batches of a phase over sized items. -/
def values : Phase (T × Nat) A → Phase T A
  | .starting => .starting
  | .selecting => .selecting
  | .executing batch next => .executing (batch.map Prod.fst) next
  | .returned => .returned
  | .panicked => .panicked

/-- The values of the batches a worker over sized items emits. -/
def noteValues : Note (T × Nat) (T × Nat) A → Note (T × Nat) T A
  | .received item => .received item
  | .handed batch => .handed (batch.map Prod.fst)
  | .completed batch => .completed (batch.map Prod.fst)
  | .acknowledged reply => .acknowledged reply

/-- The chunk holds the values of the sized items, and the counter their total
whenever the worker is about to use it. -/
structure ChunkWorker.Tracks (state : ChunkWorker T A) (sized : State (T × Nat) A) : Prop where
  chunk : state.chunk = sized.buffer.map Prod.fst
  phase : state.phase = values sized.phase
  bytes : state.phase = .starting ∨ state.phase = .selecting →
    state.chunkBytes = totalBytes sized.buffer
  drained : ∀ batch next, sized.phase = .executing batch next → sized.buffer = []

theorem map_replies (next : Next A) :
    (next.replies : List (Note (T × Nat) (T × Nat) A)).map noteValues = next.replies := by
  rcases next with - | reply | - | reply <;> rfl

theorem ChunkWorker.Tracks.settle (chunkBytes : Nat) (next : Next A) :
    (settle ([] : List T) chunkBytes next).Tracks ⟨[], next.phase⟩ := by
  cases next with
  | resume => exact ⟨rfl, rfl, fun _ => rfl, fun _ _ _ => rfl⟩
  | acknowledge reply => exact ⟨rfl, rfl, fun _ => rfl, fun _ _ _ => rfl⟩
  | stop reply =>
      refine ⟨rfl, rfl, ?_, fun _ _ _ => rfl⟩
      intro selecting
      rcases selecting with starting | selecting
      · cases starting
      · cases selecting

/-- The states of a batch in execution. -/
theorem ChunkWorker.Tracks.executing (chunkBytes : Nat) (batch : List (T × Nat)) (next : Next A) :
    (⟨[], chunkBytes, .executing (batch.map Prod.fst) next⟩ : ChunkWorker T A).Tracks
      ⟨[], .executing batch next⟩ := by
  refine ⟨rfl, rfl, ?_, fun _ _ _ => rfl⟩
  intro selecting
  rcases selecting with starting | selecting
  · cases starting
  · cases selecting

section Simulation

variable {maxChunkBytes : Nat}

/-- Sized items fill a chunk when their total reaches the limit. -/
def fullChunk (maxChunkBytes : Nat) (items : List (T × Nat)) : Bool :=
  maxChunkBytes ≤ totalBytes items

theorem ChunkWorker.Tracks.flushBatch {state : ChunkWorker T A} {sized : State (T × Nat) A}
    (tracks : state.Tracks sized) (next : Next A) :
    (state.flushBatch next).1.Tracks (flushThen sized.buffer next).1 ∧
      (state.flushBatch next).2 = (flushThen sized.buffer next).2.map noteValues := by
  have same : state.chunk.isEmpty = sized.buffer.isEmpty := by
    rw [tracks.chunk]
    cases sized.buffer <;> rfl
  unfold ChunkWorker.flushBatch flushThen
  rw [same]
  split
  · exact ⟨.settle _ next, (map_replies next).symm⟩
  · rw [tracks.chunk]
    exact ⟨.executing _ _ next, rfl⟩

/-- A step of the chunk worker is a step of the batching worker on sized items. -/
theorem ChunkWorker.Tracks.advance {state state' : ChunkWorker T A} {sized : State (T × Nat) A}
    {action : Action (T × Nat) A} {out : List (Note (T × Nat) T A)}
    (tracks : state.Tracks sized)
    (taken : state.advance maxChunkBytes action = some (state', out)) :
    ∃ sized' emitted, Lib.Batching.advance (fullChunk maxChunkBytes) sized action =
        some (sized', emitted) ∧ state'.Tracks sized' ∧ out = emitted.map noteValues := by
  obtain ⟨chunk, chunkBytes, phase⟩ := state
  obtain ⟨buffer, sizedPhase⟩ := sized
  have flushed : ∀ next,
      some (ChunkWorker.flushBatch ⟨chunk, chunkBytes, phase⟩ next) = some (state', out) →
      ∃ sized' emitted, some (flushThen buffer next) = some (sized', emitted) ∧
        state'.Tracks sized' ∧ out = emitted.map noteValues := by
    intro next same
    have both := tracks.flushBatch next
    rw [Option.some.inj same] at both
    exact ⟨_, _, rfl, both⟩
  obtain ⟨chunks, phases, bytes, drained⟩ := tracks
  have chunks : chunk = buffer.map Prod.fst := chunks
  have phases : phase = values sizedPhase := phases
  subst chunks phases
  cases action with
  | start =>
      cases sizedPhase <;> cases taken
      exact ⟨_, _, rfl, ⟨rfl, rfl, fun _ => bytes (.inl rfl), by simp⟩, rfl⟩
  | receive command =>
      cases sizedPhase <;> try cases taken
      rcases command with - | item | reply | reply
      · exact flushed _ taken
      · obtain ⟨value, size⟩ := item
        have counted : chunkBytes = totalBytes buffer := bytes (.inr rfl)
        have total : totalBytes (buffer ++ [(value, size)]) = saturatingAdd chunkBytes size := by
          rw [totalBytes_concat, counted]
        have pushed :
            buffer.map Prod.fst ++ [value] = (buffer ++ [(value, size)]).map Prod.fst := by
          rw [List.map_append]
          rfl
        simp only [ChunkWorker.advance, values, pushed] at taken
        simp only [Lib.Batching.advance, fullChunk, total, decide_eq_true_eq]
        split at taken
        · rename_i full
          cases taken
          rw [if_pos full]
          exact ⟨_, _, rfl, .executing _ _ _, rfl⟩
        · rename_i room
          cases taken
          rw [if_neg room]
          exact ⟨_, _, rfl, ⟨rfl, rfl, fun _ => total.symm, by simp⟩, rfl⟩
      · exact flushed _ taken
      · exact flushed _ taken
  | tick =>
      cases sizedPhase <;> try cases taken
      exact flushed _ taken
  | finish =>
      cases sizedPhase <;> cases taken
      rename_i batch next
      have empty : buffer = [] := drained batch next rfl
      subst empty
      refine ⟨_, _, rfl, .settle _ next, ?_⟩
      rw [List.map_cons, map_replies]
      rfl
  | panic =>
      cases sizedPhase <;> cases taken
      refine ⟨_, _, rfl, ⟨rfl, rfl, ?_, by simp⟩, rfl⟩
      intro selecting
      rcases selecting with starting | selecting
      · cases starting
      · cases selecting

theorem tracked_of_reachable {state : ChunkWorker T A} {emitted : List (Note (T × Nat) T A)}
    (reach : (runChunkWorker maxChunkBytes).Reachable (state, emitted)) :
    ∃ sized log, (worker (fullChunk maxChunkBytes)).Reachable (sized, log) ∧
      state.Tracks sized ∧ emitted = log.map noteValues := by
  refine Lts.emitting_simulation id ⟨rfl, rfl, fun _ => rfl, fun _ _ _ => rfl⟩ ?_ reach
  intro before sized action after out tracks taken
  exact tracks.advance taken

theorem received_map (log : List (Note (T × Nat) (T × Nat) A)) :
    received (log.map noteValues) = received log := by
  induction log with
  | nil => rfl
  | cons note rest ih => cases note <;> simp [noteValues, ih]

theorem handed_map (log : List (Note (T × Nat) (T × Nat) A)) :
    handed (log.map noteValues) = (handed log).map (List.map Prod.fst) := by
  induction log with
  | nil => rfl
  | cons note rest ih => cases note <;> simp [noteValues, ih]

theorem completed_map (log : List (Note (T × Nat) (T × Nat) A)) :
    completed (log.map noteValues) = (completed log).map (List.map Prod.fst) := by
  induction log with
  | nil => rfl
  | cons note rest ih => cases note <;> simp [noteValues, ih]

/-- An acknowledgement is one of the batching worker's. -/
theorem acknowledged_map {log : List (Note (T × Nat) (T × Nat) A)} (acknowledged : Acknowledged log)
    {older newer : List (Note (T × Nat) T A)} {reply : A}
    (split : log.map noteValues = older ++ .acknowledged reply :: newer) :
    (completed older).flatten = (received older).map Prod.fst := by
  obtain ⟨before, rest, whole, first, later⟩ := List.map_eq_append_iff.mp split
  obtain ⟨note, after, shape, same, -⟩ := List.map_eq_cons_iff.mp later
  have sent : note = .acknowledged reply := by
    cases note <;> cases same
    rfl
  subst whole shape sent
  have executed := acknowledged before reply after rfl
  rw [← first, completed_map, received_map, ← executed, List.map_flatten]

end Simulation

/-! ## No work is lost, duplicated or reordered -/

section Work

variable {maxBatchSize maxChunkBytes : Nat}

theorem runWorker_sound (positive : 0 < maxBatchSize) {state : State T A}
    {emitted : List (Note T T A)} (reach : (runWorker maxBatchSize).Reachable (state, emitted)) :
    Sound (fun batch => maxBatchSize ≤ batch.length) state emitted := by
  refine sound_of_reachable ?_ ?_ reach
  · exact decide_eq_false (Nat.not_le.mpr positive)
  · intro buffer item room
    have room : ¬ maxBatchSize ≤ (buffer ++ [item]).length := of_decide_eq_false room
    rw [List.length_append, List.length_singleton] at room
    exact decide_eq_false (by omega)

theorem fullChunk_sound (positive : 0 < maxChunkBytes) {sized : State (T × Nat) A}
    {log : List (Note (T × Nat) (T × Nat) A)}
    (reach : (worker (fullChunk maxChunkBytes)).Reachable (sized, log)) :
    Sound (fullChunk maxChunkBytes) sized log := by
  refine sound_of_reachable ?_ ?_ reach
  · exact decide_eq_false (Nat.not_le.mpr positive)
  · intro buffer item room
    have room : ¬ maxChunkBytes ≤ totalBytes (buffer ++ [item]) := of_decide_eq_false room
    have grows := totalBytes_le_concat buffer item
    exact decide_eq_false (by omega)

/-- In every run of either worker: the batches handed on and then the buffer are
the items received, in order; a batch is not empty and within the limit, a chunk
without its last item below the byte limit; an acknowledgement finds every item
received before it executed; and a worker that has returned holds nothing. -/
theorem executors_conserve_work (batchPositive : 0 < maxBatchSize)
    (chunkPositive : 0 < maxChunkBytes) :
    (∀ (state : State T A) (emitted : List (Note T T A)),
      (runWorker maxBatchSize).Reachable (state, emitted) →
      (handed emitted).flatten ++ state.buffer = received emitted ∧
      (∀ batch ∈ handed emitted, batch ≠ [] ∧ batch.length ≤ maxBatchSize) ∧
      (∀ older reply newer, emitted = older ++ .acknowledged reply :: newer →
        (completed older).flatten = received older) ∧
      (state.phase = .returned → state.buffer = [])) ∧
    (∀ (state : ChunkWorker T A) (emitted : List (Note (T × Nat) T A)),
      (runChunkWorker maxChunkBytes).Reachable (state, emitted) →
      ∃ (chunks : List (List (T × Nat))) (pending : List (T × Nat)),
        handed emitted = chunks.map (List.map Prod.fst) ∧
        state.chunk = pending.map Prod.fst ∧
        chunks.flatten ++ pending = received emitted ∧
        (∀ chunk ∈ chunks, chunk ≠ [] ∧ totalBytes chunk.dropLast < maxChunkBytes) ∧
        (∀ older reply newer, emitted = older ++ .acknowledged reply :: newer →
          (completed older).flatten = (received older).map Prod.fst) ∧
        (state.phase = .returned → state.chunk = [])) := by
  refine ⟨?_, ?_⟩
  · intro state emitted reach
    have sound := runWorker_sound batchPositive reach
    refine ⟨sound.conserved, ?_, sound.acknowledged, ?_⟩
    · intro batch member
      obtain ⟨held, room⟩ := sound.batches batch member
      have short : ¬ maxBatchSize ≤ batch.dropLast.length := of_decide_eq_false room
      have positive := List.length_pos_iff.mpr held
      rw [List.length_dropLast] at short
      exact ⟨held, by omega⟩
    · intro returned
      have bounds := sound.bounds
      rw [returned] at bounds
      exact bounds
  · intro state emitted reach
    obtain ⟨sized, log, reached, tracks, same⟩ := tracked_of_reachable reach
    have sound := fullChunk_sound chunkPositive reached
    subst same
    refine ⟨handed log, sized.buffer, handed_map log, tracks.chunk, ?_, ?_, ?_, ?_⟩
    · rw [received_map]
      exact sound.conserved
    · intro chunk member
      obtain ⟨held, room⟩ := sound.batches chunk member
      exact ⟨held, Nat.lt_of_not_le (of_decide_eq_false room)⟩
    · intro older reply newer split
      exact acknowledged_map sound.acknowledged split
    · intro returned
      have bounds := sound.bounds
      rw [tracks.phase] at returned
      rw [tracks.chunk]
      obtain ⟨buffer, phase⟩ := sized
      cases phase <;> cases returned
      have bounds : buffer = [] := bounds
      rw [bounds]
      rfl

/-- Two items fill a batch of two, a third one is left for the shutdown. -/
theorem executors_conserve_three_items :
    ∃ (state : State Nat Nat) (emitted : List (Note Nat Nat Nat)),
      (runWorker 2).Reachable (state, emitted) ∧ handed emitted = [[1, 2], [3]] ∧
      (handed emitted).flatten ++ state.buffer = received emitted := by
  have run : ((runWorker (T := Nat) (A := Nat) 2).exec (runWorker 2).init
      [.start, .receive (some (.item 1)), .receive (some (.item 2)), .finish,
        .receive (some (.item 3)), .receive (some (.shutdown 9)), .finish]).map
        (fun reached => handed reached.2) = some [[1, 2], [3]] := by decide +kernel
  obtain ⟨⟨state, emitted⟩, executed, ends⟩ := Option.map_eq_some_iff.mp run
  have reach := Lts.reachable_of_exec _ executed
  have two : 0 < 2 := by decide
  have one : 0 < 1 := by decide
  have whole := (executors_conserve_work two one).1 state emitted reach
  exact ⟨state, emitted, reach, ends, whole.1⟩

end Work

end RustZero.Executor
