import RustZero.RollingBreaker
import RustZero.Shedder

/-!
# The sliding windows of the crate

`RollingWindow` of `core/src/rolling.rs`, the rolling breaker of `core/src/breaker.rs` and the
adaptive shedder of `core/src/load.rs` each keep a deque of buckets, the shedder with a start in
every bucket.  Here the three observe one sequence of reads and records.

* `observe` of each is one call on it; `none` would be a panic.
* `rotateBuckets_follows`: the shedder's starts do not matter but for the newest.
* `windows_retain_alike`: all three retain the same observations, those of `Lib.SlidingWindow`.
-/

namespace RustZero.SlidingWindows

open Lib Rolling

/-- What is observed at once: a value, whether the call was accepted, the requests left in flight
and the latency. -/
structure Observation (V : Type) where
  value : V
  accepted : Bool
  active : Nat
  elapsed : Nat

section Observers

variable {V F : Type}

/-! ## The rolling window -/

section Window

variable (floats : Floats V)

def recordValue (_ : Nat) (observation : Observation V) (bucket : Rolling.Bucket V) :
    Rolling.Bucket V :=
  bucket.record floats observation.value

def observeWindow (rolling : RollingWindow) (state : WindowState (Rolling.Bucket V))
    (event : WindowEvent (Observation V)) : Option (WindowState (Rolling.Bucket V)) :=
  rolling.observe floats state (event.map Observation.value)

/-- The assertion of `record`. -/
def Finite (event : WindowEvent (Observation V)) : Prop :=
  ∀ observation, event.observed = some observation → floats.isFinite observation.value

end Window

/-! ## The rolling breaker -/

/-- The outcome of an observation. -/
def Observation.outcome (observation : Observation V) : Breaker.CircuitOutcome :=
  if observation.accepted then .success else .failure

def recordOutcome (_ : Nat) (observation : Observation V)
    (bucket : RollingBreaker.OutcomeBucket) : RollingBreaker.OutcomeBucket :=
  bucket.record observation.outcome

def observeBreaker (config : RollingBreaker.RollingCircuitBreakerConfig)
    (state : WindowState RollingBreaker.OutcomeBucket) (event : WindowEvent (Observation V)) :
    Option (WindowState RollingBreaker.OutcomeBucket) :=
  match event.observed with
  | none => some (RollingBreaker.history config state event.now).1
  | some observation => RollingBreaker.record config state observation.outcome event.now

/-! ## The adaptive shedder -/

/-- A bucket of the shedder without its start. -/
def contents (bucket : Shedder.Bucket) : Nat × Option Nat :=
  (bucket.completed, bucket.minimumLatency)

def recordLatency (_ : Nat) (observation : Observation V) (bucket : Nat × Option Nat) :
    Nat × Option Nat :=
  (min (bucket.1 + 1) (Shedder.usizeCount - 1),
    some ((bucket.2.map (min · observation.elapsed)).getD observation.elapsed))

/-- A call on the shedder: the start of `try_acquire`, or the drop of a permit. -/
def observeShedder (config : Shedder.LoadShedderConfig) (floats : Shedder.Floats F)
    (state : Shedder.ShedderState F) (event : WindowEvent (Observation V)) :
    Option (Shedder.ShedderState F) :=
  match event.observed with
  | none => Shedder.refreshed config floats state event.now
  | some observation =>
      let (later, verdict) := Shedder.record config floats state observation.active
        observation.elapsed event.now
      if verdict = .panicked then none else some later

end Observers

/-! ## Each follows a window -/

section Follows

variable {V F : Type} {floats : Floats V} {count width created : Nat}
  {event : WindowEvent (Observation V)}

theorem observeWindow_follows {rolling : RollingWindow} (small : rolling.bucketCount < 2 ^ 32)
    {state : WindowState (Rolling.Bucket V)} {later : SlidingWindow (Rolling.Bucket V)}
    (fits : SlidingWindow.Fits rolling.bucketCount created state.window)
    (finite : Finite floats event)
    (stepped : SlidingWindow.step rolling.bucketCount rolling.bucketWidth (.empty floats)
      (recordValue floats) state.window event = some later) :
    ∃ next, observeWindow floats rolling state event = some next ∧ next.window = later := by
  have rotated : (rolling.rotate floats state event.now).window = state.window.rotate
      rolling.bucketCount rolling.bucketWidth (.empty floats) event.now :=
    rotateState_window rolling.bucketCount_valid.1 small fits.length_le event.now
  obtain ⟨now, observed⟩ := event
  cases observed with
  | none =>
    cases stepped
    exact ⟨_, rfl, rotated⟩
  | some observation =>
    rw [SlidingWindow.step, ← rotated] at stepped
    obtain ⟨buckets, recorded, same⟩ := Option.map_eq_some_iff.mp stepped
    cases same
    refine ⟨⟨(rolling.rotate floats state now).currentStarted, buckets⟩, ?_, rfl⟩
    have ran : observeWindow floats rolling state ⟨now, some observation⟩ =
        rolling.record floats state now observation.value := rfl
    rw [ran, RollingWindow.record, if_pos (finite observation rfl)]
    exact Option.map_eq_some_iff.mpr ⟨buckets, recorded, rfl⟩

theorem observeBreaker_follows {config : RollingBreaker.RollingCircuitBreakerConfig}
    (small : config.buckets < 2 ^ 32) {state : WindowState RollingBreaker.OutcomeBucket}
    {later : SlidingWindow RollingBreaker.OutcomeBucket}
    (fits : SlidingWindow.Fits config.buckets created state.window)
    (stepped : SlidingWindow.step config.buckets config.bucketWidth .empty recordOutcome
      state.window event = some later) :
    ∃ next, observeBreaker config state event = some next ∧ next.window = later := by
  have rotated : (RollingBreaker.rotate config state event.now).window = state.window.rotate
      config.buckets config.bucketWidth .empty event.now :=
    rotateState_window config.buckets_valid.1 small fits.length_le event.now
  obtain ⟨now, observed⟩ := event
  cases observed with
  | none =>
    cases stepped
    exact ⟨_, rfl, rotated⟩
  | some observation =>
    rw [SlidingWindow.step, ← rotated] at stepped
    obtain ⟨buckets, recorded, same⟩ := Option.map_eq_some_iff.mp stepped
    cases same
    refine ⟨⟨(RollingBreaker.rotate config state now).currentStarted, buckets⟩, ?_, rfl⟩
    have counted : observation.outcome ≠ .cancellation := by
      rw [Observation.outcome]
      split
      · exact Breaker.CircuitOutcome.noConfusion
      · exact Breaker.CircuitOutcome.noConfusion
    have ran : observeBreaker config state ⟨now, some observation⟩ =
        RollingBreaker.record config state observation.outcome now := rfl
    rw [ran, RollingBreaker.record, if_neg counted]
    exact Option.map_eq_some_iff.mpr ⟨buckets, recorded, rfl⟩

/-- The contents of the buckets are those of a window, and so is the start of the newest. -/
structure Follows (buckets : List Shedder.Bucket) (window : SlidingWindow (Nat × Option Nat)) :
    Prop where
  contents : buckets.map contents = window.buckets
  started : ∃ older latest, buckets = older ++ [latest] ∧ latest.startedAt = window.started

theorem rotateBuckets_follows {config : Shedder.LoadShedderConfig}
    (small : config.bucketCount < 2 ^ 32) {buckets : List Shedder.Bucket}
    {window : SlidingWindow (Nat × Option Nat)} (follows : Follows buckets window)
    (fits : SlidingWindow.Fits config.bucketCount created window) {now : Nat}
    (span : now < created + 2 ^ 64) :
    ∃ rotated, Shedder.rotateBuckets config buckets now = some rotated ∧
      Follows rotated (window.rotate config.bucketCount config.bucketDuration (0, none) now) := by
  obtain ⟨same, older, latest, last, begun⟩ := follows
  have length : buckets.length = window.buckets.length := by
    rw [← same, List.length_map]
  have word : (now - window.started) / config.bucketDuration < Shedder.usizeCount := by
    have quotient := Nat.div_le_self (now - window.started) config.bucketDuration
    have begun := fits.begun
    rw [Shedder.usizeCount]
    omega
  have ends : buckets.getLast? = some latest := by
    rw [last, List.getLast?_concat]
  rw [Shedder.rotateBuckets, ends, Option.map_some, begun, SlidingWindow.rotate,
    Nat.mod_eq_of_lt word]
  generalize (now - window.started) / config.bucketDuration = steps
  dsimp only
  by_cases all : config.bucketCount ≤ steps
  · rw [if_pos all, if_pos all]
    exact ⟨_, rfl, rfl, [], _, rfl, rfl⟩
  · rw [if_neg all, if_neg all, Nat.min_eq_left (by omega)]
    refine ⟨_, rfl, ?_, ?_⟩
    · dsimp only
      rw [List.rtake, List.map_drop, List.map_append, same, List.map_map, List.length_append,
        List.length_append, List.length_map, List.length_range, List.length_replicate, length]
      congr 2
      have empty : (contents ∘ fun step => (⟨window.started + config.bucketDuration *
          ((step + 1) % Shedder.u32Count), 0, none⟩ : Shedder.Bucket)) = fun _ => (0, none) := rfl
      rw [empty, List.map_const', List.length_range]
    · cases steps with
      | zero =>
        have room : buckets.length ≤ config.bucketCount := length ▸ fits.length_le
        refine ⟨older, latest, ?_, begun⟩
        rw [List.range_zero, List.map_nil, List.append_nil, Nat.sub_eq_zero_of_le room]
        exact last
      | succ steps =>
        rw [List.range_succ, List.map_append, List.map_singleton, ← List.append_assoc,
          List.drop_append_of_le_length, Nat.mod_eq_of_lt]
        · exact ⟨_, _, rfl, rfl⟩
        · rw [Shedder.u32Count]
          omega
        · rw [List.length_append, List.length_append, List.length_singleton]
          have positive := config.bucketCount_valid.1
          omega

theorem recordBucket_follows {buckets : List Shedder.Bucket}
    {window : SlidingWindow (Nat × Option Nat)} {changed : List (Nat × Option Nat)}
    (follows : Follows buckets window) (now : Nat) (observation : Observation V)
    (recorded : SlidingWindow.recordLast (recordLatency now observation) window.buckets =
      some changed) :
    ∃ later, Shedder.recordBucket observation.elapsed buckets = some later ∧
      Follows later ⟨window.started, changed⟩ := by
  obtain ⟨same, older, latest, last, begun⟩ := follows
  rw [last, List.map_append, List.map_singleton] at same
  rw [← same, SlidingWindow.recordLast_concat] at recorded
  cases recorded
  rw [Shedder.recordBucket, last, List.getLast?_concat, List.dropLast_concat, Option.map_some]
  refine ⟨_, rfl, ?_, older, _, rfl, begun⟩
  rw [List.map_append, List.map_singleton]
  rfl

theorem observeShedder_follows {config : Shedder.LoadShedderConfig} {floats : Shedder.Floats F}
    (small : config.bucketCount < 2 ^ 32) (mode : config.mode = .cpuThroughput)
    {state : Shedder.ShedderState F} {window later : SlidingWindow (Nat × Option Nat)}
    (follows : Follows state.buckets window)
    (fits : SlidingWindow.Fits config.bucketCount created window)
    (span : event.now < created + 2 ^ 64)
    (stepped : SlidingWindow.step config.bucketCount config.bucketDuration (0, none) recordLatency
      window event = some later) :
    ∃ next, observeShedder config floats state event = some next ∧ Follows next.buckets later := by
  obtain ⟨rotated, rotates, after⟩ := rotateBuckets_follows small follows fits span
  obtain ⟨now, observed⟩ := event
  cases observed with
  | none =>
    cases stepped
    have ran : observeShedder config floats state (⟨now, none⟩ : WindowEvent (Observation V)) =
        Shedder.refreshed config floats state now := rfl
    rw [ran, Shedder.refreshed, rotates]
    exact ⟨_, rfl, after⟩
  | some observation =>
    obtain ⟨changed, recorded, same⟩ := Option.map_eq_some_iff.mp stepped
    cases same
    obtain ⟨buckets, written, follows⟩ := recordBucket_follows after now observation recorded
    have ran : (Shedder.rotateBuckets config state.buckets now).bind
        (Shedder.recordBucket observation.elapsed) = some buckets := by
      rw [rotates]
      exact written
    rw [observeShedder]
    dsimp only
    rw [Shedder.record, mode]
    dsimp only
    rw [ran]
    exact ⟨_, rfl, follows⟩

end Follows

/-! ## What is counted -/

section Counts

variable {V : Type} {floats : Floats V}

theorem bucketOf_count (noted : List (Nat × Observation V)) :
    (SlidingWindow.bucketOf (.empty floats) (recordValue floats) noted).count =
      noted.length % 2 ^ 64 := by
  induction noted using List.reverseRecOn with
  | nil => rfl
  | append_singleton noted observation ih =>
    rw [SlidingWindow.bucketOf, List.foldl_concat, ← SlidingWindow.bucketOf, recordValue,
      Rolling.Bucket.record, ih, List.length_append, List.length_singleton, Nat.mod_add_mod]

variable (floats) in
/-- A snapshot counts what is retained. -/
theorem snapshot_count (kept : List (List (Nat × Observation V))) :
    (RollingSnapshot.of floats
      (kept.map (SlidingWindow.bucketOf (.empty floats) (recordValue floats)))).count =
        kept.flatten.length % 2 ^ 64 := by
  induction kept using List.reverseRecOn with
  | nil => rfl
  | append_singleton kept noted ih =>
    rw [List.map_append, List.map_singleton, RollingSnapshot.of, List.foldl_concat,
      ← RollingSnapshot.of, RollingSnapshot.merge, ih, bucketOf_count, List.flatten_append,
      List.flatten_singleton, List.length_append, ← Nat.add_mod]

theorem bucketOf_total (noted : List (Nat × Observation V)) :
    (SlidingWindow.bucketOf .empty recordOutcome noted).total =
      min noted.length (2 ^ 64 - 1) := by
  induction noted using List.reverseRecOn with
  | nil => rfl
  | append_singleton noted observation ih =>
    rw [SlidingWindow.bucketOf, List.foldl_concat, ← SlidingWindow.bucketOf, recordOutcome,
      RollingBreaker.OutcomeBucket.record, ih, List.length_append, List.length_singleton]
    dsimp only
    rw [RollingBreaker.saturatingAdd]
    omega

/-- The history of the breaker counts what is retained. -/
theorem totals_total (kept : List (List (Nat × Observation V))) :
    (RollingBreaker.totals (kept.map (SlidingWindow.bucketOf .empty recordOutcome))).total =
      min kept.flatten.length (2 ^ 64 - 1) := by
  induction kept using List.reverseRecOn with
  | nil => rfl
  | append_singleton kept noted ih =>
    rw [List.map_append, List.map_singleton, RollingBreaker.totals, List.foldl_concat,
      ← RollingBreaker.totals]
    dsimp only
    rw [ih, bucketOf_total, List.flatten_append, List.flatten_singleton, List.length_append,
      RollingBreaker.saturatingAdd]
    omega

end Counts

/-! ## One history -/

section History

variable {V F : Type} {count width created now : Nat}

/-- A deque that is never empty and never has more than `count` buckets. -/
def Sized (count length : Nat) : Prop :=
  1 ≤ length ∧ length ≤ count

/-- The three after a history: each has done all its calls, and a read then has the buckets of the
observations `kept`. -/
structure RetainedBy (floats : Floats V) (count width created now : Nat)
    (events : List (WindowEvent (Observation V))) (kept : List (List (Nat × Observation V))) :
    Prop where
  window : ∀ rolling : RollingWindow, rolling.bucketCount = count → rolling.bucketWidth = width →
    ∃ state, events.foldlM (observeWindow floats rolling) (RollingWindow.start floats created) =
        some state ∧ Sized count state.buckets.length ∧
      (rolling.snapshot floats state now).1.buckets =
        kept.map (SlidingWindow.bucketOf (.empty floats) (recordValue floats)) ∧
      (rolling.snapshot floats state now).2.count = kept.flatten.length % 2 ^ 64
  breaker : ∀ config : RollingBreaker.RollingCircuitBreakerConfig, config.buckets = count →
    config.bucketWidth = width →
    ∃ state, events.foldlM (observeBreaker config) (RollingBreaker.startState created) =
        some state ∧ Sized count state.buckets.length ∧
      (RollingBreaker.history config state now).1.buckets =
        kept.map (SlidingWindow.bucketOf .empty recordOutcome) ∧
      (RollingBreaker.history config state now).2.1.total = min kept.flatten.length (2 ^ 64 - 1)
  shedder : ∀ config : Shedder.LoadShedderConfig, config.bucketCount = count →
    config.bucketDuration = width → config.mode = .cpuThroughput →
    ∀ (F : Type) (floats : Shedder.Floats F), ∃ state next,
      events.foldlM (observeShedder config floats) (Shedder.start config floats created).inner =
        some state ∧ Sized count state.buckets.length ∧
      Shedder.refreshed config floats state now = some next ∧
        next.buckets.map contents = kept.map (SlidingWindow.bucketOf (0, none) recordLatency)

theorem sized_of_fits {β : Type} {window : SlidingWindow β}
    (fits : SlidingWindow.Fits count created window) : Sized count window.buckets.length :=
  ⟨List.length_pos_iff.mpr fits.nonempty, fits.length_le⟩

/-- Over any history of times the three retain the same observations at a read: all that are less
than `count - 1` widths old, and none that are `count` widths old. -/
theorem windows_retain_alike (floats : Floats V) (positive : 0 < count) (small : count < 2 ^ 32)
    (wide : 0 < width) {events : List (WindowEvent (Observation V))}
    (ordered : SlidingWindow.Ordered created (events ++ [⟨now, none⟩]))
    (span : now < created + 2 ^ 64) (finite : ∀ event ∈ events, Finite floats event) :
    ∃ kept, SlidingWindow.Retains count width now (SlidingWindow.observations events) kept ∧
      RetainedBy floats count width created now events kept := by
  obtain ⟨after, ran, retains⟩ := SlidingWindow.run_retains positive wide ordered
  have finite_ : ∀ event ∈ events ++ [⟨now, none⟩], Finite floats event := by
    intro event member
    rw [List.mem_append, List.mem_singleton] at member
    rcases member with before | last
    · exact finite event before
    · intro observation observed
      rw [last] at observed
      cases observed
  have past : ∀ event ∈ events ++ [(⟨now, none⟩ : WindowEvent (Observation V))],
      event.now < created + 2 ^ 64 := by
    intro event member
    rw [List.mem_append, List.mem_singleton] at member
    rcases member with before | last
    · exact (ordered.append.2.2 event before).trans_lt span
    · rw [last]
      exact span
  refine ⟨after.buckets, retains, ?_, ?_, ?_⟩
  · intro rolling counted same
    subst counted same
    obtain ⟨state, _, next, reached, rfl, fits, advanced, follows⟩ :=
      SlidingWindow.read_simulated (fun state window => state.window = window)
        (observeWindow floats rolling) (RollingWindow.start floats created) positive rfl
        (by
          intro state _ event later same fits finite stepped
          subst same
          exact observeWindow_follows small fits finite stepped) finite_ ran
    cases advanced
    have buckets := congrArg SlidingWindow.buckets follows
    refine ⟨state, reached, sized_of_fits fits, buckets, ?_⟩
    rw [← snapshot_count floats]
    exact congrArg (fun buckets => (RollingSnapshot.of floats buckets).count) buckets
  · intro config counted same
    subst counted same
    obtain ⟨state, _, next, reached, rfl, fits, advanced, follows⟩ :=
      SlidingWindow.read_simulated (fun state window => state.window = window)
        (observeBreaker config) (RollingBreaker.startState created) positive rfl
        (by
          intro state _ event later same fits _ stepped
          subst same
          exact observeBreaker_follows small fits stepped) past ran
    cases advanced
    have buckets := congrArg SlidingWindow.buckets follows
    refine ⟨state, reached, sized_of_fits fits, buckets, ?_⟩
    rw [← totals_total]
    exact congrArg (fun buckets => (RollingBreaker.totals buckets).total) buckets
  · intro config counted same mode F floats
    subst counted same
    obtain ⟨state, before, next, reached, follows, fits, advanced, after⟩ :=
      SlidingWindow.read_simulated (fun state window => Follows state.buckets window)
        (observeShedder config floats) (Shedder.start config floats created).inner positive
        ⟨rfl, [], ⟨created, 0, none⟩, rfl, rfl⟩
        (by
          intro state window event later follows fits span stepped
          exact observeShedder_follows small mode follows fits span stepped) past ran
    refine ⟨state, next, reached, ?_, advanced, after.contents⟩
    have length := congrArg List.length follows.contents
    rw [List.length_map] at length
    rw [length]
    exact sized_of_fits fits

/-- A window of two buckets that are five wide, and a read after fifteen. -/
theorem windows_retain_alike_expired :
    ∃ kept, SlidingWindow.Retains 2 5 15 [(0, (⟨10, true, 0, 3⟩ : Observation Int))] kept ∧
      RetainedBy ⟨0, (· + ·), min, max, fun _ => true⟩ 2 5 0 15 [⟨0, some ⟨10, true, 0, 3⟩⟩]
        kept := by
  have ordered : SlidingWindow.Ordered 0
      ([⟨0, some (⟨10, true, 0, 3⟩ : Observation Int)⟩] ++ [⟨15, none⟩]) := by
    rw [SlidingWindow.Ordered]
    decide
  have wide : 0 < 5 := by omega
  exact windows_retain_alike _ two_pos (by omega) wide ordered (by omega) fun _ _ _ _ => rfl

end History

end RustZero.SlidingWindows
