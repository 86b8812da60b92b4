import RustZero.Lib.Lts
import RustZero.Lib.Phases

/-!
# The adaptive load shedder

`core/src/load.rs`.  `AdaptiveShedder` admits a request by a check under a mutex
and a compare-exchange on the counter of requests in flight outside it; dropping a
permit lowers the counter first and feeds the measurements under the mutex later.

* `check` and `record` are the two critical sections that rewrite the limit;
  `advance` interleaves them with the atomic steps of any number of calls.  A
  `Phase` is how far a call, and the permit it got, has come.
* Floating point enters as the parameter `Floats`: nothing is assumed of it.  The
  clock and the CPU reading of a step are arbitrary.
* A panic inside a critical section poisons the mutex for good, and every later
  `lock().expect` panics.  `Steady` excludes exactly these steps, and the one that
  raises a limit of `usize::MAX`, which wraps to zero.
* `Bounded` is the invariant: the counter counts the live permits.

Durations and instants are nanoseconds.  `usize` arithmetic wraps, as in a release
build; `Duration` and `Instant` arithmetic panics on overflow.
-/

namespace RustZero.Shedder

open RustZero.Lib (Lts countP_set_add)

def usizeCount : Nat := 2 ^ 64

def u32Count : Nat := 2 ^ 32

/-- The largest `Duration`: `u64::MAX` seconds and 999,999,999 nanoseconds. -/
def maxDuration : Nat := 2 ^ 64 * 1000000000 - 1

/-- The largest `Instant`, whose seconds are an `i64`. -/
def maxInstant : Nat := 2 ^ 63 * 1000000000 - 1

inductive LoadShedderMode where
  | latency
  | cpuThroughput
  deriving DecidableEq

/-- `LoadShedderConfig` as its constructors leave it; the two thresholds that are
floating point are part of `Floats` and of the CPU reading. -/
structure LoadShedderConfig where
  maxConcurrency : Nat
  targetLatency : Nat
  sampleWindow : Nat
  mode : LoadShedderMode
  bucketDuration : Nat
  bucketCount : Nat
  cooldown : Nat
  maxConcurrency_valid : 0 < maxConcurrency ∧ maxConcurrency < usizeCount
  targetLatency_valid : 0 < targetLatency ∧ targetLatency ≤ maxDuration
  sampleWindow_valid : 0 < sampleWindow ∧ sampleWindow < usizeCount
  bucketDuration_valid : 0 < bucketDuration ∧ bucketDuration ≤ maxDuration
  bucketCount_valid : 0 < bucketCount ∧ bucketCount < usizeCount
  cooldown_valid : 0 < cooldown ∧ cooldown ≤ maxDuration

/-- The floating-point operations of the shedder. -/
structure Floats (F : Type) where
  zero : F
  /-- The smoothed load after an admission that found `active` requests. -/
  admitted : F → Nat → F
  /-- The smoothed load after a drop that left `active` requests. -/
  dropped : F → Nat → F
  /-- `smoothed >= limit as f64`. -/
  atLeast : F → Nat → Bool
  /-- The ceiling of throughput times latency, from the most completions of a
  bucket, the bucket duration and the least latency. -/
  capacity : Nat → Nat → Nat → Nat

structure Bucket where
  startedAt : Nat
  completed : Nat
  minimumLatency : Option Nat
  deriving DecidableEq

structure ShedderState (F : Type) where
  currentLimit : Nat
  sampleCount : Nat
  totalLatency : Nat
  buckets : List Bucket
  smoothedInFlight : F
  cooldownUntil : Option Nat

section Locked

variable {F : Type} (config : LoadShedderConfig) (floats : Floats F)

/-- `rotate_buckets`; `none` is the panic of a deque without buckets. -/
def rotateBuckets (buckets : List Bucket) (now : Nat) : Option (List Bucket) :=
  buckets.getLast?.map fun latest =>
    let steps := (now - latest.startedAt) / config.bucketDuration % usizeCount
    let pushed := buckets ++ (List.range (min steps config.bucketCount)).map fun step =>
      ⟨latest.startedAt + config.bucketDuration * ((step + 1) % u32Count), 0, none⟩
    if config.bucketCount ≤ steps then [⟨now, 0, none⟩]
    else pushed.drop (pushed.length - config.bucketCount)

/-- `production_limit`. -/
def productionLimit (buckets : List Bucket) : Nat :=
  match (buckets.filterMap Bucket.minimumLatency).min? with
  | none => config.maxConcurrency
  | some latency =>
      let maximum := (buckets.map Bucket.completed).foldl max 0
      min (max (floats.capacity maximum config.bucketDuration latency) 1) config.maxConcurrency

/-- How a critical section ends. -/
inductive Verdict where
  | passed
  | refused
  | panicked
  deriving DecidableEq

/-- Whether `try_acquire` refuses, given what it has read. -/
def refuses (state : ShedderState F) (active now : Nat) (overloaded : Bool) : Bool :=
  decide (config.maxConcurrency ≤ active) ||
    (config.mode == .latency && decide (state.currentLimit ≤ active)) ||
    (config.mode == .cpuThroughput &&
      (overloaded || state.cooldownUntil.any fun until_ => decide (now < until_)) &&
      decide (state.currentLimit ≤ active) &&
      floats.atLeast state.smoothedInFlight state.currentLimit)

/-- The rotation and the new limit, at the start of the section of `try_acquire`. -/
def refreshed (state : ShedderState F) (now : Nat) : Option (ShedderState F) :=
  (rotateBuckets config state.buckets now).map fun buckets =>
    { state with
      buckets := buckets
      currentLimit := match config.mode with
        | .latency => state.currentLimit
        | .cpuThroughput => productionLimit config floats buckets }

/-- The critical section of `try_acquire` before the compare-exchange. -/
def check (state : ShedderState F) (active now : Nat) (overloaded : Bool) :
    ShedderState F × Verdict :=
  match refreshed config floats state now with
  | none => (state, .panicked)
  | some state =>
      if refuses config floats state active now overloaded then
        if overloaded then
          if now + config.cooldown ≤ maxInstant then
            ({ state with cooldownUntil := some (now + config.cooldown) }, .refused)
          else (state, .panicked)
        else (state, .refused)
      else (state, .passed)

/-- The measurement of the latest bucket. -/
def recordBucket (elapsed : Nat) (buckets : List Bucket) : Option (List Bucket) :=
  buckets.getLast?.map fun latest =>
    buckets.dropLast ++ [{ latest with
      completed := min (latest.completed + 1) (usizeCount - 1)
      minimumLatency := some ((latest.minimumLatency.map (min · elapsed)).getD elapsed) }]

/-- The limit after a full window of samples. -/
def adjustedLimit (currentLimit averageLatency : Nat) : Nat :=
  if config.targetLatency < averageLatency then max (currentLimit * 9 % usizeCount / 10) 1
  else min ((currentLimit + 1) % usizeCount) config.maxConcurrency

/-- The critical section of `drop`, which found `active` requests left. -/
def record (state : ShedderState F) (active elapsed now : Nat) : ShedderState F × Verdict :=
  match config.mode with
  | .cpuThroughput =>
      match (rotateBuckets config state.buckets now).bind (recordBucket elapsed) with
      | none => (state, .panicked)
      | some buckets =>
          ({ state with
            buckets := buckets
            smoothedInFlight := floats.dropped state.smoothedInFlight active
            currentLimit := productionLimit config floats buckets }, .passed)
  | .latency =>
      let sampleCount := (state.sampleCount + 1) % usizeCount
      let totalLatency := state.totalLatency + elapsed
      let counted := { state with sampleCount := sampleCount }
      if maxDuration < totalLatency then (counted, .panicked)
      else
        let sampled := { counted with totalLatency := totalLatency }
        if sampleCount < config.sampleWindow then (sampled, .passed)
        else
          -- the number of samples is cut to 32 bits for the division
          let divisor := sampleCount % u32Count
          if divisor = 0 then (sampled, .panicked)
          else
            ({ sampled with
              currentLimit := adjustedLimit config state.currentLimit (totalLatency / divisor)
              sampleCount := 0
              totalLatency := 0 }, .passed)

end Locked

/-! ## The calls -/

/-- How far a call of `try_acquire` and its permit have come. -/
inductive Phase where
  | loading
  /-- The counter has been read. -/
  | loaded (active : Nat)
  /-- The check has passed; the compare-exchange is next. -/
  | checked (active now : Nat)
  /-- The compare-exchange succeeded; the permit is not returned yet. -/
  | admitted (active now : Nat)
  | holding (startedAt : Nat)
  /-- `drop` has lowered the counter to `active`. -/
  | dropping (active startedAt : Nat)
  | refused
  | dropped
  | panicked
  deriving DecidableEq

/-- The permits that count: from the compare-exchange to the drop. -/
def Phase.live : Phase → Bool
  | .admitted _ _ => true
  | .holding _ => true
  | _ => false

structure State (F : Type) where
  inFlight : Nat
  inner : ShedderState F
  poisoned : Bool
  calls : List Phase

inductive Action where
  | call
  | load (index : Nat)
  | check (index now : Nat) (overloaded : Bool)
  | compareExchange (index : Nat)
  /-- `compare_exchange_weak` may fail although the counter is as expected. -/
  | failSpuriously (index : Nat)
  | settle (index : Nat)
  | drop (index : Nat)
  | record (index elapsed now : Nat)

section System

variable {F : Type} (config : LoadShedderConfig) (floats : Floats F)

def State.enter (state : State F) (index : Nat) (phase : Phase) : State F :=
  { state with calls := state.calls.set index phase }

/-- The state after a critical section; a panic in it poisons the mutex. -/
def State.leave (state : State F) (index : Nat) (inner : ShedderState F) (verdict : Verdict)
    (onPass onRefusal : Phase) : State F :=
  match verdict with
  | .passed => { state with inner := inner }.enter index onPass
  | .refused => { state with inner := inner }.enter index onRefusal
  | .panicked => { state with inner := inner, poisoned := true }.enter index .panicked

def advance (state : State F) : Action → Option (State F)
  | .call => some { state with calls := state.calls ++ [.loading] }
  | .load index =>
      match state.calls[index]? with
      | some .loading => some (state.enter index (.loaded state.inFlight))
      | _ => none
  | .check index now overloaded =>
      match state.calls[index]? with
      | some (.loaded active) =>
          if state.poisoned then some (state.enter index .panicked)
          else
            let (inner, verdict) := check config floats state.inner active now overloaded
            some (state.leave index inner verdict (.checked active now) .refused)
      | _ => none
  | .compareExchange index =>
      match state.calls[index]? with
      | some (.checked active now) =>
          if state.inFlight = active then
            some ({ state with inFlight := active + 1 }.enter index (.admitted active now))
          else some (state.enter index .loading)
      | _ => none
  | .failSpuriously index =>
      match state.calls[index]? with
      | some (.checked _ _) => some (state.enter index .loading)
      | _ => none
  | .settle index =>
      match state.calls[index]? with
      | some (.admitted active now) =>
          if state.poisoned then some (state.enter index .panicked)
          else
            let inner := { state.inner with
              smoothedInFlight := floats.admitted state.inner.smoothedInFlight active }
            some ({ state with inner := inner }.enter index (.holding now))
      | _ => none
  | .drop index =>
      match state.calls[index]? with
      | some (.holding startedAt) =>
          some ({ state with inFlight := (state.inFlight + (usizeCount - 1)) % usizeCount }.enter
            index (.dropping (state.inFlight - 1) startedAt))
      | _ => none
  | .record index elapsed now =>
      match state.calls[index]? with
      | some (.dropping active _) =>
          if state.poisoned then some (state.enter index .panicked)
          else
            let (inner, verdict) := record config floats state.inner active elapsed now
            some (state.leave index inner verdict .dropped .dropped)
      | _ => none

/-- A new shedder, made at `created`. -/
def start (created : Nat) : State F where
  inFlight := 0
  inner :=
    { currentLimit := config.maxConcurrency
      sampleCount := 0
      totalLatency := 0
      buckets := [⟨created, 0, none⟩]
      smoothedInFlight := floats.zero
      cooldownUntil := none }
  poisoned := false
  calls := []

def system (created : Nat) : Lts (State F) Action where
  init := start config floats created
  step := advance config floats

/-- The live permits. -/
def State.live (state : State F) : Nat :=
  state.calls.countP Phase.live

/-- No critical section overflows: a refusal under CPU pressure can represent the
end of its cooldown; a drop in latency mode can represent the sum of the sampled
latencies, divides by the samples of a full window, and does not raise a limit of
`usize::MAX`. -/
def Steady (state : State F) : Action → Prop
  | .check index now overloaded =>
      ∀ active inner, state.calls[index]? = some (.loaded active) →
        refreshed config floats state.inner now = some inner →
        refuses config floats inner active now overloaded = true → overloaded = true →
        now + config.cooldown ≤ maxInstant
  | .record _ elapsed _ =>
      config.mode = .latency →
        state.inner.totalLatency + elapsed ≤ maxDuration ∧
        (config.sampleWindow ≤ state.inner.sampleCount + 1 →
          (state.inner.sampleCount + 1) % u32Count ≠ 0 ∧
          ((state.inner.totalLatency + elapsed) / ((state.inner.sampleCount + 1) % u32Count) ≤
            config.targetLatency → state.inner.currentLimit + 1 < usizeCount))
  | _ => True

end System

/-! ## The critical sections -/

section Sections

variable {F : Type} {config : LoadShedderConfig} {floats : Floats F} {state inner : ShedderState F}
  {active now elapsed : Nat} {overloaded : Bool}

/-- What the critical sections keep of the measurements. -/
structure Healthy (config : LoadShedderConfig) (state : ShedderState F) : Prop where
  limit : 1 ≤ state.currentLimit ∧ state.currentLimit ≤ config.maxConcurrency
  buckets : state.buckets ≠ []
  samples : state.sampleCount < config.sampleWindow

theorem rotateBuckets_nonempty (config : LoadShedderConfig) {buckets : List Bucket}
    (nonempty : buckets ≠ []) (now : Nat) :
    ∃ rotated, rotateBuckets config buckets now = some rotated ∧ rotated ≠ [] := by
  have positive := config.bucketCount_valid.1
  have length := List.length_pos_iff.mpr nonempty
  rw [rotateBuckets, List.getLast?_eq_getLast_of_ne_nil nonempty, Option.map_some]
  refine ⟨_, rfl, ?_⟩
  dsimp only
  split
  · simp
  · apply List.length_pos_iff.mp
    rw [List.length_drop, List.length_append]
    omega

theorem productionLimit_range (buckets : List Bucket) :
    1 ≤ productionLimit config floats buckets ∧
      productionLimit config floats buckets ≤ config.maxConcurrency := by
  have positive := config.maxConcurrency_valid.1
  unfold productionLimit
  split
  · exact ⟨positive, Nat.le_refl _⟩
  · exact ⟨Nat.le_min.mpr ⟨Nat.le_max_right _ _, positive⟩, Nat.min_le_right _ _⟩

theorem adjustedLimit_range {limit average : Nat}
    (range : 1 ≤ limit ∧ limit ≤ config.maxConcurrency)
    (fits : average ≤ config.targetLatency → limit + 1 < usizeCount) :
    1 ≤ adjustedLimit config limit average ∧
      adjustedLimit config limit average ≤ config.maxConcurrency := by
  have valid := config.maxConcurrency_valid
  unfold adjustedLimit
  split
  · have cut : limit * 9 % usizeCount ≤ limit * 9 := Nat.mod_le _ _
    omega
  · rename_i within
    rw [Nat.mod_eq_of_lt (fits (Nat.le_of_not_lt within))]
    omega

theorem refreshed_healthy (floats : Floats F) (healthy : Healthy config state) (now : Nat) :
    ∃ inner, refreshed config floats state now = some inner ∧ Healthy config inner := by
  obtain ⟨rotated, rotates, nonempty⟩ := rotateBuckets_nonempty config healthy.buckets now
  rw [refreshed, rotates, Option.map_some]
  refine ⟨_, rfl, ?_, nonempty, healthy.samples⟩
  cases mode : config.mode with
  | latency => exact healthy.limit
  | cpuThroughput => exact productionLimit_range rotated

/-- A call that finds nothing in flight is not refused. -/
theorem refuses_zero (healthy : Healthy config state) :
    refuses config floats state 0 now overloaded = false := by
  have limit : ¬ state.currentLimit ≤ 0 := by
    have := healthy.limit.1
    omega
  have most : ¬ config.maxConcurrency ≤ 0 := by
    have := config.maxConcurrency_valid.1
    omega
  simp [refuses, limit, most]

theorem lt_of_not_refuses (admitted : refuses config floats state active now overloaded = false) :
    active < config.maxConcurrency := by
  by_contra most
  have most : config.maxConcurrency ≤ active := Nat.le_of_not_lt most
  simp [refuses, most] at admitted

theorem check_healthy (healthy : Healthy config state) (floats : Floats F)
    (fits : ∀ inner, refreshed config floats state now = some inner →
      refuses config floats inner active now overloaded = true → overloaded = true →
      now + config.cooldown ≤ maxInstant) :
    Healthy config (check config floats state active now overloaded).1 ∧
      (check config floats state active now overloaded).2 ≠ .panicked ∧
      ((check config floats state active now overloaded).2 = .passed →
        active < config.maxConcurrency) ∧
      (active = 0 → (check config floats state active now overloaded).2 = .passed) := by
  obtain ⟨inner, fresh, healthy⟩ := refreshed_healthy floats healthy now
  have fits := fits inner fresh
  simp only [check, fresh]
  cases verdict : refuses config floats inner active now overloaded with
  | false =>
      simp only [Bool.false_eq_true, if_false]
      exact ⟨healthy, by decide, fun _ => lt_of_not_refuses verdict, fun _ => trivial⟩
  | true =>
      have some_ : active ≠ 0 := by
        intro zero
        rw [zero, refuses_zero healthy] at verdict
        cases verdict
      simp only [if_true]
      cases overloaded with
      | false =>
          simp only [Bool.false_eq_true, if_false]
          exact ⟨healthy, by decide, fun passed => absurd passed (by decide),
            fun zero => absurd zero some_⟩
      | true =>
          simp only [if_true, if_pos (fits verdict rfl)]
          exact ⟨⟨healthy.limit, healthy.buckets, healthy.samples⟩, by decide,
            fun passed => absurd passed (by decide), fun zero => absurd zero some_⟩

theorem recordBucket_nonempty {buckets : List Bucket} (nonempty : buckets ≠ []) (elapsed : Nat) :
    ∃ recorded, recordBucket elapsed buckets = some recorded ∧ recorded ≠ [] := by
  rw [recordBucket, List.getLast?_eq_getLast_of_ne_nil nonempty, Option.map_some]
  exact ⟨_, rfl, by simp⟩

theorem record_healthy (healthy : Healthy config state) (floats : Floats F) (active now : Nat)
    (fits : config.mode = .latency →
      state.totalLatency + elapsed ≤ maxDuration ∧
      (config.sampleWindow ≤ state.sampleCount + 1 →
        (state.sampleCount + 1) % u32Count ≠ 0 ∧
        ((state.totalLatency + elapsed) / ((state.sampleCount + 1) % u32Count) ≤
          config.targetLatency → state.currentLimit + 1 < usizeCount))) :
    Healthy config (record config floats state active elapsed now).1 ∧
      (record config floats state active elapsed now).2 = .passed := by
  unfold record
  cases mode : config.mode with
  | cpuThroughput =>
      obtain ⟨rotated, rotates, some_⟩ := rotateBuckets_nonempty config
        healthy.buckets now
      obtain ⟨recorded, records, nonempty⟩ := recordBucket_nonempty some_ elapsed
      simp only [rotates, Option.bind_some, records]
      exact ⟨⟨productionLimit_range recorded, nonempty, healthy.samples⟩, trivial⟩
  | latency =>
      obtain ⟨total, full⟩ := fits mode
      have window := config.sampleWindow_valid
      have samples := healthy.samples
      have unwrapped : (state.sampleCount + 1) % usizeCount = state.sampleCount + 1 := by
        apply Nat.mod_eq_of_lt
        omega
      simp only [unwrapped, if_neg (Nat.not_lt.mpr total)]
      by_cases more : state.sampleCount + 1 < config.sampleWindow
      · simp only [if_pos more]
        exact ⟨⟨healthy.limit, healthy.buckets, more⟩, trivial⟩
      · obtain ⟨divides, raises⟩ := full (Nat.le_of_not_lt more)
        simp only [if_neg more, if_neg divides]
        exact ⟨⟨adjustedLimit_range healthy.limit raises, healthy.buckets, window.1⟩, trivial⟩

end Sections

/-! ## The counter -/

section Invariant

variable {F : Type} {config : LoadShedderConfig} {floats : Floats F} {state state' : State F}
  {action : Action} {index : Nat}

/-- The mutex is sound, the measurements are healthy, the counter is the number of
live permits and a call that passed its check saw room. -/
structure Bounded (config : LoadShedderConfig) (state : State F) : Prop where
  sound : state.poisoned = false
  healthy : Healthy config state.inner
  counter : state.inFlight = state.live
  bound : state.inFlight ≤ config.maxConcurrency
  room : ∀ active now, .checked active now ∈ state.calls → active < config.maxConcurrency

theorem live_enter (state : State F) {phase : Phase}
    (found : state.calls[index]? = some phase) (next : Phase) :
    (state.enter index next).live + (if phase.live then 1 else 0) =
      state.live + if next.live then 1 else 0 := by
  unfold State.live State.enter
  exact countP_set_add Phase.live found next

/-- A call moves on without passing a check and without changing the counter. -/
theorem Bounded.enter {phase : Phase} {inner : ShedderState F}
    (bounded : Bounded config state) (next : Phase) (healthy : Healthy config inner)
    (found : state.calls[index]? = some phase) (same : next.live = phase.live)
    (room : ∀ active now, next = .checked active now → active < config.maxConcurrency) :
    Bounded config ({ state with inner := inner }.enter index next) := by
  have counted := live_enter { state with inner := inner } found next
  rw [same] at counted
  refine ⟨bounded.sound, healthy, ?_, bounded.bound, ?_⟩
  · have before := bounded.counter
    have unchanged : ({ state with inner := inner }.enter index next).live =
        ({ state with inner := inner } : State F).live := Nat.add_right_cancel counted
    rw [unchanged]
    exact before
  · intro active now member
    rcases List.mem_or_eq_of_mem_set member with older | new
    · exact bounded.room active now older
    · exact room active now new.symm

/-- A call that moves to no passed check leaves room for the others. -/
theorem Bounded.room_enter (bounded : Bounded config state) {next : Phase}
    (unchecked : ∀ active now, next ≠ .checked active now) :
    ∀ active now, .checked active now ∈ (state.enter index next).calls →
      active < config.maxConcurrency := by
  intro active now member
  rcases List.mem_or_eq_of_mem_set member with older | new
  · exact bounded.room active now older
  · exact absurd new.symm (unchecked active now)

/-- A call that passed its check takes the place it saw. -/
theorem Bounded.admit (bounded : Bounded config state) {active now : Nat}
    (found : state.calls[index]? = some (.checked active now)) (same : state.inFlight = active) :
    Bounded config ({ state with inFlight := active + 1 }.enter index (.admitted active now)) := by
  have room := bounded.room active now (List.mem_of_getElem? found)
  have counted := live_enter { state with inFlight := active + 1 } found (.admitted active now)
  refine ⟨bounded.sound, bounded.healthy, ?_, room, bounded.room_enter (by simp)⟩
  have before : active = state.live := same.symm.trans bounded.counter
  simp only [Phase.live, Bool.false_eq_true, if_false, if_true, Nat.add_zero] at counted
  rw [counted]
  exact congrArg (· + 1) before

/-- `fetch_sub` of one, where there is one. -/
theorem fetchSub_one {inFlight : Nat} (one : 1 ≤ inFlight) (fits : inFlight < usizeCount) :
    (inFlight + (usizeCount - 1)) % usizeCount = inFlight - 1 := by
  have wrapped : inFlight + (usizeCount - 1) = inFlight - 1 + usizeCount := by
    omega
  rw [wrapped, Nat.add_mod_right, Nat.mod_eq_of_lt (by omega)]

/-- A live permit gives its place back. -/
theorem Bounded.lower (bounded : Bounded config state) {startedAt : Nat}
    (found : state.calls[index]? = some (.holding startedAt)) :
    Bounded config ({ state with inFlight := state.inFlight - 1 }.enter index
      (.dropping (state.inFlight - 1) startedAt)) := by
  have counted := live_enter { state with inFlight := state.inFlight - 1 } found
    (.dropping (state.inFlight - 1) startedAt)
  refine ⟨bounded.sound, bounded.healthy, ?_,
    Nat.le_trans (Nat.sub_le _ _) bounded.bound, bounded.room_enter (by simp)⟩
  simp only [Phase.live, Bool.false_eq_true, if_false, if_true, Nat.add_zero] at counted
  have unchanged : ({ state with inFlight := state.inFlight - 1 } : State F).live =
      state.inFlight := bounded.counter.symm
  rw [unchanged] at counted
  exact (Nat.eq_sub_of_add_eq counted).symm

theorem Bounded.step (bounded : Bounded config state) (steady : Steady config floats state action)
    (taken : advance config floats state action = some state') : Bounded config state' := by
  obtain ⟨inFlight, inner, poisoned, calls⟩ := state
  have sound : poisoned = false := bounded.sound
  have healthy : Healthy config inner := bounded.healthy
  subst sound
  cases action with
  | call =>
      cases taken
      refine ⟨rfl, healthy, ?_, bounded.bound, ?_⟩
      · rw [bounded.counter]
        simp [State.live, Phase.live]
      · intro active now member
        rcases List.mem_append.mp member with older | new
        · exact bounded.room active now older
        · cases List.mem_singleton.mp new
  | load index =>
      simp only [advance] at taken
      split at taken
      · rename_i found
        cases taken
        exact bounded.enter _ healthy found rfl (by simp)
      · cases taken
  | check index now overloaded =>
      simp only [advance, Bool.false_eq_true, if_false] at taken
      split at taken
      · rename_i active found
        have spec := check_healthy healthy floats
          fun inner fresh refused => steady active inner found fresh refused
        cases taken
        cases verdict : (check config floats inner active now overloaded).2 with
        | panicked => exact absurd verdict spec.2.1
        | refused => exact bounded.enter _ spec.1 found rfl (by simp)
        | passed =>
            refine bounded.enter _ spec.1 found rfl ?_
            intro active' now' same
            cases same
            exact spec.2.2.1 verdict
      · cases taken
  | compareExchange index =>
      simp only [advance] at taken
      split at taken
      · rename_i active now found
        split at taken
        · rename_i same
          cases taken
          exact bounded.admit found same
        · cases taken
          exact bounded.enter _ healthy found rfl (by simp)
      · cases taken
  | failSpuriously index =>
      simp only [advance] at taken
      split at taken
      · rename_i found
        cases taken
        exact bounded.enter _ healthy found rfl (by simp)
      · cases taken
  | settle index =>
      simp only [advance, Bool.false_eq_true, if_false] at taken
      split at taken
      · rename_i active now found
        cases taken
        exact bounded.enter (.holding now)
          ⟨healthy.limit, healthy.buckets, healthy.samples⟩ found rfl (by simp)
      · cases taken
  | drop index =>
      simp only [advance] at taken
      split at taken
      · rename_i startedAt found
        have same := Option.some.inj taken
        have one : 1 ≤ State.live ⟨inFlight, inner, false, calls⟩ :=
          List.countP_pos_iff.mpr ⟨_, List.mem_of_getElem? found, rfl⟩
        have before : inFlight = State.live ⟨inFlight, inner, false, calls⟩ := bounded.counter
        have bound : inFlight ≤ config.maxConcurrency := bounded.bound
        have most := config.maxConcurrency_valid.2
        rw [fetchSub_one (before ▸ one) (by omega)] at same
        rw [← same]
        exact bounded.lower found
      · cases taken
  | record index elapsed now =>
      simp only [advance, Bool.false_eq_true, if_false] at taken
      split at taken
      · rename_i active startedAt found
        have spec := record_healthy healthy floats active now steady
        cases taken
        rw [spec.2]
        exact bounded.enter _ spec.1 found rfl (by simp)
      · cases taken

theorem bounded_of_reach {created : Nat}
    (reach : (system config floats created).Reach (Steady config floats) state) :
    Bounded config state := by
  refine reach.invariant (I := Bounded config) ?_ ?_
  · have valid := config.maxConcurrency_valid.1
    refine ⟨rfl, ⟨⟨valid, Nat.le_refl _⟩, List.cons_ne_nil _ _, config.sampleWindow_valid.1⟩, rfl,
      Nat.zero_le _, ?_⟩
    intro active now member
    cases member
  · intro before action after bounded steady step
    exact bounded.step steady step

/-! ## An acquisition that nothing overtakes -/

theorem enter_found (state : State F) {phase next : Phase}
    (found : state.calls[index]? = some phase) :
    (state.enter index next).calls[index]? = some next := by
  obtain ⟨within, -⟩ := List.getElem?_eq_some_iff.mp found
  exact List.getElem?_set_self within

theorem Bounded.load (bounded : Bounded config state) (floats : Floats F)
    (found : state.calls[index]? = some .loading) :
    ∃ after, advance config floats state (.load index) = some after ∧
      after.calls[index]? = some (.loaded state.live) ∧ after.inFlight = state.inFlight := by
  refine ⟨state.enter index (.loaded state.inFlight), ?_, ?_, rfl⟩
  · simp only [advance, found]
  · rw [← bounded.counter]
    exact enter_found _ found

theorem Bounded.steady_check (bounded : Bounded config state) (floats : Floats F)
    (found : state.calls[index]? = some (.loaded 0)) (now : Nat) (overloaded : Bool) :
    Steady config floats state (.check index now overloaded) := by
  intro active inner here fresh refused
  cases found.symm.trans here
  obtain ⟨inner', fresh', healthy⟩ := refreshed_healthy floats bounded.healthy now
  cases fresh.symm.trans fresh'
  rw [refuses_zero healthy] at refused
  cases refused

theorem Bounded.check (bounded : Bounded config state) (floats : Floats F)
    (found : state.calls[index]? = some (.loaded 0)) (now : Nat) (overloaded : Bool) :
    ∃ after, advance config floats state (.check index now overloaded) = some after ∧
      after.calls[index]? = some (.checked 0 now) ∧ after.inFlight = state.inFlight := by
  have steady := bounded.steady_check floats found now overloaded
  have spec := check_healthy bounded.healthy floats
    fun inner fresh refused => steady 0 inner found fresh refused
  simp only [advance, found, bounded.sound, Bool.false_eq_true, if_false, spec.2.2.2 rfl,
    State.leave]
  exact ⟨_, rfl, enter_found _ found, rfl⟩

theorem compareExchange_succeeds (config : LoadShedderConfig) (floats : Floats F)
    {active now : Nat}
    (found : state.calls[index]? = some (.checked active now)) (same : state.inFlight = active) :
    ∃ after, advance config floats state (.compareExchange index) = some after ∧
      after.calls[index]? = some (.admitted active now) := by
  simp only [advance, found, if_pos same]
  exact ⟨_, rfl, enter_found { state with inFlight := active + 1 } found⟩

theorem Bounded.settle (bounded : Bounded config state) (floats : Floats F) {active now : Nat}
    (found : state.calls[index]? = some (.admitted active now)) :
    ∃ after, advance config floats state (.settle index) = some after ∧
      after.calls[index]? = some (.holding now) := by
  simp only [advance, found, bounded.sound, Bool.false_eq_true, if_false]
  exact ⟨_, rfl, enter_found { state with inner := _ } found⟩

/-- Where no critical section overflows: the counter is the number of live permits,
within the bound and never lowered below zero; the limit stays in its range; and a
call that finds no live permit gets one unless the counter changes between its
read and its compare-exchange. -/
theorem shedder_bounded_when_steady {created : Nat}
    (reach : (system config floats created).Reach (Steady config floats) state) :
    state.inFlight = state.live ∧ state.inFlight ≤ config.maxConcurrency ∧
    (∀ index startedAt : Nat, state.calls[index]? = some (.holding startedAt) →
      1 ≤ state.inFlight) ∧
    (1 ≤ state.inner.currentLimit ∧ state.inner.currentLimit ≤ config.maxConcurrency) ∧
    (∀ index : Nat, state.calls[index]? = some .loading → state.live = 0 → ∀ now overloaded,
      ∃ after, (system config floats created).exec state
          [.load index, .check index now overloaded, .compareExchange index, .settle index] =
            some after ∧
        after.calls[index]? = some (.holding now)) ∧
    (∀ (index now : Nat) overloaded, state.calls[index]? = some (.loaded 0) →
      ∃ after, advance config floats state (.check index now overloaded) = some after ∧
        after.calls[index]? = some (.checked 0 now)) ∧
    (∀ index active now : Nat, state.calls[index]? = some (.checked active now) →
      state.inFlight = active →
      ∃ after, advance config floats state (.compareExchange index) = some after ∧
        after.calls[index]? = some (.admitted active now)) ∧
    (∀ index active now : Nat, state.calls[index]? = some (.admitted active now) →
      ∃ after, advance config floats state (.settle index) = some after ∧
        after.calls[index]? = some (.holding now)) := by
  have bounded := bounded_of_reach reach
  refine ⟨bounded.counter, bounded.bound, ?_, bounded.healthy.limit, ?_, ?_, ?_, ?_⟩
  · intro index startedAt found
    rw [bounded.counter]
    exact List.countP_pos_iff.mpr ⟨_, List.mem_of_getElem? found, rfl⟩
  · intro index found idle now overloaded
    obtain ⟨read, loads, loaded, unchanged⟩ := bounded.load floats found
    rw [idle] at loaded
    have loadIsSteady : Steady config floats state (.load index) := trivial
    have boundedRead := bounded.step loadIsSteady loads
    have steady := boundedRead.steady_check floats loaded now overloaded
    obtain ⟨passed, checks, checked, kept⟩ :=
      boundedRead.check floats loaded now overloaded
    have boundedPassed := boundedRead.step steady checks
    have zero : passed.inFlight = 0 := by
      rw [kept, unchanged, bounded.counter, idle]
    obtain ⟨counted, exchanges, admitted⟩ :=
      compareExchange_succeeds config floats checked zero
    have exchangeIsSteady : Steady config floats passed (.compareExchange index) := trivial
    have boundedCounted := boundedPassed.step exchangeIsSteady exchanges
    obtain ⟨after, settles, holding⟩ := boundedCounted.settle floats admitted
    refine ⟨after, ?_, holding⟩
    simp only [Lts.exec, system, loads, Option.bind_some, checks, exchanges, settles]
  · intro index now overloaded found
    obtain ⟨after, taken, checked, -⟩ := bounded.check floats found now overloaded
    exact ⟨after, taken, checked⟩
  · intro index active now found same
    exact compareExchange_succeeds config floats found same
  · intro index active now found
    exact bounded.settle floats found

end Invariant

section Sample

/-- `LoadShedderConfig::new(usize::MAX, 1 s)` with a window of one sample. -/
def unlimited : LoadShedderConfig where
  maxConcurrency := usizeCount - 1
  targetLatency := 1000000000
  sampleWindow := 1
  mode := .latency
  bucketDuration := 1000000000
  bucketCount := 10
  cooldown := 1000000000
  maxConcurrency_valid := by decide
  targetLatency_valid := by decide
  sampleWindow_valid := by decide
  bucketDuration_valid := by decide
  bucketCount_valid := by decide
  cooldown_valid := by decide

/-- Smoothing that forgets the past. -/
def latestOnly : Floats Nat where
  zero := 0
  admitted := fun _ active => active + 1
  dropped := fun _ active => active
  atLeast := fun smoothed limit => limit ≤ smoothed
  capacity := fun maximum duration latency => maximum * latency / duration

/-- One request that meets the target, and a second call. -/
def raisedActions : List Action :=
  [.call, .load 0, .check 0 1 false, .compareExchange 0, .settle 0, .drop 0, .record 0 5 6,
    .call, .load 1]

/-- Raising the limit of `usize::MAX` leaves a limit of zero: with no permit live,
every later check refuses. -/
theorem unlimited_shedder_sheds_for_good :
    ∃ state, (system unlimited latestOnly 0).Reachable state ∧ state.live = 0 ∧
      state.inner.currentLimit = 0 ∧ state.calls[1]? = some (.loaded 0) ∧
      ∀ now, (advance unlimited latestOnly state (.check 1 now false)).bind
        (fun after => after.calls[1]?) = some .refused := by
  have run : ((system unlimited latestOnly 0).exec (system unlimited latestOnly 0).init
      raisedActions).map (fun state => (state.inner.currentLimit, state.inner.buckets,
        state.poisoned, state.calls)) =
      some (0, [⟨0, 0, none⟩], false, [.dropped, .loaded 0]) := by decide +kernel
  obtain ⟨state, executed, ends⟩ := Option.map_eq_some_iff.mp run
  obtain ⟨inFlight, inner, poisoned, calls⟩ := state
  obtain ⟨limit, buckets, sound, calls⟩ : inner.currentLimit = 0 ∧
      inner.buckets = [⟨0, 0, none⟩] ∧ poisoned = false ∧ calls = [.dropped, .loaded 0] := by
    simpa using ends
  subst sound calls
  refine ⟨_, Lts.reachable_of_exec _ executed, rfl, limit, rfl, ?_⟩
  intro now
  obtain ⟨rotated, rotates, -⟩ := rotateBuckets_nonempty unlimited
    (show inner.buckets ≠ [] by simp [buckets]) now
  have fresh : refreshed unlimited latestOnly inner now =
      some { inner with buckets := rotated, currentLimit := inner.currentLimit } := by
    rw [refreshed, rotates]
    rfl
  have refused : refuses unlimited latestOnly
      { inner with buckets := rotated, currentLimit := inner.currentLimit } 0 now false =
        true := by
    simp [refuses, limit, unlimited]
  simp [advance, check, fresh, refused, State.leave, State.enter]

/-- The default latency limiter with room for two. -/
def paired : LoadShedderConfig :=
  { unlimited with maxConcurrency := 2, maxConcurrency_valid := by decide }

def pairedActions : List Action :=
  [.call, .load 0, .check 0 1 false, .compareExchange 0, .settle 0, .drop 0, .call]

/-- After a permit has been dropped the next call gets one, whatever the CPU says. -/
theorem paired_shedder_admits_again :
    ∃ state after, (system paired latestOnly 0).Reach (Steady paired latestOnly) state ∧
      state.live = 0 ∧
      (system paired latestOnly 0).exec state
        [.load 1, .check 1 9 true, .compareExchange 1, .settle 1] = some after ∧
      after.calls[1]? = some (.holding 9) := by
  have run : ((system paired latestOnly 0).exec (system paired latestOnly 0).init
      pairedActions).map State.calls = some [.dropping 0 1, .loading] := by decide +kernel
  obtain ⟨state, executed, ends⟩ := Option.map_eq_some_iff.mp run
  have steady : (system paired latestOnly 0).Meets (Steady paired latestOnly)
      (system paired latestOnly 0).init pairedActions := by
    refine Lts.meets_of_forall ?_ _
    intro action member state
    simp only [pairedActions, List.mem_cons, List.not_mem_nil, or_false] at member
    rcases member with same | same | same | same | same | same | same
    case inr.inr.inl =>
      subst same
      intro active inner _ _ _ overloaded
      cases overloaded
    all_goals
      subst same
      trivial
  have reach := Lts.reach_of_exec _ steady executed
  have idle : state.live = 0 := by
    rw [State.live, ends]
    rfl
  obtain ⟨after, acquires, holding⟩ := (shedder_bounded_when_steady reach).2.2.2.2.1 1
    (by rw [ends]; rfl) idle 9 true
  exact ⟨state, after, reach, idle, acquires, holding⟩

end Sample

end RustZero.Shedder
