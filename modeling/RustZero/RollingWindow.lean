import RustZero.Lib.SlidingWindow

/-!
# Rolling windows

`core/src/rolling.rs`, and the rotation that the rolling circuit breaker of `core/src/breaker.rs`
repeats.  Both keep one start time, that of the newest bucket, and rotate when they are read or
recorded in.

* `rotateState` is the body of both `rotate`s; `RollingWindow` gives it its own bucket.
* `rotateState_window`: it is the rotation of `Lib.SlidingWindow`, which pushes its buckets at
  once.

Instants and durations are nanoseconds.  `none` is a panic, of an assertion or an `expect`.  The
product that a start is moved by is at most the time elapsed, so it does not overflow.
-/

namespace RustZero.Rolling

open Lib

/-- `usize::try_from`. -/
def usizeTryFrom (value : Nat) : Option Nat :=
  if value < 2 ^ 64 then some value else none

/-- `WindowState`, and `RollingState` of the breaker, with their buckets oldest first. -/
structure WindowState (β : Type) where
  currentStarted : Nat
  buckets : List β
  deriving DecidableEq, Repr

def WindowState.window {β : Type} (state : WindowState β) : SlidingWindow β :=
  ⟨state.currentStarted, state.buckets⟩

/-- A round of the loop of `rotate`. -/
def pushBucket {β : Type} (bucketCount : Nat) (empty : β) (buckets : List β) : List β :=
  let pushed := buckets ++ [empty]
  if bucketCount < pushed.length then pushed.tail else pushed

/-- The body of `rotate`. -/
def rotateState {β : Type} (bucketCount bucketWidth : Nat) (empty : β) (state : WindowState β)
    (now : Nat) : WindowState β :=
  let elapsed := now - state.currentStarted
  let elapsedBuckets := (usizeTryFrom (elapsed / bucketWidth)).getD bucketCount
  if elapsedBuckets = 0 then state
  else if bucketCount ≤ elapsedBuckets then ⟨now, [empty]⟩
  else
    -- the number of buckets is cut to 32 bits for the product
    ⟨state.currentStarted + bucketWidth * (elapsedBuckets % 2 ^ 32),
      (pushBucket bucketCount empty)^[elapsedBuckets] state.buckets⟩

/-! ## Values -/

/-- The floating-point numbers that are recorded.  Nothing is assumed of them. -/
structure Floats (V : Type) where
  zero : V
  add : V → V → V
  min : V → V → V
  max : V → V → V
  isFinite : V → Bool

structure Bucket (V : Type) where
  count : Nat
  sum : V
  minimum : Option V
  maximum : Option V
  deriving DecidableEq, Repr

structure RollingSnapshot (V : Type) where
  count : Nat
  sum : V
  minimum : Option V
  maximum : Option V
  deriving DecidableEq, Repr

section Values

variable {V : Type} (floats : Floats V)

/-- `Bucket::default`. -/
def Bucket.empty : Bucket V :=
  ⟨0, floats.zero, none, none⟩

def Bucket.record (bucket : Bucket V) (value : V) : Bucket V where
  count := (bucket.count + 1) % 2 ^ 64
  sum := floats.add bucket.sum value
  minimum := some ((bucket.minimum.map (floats.min · value)).getD value)
  maximum := some ((bucket.maximum.map (floats.max · value)).getD value)

/-- A round of the loop of `snapshot`. -/
def RollingSnapshot.merge (snapshot : RollingSnapshot V) (bucket : Bucket V) :
    RollingSnapshot V where
  count := (snapshot.count + bucket.count) % 2 ^ 64
  sum := floats.add snapshot.sum bucket.sum
  minimum := (bucket.minimum.map fun minimum =>
    (snapshot.minimum.map (floats.min · minimum)).getD minimum).or snapshot.minimum
  maximum := (bucket.maximum.map fun maximum =>
    (snapshot.maximum.map (floats.max · maximum)).getD maximum).or snapshot.maximum

/-- What `snapshot` reads of its buckets. -/
def RollingSnapshot.of (buckets : List (Bucket V)) : RollingSnapshot V :=
  buckets.foldl (RollingSnapshot.merge floats) ⟨0, floats.zero, none, none⟩

end Values

/-! ## The rolling window -/

/-- `RollingWindow` as `new` makes it. -/
structure RollingWindow where
  bucketCount : Nat
  bucketWidth : Nat
  bucketCount_valid : 0 < bucketCount ∧ bucketCount < 2 ^ 64
  bucketWidth_pos : 0 < bucketWidth

namespace RollingWindow

variable {V : Type} (floats : Floats V) (rolling : RollingWindow)

/-- The state that `new` makes. -/
def start (now : Nat) : WindowState (Bucket V) :=
  ⟨now, [.empty floats]⟩

def rotate (state : WindowState (Bucket V)) (now : Nat) : WindowState (Bucket V) :=
  rotateState rolling.bucketCount rolling.bucketWidth (.empty floats) state now

def record (state : WindowState (Bucket V)) (now : Nat) (value : V) :
    Option (WindowState (Bucket V)) :=
  if floats.isFinite value then
    let state := rolling.rotate floats state now
    (SlidingWindow.recordLast (Bucket.record floats · value) state.buckets).map
      (⟨state.currentStarted, ·⟩)
  else none

def snapshot (state : WindowState (Bucket V)) (now : Nat) :
    WindowState (Bucket V) × RollingSnapshot V :=
  let state := rolling.rotate floats state now
  (state, .of floats state.buckets)

/-- One call; a snapshot is a read. -/
def observe (state : WindowState (Bucket V)) (event : WindowEvent V) :
    Option (WindowState (Bucket V)) :=
  match event.observed with
  | none => some (rolling.snapshot floats state event.now).1
  | some value => rolling.record floats state event.now value

end RollingWindow

/-! ## Rotation -/

section Rotation

variable {β : Type} {bucketCount bucketWidth : Nat} {empty : β}

/-- The rounds of the loop leave the newest buckets. -/
theorem pushBucket_iterate {buckets : List β} (fits : buckets.length ≤ bucketCount)
    (rounds : Nat) : (pushBucket bucketCount empty)^[rounds] buckets =
      (buckets ++ List.replicate rounds empty).rtake bucketCount := by
  induction rounds with
  | zero =>
    rw [List.replicate_zero, List.append_nil, List.rtake, Nat.sub_eq_zero_of_le fits]
    rfl
  | succ rounds ih =>
    rw [Function.iterate_succ_apply', ih, List.replicate_succ', ← List.append_assoc]
    generalize buckets ++ List.replicate rounds empty = pushed
    rw [pushBucket, List.rtake, List.rtake, List.length_append, List.length_append,
      List.length_singleton, List.length_drop]
    have stays : pushed.drop (pushed.length - bucketCount) ++ [empty] =
        (pushed ++ [empty]).drop (pushed.length - bucketCount) :=
      (List.drop_append_of_le_length (Nat.sub_le _ _)).symm
    rw [stays]
    split
    · rw [List.tail_drop]
      congr 1
      omega
    · congr 1
      omega

/-- With fewer than `2 ^ 32` buckets the rotation is by whole widths. -/
theorem rotateState_window (positive : 0 < bucketCount) (small : bucketCount < 2 ^ 32)
    {state : WindowState β} (fits : state.buckets.length ≤ bucketCount) (now : Nat) :
    (rotateState bucketCount bucketWidth empty state now).window =
      state.window.rotate bucketCount bucketWidth empty now := by
  rw [rotateState, SlidingWindow.rotate, WindowState.window, WindowState.window]
  dsimp only
  generalize (now - state.currentStarted) / bucketWidth = elapsed
  rw [usizeTryFrom]
  by_cases word : elapsed < 2 ^ 64
  · rw [if_pos word, Option.getD_some]
    by_cases none_ : elapsed = 0
    · rw [if_pos none_, none_, if_neg (Nat.not_le.mpr positive), Nat.mul_zero, Nat.add_zero,
        List.replicate_zero, List.append_nil, List.rtake, Nat.sub_eq_zero_of_le fits]
      rfl
    · rw [if_neg none_]
      by_cases all : bucketCount ≤ elapsed
      · rw [if_pos all, if_pos all]
      · rw [if_neg all, if_neg all, Nat.mod_eq_of_lt (by omega), pushBucket_iterate fits]
  · rw [if_neg word, Option.getD_none, if_neg (Nat.pos_iff_ne_zero.mp positive),
      if_pos (le_refl _), if_pos (by omega)]

theorem pushBucket_nonempty (positive : 0 < bucketCount) (buckets : List β) :
    pushBucket bucketCount empty buckets ≠ [] := by
  apply List.ne_nil_of_length_pos
  rw [pushBucket]
  split
  · rw [List.length_tail]
    omega
  · rw [List.length_append]
    exact Nat.succ_pos _

theorem mem_pushBucket {buckets : List β} {bucket : β}
    (member : bucket ∈ pushBucket bucketCount empty buckets) :
    bucket ∈ buckets ∨ bucket = empty := by
  have pushed : bucket ∈ buckets ++ [empty] := by
    rw [pushBucket] at member
    split at member
    · exact List.mem_of_mem_tail member
    · exact member
  rw [List.mem_append, List.mem_singleton] at pushed
  exact pushed

/-- What holds of some buckets: there is one, and each has a property of the empty one. -/
def Each (P : β → Prop) (buckets : List β) : Prop :=
  buckets ≠ [] ∧ ∀ bucket ∈ buckets, P bucket

/-- For any number of buckets, a rotation leaves one, and adds none but empty ones. -/
theorem rotateState_each {P : β → Prop} (positive : 0 < bucketCount) (begins : P empty)
    {state : WindowState β} (each : Each P state.buckets) (now : Nat) :
    Each P (rotateState bucketCount bucketWidth empty state now).buckets := by
  have fresh : Each P [empty] := by
    refine ⟨List.cons_ne_nil _ _, ?_⟩
    intro bucket member
    rw [List.mem_singleton.mp member]
    exact begins
  rw [rotateState]
  split
  · exact each
  · split
    · exact fresh
    · refine Function.Iterate.rec (Each P) each ?_ _
      intro buckets before
      refine ⟨pushBucket_nonempty positive buckets, ?_⟩
      intro bucket member
      rcases mem_pushBucket member with old | new
      · exact before.2 bucket old
      · rw [new]
        exact begins

theorem recordLast_each {P : β → Prop} {change : β → β}
    (keeps : ∀ bucket, P bucket → P (change bucket)) {buckets : List β} (each : Each P buckets) :
    ∃ changed, SlidingWindow.recordLast change buckets = some changed ∧ Each P changed := by
  obtain ⟨older, latest, same⟩ := SlidingWindow.exists_concat each.1
  have held := each.2
  rw [same] at held ⊢
  refine ⟨_, SlidingWindow.recordLast_concat change older latest, List.concat_ne_nil _ _, ?_⟩
  intro bucket member
  rw [List.mem_append, List.mem_singleton] at member
  rcases member with old | new
  · exact held bucket (List.mem_append_left _ old)
  · rw [new]
    exact keeps latest (held latest (List.mem_append_right _ List.mem_cons_self))

end Rotation

end RustZero.Rolling
