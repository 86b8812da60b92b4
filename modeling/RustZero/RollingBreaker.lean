import RustZero.Breaker
import RustZero.Lib.Phases
import RustZero.RollingWindow

/-!
# The rolling circuit breaker

`core/src/breaker.rs` under `CircuitBreakerPolicy::Rolling`.  The history of outcomes is behind
one mutex, the sequence number of a decision is drawn outside it, and so is the random unit that a
call is dropped by.

* `history` and `record` are the two critical sections; `advance` interleaves them with the atomic
  steps of any number of calls of `before_call`.
* The drop ratio is over exact rational numbers, and the random units are arbitrary.
* `Sound` is the invariant: no bucket accepts more than it has, and the sequence numbers drawn are
  the first ones, each once.

Every outcome is recorded at any time; instants and durations are nanoseconds.
-/

namespace RustZero.RollingBreaker

open Lib Breaker Rolling

/-! ## History -/

/-- `RollingCircuitBreakerConfig` as `validate` leaves it. -/
structure RollingCircuitBreakerConfig where
  window : Nat
  buckets : Nat
  sensitivity : ℚ
  minimumRequests : Nat
  probeInterval : Nat
  window_pos : 0 < window
  buckets_valid : 0 < buckets ∧ buckets < 2 ^ 64
  buckets_wide : buckets ≤ window
  sensitivity_pos : 0 < sensitivity
  probeInterval_pos : 0 < probeInterval

/-- The `bucket_width` that `new` computes, of `Duration::from_nanos`. -/
def RollingCircuitBreakerConfig.bucketWidth (config : RollingCircuitBreakerConfig) : Nat :=
  max (min (config.window / config.buckets) (2 ^ 64 - 1)) 1

/-- `u64::saturating_add`. -/
def saturatingAdd (left right : Nat) : Nat :=
  min (left + right) (2 ^ 64 - 1)

structure OutcomeBucket where
  accepted : Nat
  total : Nat
  deriving DecidableEq, Repr

/-- `OutcomeBucket::default`. -/
def OutcomeBucket.empty : OutcomeBucket :=
  ⟨0, 0⟩

/-- What `record` does with the current bucket. -/
def OutcomeBucket.record (outcome : CircuitOutcome) (bucket : OutcomeBucket) : OutcomeBucket where
  accepted := if outcome = .success then saturatingAdd bucket.accepted 1 else bucket.accepted
  total := saturatingAdd bucket.total 1

section Locked

variable (config : RollingCircuitBreakerConfig)

/-- The state that `new` makes. -/
def startState (created : Nat) : WindowState OutcomeBucket :=
  ⟨created, [.empty]⟩

def rotate (state : WindowState OutcomeBucket) (now : Nat) : WindowState OutcomeBucket :=
  rotateState config.buckets config.bucketWidth .empty state now

/-- `RollingBreaker::record`; `none` is the panic of a deque without buckets. -/
def record (state : WindowState OutcomeBucket) (outcome : CircuitOutcome) (now : Nat) :
    Option (WindowState OutcomeBucket) :=
  if outcome = .cancellation then some state
  else
    let state := rotate config state now
    (SlidingWindow.recordLast (OutcomeBucket.record outcome) state.buckets).map
      (⟨state.currentStarted, ·⟩)

/-- The fold of `history`: accepted and total. -/
def totals (buckets : List OutcomeBucket) : OutcomeBucket :=
  buckets.foldl (fun sum bucket =>
    ⟨saturatingAdd sum.accepted bucket.accepted, saturatingAdd sum.total bucket.total⟩) .empty

def dropRatio (sums : OutcomeBucket) : ℚ :=
  let unprotected := sums.total - config.minimumRequests
  let weightedAccepted := config.sensitivity * sums.accepted
  max ((unprotected - weightedAccepted) / (sums.total + 1)) 0

/-- `RollingBreaker::history`: the state it leaves, accepted and total, and the drop ratio. -/
def history (state : WindowState OutcomeBucket) (now : Nat) :
    WindowState OutcomeBucket × OutcomeBucket × ℚ :=
  let state := rotate config state now
  let sums := totals state.buckets
  (state, sums, dropRatio config sums)

end Locked

/-! ## Decisions -/

/-- A decision of `should_drop`, with the sequence number if it has drawn one. -/
structure Decision where
  sequence : Option Nat
  admitted : Bool
  deriving DecidableEq, Repr

/-- How far a call of `before_call` has come. -/
inductive Phase where
  | entered
  /-- The history has been read, and the ratio is positive. -/
  | read (ratio : ℚ)
  /-- A sequence number has been drawn; the random unit is next. -/
  | drawn (sequence : Nat) (ratio : ℚ)
  | settled (decision : Decision)
  deriving DecidableEq

def Phase.sequence : Phase → Option Nat
  | .drawn sequence _ => some sequence
  | .settled decision => decision.sequence
  | _ => none

def Phase.decision : Phase → Option Decision
  | .settled decision => some decision
  | _ => none

structure System where
  state : WindowState OutcomeBucket
  dropSequence : Nat
  counters : OutcomeCounters
  calls : List Phase
  deriving DecidableEq

/-- The decisions made so far. -/
def System.decisions (system : System) : List Decision :=
  system.calls.filterMap Phase.decision

inductive Action where
  | call
  | read (index now : Nat)
  | draw (index : Nat)
  /-- `random_unit` gives `unit`. -/
  | settle (index : Nat) (unit : ℚ)
  | record (outcome : CircuitOutcome) (now : Nat)

def System.enter (system : System) (index : Nat) (phase : Phase) : System :=
  { system with calls := system.calls.set index phase }

section System

variable (config : RollingCircuitBreakerConfig)

/-- `should_drop` after its history: a ratio of zero admits. -/
def afterHistory (ratio : ℚ) : Phase :=
  if ratio ≤ 0 then .settled ⟨none, true⟩ else .read ratio

/-- `should_drop` after its sequence number: every `probe_interval`th admits. -/
def afterSequence (sequence : Nat) (ratio : ℚ) : Phase :=
  if sequence % config.probeInterval = 0 then .settled ⟨some sequence, true⟩
  else .drawn sequence ratio

def advance (system : System) : Action → Option System
  | .call => some { system with calls := system.calls ++ [.entered] }
  | .read index now =>
      match system.calls[index]? with
      | some .entered =>
          let (state, _, ratio) := history config system.state now
          some ({ system with state := state }.enter index (afterHistory ratio))
      | _ => none
  | .draw index =>
      match system.calls[index]? with
      | some (.read ratio) =>
          let sequence := (system.dropSequence + 1) % 2 ^ 64
          some ({ system with dropSequence := sequence }.enter index
            (afterSequence config sequence ratio))
      | _ => none
  | .settle index unit =>
      match system.calls[index]? with
      | some (.drawn sequence ratio) =>
          let dropped := decide (unit < ratio)
          let rejections := system.counters.rejections + if dropped then 1 else 0
          some ({ system with counters.rejections := rejections }.enter index
            (.settled ⟨some sequence, !dropped⟩))
      | _ => none
  | .record outcome now =>
      (record config system.state outcome now).map fun state =>
        { system with state := state, counters := system.counters.record outcome }

/-- A new breaker, made at `created`. -/
def system (created : Nat) : Lts System Action where
  init := ⟨startState created, 0, {}, []⟩
  step := advance config

end System

/-! ## The history of outcomes -/

section History

variable {config : RollingCircuitBreakerConfig} {state : WindowState OutcomeBucket}

/-- No more accepted than all, which fit their word. -/
def OutcomeBucket.Within (bucket : OutcomeBucket) : Prop :=
  bucket.accepted ≤ bucket.total ∧ bucket.total ≤ 2 ^ 64 - 1

theorem within_empty : OutcomeBucket.empty.Within :=
  ⟨le_rfl, Nat.zero_le _⟩

theorem record_within (outcome : CircuitOutcome) (bucket : OutcomeBucket)
    (within : bucket.Within) : (bucket.record outcome).Within := by
  obtain ⟨accepted, fits⟩ := within
  rw [OutcomeBucket.Within, OutcomeBucket.record]
  refine ⟨?_, min_le_right _ _⟩
  dsimp only
  split
  · exact min_le_min (Nat.succ_le_succ accepted) le_rfl
  · exact le_min (accepted.trans (Nat.le_succ _)) (accepted.trans fits)

theorem totals_within {buckets : List OutcomeBucket} (each : ∀ bucket ∈ buckets, bucket.Within) :
    (totals buckets).Within := by
  induction buckets using List.reverseRecOn with
  | nil => exact within_empty
  | append_singleton buckets bucket ih =>
    have sums := ih fun bucket member => each bucket (List.mem_append_left _ member)
    have last := each bucket (List.mem_append_right _ List.mem_cons_self)
    rw [totals, List.foldl_concat, ← totals]
    exact ⟨min_le_min (Nat.add_le_add sums.1 last.1) le_rfl, min_le_right _ _⟩

theorem rotate_within (config : RollingCircuitBreakerConfig)
    (each : Each OutcomeBucket.Within state.buckets) (now : Nat) :
    Each OutcomeBucket.Within (rotate config state now).buckets :=
  rotateState_each config.buckets_valid.1 within_empty each now

/-- No record fails, and cancellations leave the history as it is. -/
theorem record_keeps (config : RollingCircuitBreakerConfig)
    (each : Each OutcomeBucket.Within state.buckets) (outcome : CircuitOutcome) (now : Nat) :
    ∃ later, record config state outcome now = some later ∧
      Each OutcomeBucket.Within later.buckets := by
  rw [record]
  split
  · exact ⟨state, rfl, each⟩
  · obtain ⟨buckets, recorded, after⟩ :=
      recordLast_each (record_within outcome) (rotate_within config each now)
    dsimp only
    rw [recorded]
    exact ⟨_, rfl, after⟩

/-! ## The drop ratio -/

theorem dropRatio_nonneg (sums : OutcomeBucket) : 0 ≤ dropRatio config sums :=
  le_max_right _ _

theorem dropRatio_lt_one (sums : OutcomeBucket) : dropRatio config sums < 1 := by
  have positive : (0 : ℚ) < sums.total + 1 := by positivity
  refine max_lt ?_ one_pos
  rw [div_lt_one positive]
  have unprotected : ((sums.total - config.minimumRequests : Nat) : ℚ) ≤ sums.total := by
    exact_mod_cast Nat.sub_le _ _
  have weighted : 0 ≤ config.sensitivity * sums.accepted :=
    mul_nonneg config.sensitivity_pos.le (Nat.cast_nonneg _)
  linarith

/-- Nothing is dropped of a history that is accepted well enough. -/
theorem dropRatio_healthy {sums : OutcomeBucket}
    (healthy : (sums.total : ℚ) - config.minimumRequests ≤ config.sensitivity * sums.accepted) :
    dropRatio config sums = 0 := by
  have positive : (0 : ℚ) < sums.total + 1 := by positivity
  refine max_eq_right ?_
  refine div_nonpos_of_nonpos_of_nonneg ?_ positive.le
  rw [sub_nonpos]
  by_cases protected_ : sums.total ≤ config.minimumRequests
  · rw [Nat.sub_eq_zero_of_le protected_, Nat.cast_zero]
    exact mul_nonneg config.sensitivity_pos.le (Nat.cast_nonneg _)
  · rw [Nat.cast_sub (Nat.le_of_not_le protected_)]
    exact healthy

end History

/-! ## Sequence numbers -/

/-- Among as many consecutive numbers there is a multiple, also when others are left out. -/
theorem exists_multiple {interval last : Nat} {left block right : List Nat}
    (positive : 0 < interval) (sorted : (left ++ block ++ right).Pairwise (· < ·))
    (bound : ∀ number ∈ block, number ≤ last)
    (multiples : ∀ number, 0 < number → number ≤ last → number % interval = 0 →
      number ∈ left ++ block ++ right)
    (long : interval ≤ block.length) : ∃ number ∈ block, number % interval = 0 := by
  by_contra none_
  have between := List.pairwise_append.mp sorted
  have before := List.pairwise_append.mp between.1
  obtain ⟨first, rest, same⟩ := List.exists_cons_of_length_pos (positive.trans_le long)
  have start : first ∈ block := by
    rw [same]
    exact List.mem_cons_self
  -- all of the block lies between a multiple and the next
  have inside : ∀ number ∈ block,
      number ∈ Finset.Ioo (interval * (first / interval)) (interval * (first / interval + 1)) := by
    intro number member
    have lower : first ≤ number := by
      have ordered := before.2.1
      rw [same] at member ordered
      rcases List.mem_cons.mp member with here | later
      · exact here.ge
      · exact ((List.pairwise_cons.mp ordered).1 number later).le
    have divided := Nat.div_add_mod first interval
    have remains : first % interval ≠ 0 := fun zero => none_ ⟨first, start, zero⟩
    have next := Nat.lt_mul_div_succ first positive
    rw [Finset.mem_Ioo]
    refine ⟨by omega, ?_⟩
    by_contra past
    have reached : interval * (first / interval + 1) ≤ number := Nat.le_of_not_lt past
    have multiple := multiples _ (by omega) (reached.trans (bound number member))
      (Nat.mul_mod_right _ _)
    rw [List.mem_append, List.mem_append] at multiple
    rcases multiple with (earlier | here) | later
    · exact absurd (before.2.2 _ earlier first start) (by omega)
    · exact none_ ⟨_, here, Nat.mul_mod_right _ _⟩
    · exact absurd (between.2.2 number (List.mem_append_right _ member) _ later) (by omega)
  have distinct : block.Nodup := before.2.1.imp fun smaller => smaller.ne
  have fewer : block.toFinset.card ≤
      (Finset.Ioo (interval * (first / interval)) (interval * (first / interval + 1))).card := by
    apply Finset.card_le_card
    intro number member
    exact inside number (List.mem_toFinset.mp member)
  rw [List.toFinset_card_of_nodup distinct, Nat.card_Ioo, Nat.mul_succ] at fewer
  omega

/-! ## Every run -/

/-- What a phase says of the probes. -/
def Phase.Probing (interval : Nat) : Phase → Prop
  | .drawn sequence _ => sequence % interval ≠ 0
  | .settled decision => decision.admitted = false →
      ∃ sequence, decision.sequence = some sequence ∧ sequence % interval ≠ 0
  | _ => True

/-- What every step keeps. -/
structure Sound (config : RollingCircuitBreakerConfig) (system : System) : Prop where
  each : Each OutcomeBucket.Within system.state.buckets
  probing : ∀ phase ∈ system.calls, phase.Probing config.probeInterval
  numbers : system.calls.length < 2 ^ 64 →
    (system.calls.filterMap Phase.sequence).Perm (List.range' 1 system.dropSequence)

section Runs

variable {config : RollingCircuitBreakerConfig} {before after : System} {phase : Phase}
  {index : Nat}

theorem afterHistory_probing (interval : Nat) (ratio : ℚ) :
    (afterHistory ratio).Probing interval ∧ (afterHistory ratio).sequence = none := by
  rw [afterHistory]
  split
  · refine ⟨?_, rfl⟩
    intro refused
    cases refused
  · exact ⟨trivial, rfl⟩

theorem afterSequence_probing (config : RollingCircuitBreakerConfig) (sequence : Nat) (ratio : ℚ) :
    (afterSequence config sequence ratio).Probing config.probeInterval ∧
      (afterSequence config sequence ratio).sequence = some sequence := by
  rw [afterSequence]
  split
  · refine ⟨?_, rfl⟩
    intro refused
    cases refused
  case isFalse other => exact ⟨other, rfl⟩

/-- A call that moves without drawing a number. -/
theorem Sound.enter (sound : Sound config before) {old : Phase}
    (found : before.calls[index]? = some old) (same : phase.sequence = old.sequence)
    (probing : phase.Probing config.probeInterval) : Sound config (before.enter index phase) := by
  refine ⟨sound.each, forall_mem_set probing sound.probing, ?_⟩
  intro few
  rw [System.enter, List.length_set] at few
  exact (filterMap_set_keep Phase.sequence found same).trans (sound.numbers few)

theorem Sound.draw (sound : Sound config before) {ratio : ℚ}
    (found : before.calls[index]? = some (.read ratio)) :
    Sound config ({ before with dropSequence := (before.dropSequence + 1) % 2 ^ 64 }.enter index
      (afterSequence config ((before.dropSequence + 1) % 2 ^ 64) ratio)) := by
  obtain ⟨probing, numbered⟩ :=
    afterSequence_probing config ((before.dropSequence + 1) % 2 ^ 64) ratio
  refine ⟨sound.each, forall_mem_set probing sound.probing, ?_⟩
  intro few
  rw [System.enter, List.length_set] at few
  dsimp only at few
  have numbers := sound.numbers few
  have drawn : (Phase.read ratio).sequence = none := rfl
  have entered := filterMap_set_enter found drawn numbered
  -- the numbers drawn are as many as the calls that have one
  have fits : before.dropSequence + 1 < 2 ^ 64 := by
    have counted := entered.length_eq
    have most := List.length_filterMap_le Phase.sequence (before.calls.set index
      (afterSequence config ((before.dropSequence + 1) % 2 ^ 64) ratio))
    rw [counted, List.length_cons, numbers.length_eq, List.length_range', List.length_set] at most
    omega
  rw [Nat.mod_eq_of_lt fits] at entered ⊢
  refine entered.trans ((numbers.cons _).trans ?_)
  rw [System.enter, List.range'_1_concat, Nat.add_comm 1]
  exact (List.perm_append_singleton _ _).symm

theorem Sound.step {action : Action} (sound : Sound config before)
    (taken : advance config before action = some after) : Sound config after := by
  cases action with
  | call =>
    cases taken
    refine ⟨sound.each, ?_, ?_⟩
    · intro phase member
      rw [List.mem_append, List.mem_singleton] at member
      rcases member with old | new
      · exact sound.probing phase old
      · rw [new]
        trivial
    · intro few
      rw [List.length_append] at few
      rw [List.filterMap_append]
      have none_ : [Phase.entered].filterMap Phase.sequence = [] := rfl
      rw [none_, List.append_nil]
      exact sound.numbers (by omega)
  | read index now =>
    rw [advance] at taken
    split at taken
    case h_1 found =>
      cases taken
      obtain ⟨probing, unnumbered⟩ := afterHistory_probing config.probeInterval
        (history config before.state now).2.2
      have rotated : Sound config { before with state := rotate config before.state now } :=
        ⟨rotate_within config sound.each now, sound.probing, sound.numbers⟩
      exact rotated.enter found unnumbered probing
    case h_2 => cases taken
  | draw index =>
    rw [advance] at taken
    split at taken
    case h_1 ratio found =>
      cases taken
      exact sound.draw found
    case h_2 => cases taken
  | settle index unit =>
    rw [advance] at taken
    split at taken
    case h_1 sequence ratio found =>
      cases taken
      have probing := sound.probing _ (List.mem_of_getElem? found)
      have refused : (Phase.settled ⟨some sequence, !decide (unit < ratio)⟩).Probing
          config.probeInterval := fun _ => ⟨sequence, rfl, probing⟩
      have same : (Phase.settled ⟨some sequence, !decide (unit < ratio)⟩).sequence =
          (Phase.drawn sequence ratio).sequence := rfl
      have moved := sound.enter found same refused
      exact ⟨moved.each, moved.probing, moved.numbers⟩
    case h_2 => cases taken
  | record outcome now =>
    obtain ⟨state, recorded, same⟩ := Option.map_eq_some_iff.mp taken
    cases same
    obtain ⟨later, ran, each⟩ := record_keeps config sound.each outcome now
    rw [ran] at recorded
    cases recorded
    exact ⟨each, sound.probing, sound.numbers⟩

theorem sound_reachable {created : Nat} (reach : (system config created).Reachable after) :
    Sound config after := by
  refine reach.invariant (I := Sound config) ?_ ?_
  · refine ⟨⟨List.cons_ne_nil _ _, ?_⟩, ?_, fun _ => List.Perm.refl _⟩
    · intro bucket member
      rw [List.mem_singleton.mp member]
      exact within_empty
    · intro phase absent
      cases absent
  · intro before action after sound _ taken
    exact sound.step taken

/-- What a decision whose history is this one comes to. -/
structure Reads (config : RollingCircuitBreakerConfig) (system : System) (now : Nat)
    (sums : OutcomeBucket) (ratio : ℚ) : Prop where
  read : (history config system.state now).2 = (sums, ratio)
  accepted : sums.accepted ≤ sums.total
  bounds : 0 ≤ ratio ∧ ratio < 1
  /-- A ratio of zero admits every call that has read it. -/
  healthy : (sums.total : ℚ) - config.minimumRequests ≤ config.sensitivity * sums.accepted →
    ratio = 0 ∧ ∀ index, system.calls[index]? = some .entered → ∃ later,
      advance config system (.read index now) = some later ∧
        later.calls[index]? = some (.settled ⟨none, true⟩)

theorem Sound.reads (sound : Sound config after) (now : Nat) :
    ∃ sums ratio, Reads config after now sums ratio := by
  have within := totals_within (rotate_within config sound.each now).2
  refine ⟨_, _, rfl, within.1, ⟨dropRatio_nonneg _, dropRatio_lt_one _⟩, ?_⟩
  intro healthy
  have zero := dropRatio_healthy healthy
  refine ⟨zero, ?_⟩
  intro index found
  have length := (List.getElem?_eq_some_iff.mp found).1
  rw [advance, found]
  refine ⟨_, rfl, ?_⟩
  have admits : afterHistory (history config after.state now).2.2 = .settled ⟨none, true⟩ := by
    rw [afterHistory]
    exact if_pos zero.le
  rw [System.enter, List.getElem?_set_self length]
  exact congrArg some admits

theorem mem_decisions {decision : Decision} :
    decision ∈ after.decisions ↔ .settled decision ∈ after.calls := by
  rw [System.decisions, List.mem_filterMap]
  refine ⟨?_, fun member => ⟨_, member, rfl⟩⟩
  intro settled
  obtain ⟨phase, member, same⟩ := settled
  cases phase with
  | settled other =>
    cases same
    exact member
  | entered => cases same
  | read ratio => cases same
  | drawn sequence ratio => cases same

/-- Decisions in the order of their numbers, wherever those without one stand. -/
def Sequenced (order : List Decision) : Prop :=
  (order.filterMap Decision.sequence).Pairwise (· ≤ ·)

/-- The numbers of decisions are among those drawn. -/
theorem decisions_sublist (calls : List Phase) :
    ((calls.filterMap Phase.decision).filterMap Decision.sequence).Sublist
      (calls.filterMap Phase.sequence) := by
  induction calls with
  | nil => exact List.Sublist.refl _
  | cons phase calls ih =>
    cases phase with
    | entered => exact ih
    | read ratio => exact ih
    | drawn sequence ratio => exact ih.cons sequence
    | settled decision =>
      obtain ⟨sequence, admitted⟩ := decision
      cases sequence with
      | none => exact ih
      | some sequence => exact ih.cons_cons sequence

theorem Sound.sorted (sound : Sound config after) (few : after.calls.length < 2 ^ 64)
    {order : List Decision} (all : order.Perm after.decisions) (sequenced : Sequenced order) :
    (order.filterMap Decision.sequence).Pairwise (· < ·) := by
  have drawn := (sound.numbers few).nodup_iff.mpr List.nodup_range'
  have settled := drawn.sublist (decisions_sublist after.calls)
  have distinct := (all.filterMap Decision.sequence).nodup_iff.mpr settled
  exact (sequenced.and distinct).imp fun both => lt_of_le_of_ne both.1 both.2

/-- A multiple that was drawn was admitted at once. -/
theorem Sound.multiples (sound : Sound config after) (few : after.calls.length < 2 ^ 64)
    {number : Nat} (positive : 0 < number) (drawn : number ≤ after.dropSequence)
    (multiple : number % config.probeInterval = 0) :
    number ∈ after.decisions.filterMap Decision.sequence := by
  have member : number ∈ List.range' 1 after.dropSequence := by
    rw [List.mem_range'_1]
    omega
  obtain ⟨phase, called, numbered⟩ :=
    List.mem_filterMap.mp ((sound.numbers few).symm.subset member)
  have probing := sound.probing phase called
  cases phase with
  | entered => cases numbered
  | read ratio => cases numbered
  | drawn sequence ratio =>
    cases numbered
    exact absurd multiple probing
  | settled decision =>
    exact List.mem_filterMap.mpr ⟨decision, mem_decisions.mpr called, numbered⟩

theorem Sound.probes (sound : Sound config after) (few : after.calls.length < 2 ^ 64)
    {order block : List Decision} (all : order.Perm after.decisions) (sequenced : Sequenced order)
    (consecutive : block <:+: order) (long : block.length = config.probeInterval) :
    ∃ decision ∈ block, decision.admitted = true := by
  by_contra none_
  obtain ⟨left, right, parts⟩ := consecutive
  have settled : ∀ decision ∈ order, .settled decision ∈ after.calls := by
    intro decision member
    exact mem_decisions.mp (all.subset member)
  -- all of the block are refused, and so all have a number, which is no multiple
  have refused : ∀ decision ∈ block, ∃ sequence, decision.sequence = some sequence ∧
      sequence % config.probeInterval ≠ 0 := by
    intro decision member
    have within : decision ∈ order := by
      rw [← parts]
      exact List.mem_append_left _ (List.mem_append_right _ member)
    refine sound.probing _ (settled decision within) ?_
    exact Bool.eq_false_iff.mpr fun admitted => none_ ⟨decision, member, admitted⟩
  have sorted := sound.sorted few all sequenced
  have split_ : order.filterMap Decision.sequence = left.filterMap Decision.sequence ++
      block.filterMap Decision.sequence ++ right.filterMap Decision.sequence := by
    rw [← parts, List.filterMap_append, List.filterMap_append]
  rw [split_] at sorted
  have length : (block.filterMap Decision.sequence).length = block.length := by
    rw [List.length_filterMap_eq_countP, List.countP_eq_length]
    intro decision member
    obtain ⟨sequence, numbered, _⟩ := refused decision member
    rw [numbered]
    rfl
  have bound : ∀ number ∈ block.filterMap Decision.sequence, number ≤ after.dropSequence := by
    intro number member
    have within : number ∈ order.filterMap Decision.sequence := by
      rw [split_]
      exact List.mem_append_left _ (List.mem_append_right _ member)
    have decided := (all.filterMap Decision.sequence).subset within
    have drawn := (sound.numbers few).subset ((decisions_sublist _).subset decided)
    rw [List.mem_range'_1] at drawn
    omega
  obtain ⟨number, member, multiple⟩ := exists_multiple config.probeInterval_pos sorted bound
    (by
      intro number positive drawn multiple
      rw [← split_]
      exact (all.filterMap Decision.sequence).symm.subset
        (sound.multiples few positive drawn multiple))
    (by rw [length, long])
  obtain ⟨decision, inside, numbered⟩ := List.mem_filterMap.mp member
  obtain ⟨sequence, same, other⟩ := refused decision inside
  rw [numbered] at same
  cases same
  exact other multiple

end Runs

/-- The rolling breaker after any interleaving: what a decision reads, what an outcome records, and
that there is an admission among any `probe_interval` consecutive decisions. -/
theorem breaker_always_probes (config : RollingCircuitBreakerConfig) (created : Nat)
    (after : System) (reach : (system config created).Reachable after) :
    (∀ now, ∃ sums ratio, Reads config after now sums ratio) ∧
    (∀ now, record config after.state .cancellation now = some after.state) ∧
    (∀ outcome now, ∃ later, record config after.state outcome now = some later) ∧
    (after.calls.length < 2 ^ 64 → ∀ order block : List Decision, order.Perm after.decisions →
      Sequenced order → block <:+: order → block.length = config.probeInterval →
        ∃ decision ∈ block, decision.admitted = true) := by
  have sound := sound_reachable reach
  refine ⟨sound.reads, fun _ => rfl, ?_, ?_⟩
  · intro outcome now
    obtain ⟨later, recorded, _⟩ := record_keeps config sound.each outcome now
    exact ⟨later, recorded⟩
  · intro few order block all sequenced consecutive long
    exact sound.probes few all sequenced consecutive long

/-- A failure, and two calls that read it; every second decision admits. -/
theorem breaker_always_probes_second :
    ∃ decision ∈ [(⟨some 1, false⟩ : Decision), ⟨some 2, true⟩], decision.admitted = true := by
  let config : RollingCircuitBreakerConfig :=
    ⟨10, 2, 1 / 2, 0, 2, by omega, by omega, by omega, by norm_num, by omega⟩
  let after : System := ⟨⟨0, [⟨0, 1⟩]⟩, 2, ⟨0, 1, 1, 0⟩,
    [.settled ⟨some 1, false⟩, .settled ⟨some 2, true⟩]⟩
  have ran : (system config 0).exec (system config 0).init [.record .failure 0, .call, .call,
      .read 0 1, .read 1 1, .draw 0, .draw 1, .settle 0 0] = some after := by
    decide +kernel
  exact (breaker_always_probes config 0 after (Lts.reachable_of_exec _ ran)).2.2.2 (by decide)
    _ _ (List.Perm.refl _) (by rw [Sequenced]; decide) List.infix_rfl rfl

end RustZero.RollingBreaker
