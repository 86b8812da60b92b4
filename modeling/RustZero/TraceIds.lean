import Mathlib
import RustZero.Lib.Lts
import RustZero.Trace

/-!
# Identifiers of traces

Calls of `TraceContext::root` and `child` in one process, in any interleaving: `root` reads the
clock, takes a value of the counter `NEXT_ID` for the trace and another one for the span, and
`child` takes one.  A trace identifier is the reading with the value of the counter XORed into
its lower half.

* `nextTraceId_eq_iff` says which readings and values have one identifier.
* `ids_unique`: as long as the readings differ in other bits than the values, a process never
  repeats an identifier; `apart_of_blocks` is a bound on the counter that is enough.
-/

namespace RustZero.Trace

open Lib

/-! ## Numbers as bytes -/

theorem toBeBytes_succ (count number : Nat) :
    (toBeBytes (count + 1) number).1 =
      UInt8.ofNat (number >>> (8 * count)) :: (toBeBytes count number).1 := by
  simp only [toBeBytes, List.range_succ, List.reverse_append, List.reverse_cons,
    List.reverse_nil, List.nil_append, List.cons_append, List.map_cons]

theorem ofNat_shiftRight (number count : Nat) :
    UInt8.ofNat (number >>> (8 * count)) = UInt8.ofNat (number / 256 ^ count % 256) := by
  rw [Nat.shiftRight_eq_div_pow, Nat.pow_mul]
  apply UInt8.toNat_inj.mp
  simp

theorem ofNat_mod_eq_iff {first second : Nat} :
    UInt8.ofNat (first % 256) = UInt8.ofNat (second % 256) ↔ first % 256 = second % 256 := by
  rw [← UInt8.toNat_inj, UInt8.toNat_ofNat', UInt8.toNat_ofNat']
  omega

/-- The bytes determine a number as far as they go. -/
theorem toBeBytes_eq_iff {count first second : Nat} :
    toBeBytes count first = toBeBytes count second ↔
      first % 256 ^ count = second % 256 ^ count := by
  rw [Subtype.ext_iff]
  induction count with
  | zero => simp [toBeBytes, Nat.mod_one]
  | succ count ih =>
      have positive : 0 < 256 ^ count := Nat.pow_pos (by omega)
      rw [toBeBytes_succ, toBeBytes_succ, List.cons.injEq, ih, ofNat_shiftRight, ofNat_shiftRight,
        ofNat_mod_eq_iff, Nat.mod_pow_succ, Nat.mod_pow_succ]
      constructor
      · intro same
        rw [same.1, same.2]
      · intro same
        have lower := congrArg (· % 256 ^ count) same
        simp only [Nat.add_mul_mod_self_left, Nat.mod_mod] at lower
        rw [lower] at same
        exact ⟨Nat.eq_of_mul_eq_mul_left positive (Nat.add_left_cancel same), lower⟩

theorem toBeBytes_injective {count first second : Nat} (le : first < 256 ^ count)
    (le' : second < 256 ^ count) (same : toBeBytes count first = toBeBytes count second) :
    first = second := by
  rw [toBeBytes_eq_iff, Nat.mod_eq_of_lt le, Nat.mod_eq_of_lt le'] at same
  exact same

theorem toBeBytes_zero (count : Nat) : toBeBytes count 0 = Id.zero count := by
  apply Subtype.ext
  simp [toBeBytes, Id.zero]

theorem toBeBytes_one (count : Nat) :
    (toBeBytes (count + 1) 1).1 = List.replicate count 0 ++ [1] := by
  induction count with
  | zero => rfl
  | succ count ih =>
      have upper : UInt8.ofNat (1 >>> (8 * (count + 1))) = 0 := by
        rw [ofNat_shiftRight, Nat.div_eq_of_lt (Nat.one_lt_pow (Nat.succ_ne_zero count) (by omega))]
        rfl
      rw [toBeBytes_succ, upper, ih]
      rfl

/-- Zero becomes one. -/
def numberOr (number : Nat) : Nat :=
  if number = 0 then 1 else number

theorem orOne_toBeBytes {count number : Nat} (le : number < 256 ^ (count + 1)) :
    orOne (toBeBytes (count + 1) number) = toBeBytes (count + 1) (numberOr number) := by
  have positive : 0 < 256 ^ (count + 1) := Nat.pow_pos (by omega)
  rw [orOne, numberOr, ← toBeBytes_zero]
  by_cases zero : number = 0
  · rw [if_pos zero, if_pos (by rw [zero])]
    exact Subtype.ext (toBeBytes_one count).symm
  · rw [if_neg zero, if_neg]
    intro same
    exact zero (toBeBytes_injective le positive same)

/-- The upper bytes of a number, and the lower ones. -/
theorem toBeBytes_add (upper lower number : Nat) :
    (toBeBytes (upper + lower) number).1 =
      (toBeBytes upper (number >>> (8 * lower))).1 ++ (toBeBytes lower number).1 := by
  induction upper with
  | zero => simp [toBeBytes]
  | succ upper ih =>
      rw [Nat.add_right_comm, toBeBytes_succ, toBeBytes_succ, ih, ← Nat.shiftRight_add,
        Nat.mul_add, Nat.add_comm (8 * lower)]
      rfl

theorem toBeBytes_xor (count first second : Nat) :
    (toBeBytes count (first ^^^ second)).1 =
      List.zipWith (· ^^^ ·) (toBeBytes count first).1 (toBeBytes count second).1 := by
  induction count with
  | zero => rfl
  | succ count ih =>
      rw [toBeBytes_succ, toBeBytes_succ, toBeBytes_succ, List.zipWith_cons_cons, ih,
        Nat.shiftRight_xor_distrib, UInt8.ofNat_xor]

/-- The counter changes the lower half of a reading. -/
theorem xored_eq {time sequence : Nat} (small : sequence < 2 ^ 64) :
    (toBeBytes 16 time).1.take 8 ++
        List.zipWith (· ^^^ ·) ((toBeBytes 16 time).1.drop 8) (toBeBytes 8 sequence).1 =
      (toBeBytes 16 (time ^^^ sequence)).1 := by
  have none : sequence >>> (8 * 8) = 0 := by
    rw [Nat.shiftRight_eq_div_pow]
    exact Nat.div_eq_of_lt small
  have halves (number : Nat) := toBeBytes_add 8 8 number
  have upper := (toBeBytes 8 (time >>> (8 * 8))).2
  rw [show 16 = 8 + 8 from rfl, halves, halves, Nat.shiftRight_xor_distrib, none, Nat.xor_zero,
    toBeBytes_xor]
  rw [List.take_append_of_le_length upper.ge, List.take_of_length_le upper.le,
    List.drop_append_of_le_length upper.ge, List.drop_of_length_le upper.le, List.nil_append]

/-- The number that a trace identifier is. -/
def identifier (time sequence : Nat) : Nat :=
  numberOr (time ^^^ sequence)

theorem xor_lt_bytes {time sequence : Nat} (bound : time < 2 ^ 128) (small : sequence < 2 ^ 64) :
    time ^^^ sequence < 256 ^ 16 := by
  have wide : sequence < 2 ^ 128 := small.trans (by decide)
  exact Nat.xor_lt_two_pow bound wide

theorem nextTraceId_eq {time sequence : Nat} (bound : time < 2 ^ 128)
    (small : sequence < 2 ^ 64) :
    nextTraceId time sequence = toBeBytes 16 (identifier time sequence) := by
  rw [identifier, ← orOne_toBeBytes (xor_lt_bytes bound small), nextTraceId]
  exact congrArg orOne (Subtype.ext (xored_eq small))

theorem nextSpanId_eq {sequence : Nat} (positive : 0 < sequence) (small : sequence < 2 ^ 64) :
    nextSpanId sequence = toBeBytes 8 sequence := by
  have within : sequence < 256 ^ (7 + 1) := small
  rw [nextSpanId, orOne_toBeBytes within, numberOr, if_neg positive.ne']

theorem identifier_lt {time sequence : Nat} (bound : time < 2 ^ 128) (small : sequence < 2 ^ 64) :
    identifier time sequence < 256 ^ 16 := by
  rw [identifier, numberOr]
  split
  · exact Nat.one_lt_pow (by omega) (by omega)
  · exact xor_lt_bytes bound small

/-- Two readings and values of the counter have one identifier. -/
theorem nextTraceId_eq_iff {time time' sequence sequence' : Nat} (bound : time < 2 ^ 128)
    (bound' : time' < 2 ^ 128) (small : sequence < 2 ^ 64) (small' : sequence' < 2 ^ 64) :
    nextTraceId time sequence = nextTraceId time' sequence' ↔
      identifier time sequence = identifier time' sequence' := by
  rw [nextTraceId_eq bound small, nextTraceId_eq bound' small']
  constructor
  · exact toBeBytes_injective (identifier_lt bound small) (identifier_lt bound' small')
  · intro same
    rw [same]

/-! ## Calls in one process -/

/-- A reading of the clock, and the value of the counter for a trace. -/
abbrev Draw := Nat × Nat

/-- How far a call of `root` is. -/
inductive Call where
  | idle
  | timed (time : Nat)
  | named (draw : Draw)
  deriving DecidableEq

/-- What a call returned, by what it drew. -/
inductive Span where
  | root (draw : Draw) (sequence : Nat) (flags : TraceFlags)
  | child (parent : TraceContext) (sequence : Nat)

namespace Span

def context : Span → TraceContext
  | root draw sequence flags => .root draw.1 draw.2 sequence flags
  | child parent sequence => parent.child sequence

def draw : Span → Option Draw
  | root draw _ _ => some draw
  | child _ _ => none

/-- The value of the counter for the span. -/
def sequence : Span → Nat
  | root _ sequence _ => sequence
  | child _ sequence => sequence

end Span

/-- A process: its clock, `NEXT_ID`, how many values were taken of it, the calls of `root` that
run, the draws so far and the spans returned, both newest first. -/
structure Process where
  clock : Nat
  nextId : Nat
  generated : Nat
  calls : Nat → Call
  draws : List Draw
  spans : List Span

inductive Action where
  | tick (time : Nat)
  | readClock (call : Nat)
  | drawTrace (call : Nat)
  | drawSpan (call : Nat) (flags : TraceFlags)
  | child (parent : TraceContext)

namespace Process

def init : Process := ⟨0, 1, 0, fun _ => .idle, [], []⟩

/-- A value of the counter is taken. -/
def taken (process : Process) : Process :=
  { process with
    nextId := (process.nextId + 1) % 2 ^ 64
    generated := process.generated + 1 }

/-- `NEXT_ID.fetch_add(1)`; fewer than `2 ^ 64` values are taken. -/
def fetchAdd (process : Process) : Option (Nat × Process) :=
  if process.generated + 1 < 2 ^ 64 then some (process.nextId, process.taken) else none

def step (process : Process) : Action → Option Process
  | .tick time =>
      if process.clock ≤ time ∧ time < 2 ^ 128 then some { process with clock := time } else none
  | .readClock call =>
      if process.calls call = .idle then
        some { process with calls := Function.update process.calls call (.timed process.clock) }
      else none
  | .drawTrace call =>
      match process.calls call with
      | .timed time => process.fetchAdd.map fun (value, process) => { process with
          calls := Function.update process.calls call (.named (time, value))
          draws := (time, value) :: process.draws }
      | _ => none
  | .drawSpan call flags =>
      match process.calls call with
      | .named draw => process.fetchAdd.map fun (value, process) => { process with
          calls := Function.update process.calls call .idle
          spans := .root draw value flags :: process.spans }
      | _ => none
  | .child parent =>
      -- Neither `root` nor `parse` gives a context whose trace is zero.
      if parent.traceId = Id.zero 16 then none
      else process.fetchAdd.map fun (value, process) => { process with
        spans := .child parent value :: process.spans }

/-- The process, as a system of steps. -/
def system : Lts Process Action where
  init := init
  step := step

end Process

/-- What the contexts that were returned promise. -/
structure UniqueIds (process : Process) : Prop where
  traces : process.spans.Pairwise fun span other => span.draw.isSome = true →
    other.draw.isSome = true → span.context.traceId ≠ other.context.traceId
  nonzero : ∀ span ∈ process.spans,
    span.context.traceId ≠ Id.zero 16 ∧ span.context.spanId ≠ Id.zero 8
  spans : process.spans.Pairwise fun span other =>
    span.context.traceId = other.context.traceId → span.context.spanId ≠ other.context.spanId

/-- The readings differ, but not exactly in the bits in which the values of the counter do; nor
is one of them its own value where the other one differs from its value in the lowest bit. -/
def Apart (draw other : Draw) : Prop :=
  draw.1 ^^^ other.1 ≠ draw.2 ^^^ other.2 ∧ ¬(draw.1 = draw.2 ∧ other.1 ^^^ other.2 = 1) ∧
    ¬(draw.1 ^^^ draw.2 = 1 ∧ other.1 = other.2)

theorem Apart.symm {draw other : Draw} (apart : Apart draw other) : Apart other draw := by
  obtain ⟨bits, own, own'⟩ := apart
  refine ⟨?_, fun both => own' both.symm, fun both => own both.symm⟩
  rw [Nat.xor_comm, Nat.xor_comm other.2]
  exact bits

instance : Std.Symm Apart :=
  ⟨fun _ _ apart => apart.symm⟩

instance (draw other : Draw) : Decidable (Apart draw other) :=
  inferInstanceAs (Decidable (_ ∧ _))

/-- A trace is drawn apart from all earlier ones. -/
def DrawsApart (process : Process) : Action → Prop
  | .drawTrace call => ∀ time, process.calls call = .timed time →
      ∀ draw ∈ process.draws, Apart (time, process.nextId) draw
  | _ => True

/-- What a step does. -/
inductive Stepped (process : Process) : Action → Process → Prop
  | tick {time : Nat} (later : process.clock ≤ time) (bound : time < 2 ^ 128) :
      Stepped process (.tick time) { process with clock := time }
  | readClock {call : Nat} (idle : process.calls call = .idle) :
      Stepped process (.readClock call)
        { process with calls := Function.update process.calls call (.timed process.clock) }
  | drawTrace {call time : Nat} (timed : process.calls call = .timed time)
      (few : process.generated + 1 < 2 ^ 64) :
      Stepped process (.drawTrace call)
        { process.taken with
          calls := Function.update process.calls call (.named (time, process.nextId))
          draws := (time, process.nextId) :: process.draws }
  | drawSpan {call : Nat} {draw : Draw} {flags : TraceFlags}
      (named : process.calls call = .named draw) (few : process.generated + 1 < 2 ^ 64) :
      Stepped process (.drawSpan call flags)
        { process.taken with
          calls := Function.update process.calls call .idle
          spans := .root draw process.nextId flags :: process.spans }
  | child {parent : TraceContext} (nonzero : parent.traceId ≠ Id.zero 16)
      (few : process.generated + 1 < 2 ^ 64) :
      Stepped process (.child parent)
        { process.taken with spans := .child parent process.nextId :: process.spans }

variable {process process' : Process} {action : Action}

theorem fetchAdd_eq_some {value : Nat} (fetched : process.fetchAdd = some (value, process')) :
    process.generated + 1 < 2 ^ 64 ∧ value = process.nextId ∧ process' = process.taken := by
  rw [Process.fetchAdd] at fetched
  split at fetched
  case isTrue few =>
    cases fetched
    exact ⟨few, rfl, rfl⟩
  case isFalse => cases fetched

theorem step_cases (step : process.step action = some process') :
    Stepped process action process' := by
  cases action with
  | tick time =>
      rw [Process.step] at step
      split at step
      case isTrue enabled =>
        cases step
        exact .tick enabled.1 enabled.2
      case isFalse => cases step
  | readClock call =>
      rw [Process.step] at step
      split at step
      case isTrue idle =>
        cases step
        exact .readClock idle
      case isFalse => cases step
  | drawTrace call =>
      simp only [Process.step] at step
      split at step
      case h_1 time timed =>
        obtain ⟨⟨value, next⟩, fetched, rfl⟩ := Option.map_eq_some_iff.mp step
        obtain ⟨few, rfl, rfl⟩ := fetchAdd_eq_some fetched
        exact .drawTrace timed few
      case h_2 => cases step
  | drawSpan call flags =>
      simp only [Process.step] at step
      split at step
      case h_1 draw named =>
        obtain ⟨⟨value, next⟩, fetched, rfl⟩ := Option.map_eq_some_iff.mp step
        obtain ⟨few, rfl, rfl⟩ := fetchAdd_eq_some fetched
        exact .drawSpan named few
      case h_2 => cases step
  | child parent =>
      rw [Process.step] at step
      split at step
      case isTrue => cases step
      case isFalse nonzero =>
        obtain ⟨⟨value, next⟩, fetched, rfl⟩ := Option.map_eq_some_iff.mp step
        obtain ⟨few, rfl, rfl⟩ := fetchAdd_eq_some fetched
        exact .child nonzero few

/-! ## What every step keeps -/

/-- The values taken so far are those up to `generated`. -/
structure Counted (process : Process) : Prop where
  few : process.generated < 2 ^ 64
  next : process.nextId = (process.generated + 1) % 2 ^ 64

/-- The draws lie behind, apart from each other. -/
structure Drawn (process : Process) : Prop where
  clock : process.clock < 2 ^ 128
  timed : ∀ call time, process.calls call = .timed time → time < 2 ^ 128
  drawn : ∀ draw ∈ process.draws, draw.1 < 2 ^ 128 ∧ draw.2 ≤ process.generated
  apart : process.draws.Pairwise Apart

/-- Every draw is with one call, or with one span it named. -/
structure Owned (process : Process) : Prop where
  named : ∀ call draw, process.calls call = .named draw →
    draw ∈ process.draws ∧ ∀ span ∈ process.spans, span.draw ≠ some draw
  alone : ∀ call other draw, process.calls call = .named draw →
    process.calls other = .named draw → call = other
  drawn : ∀ span ∈ process.spans, ∀ draw, span.draw = some draw → draw ∈ process.draws
  once : process.spans.Pairwise fun span other => ∀ draw, span.draw = some draw →
    other.draw ≠ some draw

/-- Every span has a value of its own. -/
structure Valued (process : Process) : Prop where
  values : ∀ span ∈ process.spans, 0 < span.sequence ∧ span.sequence ≤ process.generated
  distinct : process.spans.Pairwise fun span other => span.sequence ≠ other.sequence
  nonzero : ∀ span ∈ process.spans, span.context.traceId ≠ Id.zero 16

structure Sound (process : Process) : Prop where
  counted : Counted process
  drawn : Drawn process
  owned : Owned process
  valued : Valued process

theorem Counted.next_eq (counted : Counted process) (few : process.generated + 1 < 2 ^ 64) :
    process.nextId = process.generated + 1 := by
  rw [counted.next, Nat.mod_eq_of_lt few]

theorem Counted.taken (counted : Counted process) (few : process.generated + 1 < 2 ^ 64) :
    Counted process.taken := by
  refine ⟨few, ?_⟩
  rw [Process.taken, counted.next_eq few]

/-- The next value is in no draw. -/
theorem Drawn.fresh (drawn : Drawn process) (counted : Counted process)
    (few : process.generated + 1 < 2 ^ 64) (time : Nat) :
    (time, process.nextId) ∉ process.draws := by
  intro member
  have small := (drawn.drawn _ member).2
  rw [counted.next_eq few] at small
  omega

theorem update_eq {calls : Nat → Call} {call other : Nat} {set found : Call}
    (holds : Function.update calls call set other = found) :
    other = call ∧ set = found ∨ other ≠ call ∧ calls other = found := by
  by_cases same : other = call
  · subst same
    rw [Function.update_self] at holds
    exact .inl ⟨rfl, holds⟩
  · rw [Function.update_of_ne same] at holds
    exact .inr ⟨same, holds⟩

theorem counted_step (counted : Counted process) (stepped : Stepped process action process') :
    Counted process' := by
  cases stepped with
  | tick later bound => exact ⟨counted.few, counted.next⟩
  | readClock idle => exact ⟨counted.few, counted.next⟩
  | drawTrace timed few => exact ⟨(counted.taken few).few, (counted.taken few).next⟩
  | drawSpan named few => exact ⟨(counted.taken few).few, (counted.taken few).next⟩
  | child nonzero few => exact ⟨(counted.taken few).few, (counted.taken few).next⟩

theorem Drawn.taken (drawn : Drawn process) : ∀ draw ∈ process.draws,
    draw.1 < 2 ^ 128 ∧ draw.2 ≤ process.generated + 1 := by
  intro draw member
  obtain ⟨bound, small⟩ := drawn.drawn draw member
  exact ⟨bound, by omega⟩

theorem drawn_step (counted : Counted process) (drawn : Drawn process)
    (apart : DrawsApart process action) (stepped : Stepped process action process') :
    Drawn process' := by
  cases stepped with
  | tick later bound => exact ⟨bound, drawn.timed, drawn.drawn, drawn.apart⟩
  | readClock idle =>
      refine ⟨drawn.clock, ?_, drawn.drawn, drawn.apart⟩
      intro call time timed
      rcases update_eq timed with ⟨_, same⟩ | ⟨_, before⟩
      · cases same
        exact drawn.clock
      · exact drawn.timed call time before
  | drawTrace timed few =>
      refine ⟨drawn.clock, ?_, ?_, ?_⟩
      · intro call time found
        rcases update_eq found with ⟨_, same⟩ | ⟨_, before⟩
        · cases same
        · exact drawn.timed call time before
      · intro draw member
        rcases List.mem_cons.mp member with rfl | member
        · exact ⟨drawn.timed _ _ timed, (counted.next_eq few).le⟩
        · exact drawn.taken draw member
      · exact List.pairwise_cons.mpr ⟨apart _ timed, drawn.apart⟩
  | drawSpan named few =>
      refine ⟨drawn.clock, ?_, drawn.taken, drawn.apart⟩
      intro call time found
      rcases update_eq found with ⟨_, same⟩ | ⟨_, before⟩
      · cases same
      · exact drawn.timed call time before
  | child nonzero few => exact ⟨drawn.clock, drawn.timed, drawn.taken, drawn.apart⟩

theorem owned_step (counted : Counted process) (drawn : Drawn process) (owned : Owned process)
    (stepped : Stepped process action process') : Owned process' := by
  cases stepped with
  | tick later bound => exact ⟨owned.named, owned.alone, owned.drawn, owned.once⟩
  | readClock idle =>
      refine ⟨?_, ?_, owned.drawn, owned.once⟩
      · intro call draw found
        rcases update_eq found with ⟨_, same⟩ | ⟨_, before⟩
        · cases same
        · exact owned.named call draw before
      · intro call other draw found also
        rcases update_eq found with ⟨_, same⟩ | ⟨_, before⟩
        · cases same
        rcases update_eq also with ⟨_, same⟩ | ⟨_, other_before⟩
        · cases same
        exact owned.alone call other draw before other_before
  | drawTrace timed few =>
      have fresh := drawn.fresh counted few
      refine ⟨?_, ?_, ?_, owned.once⟩
      · intro call draw found
        rcases update_eq found with ⟨_, same⟩ | ⟨_, before⟩
        · cases same
          refine ⟨List.mem_cons_self, ?_⟩
          intro span member its
          exact fresh _ (owned.drawn span member _ its)
        · obtain ⟨member, free⟩ := owned.named call draw before
          exact ⟨List.mem_cons_of_mem _ member, free⟩
      · intro call other draw found also
        rcases update_eq found with ⟨here, same⟩ | ⟨_, before⟩
        · cases same
          rcases update_eq also with ⟨there, _⟩ | ⟨_, other_before⟩
          · exact here.trans there.symm
          · exact (fresh _ (owned.named other _ other_before).1).elim
        · rcases update_eq also with ⟨_, same⟩ | ⟨_, other_before⟩
          · cases same
            exact (fresh _ (owned.named call _ before).1).elim
          · exact owned.alone call other draw before other_before
      · intro span member draw its
        exact List.mem_cons_of_mem _ (owned.drawn span member draw its)
  | drawSpan named few =>
      obtain ⟨member, free⟩ := owned.named _ _ named
      refine ⟨?_, ?_, ?_, ?_⟩
      · intro call draw found
        rcases update_eq found with ⟨_, same⟩ | ⟨elsewhere, before⟩
        · cases same
        obtain ⟨drawn, free⟩ := owned.named call draw before
        refine ⟨drawn, List.forall_mem_cons.mpr ⟨?_, free⟩⟩
        intro same
        cases same
        exact elsewhere (owned.alone _ _ _ before named)
      · intro call other draw found also
        rcases update_eq found with ⟨_, same⟩ | ⟨_, before⟩
        · cases same
        rcases update_eq also with ⟨_, same⟩ | ⟨_, other_before⟩
        · cases same
        exact owned.alone call other draw before other_before
      · refine List.forall_mem_cons.mpr ⟨?_, owned.drawn⟩
        intro draw its
        cases its
        exact member
      · refine List.pairwise_cons.mpr ⟨?_, owned.once⟩
        intro span later draw its
        cases its
        exact free span later
  | child nonzero few =>
      refine ⟨?_, owned.alone, ?_, ?_⟩
      · intro call draw found
        obtain ⟨drawn, free⟩ := owned.named call draw found
        refine ⟨drawn, List.forall_mem_cons.mpr ⟨?_, free⟩⟩
        intro same
        cases same
      · refine List.forall_mem_cons.mpr ⟨?_, owned.drawn⟩
        intro draw its
        cases its
      · refine List.pairwise_cons.mpr ⟨?_, owned.once⟩
        intro span later draw its
        cases its

theorem Valued.taken (valued : Valued process) : ∀ span ∈ process.spans,
    0 < span.sequence ∧ span.sequence ≤ process.generated + 1 := by
  intro span member
  obtain ⟨positive, small⟩ := valued.values span member
  exact ⟨positive, by omega⟩

/-- A span takes the next value. -/
theorem Valued.cons (valued : Valued process) (counted : Counted process)
    (few : process.generated + 1 < 2 ^ 64) (span : Span)
    (sequence : span.sequence = process.nextId)
    (nonzero : span.context.traceId ≠ Id.zero 16) {calls : Nat → Call} :
    Valued { process.taken with calls := calls, spans := span :: process.spans } := by
  rw [counted.next_eq few] at sequence
  refine ⟨List.forall_mem_cons.mpr ⟨?_, valued.taken⟩, List.pairwise_cons.mpr ⟨?_, valued.distinct⟩,
    List.forall_mem_cons.mpr ⟨nonzero, valued.nonzero⟩⟩
  · rw [sequence]
    exact ⟨Nat.succ_pos _, le_refl _⟩
  · intro other member same
    have small := (valued.values other member).2
    omega

theorem nextTraceId_ne_zero (time sequence : Nat) : nextTraceId time sequence ≠ Id.zero 16 :=
  orOne_ne_zero _

theorem valued_step (counted : Counted process) (valued : Valued process)
    (stepped : Stepped process action process') : Valued process' := by
  cases stepped with
  | tick later bound => exact ⟨valued.values, valued.distinct, valued.nonzero⟩
  | readClock idle => exact ⟨valued.values, valued.distinct, valued.nonzero⟩
  | drawTrace timed few => exact ⟨valued.taken, valued.distinct, valued.nonzero⟩
  | drawSpan named few =>
      exact valued.cons counted few (.root _ _ _) rfl (nextTraceId_ne_zero _ _)
  | child nonzero few => exact valued.cons counted few (.child _ _) rfl nonzero

theorem sound_init : Sound Process.init where
  counted := ⟨by decide, rfl⟩
  drawn := by
    refine ⟨by decide, ?_, List.forall_mem_nil _, List.Pairwise.nil⟩
    intro call time timed
    cases timed
  owned := by
    refine ⟨?_, ?_, List.forall_mem_nil _, List.Pairwise.nil⟩
    · intro call draw named
      cases named
    · intro call other draw named
      cases named
  valued := ⟨List.forall_mem_nil _, List.Pairwise.nil, List.forall_mem_nil _⟩

theorem sound_step (sound : Sound process) (apart : DrawsApart process action)
    (step : process.step action = some process') : Sound process' := by
  have stepped := step_cases step
  exact ⟨counted_step sound.counted stepped, drawn_step sound.counted sound.drawn apart stepped,
    owned_step sound.counted sound.drawn sound.owned stepped,
    valued_step sound.counted sound.valued stepped⟩

theorem sound_of_reach (reach : Process.system.Reach DrawsApart process) : Sound process :=
  reach.invariant sound_init fun _ _ _ sound apart step => sound_step sound apart step

/-! ## Identifiers that differ -/

theorem xor_eq_xor_iff {time time' sequence sequence' : Nat} :
    time ^^^ sequence = time' ^^^ sequence' ↔ time ^^^ time' = sequence ^^^ sequence' := by
  have swapped : time ^^^ sequence ^^^ (time' ^^^ sequence') =
      time ^^^ time' ^^^ (sequence ^^^ sequence') := by
    rw [Nat.xor_assoc, Nat.xor_assoc, Nat.xor_left_comm sequence]
  rw [← Nat.xor_eq_zero_iff, swapped, Nat.xor_eq_zero_iff]

theorem numberOr_eq_iff {first second : Nat} : numberOr first = numberOr second ↔
    first = second ∨ first = 0 ∧ second = 1 ∨ first = 1 ∧ second = 0 := by
  rw [numberOr, numberOr]
  split <;> split <;> omega

theorem apart_iff {draw other : Draw} :
    Apart draw other ↔ identifier draw.1 draw.2 ≠ identifier other.1 other.2 := by
  rw [ne_eq, identifier, identifier, numberOr_eq_iff, xor_eq_xor_iff, Nat.xor_eq_zero_iff,
    Nat.xor_eq_zero_iff, not_or, not_or]
  rfl

/-- Readings that are equal, or too far from each other for the values of the counter. -/
theorem apart_of_blocks {bits : Nat} {draw other : Draw} (small : draw.2 < 2 ^ bits)
    (small' : other.2 < 2 ^ bits) (late : 2 ^ bits ≤ draw.1) (late' : 2 ^ bits ≤ other.1)
    (far : draw.1 = other.1 ∧ draw.2 ≠ other.2 ∨ draw.1 / 2 ^ bits ≠ other.1 / 2 ^ bits) :
    Apart draw other := by
  refine ⟨?_, fun equal => by omega, fun equal => by omega⟩
  intro same
  rcases far with ⟨now, distinct⟩ | far
  · rw [now, Nat.xor_self] at same
    exact distinct (Nat.xor_eq_zero_iff.mp same.symm)
  · have low : (draw.1 ^^^ other.1) / 2 ^ bits = 0 := by
      rw [same]
      exact Nat.div_eq_of_lt (Nat.xor_lt_two_pow small small')
    rw [← Nat.shiftRight_eq_div_pow, Nat.shiftRight_xor_distrib, Nat.xor_eq_zero_iff,
      Nat.shiftRight_eq_div_pow, Nat.shiftRight_eq_div_pow] at low
    exact far low

theorem traceId_eq_iff (sound : Sound process) {draw other : Draw}
    (drawn : draw ∈ process.draws) (drawn' : other ∈ process.draws) :
    nextTraceId draw.1 draw.2 = nextTraceId other.1 other.2 ↔ ¬Apart draw other := by
  obtain ⟨bound, small⟩ := sound.drawn.drawn draw drawn
  obtain ⟨bound', small'⟩ := sound.drawn.drawn other drawn'
  have few := sound.counted.few
  rw [nextTraceId_eq_iff bound bound' (by omega) (by omega), apart_iff, not_not]

theorem Sound.spanId_eq (sound : Sound process) {span : Span} (member : span ∈ process.spans) :
    span.context.spanId = toBeBytes 8 span.sequence := by
  obtain ⟨positive, small⟩ := sound.valued.values span member
  have within : span.sequence < 2 ^ 64 := Nat.lt_of_le_of_lt small sound.counted.few
  cases span with
  | root draw sequence flags => exact nextSpanId_eq positive within
  | child parent sequence => exact nextSpanId_eq positive within

theorem Sound.traces (sound : Sound process) {span other : Span} (member : span ∈ process.spans)
    (member' : other ∈ process.spans)
    (once : ∀ draw, span.draw = some draw → other.draw ≠ some draw)
    (is_root : span.draw.isSome = true) (is_root' : other.draw.isSome = true) :
    span.context.traceId ≠ other.context.traceId := by
  cases span with
  | child parent sequence => cases is_root
  | root draw sequence flags =>
      cases other with
      | child parent sequence => cases is_root'
      | root draw' sequence' flags' =>
          have drawn := sound.owned.drawn _ member draw rfl
          have drawn' := sound.owned.drawn _ member' draw' rfl
          have distinct : draw ≠ draw' := by
            intro same
            exact once draw rfl (congrArg some same.symm)
          intro same
          have close := (traceId_eq_iff sound drawn drawn').mp same
          exact close (sound.drawn.apart.forall drawn drawn' distinct)

theorem Sound.unique (sound : Sound process) : UniqueIds process where
  traces := sound.owned.once.imp_of_mem fun member member' once =>
    sound.traces member member' once
  nonzero := by
    intro span member
    refine ⟨sound.valued.nonzero span member, ?_⟩
    cases span with
    | root draw sequence flags => exact orOne_ne_zero _
    | child parent sequence => exact orOne_ne_zero _
  spans := sound.valued.distinct.imp_of_mem fun {span other} member member' distinct _ same => by
    have few := sound.counted.few
    have small := (sound.valued.values span member).2
    have small' := (sound.valued.values other member').2
    rw [sound.spanId_eq member, sound.spanId_eq member'] at same
    exact distinct (toBeBytes_injective (Nat.lt_of_le_of_lt small few)
      (Nat.lt_of_le_of_lt small' few) same)

/-- The traces that were drawn differ from each other. -/
def TracesDiffer (process : Process) : Prop :=
  process.draws.Pairwise fun draw other =>
    nextTraceId draw.1 draw.2 ≠ nextTraceId other.1 other.2

/-- A draw that is not apart from the earlier ones repeats a trace. -/
theorem tracesDiffer_iff (reach : Process.system.Reach DrawsApart process) {call : Nat}
    (step : process.step (.drawTrace call) = some process') :
    TracesDiffer process' ↔ DrawsApart process (.drawTrace call) := by
  have sound := sound_of_reach reach
  have counted := counted_step sound.counted (step_cases step)
  cases step_cases step with
  | @drawTrace _ time timed few =>
      have new : time < 2 ^ 128 ∧ process.nextId < 2 ^ 64 := by
        refine ⟨sound.drawn.timed _ _ timed, ?_⟩
        rw [sound.counted.next_eq few]
        exact few
      have differ {draw : Draw} (drawn : draw ∈ process.draws) :
          nextTraceId time process.nextId ≠ nextTraceId draw.1 draw.2 ↔
            Apart (time, process.nextId) draw := by
        obtain ⟨bound, small⟩ := sound.drawn.drawn draw drawn
        rw [apart_iff, ne_eq, nextTraceId_eq_iff new.1 bound new.2
          (Nat.lt_of_le_of_lt small sound.counted.few)]
      constructor
      · intro differs time' timed' draw drawn
        cases timed.symm.trans timed'
        exact (differ drawn).mp (List.rel_of_pairwise_cons differs drawn)
      · intro apart
        refine List.pairwise_cons.mpr ⟨fun draw drawn => (differ drawn).mpr
          (apart time timed draw drawn), ?_⟩
        refine sound.drawn.apart.imp_of_mem fun drawn drawn' apart same => ?_
        exact (traceId_eq_iff sound drawn drawn').mp same apart

/-- In every run whose draws are apart the identifiers are unique, and it is the first draw that
is not apart which repeats a trace. -/
theorem ids_unique (reach : Process.system.Reach DrawsApart process) :
    UniqueIds process ∧
    ∀ call process', process.step (.drawTrace call) = some process' →
      (TracesDiffer process' ↔ DrawsApart process (.drawTrace call)) :=
  ⟨(sound_of_reach reach).unique, fun _ _ step => tracesDiffer_iff reach step⟩

/-- A call of `root`, at a time. -/
def rootCall (time : Nat) : List Action :=
  [.tick time, .readClock 0, .drawTrace 0, .drawSpan 0 ⟨1⟩]

/-- Two calls with one reading. -/
theorem ids_unique_now : ∃ process,
    Process.system.exec Process.init (rootCall (10 ^ 18) ++ rootCall (10 ^ 18)) = some process ∧
      process.spans.length = 2 ∧ UniqueIds process := by
  have run : (Process.system.exec Process.init (rootCall (10 ^ 18) ++ rootCall (10 ^ 18))).map
      (fun process => process.spans.length) = some 2 := by rfl
  obtain ⟨process, reached, two⟩ := Option.map_eq_some_iff.mp run
  refine ⟨process, reached, two, (ids_unique (Lts.reach_of_exec _ ?_ reached)).1⟩
  refine ⟨trivial, trivial, ?_, trivial, trivial, trivial, ?_, trivial, trivial⟩
  · intro time _ draw member
    cases member
  · intro time timed draw member
    have now : Call.timed (10 ^ 18) = .timed time := timed
    have first : draw ∈ [(10 ^ 18, 1)] := member
    cases now
    cases List.mem_singleton.mp first
    have apart : Apart (10 ^ 18, 3) (10 ^ 18, 1) := by decide
    exact apart

/-- Two calls, two nanoseconds apart, the counter at one and at three. -/
theorem trace_repeated : ∃ process,
    Process.system.Reachable process ∧ ¬UniqueIds process := by
  have run : (Process.system.exec Process.init (rootCall (10 ^ 18) ++ rootCall (10 ^ 18 + 2))).map
      (fun process => process.spans.map fun span => (span.draw.isSome, span.context.traceId)) =
        some (List.replicate 2 (true, toBeBytes 16 (10 ^ 18 + 1))) := by rfl
  obtain ⟨process, reached, repeated⟩ := Option.map_eq_some_iff.mp run
  refine ⟨process, Lts.reachable_of_exec _ reached, ?_⟩
  intro unique
  have differ : (process.spans.map fun span => (span.draw.isSome, span.context.traceId)).Pairwise
      fun known other => known.1 = true → other.1 = true → known.2 ≠ other.2 :=
    List.pairwise_map.mpr unique.traces
  rw [repeated] at differ
  exact List.rel_of_pairwise_cons differ List.mem_cons_self rfl rfl rfl

end RustZero.Trace
