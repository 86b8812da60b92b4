import RustZero.Lib.LinearGenerator
import RustZero.Lib.Lts
import RustZero.Lib.Phases

/-!
# The P2C balancer

`core/src/balancer.rs`.  `pick` draws two nodes from a shared xorshift generator, compares them
and hands out a request for one; completing or dropping the request feeds what came of it back
into the node.

* `proceed` is one atomic step of a call: an atomic operation, or a section under a node's lock.
  `advance` interleaves any number of calls, and emits what a call saw and did as events.
* The `Arc` of a node counts its clones and aborts the process beyond `isize::MAX`; such a clone
  is no step.  A panic would be the phase `panicked`.
* Floating point enters as the parameter `Floats`: nothing is assumed of it.
* `pair_reachable`: from every state the generator can be driven to any two nodes, since its
  period is the longest there is (`nextRandom_period`).

Instants are nanoseconds.  `usize` is `u64`.
-/

namespace RustZero.P2c

open RustZero.Lib

/-- 10 seconds. -/
def decayTime : Nat := 10000000000

/-- 1 second. -/
def forcePickAfter : Nat := 1000000000

/-- What `Arc::clone` allows, `isize::MAX`. -/
def maxRefcount : Nat := 2 ^ 63 - 1

/-- The operations on `f64`. -/
structure Floats (F : Type) where
  ofNat : Nat → F
  half : F
  /-- `Duration::as_secs_f64`. -/
  seconds : Nat → F
  add : F → F → F
  sub : F → F → F
  mul : F → F → F
  div : F → F → F
  neg : F → F
  sqrt : F → F
  exp : F → F
  max : F → F → F
  lt : F → F → Bool
  le : F → F → Bool
  eq : F → F → Bool

structure NodeState (F : Type) where
  latencyMicros : F
  success : F
  lastUpdate : Nat
  lastPick : Nat

/-- A node and the strong count of the `Arc` that holds it. -/
structure Node (F : Type) where
  inflight : BitVec 64
  requests : BitVec 64
  state : NodeState F
  strong : Nat

section Nodes

variable {F : Type} (floats : Floats F)

def NodeState.new (now : Nat) : NodeState F where
  latencyMicros := floats.ofNat 0
  success := floats.ofNat 1
  lastUpdate := now
  lastPick := now

def Node.new (now : Nat) : Node F where
  inflight := 0
  requests := 0
  state := .new floats now
  strong := 1

def Node.load (node : Node F) : F :=
  let latency := floats.sqrt (floats.max node.state.latencyMicros (floats.ofNat 1))
  floats.mul latency (floats.add (floats.ofNat node.inflight.toNat) (floats.ofNat 1))

def Node.healthy (node : Node F) : Bool :=
  floats.lt floats.half node.state.success

/-- The section under the lock in `Node::complete`. -/
def NodeState.record (state : NodeState F) (started now : Nat) (success : Bool) : NodeState F :=
  let elapsed := now - state.lastUpdate
  let weight := floats.exp (floats.div (floats.neg (floats.seconds elapsed))
    (floats.seconds decayTime))
  let latency := floats.ofNat ((now - started) / 1000)
  let outcome := floats.ofNat (if success then 1 else 0)
  let average (old new : F) : F :=
    floats.add (floats.mul old weight) (floats.mul new (floats.sub (floats.ofNat 1) weight))
  { state with
    latencyMicros :=
      if floats.eq state.latencyMicros (floats.ofNat 0) then latency
      else average state.latencyMicros latency
    success := average state.success outcome
    lastUpdate := now }

end Nodes

/-! ## The generator -/

def nextRandom (current : BitVec 64) : BitVec 64 :=
  let next := current
  let next := next ^^^ (next <<< 13)
  let next := next ^^^ (next >>> 7)
  next ^^^ (next <<< 17)

def seed : BitVec 64 := 0x4d595df4d0f33173#64

theorem nextRandom_linear : XorLinear nextRandom :=
  ((xorLinear_shiftLeft 17).comp (xorLinear_shiftRight 7)).comp (xorLinear_shiftLeft 13)

/-- The minimal polynomial of the generator. -/
def modulus : Nat := 0x1013ed4a358913201

theorem modulus_annihilates : Annihilates nextRandom modulus seed := by
  refine ⟨by decide, by decide, ?_⟩
  decide +kernel

/-- The prime factors of the number of words but 0. -/
def periodPrimes : List Nat :=
  [3, 5, 17, 257, 641, 65537, 6700417]

theorem mem_periodPrimes {prime : Nat} (isPrime : prime.Prime) (divides : prime ∣ 2 ^ 64 - 1) :
    prime ∈ periodPrimes := by
  have factored : 2 ^ 64 - 1 = periodPrimes.prod := by decide
  rw [factored, Prime.dvd_prod_iff isPrime.prime] at divides
  obtain ⟨factor, member, divides⟩ := divides
  have primes : ∀ factor ∈ periodPrimes, factor.Prime := by
    simp only [periodPrimes, List.forall_mem_cons, List.not_mem_nil, false_implies, implies_true,
      and_true]
    norm_num
  rw [(Nat.prime_dvd_prime_iff_eq isPrime (primes factor member)).mp divides]
  exact member

/-- The output that a far jump reaches. -/
theorem iterate_nextRandom {steps : Nat} (short : steps < 2 ^ 64) :
    nextRandom^[steps] seed = combine nextRandom 64 (jump 64 modulus 64 steps) seed :=
  jump_eq nextRandom_linear modulus_annihilates (by decide) short

theorem jump_period : combine nextRandom 64 (jump 64 modulus 64 (2 ^ 64 - 1)) seed = seed := by
  decide +kernel

theorem jump_part : ∀ prime ∈ periodPrimes,
    combine nextRandom 64 (jump 64 modulus 64 ((2 ^ 64 - 1) / prime)) seed ≠ seed := by
  decide +kernel

/-- The period is the longest there is. -/
theorem nextRandom_period : Function.minimalPeriod nextRandom seed = 2 ^ 64 - 1 := by
  apply minimalPeriod_eq_of_primes
  · exact (iterate_nextRandom (by decide)).trans jump_period
  · intro prime isPrime divides
    have below : (2 ^ 64 - 1) / prime < 2 ^ 64 :=
      (Nat.div_le_self _ _).trans_lt (by decide)
    rw [iterate_nextRandom below]
    exact jump_part prime (mem_periodPrimes isPrime divides)

theorem seed_ne_zero : seed ≠ 0#64 := by decide

/-- Every state of the generator but 0 leads to every other. -/
theorem exists_nextRandom_eq {first second : BitVec 64} (one : first ≠ 0#64)
    (two : second ≠ 0#64) : ∃ steps, nextRandom^[steps] first = second :=
  exists_iterate_eq nextRandom_linear seed_ne_zero nextRandom_period one two

/-- The state of the generator is never 0. -/
theorem nextRandom_ne_zero {current : BitVec 64} (nonzero : current ≠ 0#64) :
    nextRandom current ≠ 0#64 := by
  obtain ⟨steps, rfl⟩ :=
    exists_iterate nextRandom_linear seed_ne_zero nextRandom_period nonzero
  have next := iterate_ne_zero nextRandom_linear seed_ne_zero nextRandom_period (steps + 1)
  rw [Function.iterate_succ_apply'] at next
  exact next

/-- `next as usize % len`; `none` is the panic of a division by zero. -/
def indexOf (next : BitVec 64) (len : Nat) : Option Nat :=
  if len = 0 then none else some (next.toNat % len)

/-! ## The calls -/

/-- A `P2cRequest`, whose node `complete` and `drop` take. -/
structure P2cRequest where
  node : Option Nat
  started : Nat
  deriving DecidableEq

/-- How a request ends. -/
inductive Ending where
  | completed (success : Bool)
  | dropped
  deriving DecidableEq

/-- A request that is dropped counts as failed. -/
def Ending.success : Ending → Bool
  | .completed success => success
  | .dropped => false

/-- How far a call of `pick`, and the request it returned, have come. -/
inductive Phase (F : Type) where
  | picking
  /-- `next_index`, for the second index if the first is drawn. -/
  | loading (drawn : Option Nat)
  | exchanging (drawn : Option Nat) (current : BitVec 64)
  /-- `choose`. -/
  | checkingFirst (first second : Nat)
  | checkingSecond (first second : Nat) (firstHealthy : Bool)
  | checkingPick (first second : Nat)
  | weighingFirst (first second : Nat)
  | weighingSecond (first second : Nat) (firstLoad : F)
  | cloning (node : Nat)
  /-- `mark_picked`: the time of the pick, `inflight` and `requests`. -/
  | touching (node : Nat)
  | counting (node : Nat)
  | numbering (node : Nat)
  | returning (node : Nat)
  | holding (request : P2cRequest)
  /-- `Node::complete`: `inflight`, the clock and the section under the lock. -/
  | completing (request : P2cRequest) (node : Nat) (ending : Ending)
  | timing (request : P2cRequest) (node : Nat) (ending : Ending)
  | recording (request : P2cRequest) (node : Nat) (ending : Ending) (now : Nat)
  | releasing (request : P2cRequest) (node : Nat) (ending : Ending)
  /-- A completed request goes out of scope. -/
  | dropping (request : P2cRequest)
  | gone
  | panicked

/-- What a call saw or did. -/
inductive Event where
  | compared (first second : Nat)
  | read (node : Nat) (healthy : Bool)
  | returned (node : Nat)
  | ended (ending : Ending)
  | recorded (node : Nat) (started now : Nat) (success : Bool)
  deriving DecidableEq

/-- The atomics and the nodes. -/
structure Shared (F : Type) where
  nodes : List (Node F)
  random : BitVec 64

/-- A step with a clock reading, whose weak compare-exchange may fail although the value is as
expected; or the end of a request. -/
inductive Move where
  | step (spurious : Bool) (now : Nat)
  | finish (ending : Ending)

section System

variable {F : Type} (floats : Floats F)

def Shared.update (shared : Shared F) (node : Nat) (change : Node F → Node F) : Shared F :=
  { shared with nodes := shared.nodes.modify node change }

/-- What `pick` does with an output of the generator. -/
def afterDraw (len : Nat) (drawn : Option Nat) (next : BitVec 64) : Phase F × List Event :=
  match drawn with
  | none =>
      match indexOf next len with
      | none => (.panicked, [])
      | some first => (.loading (some first), [])
  | some first =>
      match indexOf next (len - 1) with
      | none => (.panicked, [])
      | some second =>
          let second := if first ≤ second then second + 1 else second
          if first < len ∧ second < len then (.checkingFirst first second, [.compared first second])
          else (.panicked, [])

/-- `complete` leaves the request to be dropped. -/
def leave (request : P2cRequest) : Ending → Phase F
  | .completed _ => .dropping request
  | .dropped => .gone

/-- `take` the node of a request: there is one to complete, or nothing is left to do. -/
def take (request : P2cRequest) (ending : Ending) : Phase F :=
  match request.node with
  | some node => .completing { request with node := none } node ending
  | none => leave request ending

/-- One step of a call. -/
def proceed (shared : Shared F) : Phase F → Move → Option (Shared F × Phase F × List Event)
  | .picking, .step _ _ =>
      if shared.nodes.length = 1 then some (shared, .cloning 0, [])
      else some (shared, .loading none, [])
  | .loading drawn, .step _ _ => some (shared, .exchanging drawn shared.random, [])
  | .exchanging drawn current, .step spurious _ =>
      if shared.random = current ∧ spurious = false then
        let next := nextRandom current
        some ({ shared with random := next }, afterDraw shared.nodes.length drawn next)
      else some (shared, .exchanging drawn shared.random, [])
  | .checkingFirst first second, .step _ _ =>
      shared.nodes[first]?.map fun node =>
        (shared, .checkingSecond first second (node.healthy floats),
          [.read first (node.healthy floats)])
  | .checkingSecond first second firstHealthy, .step _ _ =>
      shared.nodes[second]?.map fun node =>
        let secondHealthy := node.healthy floats
        (shared,
          if firstHealthy ≠ secondHealthy then .cloning (if firstHealthy then first else second)
          else .checkingPick first second,
          [.read second secondHealthy])
  | .checkingPick first second, .step _ now =>
      shared.nodes[second]?.map fun node =>
        (shared,
          if forcePickAfter < now - node.state.lastPick then .cloning second
          else .weighingFirst first second, [])
  | .weighingFirst first second, .step _ _ =>
      shared.nodes[first]?.map fun node =>
        (shared, .weighingSecond first second (node.load floats), [])
  | .weighingSecond first second firstLoad, .step _ _ =>
      shared.nodes[second]?.map fun node =>
        (shared, .cloning (if floats.le firstLoad (node.load floats) then first else second), [])
  | .cloning node, .step _ _ =>
      shared.nodes[node]?.bind fun found =>
        if found.strong ≤ maxRefcount then
          some (shared.update node fun node => { node with strong := node.strong + 1 },
            .touching node, [])
        else none
  | .touching node, .step _ now =>
      some (shared.update node fun node => { node with state.lastPick := now },
        .counting node, [])
  | .counting node, .step _ _ =>
      some (shared.update node fun node => { node with inflight := node.inflight + 1 },
        .numbering node, [])
  | .numbering node, .step _ _ =>
      some (shared.update node fun node => { node with requests := node.requests + 1 },
        .returning node, [])
  | .returning node, .step _ now => some (shared, .holding ⟨some node, now⟩, [.returned node])
  | .holding request, .finish ending => some (shared, take request ending, [.ended ending])
  | .completing request node ending, .step _ _ =>
      some (shared.update node fun node => { node with inflight := node.inflight - 1 },
        .timing request node ending, [])
  | .timing request node ending, .step _ now =>
      some (shared, .recording request node ending now, [])
  | .recording request node ending now, .step _ _ =>
      some (shared.update node fun node =>
          { node with state := node.state.record floats request.started now ending.success },
        .releasing request node ending, [.recorded node request.started now ending.success])
  | .releasing request node ending, .step _ _ =>
      some (shared.update node fun node => { node with strong := node.strong - 1 },
        leave request ending, [])
  | .dropping request, .step _ _ => some (shared, take request .dropped, [])
  | _, _ => none

structure State (F : Type) where
  shared : Shared F
  calls : List (Phase F)

inductive Action where
  | pick
  | move (call : Nat) (move : Move)

/-- An event and the call that it is of. -/
abbrev Entry := Nat × Event

def advance (state : State F) : Action → Option (State F × List Entry)
  | .pick => some ({ state with calls := state.calls ++ [.picking] }, [])
  | .move call move =>
      state.calls[call]?.bind fun phase =>
        (proceed floats state.shared phase move).map fun next =>
          (⟨next.1, state.calls.set call next.2.1⟩, next.2.2.map (call, ·))

inductive BalancerError where
  | empty
  deriving DecidableEq, Repr

/-- `P2cBalancer::new`, for nodes made at the given times. -/
def newBalancer (created : List Nat) : Except BalancerError (State F) :=
  if created = [] then .error .empty
  else .ok ⟨⟨created.map (Node.new floats), seed⟩, []⟩

/-- A pool that is accepted: the times at which its nodes were made. -/
structure Pool where
  created : List Nat
  filled : created ≠ []
  /-- The length of a `Vec` is a `usize`. -/
  fits : created.length < 2 ^ 64

def Pool.size (pool : Pool) : Nat :=
  pool.created.length

theorem Pool.size_pos (pool : Pool) : 1 ≤ pool.size :=
  List.length_pos_iff.mpr pool.filled

def start (pool : Pool) : State F :=
  ⟨⟨pool.created.map (Node.new floats), seed⟩, []⟩

theorem newBalancer_pool (pool : Pool) :
    newBalancer floats pool.created = .ok (start floats pool) :=
  if_neg pool.filled

/-- The calls, and the entries of what they saw and did, oldest first. -/
def system (pool : Pool) : Lts (State F × List Entry) Action :=
  Lts.emitting (start floats pool) (advance floats)

end System

/-! ## What a step can do -/

section Steps

variable {F : Type} {floats : Floats F} {shared shared' : Shared F} {phase phase' : Phase F}
  {move : Move} {events : List Event}

/-- The next output is drawn. -/
def Shared.draw (shared : Shared F) : Shared F :=
  { shared with random := nextRandom shared.random }

/-- The steps of a call, with what holds when they are taken. -/
inductive Proceeds (floats : Floats F) (shared : Shared F) :
    Phase F → Shared F → Phase F → List Event → Prop
  | single (one : shared.nodes.length = 1) :
      Proceeds floats shared .picking shared (.cloning 0) []
  | several (more : shared.nodes.length ≠ 1) :
      Proceeds floats shared .picking shared (.loading none) []
  | load {drawn : Option Nat} :
      Proceeds floats shared (.loading drawn) shared (.exchanging drawn shared.random) []
  | exchange {drawn : Option Nat} {phase : Phase F} {events : List Event}
      (after : afterDraw shared.nodes.length drawn (nextRandom shared.random) = (phase, events)) :
      Proceeds floats shared (.exchanging drawn shared.random) shared.draw phase events
  | retry {drawn : Option Nat} {current : BitVec 64} :
      Proceeds floats shared (.exchanging drawn current) shared (.exchanging drawn shared.random) []
  | checkFirst {first second : Nat} {node : Node F} (found : shared.nodes[first]? = some node) :
      Proceeds floats shared (.checkingFirst first second) shared
        (.checkingSecond first second (node.healthy floats)) [.read first (node.healthy floats)]
  | differ {first second : Nat} {firstHealthy : Bool} {node : Node F}
      (found : shared.nodes[second]? = some node) (differs : firstHealthy ≠ node.healthy floats) :
      Proceeds floats shared (.checkingSecond first second firstHealthy) shared
        (.cloning (if firstHealthy then first else second)) [.read second (node.healthy floats)]
  | agree {first second : Nat} {node : Node F} (found : shared.nodes[second]? = some node) :
      Proceeds floats shared (.checkingSecond first second (node.healthy floats)) shared
        (.checkingPick first second) [.read second (node.healthy floats)]
  | force {first second : Nat} :
      Proceeds floats shared (.checkingPick first second) shared (.cloning second) []
  | recent {first second : Nat} :
      Proceeds floats shared (.checkingPick first second) shared (.weighingFirst first second) []
  | weighFirst {first second : Nat} {node : Node F} (found : shared.nodes[first]? = some node) :
      Proceeds floats shared (.weighingFirst first second) shared
        (.weighingSecond first second (node.load floats)) []
  | weighSecond {first second node : Nat} {firstLoad : F} (either : node = first ∨ node = second) :
      Proceeds floats shared (.weighingSecond first second firstLoad) shared (.cloning node) []
  | clone {index : Nat} {node : Node F} (found : shared.nodes[index]? = some node)
      (free : node.strong ≤ maxRefcount) :
      Proceeds floats shared (.cloning index)
        (shared.update index fun node => { node with strong := node.strong + 1 })
        (.touching index) []
  | touch {index : Nat} (now : Nat) :
      Proceeds floats shared (.touching index)
        (shared.update index fun node => { node with state.lastPick := now }) (.counting index) []
  | count {index : Nat} :
      Proceeds floats shared (.counting index)
        (shared.update index fun node => { node with inflight := node.inflight + 1 })
        (.numbering index) []
  | number {index : Nat} :
      Proceeds floats shared (.numbering index)
        (shared.update index fun node => { node with requests := node.requests + 1 })
        (.returning index) []
  | hand {index : Nat} (now : Nat) :
      Proceeds floats shared (.returning index) shared (.holding ⟨some index, now⟩)
        [.returned index]
  | finish {request : P2cRequest} (ending : Ending) :
      Proceeds floats shared (.holding request) shared (take request ending) [.ended ending]
  | discount {request : P2cRequest} {index : Nat} {ending : Ending} :
      Proceeds floats shared (.completing request index ending)
        (shared.update index fun node => { node with inflight := node.inflight - 1 })
        (.timing request index ending) []
  | time {request : P2cRequest} {index : Nat} {ending : Ending} (now : Nat) :
      Proceeds floats shared (.timing request index ending) shared
        (.recording request index ending now) []
  | record {request : P2cRequest} {index : Nat} {ending : Ending} {now : Nat} :
      Proceeds floats shared (.recording request index ending now)
        (shared.update index fun node =>
          { node with state := node.state.record floats request.started now ending.success })
        (.releasing request index ending) [.recorded index request.started now ending.success]
  | release {request : P2cRequest} {index : Nat} {ending : Ending} :
      Proceeds floats shared (.releasing request index ending)
        (shared.update index fun node => { node with strong := node.strong - 1 })
        (leave request ending) []
  | drop {request : P2cRequest} :
      Proceeds floats shared (.dropping request) shared (take request .dropped) []

theorem proceed_cases
    (ran : proceed floats shared phase move = some (shared', phase', events)) :
    Proceeds floats shared phase shared' phase' events := by
  unfold proceed at ran
  split at ran
  case h_1 => -- picking
    split at ran
    case isTrue one =>
      cases ran
      exact .single one
    case isFalse more =>
      cases ran
      exact .several more
  case h_3 => -- exchanging
    split at ran
    case isTrue expected =>
      obtain ⟨rfl, -⟩ := expected
      obtain ⟨rfl, after⟩ := Prod.mk.inj (Option.some.inj ran)
      exact .exchange after
    case isFalse =>
      cases ran
      exact .retry
  case h_4 => -- checkingFirst
    obtain ⟨node, found, same⟩ := Option.map_eq_some_iff.mp ran
    cases same
    exact .checkFirst found
  case h_5 => -- checkingSecond
    obtain ⟨node, found, same⟩ := Option.map_eq_some_iff.mp ran
    cases same
    split
    case isTrue differs => exact .differ found differs
    case isFalse agrees =>
      rw [not_not.mp agrees]
      exact .agree found
  case h_6 => -- checkingPick
    obtain ⟨node, -, same⟩ := Option.map_eq_some_iff.mp ran
    cases same
    split
    · exact .force
    · exact .recent
  case h_7 => -- weighingFirst
    obtain ⟨node, found, same⟩ := Option.map_eq_some_iff.mp ran
    cases same
    exact .weighFirst found
  case h_8 => -- weighingSecond
    obtain ⟨node, -, same⟩ := Option.map_eq_some_iff.mp ran
    cases same
    split
    · exact .weighSecond (.inl rfl)
    · exact .weighSecond (.inr rfl)
  case h_9 => -- cloning
    obtain ⟨node, found, cloned⟩ := Option.bind_eq_some_iff.mp ran
    split at cloned
    case isTrue free =>
      cases cloned
      exact .clone found free
    case isFalse => cases cloned
  case h_20 => cases ran
  all_goals
    cases ran
    constructor

end Steps

/-! ## Drawing -/

section Drawing

variable {F : Type} {floats : Floats F} {pool : Pool} {state state' : State F}
  {history : List Entry} {phase phase' : Phase F} {shared : Shared F} {call : Nat} {move : Move}
  {action : Action} {entries : List Entry} {events : List Event}

theorem Shared.draw_iterate (outputs : Nat) (shared : Shared F) :
    draw^[outputs] shared = { shared with random := nextRandom^[outputs] shared.random } := by
  induction outputs with
  | zero => rfl
  | succ outputs ih =>
      rw [Function.iterate_succ_apply', ih, Function.iterate_succ_apply']
      rfl

variable (floats pool history) in
theorem steps_of_advance (taken : advance floats state action = some (state', entries)) :
    (system floats pool).Steps Lts.Always (state, history) (state', history ++ entries) := by
  refine Lts.Steps.single trivial (a := action) ?_
  exact Option.map_eq_some_iff.mpr ⟨(state', entries), taken, rfl⟩

theorem advance_move (found : state.calls[call]? = some phase)
    (ran : proceed floats state.shared phase move = some (shared, phase', events)) :
    advance floats state (.move call move) =
      some (⟨shared, state.calls.set call phase'⟩, events.map (call, ·)) := by
  rw [advance, found, Option.bind_some, ran]
  rfl

variable (floats pool state history) in
theorem steps_of_move (found : state.calls[call]? = some phase)
    (ran : proceed floats state.shared phase move = some (shared, phase', events)) :
    (system floats pool).Steps Lts.Always (state, history)
      (⟨shared, state.calls.set call phase'⟩, history ++ events.map (call, ·)) :=
  steps_of_advance floats pool history (advance_move found ran)

variable (floats pool state history) in
/-- A call that is to draw can do so at once. -/
theorem draw_steps {drawn : Option Nat} (found : state.calls[call]? = some (.loading drawn))
    (after : afterDraw state.shared.nodes.length drawn (nextRandom state.shared.random) =
      (phase', events)) :
    (system floats pool).Steps Lts.Always (state, history)
      (⟨state.shared.draw, state.calls.set call phase'⟩, history ++ events.map (call, ·)) := by
  obtain ⟨within, -⟩ := List.getElem?_eq_some_iff.mp found
  have loaded : proceed floats state.shared (.loading drawn) (.step false 0) =
      some (state.shared, .exchanging drawn state.shared.random, []) := rfl
  have exchanged : proceed floats state.shared (.exchanging drawn state.shared.random)
      (.step false 0) = some (state.shared.draw, phase', events) := by
    rw [← after]
    exact if_pos ⟨rfl, rfl⟩
  have again : (state.calls.set call (.exchanging drawn state.shared.random))[call]? =
      some (.exchanging drawn state.shared.random) := List.getElem?_set_self within
  have first := steps_of_move floats pool state history found loaded
  have second := steps_of_move floats pool
    ⟨state.shared, state.calls.set call (.exchanging drawn state.shared.random)⟩ history again
    exchanged
  rw [List.map_nil, List.append_nil] at first
  rw [List.set_set] at second
  exact first.trans second

variable (floats pool state history) in
/-- A new call can draw its first index at once. -/
theorem begin_steps (several : 2 ≤ state.shared.nodes.length) :
    (system floats pool).Steps Lts.Always (state, history)
      (⟨state.shared.draw, state.calls ++ [.loading (some
          ((nextRandom state.shared.random).toNat % state.shared.nodes.length))]⟩, history) := by
  have opened : advance floats state .pick =
      some ({ state with calls := state.calls ++ [.picking] }, []) := rfl
  have passed : proceed floats state.shared .picking (.step false 0) =
      some (state.shared, .loading none, []) := if_neg (by omega)
  have found (phase : Phase F) :
      (state.calls ++ [phase])[state.calls.length]? = some phase := List.getElem?_concat_length
  have replaced (phase other : Phase F) :
      (state.calls ++ [phase]).set state.calls.length other = state.calls ++ [other] := by
    rw [List.set_append_right _ _ le_rfl, Nat.sub_self, List.set_cons_zero]
  have asked := steps_of_move floats pool { state with calls := state.calls ++ [.picking] } history
    (found _) passed
  have index : indexOf (nextRandom state.shared.random) state.shared.nodes.length =
      some ((nextRandom state.shared.random).toNat % state.shared.nodes.length) :=
    if_neg (by omega)
  have after : afterDraw (F := F) state.shared.nodes.length none (nextRandom state.shared.random) =
      (.loading (some ((nextRandom state.shared.random).toNat % state.shared.nodes.length)),
        []) := by
    rw [afterDraw, index]
  have drawn := draw_steps floats pool ⟨state.shared, state.calls ++ [.loading none]⟩ history
    (found _) after
  rw [replaced, List.map_nil, List.append_nil] at asked drawn
  have begun := steps_of_advance floats pool history opened
  rw [List.append_nil] at begun
  exact (begun.trans asked).trans drawn

variable (floats pool state history) in
/-- Other calls can draw any number of outputs. -/
theorem drive_steps (several : 2 ≤ state.shared.nodes.length) (outputs : Nat) :
    ∃ others, (system floats pool).Steps Lts.Always (state, history)
      (⟨Shared.draw^[outputs] state.shared, state.calls ++ others⟩, history) := by
  induction outputs with
  | zero =>
      refine ⟨[], ?_⟩
      rw [List.append_nil]
      exact Lts.Steps.refl _
  | succ outputs ih =>
      obtain ⟨others, steps⟩ := ih
      have nodes : (Shared.draw^[outputs] state.shared).nodes.length =
          state.shared.nodes.length := by
        rw [Shared.draw_iterate]
      have next := begin_steps floats pool
        ⟨Shared.draw^[outputs] state.shared, state.calls ++ others⟩ history (nodes ▸ several)
      rw [List.append_assoc] at next
      rw [Function.iterate_succ_apply']
      exact ⟨_, steps.trans next⟩

/-- Every index is that of some output. -/
theorem exists_output {index len : Nat} (within : index < len) (fits : len < 2 ^ 64) :
    ∃ output, output ≠ 0#64 ∧ indexOf output len = some index := by
  have chosen (number : Nat) (below : number < 2 ^ 64) (positive : number ≠ 0)
      (rest : number % len = index) :
      ∃ output, output ≠ 0#64 ∧ indexOf output len = some index := by
    have word : (BitVec.ofNat 64 number).toNat = number := by
      rw [BitVec.toNat_ofNat, Nat.mod_eq_of_lt below]
    refine ⟨BitVec.ofNat 64 number, ?_, ?_⟩
    · intro zero
      rw [zero] at word
      exact positive word.symm
    · rw [indexOf, if_neg (Nat.ne_of_gt (Nat.zero_lt_of_lt within)), word, rest]
  by_cases zero : index = 0
  · exact chosen len fits (by omega) (by rw [Nat.mod_self, zero])
  · exact chosen index (within.trans fits) zero (Nat.mod_eq_of_lt within)

/-- Every output can be made the next one. -/
theorem exists_outputs {output : BitVec 64} (nonzero : shared.random ≠ 0#64)
    (other : output ≠ 0#64) :
    ∃ outputs, nextRandom (Shared.draw^[outputs] shared).random = output := by
  obtain ⟨outputs, reached⟩ := exists_nextRandom_eq (nextRandom_ne_zero nonzero) other
  refine ⟨outputs, ?_⟩
  rw [Shared.draw_iterate, ← Function.iterate_succ_apply' nextRandom, Function.iterate_succ_apply]
  exact reached

@[simp] theorem Shared.draw_nodes (outputs : Nat) (shared : Shared F) :
    (draw^[outputs] shared).nodes = shared.nodes := by
  rw [draw_iterate]

/-- The second index that the shift turns into another node. -/
theorem afterDraw_pair {len first second : Nat} {next : BitVec 64} (within : first < len)
    (within' : second < len) (index : indexOf next (len - 1) =
      some (if first < second then second - 1 else second)) (distinct : first ≠ second) :
    afterDraw (F := F) len (some first) next =
      (.checkingFirst first second, [.compared first second]) := by
  rw [afterDraw, index]
  have shifted : (if first ≤ (if first < second then second - 1 else second) then
      (if first < second then second - 1 else second) + 1
      else if first < second then second - 1 else second) = second := by
    split_ifs <;> omega
  simp only [shifted, within, within', and_self, if_true]

variable (floats pool history) in
/-- A call can be made to draw any first index. -/
theorem exists_begun (nonzero : state.shared.random ≠ 0#64)
    (several : 2 ≤ state.shared.nodes.length) (fits : state.shared.nodes.length < 2 ^ 64)
    {first : Nat} (within : first < state.shared.nodes.length) :
    ∃ (state' : State F) (call : Nat),
      (system floats pool).Steps Lts.Always (state, history) (state', history) ∧
      state'.shared.nodes = state.shared.nodes ∧ state'.shared.random ≠ 0#64 ∧
      state'.calls[call]? = some (.loading (some first)) := by
  obtain ⟨output, output_ne, index⟩ := exists_output within fits
  obtain ⟨outputs, drawn⟩ := exists_outputs nonzero output_ne
  obtain ⟨others, driven⟩ := drive_steps floats pool state history several outputs
  have begun := begin_steps floats pool
    ⟨Shared.draw^[outputs] state.shared, state.calls ++ others⟩ history (by simpa using several)
  have same : (nextRandom (Shared.draw^[outputs] state.shared).random).toNat %
      (Shared.draw^[outputs] state.shared).nodes.length = first := by
    rw [indexOf, if_neg (by omega)] at index
    rw [drawn, Shared.draw_nodes]
    exact Option.some.inj index
  refine ⟨_, (state.calls ++ others).length, driven.trans begun, ?_, ?_, ?_⟩
  · exact Shared.draw_nodes outputs state.shared
  · exact drawn.trans_ne output_ne
  · rw [same]
    exact List.getElem?_concat_length

/-- From every state a call can be made to compare any two nodes. -/
theorem pair_reachable (nonzero : state.shared.random ≠ 0#64)
    (fits : state.shared.nodes.length < 2 ^ 64) {first second : Nat} (distinct : first ≠ second)
    (within : first < state.shared.nodes.length) (within' : second < state.shared.nodes.length) :
    ∃ (state' : State F) (call : Nat), (system floats pool).Steps Lts.Always (state, history)
      (state', history ++ [(call, .compared first second)]) := by
  have several : 2 ≤ state.shared.nodes.length := by omega
  obtain ⟨mid, call, begun, nodes, nonzero, found⟩ :=
    exists_begun floats pool history nonzero several fits within
  have short : (if first < second then second - 1 else second) <
      state.shared.nodes.length - 1 := by
    split_ifs <;> omega
  obtain ⟨output, output_ne, index⟩ := exists_output short (by omega)
  obtain ⟨outputs, drawn⟩ := exists_outputs nonzero output_ne
  obtain ⟨others, driven⟩ := drive_steps floats pool mid history (nodes ▸ several) outputs
  have still : (mid.calls ++ others)[call]? = some (.loading (some first)) := by
    rw [List.getElem?_append_left (List.getElem?_eq_some_iff.mp found).1]
    exact found
  have compared : afterDraw (F := F) (Shared.draw^[outputs] mid.shared).nodes.length (some first)
      (nextRandom (Shared.draw^[outputs] mid.shared).random) =
        (.checkingFirst first second, [.compared first second]) := by
    rw [drawn, Shared.draw_nodes, nodes]
    exact afterDraw_pair within within' index distinct
  have last := draw_steps floats pool ⟨Shared.draw^[outputs] mid.shared, mid.calls ++ others⟩
    history still compared
  exact ⟨_, call, (begun.trans driven).trans last⟩

end Drawing

end RustZero.P2c
