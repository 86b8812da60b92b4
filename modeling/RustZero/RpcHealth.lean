import Mathlib
import RustZero.Lib.Lts
import RustZero.RpcDiscovery
import RustZero.RpcBalance
import RustZero.RpcConsistentHash

/-!
# Failed health probes

Both discovery transports of `rpc/src/lib.rs` run the same loop over snapshots and
health ticks: the balanced channel (`RpcBalance`), and the consistent-hash channel,
whose watcher is below.  A tick replaces the available endpoints by those whose probe
succeeded.  A snapshot is meant to keep that verdict, but it extends the available
endpoints by all it configures, the failed ones among them: an endpoint stays excluded
until it is probed again exactly as long as no snapshot configures it.
-/

namespace RustZero.Rpc

open Std (ExtTreeMap ExtTreeSet)
open Lib Discov Hash

universe u

/-! ## The watcher of the consistent-hash channel -/

structure RingWatcher (ε : Type u) where
  known : Known ε
  state : ConsistentHashState ε
  opened : Nat
  status : DiscoveryStatusSnapshot
  returned : Bool
  events : List Event

inductive RingAction where
  | exit
  | snapshot (endpoints : List DiscoveredEndpoint)
  | disconnect
  | tick (healthy : String → Bool)

section Model

variable {ε : Type u} (hash : List UInt8 → UInt64) (replicas : Nat) (positive : 0 < replicas)
  (client : RpcClient ε)

/-- The end of a loop iteration: `replace_state`, then the status. -/
def RingWatcher.replace (watcher : RingWatcher ε) (known : Known ε) (event : Event) :
    RingWatcher ε :=
  let next := nextState hash known.configured known.available replicas positive
    watcher.state.channels watcher.opened
  { watcher with
    known := known
    state := next.1
    opened := next.2
    status := known.status
    events := event :: watcher.events }

def RingWatcher.start (endpoints : List DiscoveredEndpoint) : RingWatcher ε :=
  let known := Known.start client endpoints
  let next := nextState hash known.configured known.available replicas positive ∅ 0
  ⟨known, next.1, next.2, known.status, false, []⟩

def RingWatcher.step (watcher : RingWatcher ε) : RingAction → Option (RingWatcher ε)
  | .exit => if watcher.returned then none else some { watcher with returned := true }
  | .snapshot endpoints =>
      if watcher.returned then none
      else some (watcher.replace hash replicas positive (watcher.known.snapshot client endpoints)
        (.snapshot endpoints))
  | .disconnect =>
      if watcher.returned then none
      else some { watcher with status := watcher.known.closedStatus, returned := true }
  | .tick healthy =>
      if watcher.returned then none
      else if client.discoveryHealthInterval.isSome then
        some (watcher.replace hash replicas positive (watcher.known.probe healthy)
          (.probed (probes watcher.known.configured healthy)))
      else none

def ringWatcher (endpoints : List DiscoveredEndpoint) : Lts (RingWatcher ε) RingAction where
  init := RingWatcher.start hash replicas positive client endpoints
  step := RingWatcher.step hash replicas positive client

end Model

/-! ## Endpoints whose last probe failed -/

/-- The last probe of `uri` failed and every snapshot since has it; events are newest first. -/
inductive FailedSince (uri : String) : List Event → Prop where
  | failed {results : List (String × Bool)} {earlier : List Event}
      (result : (uri, false) ∈ results) : FailedSince uri (.probed results :: earlier)
  | unprobed {results : List (String × Bool)} {earlier : List Event}
      (other : ∀ result, (uri, result) ∉ results) (before : FailedSince uri earlier) :
      FailedSince uri (.probed results :: earlier)
  | present {endpoints : List DiscoveredEndpoint} {earlier : List Event}
      (listed : uri ∈ endpoints.map DiscoveredEndpoint.uri) (before : FailedSince uri earlier) :
      FailedSince uri (.snapshot endpoints :: earlier)

section Exclusion

variable {ε : Type u} {client : RpcClient ε}

/-- No endpoint whose last probe failed is available. -/
def Known.Excludes (known : Known ε) (events : List Event) : Prop :=
  ∀ uri, FailedSince uri events → uri ∉ known.available

/-- The snapshot configures no endpoint whose last probe failed. -/
def Spares (client : RpcClient ε) (events : List Event) (endpoints : List DiscoveredEndpoint) :
    Prop :=
  ∀ uri, uri ∈ (client.configureDiscovered endpoints).1 → ¬FailedSince uri events

theorem excludes_start (endpoints : List DiscoveredEndpoint) :
    (Known.start client endpoints).Excludes [] := by
  intro uri failed
  cases failed

theorem Known.excludes_probe (known : Known ε) (healthy : String → Bool) (events : List Event) :
    (known.probe healthy).Excludes (.probed (probes known.configured healthy) :: events) := by
  intro uri failed isAvailable
  obtain ⟨member, passed⟩ := (mem_available_probe known healthy uri).mp isAvailable
  cases failed with
  | failed result =>
      rw [(mem_probes.mp result).2] at passed
      cases passed
  | unprobed other before => exact other true (mem_probes.mpr ⟨member, passed⟩)

theorem Known.excludes_snapshot (known : Known ε) {events : List Event}
    {endpoints : List DiscoveredEndpoint} (spares : Spares client events endpoints) :
    (known.snapshot client endpoints).Excludes (.snapshot endpoints :: events) := by
  intro uri failed isAvailable
  have member := (mem_available_snapshot client known endpoints uri).mp isAvailable
  cases failed with
  | present listed before => exact spares uri member before

/-- The members of an excluding watcher belong to other endpoints. -/
theorem Known.Excludes.not_owner {known : Known ε} {events : List Event}
    (excludes : known.Excludes events) {uri key : String} (failed : FailedSince uri events)
    (member : key ∈ weightedList known.configured known.available) : ownerOf key ≠ some uri := by
  intro owner
  obtain ⟨other, _, _, slot, _, isAvailable, _, same⟩ := mem_weightedList.mp member
  rw [same, ownerOf_weightedKey, Option.some.injEq] at owner
  exact excludes uri failed (owner ▸ isAvailable)

/-- A snapshot that configures an endpoint makes its keys desired, whatever its last probe
was. -/
theorem Known.snapshot_readmits (known : Known ε) {events : List Event}
    {endpoints : List DiscoveredEndpoint} (readmits : ¬Spares client events endpoints) :
    ∃ uri, FailedSince uri (.snapshot endpoints :: events) ∧
      ∃ key ∈ weightedList (known.snapshot client endpoints).configured
        (known.snapshot client endpoints).available, ownerOf key = some uri := by
  simp only [Spares, not_forall, not_not] at readmits
  obtain ⟨uri, member, failed⟩ := readmits
  refine ⟨uri, .present (mem_uris_of_configured client member) failed, weightedKey uri 0, ?_,
    ownerOf_weightedKey uri 0⟩
  have isAvailable := (mem_available_snapshot client known endpoints uri).mpr member
  rcases Option.isSome_iff_exists.mp (ExtTreeMap.mem_iff_isSome_getElem?.mp member) with
    ⟨value, found⟩
  exact mem_weightedList.mpr
    ⟨uri, value.1, value.2, 0, found, isAvailable, value.2.weight_valid.1, rfl⟩

/-! ## The balanced channel -/

/-- The condition on the steps of the balanced channel. -/
def BalanceSpares (client : RpcClient ε) (state : Balance ε) : BalanceAction → Prop
  | .snapshot endpoints => Spares client state.events endpoints
  | _ => True

theorem balance_excludes {endpoints : List DiscoveredEndpoint} {state : Balance ε}
    (reach : (balance client endpoints).Reach (BalanceSpares client) state) :
    state.known.Excludes state.events := by
  refine reach.invariant (I := fun state => state.known.Excludes state.events)
    (excludes_start endpoints) ?_
  intro before action after excludes spares taken
  cases step_balanceTakes taken with
  | snapshot endpoints stands => exact before.known.excludes_snapshot spares
  | tick healthy stands => exact before.known.excludes_probe healthy before.events
  | _ => exact excludes

/-! ## The consistent-hash channel -/

def RingSpares (client : RpcClient ε) (watcher : RingWatcher ε) : RingAction → Prop
  | .snapshot endpoints => Spares client watcher.events endpoints
  | _ => True

variable {hash : List UInt8 → UInt64} {replicas : Nat} {positive : 0 < replicas}

structure RingWatcher.Inv (hash : List UInt8 → UInt64) (replicas : Nat)
    (watcher : RingWatcher ε) : Prop where
  excludes : watcher.known.Excludes watcher.events
  holds : Holds hash replicas watcher.state
    (weightedList watcher.known.configured watcher.known.available)

theorem RingWatcher.Inv.replace {watcher : RingWatcher ε} (inv : watcher.Inv hash replicas)
    {known : Known ε} {event : Event} (excludes : known.Excludes (event :: watcher.events)) :
    (watcher.replace hash replicas positive known event).Inv hash replicas where
  excludes := excludes
  holds := holds_nextState known.configured known.available positive inv.holds.owners watcher.opened

theorem RingWatcher.Inv.start (endpoints : List DiscoveredEndpoint) :
    (RingWatcher.start hash replicas positive client endpoints).Inv hash replicas where
  excludes := excludes_start endpoints
  holds := holds_nextState _ _ positive (fun member channel found => by simp at found) 0

theorem RingWatcher.Inv.step {watcher next : RingWatcher ε} {action : RingAction}
    (inv : watcher.Inv hash replicas) (spares : RingSpares client watcher action)
    (taken : watcher.step hash replicas positive client action = some next) :
    next.Inv hash replicas := by
  cases action with
  | exit =>
      simp only [RingWatcher.step] at taken
      split at taken
      · cases taken
      · cases taken
        exact ⟨inv.excludes, inv.holds⟩
  | snapshot endpoints =>
      simp only [RingWatcher.step] at taken
      split at taken
      · cases taken
      · cases taken
        exact inv.replace (watcher.known.excludes_snapshot spares)
  | disconnect =>
      simp only [RingWatcher.step] at taken
      split at taken
      · cases taken
      · cases taken
        exact ⟨inv.excludes, inv.holds⟩
  | tick healthy =>
      simp only [RingWatcher.step] at taken
      split at taken
      · cases taken
      · split at taken
        · cases taken
          exact inv.replace (watcher.known.excludes_probe healthy watcher.events)
        · cases taken

theorem ringWatcher_inv {endpoints : List DiscoveredEndpoint} {watcher : RingWatcher ε}
    (reach : (ringWatcher hash replicas positive client endpoints).Reach (RingSpares client)
      watcher) : watcher.Inv hash replicas :=
  reach.invariant (RingWatcher.Inv.start endpoints) fun _ _ _ inv spares taken =>
    inv.step spares taken

/-- On both transports: in runs whose snapshots configure no endpoint whose last probe failed,
such an endpoint has no key and no ring member after any iteration, and a snapshot that does
configure one makes the iteration install it. -/
theorem failed_probes_excluded (client : RpcClient ε) (hash : List UInt8 → UInt64)
    (replicas : Nat) (positive : 0 < replicas) (endpoints : List DiscoveredEndpoint) :
    (∀ state, (balance client endpoints).Reach (BalanceSpares client) state →
      (state.phase = .selecting → ∀ uri, FailedSince uri state.events →
        ∀ key ∈ state.installed, ownerOf key ≠ some uri) ∧
      ∀ snapshot next, state.step client (.snapshot snapshot) = some next →
        ¬Spares client state.events snapshot →
          ∃ uri, FailedSince uri next.events ∧
            ∃ key ∈ next.known.desired, ownerOf key = some uri) ∧
    (∀ watcher, (ringWatcher hash replicas positive client endpoints).Reach
        (RingSpares client) watcher →
      (∀ uri, FailedSince uri watcher.events →
        ∀ member ∈ watcher.state.ring.nodes, ownerOf member ≠ some uri) ∧
      ∀ snapshot next, watcher.step hash replicas positive client (.snapshot snapshot) = some next →
        ¬Spares client watcher.events snapshot →
          ∃ uri, FailedSince uri next.events ∧
            ∃ member ∈ next.state.ring.nodes, ownerOf member = some uri) := by
  refine ⟨?_, ?_⟩
  · intro state reach
    refine ⟨?_, ?_⟩
    · intro selecting uri failed key installed
      have weighted : state.installed = state.known.desired :=
        (balance_inv reach).stands_at selecting
      rw [weighted, Known.desired, mem_weightedKeys, ← mem_weightedList] at installed
      exact (balance_excludes reach).not_owner failed installed
    · intro snapshot next taken readmits
      simp only [Balance.step] at taken
      split at taken
      · cases taken
        obtain ⟨uri, failed, key, member, owner⟩ := state.known.snapshot_readmits readmits
        rw [mem_weightedList, ← mem_weightedKeys] at member
        exact ⟨uri, failed, key, member, owner⟩
      · cases taken
  · intro watcher reach
    have inv := ringWatcher_inv reach
    refine ⟨?_, ?_⟩
    · intro uri failed member inside
      exact inv.excludes.not_owner failed (inv.holds.represents.mem_nodes.mp inside)
    · intro snapshot next taken readmits
      simp only [RingWatcher.step] at taken
      split at taken
      · cases taken
      · cases taken
        obtain ⟨uri, failed, key, member, owner⟩ := watcher.known.snapshot_readmits readmits
        have holds : Holds hash replicas (watcher.replace hash replicas positive
            (watcher.known.snapshot client snapshot) (.snapshot snapshot)).state _ :=
          holds_nextState _ _ positive inv.holds.owners watcher.opened
        exact ⟨uri, failed, key, holds.represents.mem_nodes.mpr member, owner⟩

end Exclusion

/-! ## Two runs -/

/-- A client that accepts every URI and probes. -/
def probingClient : RpcClient Unit := ⟨fun _ => some (), none, 0, some 20⟩

theorem lonely_uri_valid : isBlank "a" = false := by
  decide

theorem lonely_weight_valid : 1 ≤ 1 ∧ 1 ≤ maxEndpointWeight := by
  decide

def lonelyEndpoint : DiscoveredEndpoint := ⟨"a", 1, [], lonely_uri_valid, lonely_weight_valid⟩

/-- The only probe fails and no snapshot follows. -/
theorem failed_probes_excluded_after_tick :
    ∃ state : Balance Unit,
      (balance probingClient [lonelyEndpoint]).Reach (BalanceSpares probingClient) state ∧
      state.phase = .selecting ∧ FailedSince "a" state.events ∧
      ∀ key ∈ state.installed, ownerOf key ≠ some "a" := by
  have run : ((balance probingClient [lonelyEndpoint]).exec
      (balance probingClient [lonelyEndpoint]).init
      [.install, .install, .tick fun _ => false, .send, .send, .send]).map
        (fun state => (state.phase, state.events)) =
      some (.selecting, [.probed [("a", false)]]) := by
    decide +kernel
  obtain ⟨state, executed, ends⟩ := Option.map_eq_some_iff.mp run
  obtain ⟨selecting, events⟩ := Prod.mk.inj ends
  have meets : (balance probingClient [lonelyEndpoint]).Meets (BalanceSpares probingClient)
      (balance probingClient [lonelyEndpoint]).init
      [.install, .install, .tick fun _ => false, .send, .send, .send] := by
    apply Lts.meets_of_forall
    intro action member state
    simp only [List.mem_cons, List.not_mem_nil, or_false] at member
    rcases member with rfl | rfl | rfl | rfl | rfl | rfl <;> trivial
  have reach := Lts.reach_of_exec _ meets executed
  have failed : FailedSince "a" state.events := by
    rw [events]
    exact .failed List.mem_cons_self
  exact ⟨state, reach, selecting, failed,
    ((failed_probes_excluded probingClient hashBytes 1 one_pos [lonelyEndpoint]).1 state reach).1
      selecting "a" failed⟩

/-- The probe fails, and the next snapshot of the same endpoint installs it again: as a key of
the balanced channel and as a member of the ring. -/
theorem failed_probe_readmitted :
    (∃ state : Balance Unit, (balance probingClient [lonelyEndpoint]).Reachable state ∧
      state.phase = .selecting ∧ FailedSince "a" state.events ∧
      weightedKey "a" 0 ∈ state.installed) ∧
    ∃ watcher : RingWatcher Unit,
      (ringWatcher (fun _ => 0) 1 one_pos probingClient [lonelyEndpoint]).Reachable watcher ∧
      FailedSince "a" watcher.events ∧ weightedKey "a" 0 ∈ watcher.state.ring.nodes := by
  refine ⟨?_, ?_⟩
  · have run : ((balance probingClient [lonelyEndpoint]).exec
        (balance probingClient [lonelyEndpoint]).init
        [.install, .install, .tick fun _ => false, .send, .send, .send,
          .snapshot [lonelyEndpoint], .send, .send, .send]).map
          (fun state => (state.phase, state.events, state.installed.toList)) =
        some (.selecting, [.snapshot [lonelyEndpoint], .probed [("a", false)]],
          [weightedKey "a" 0]) := by
      decide +kernel
    obtain ⟨state, executed, ends⟩ := Option.map_eq_some_iff.mp run
    obtain ⟨selecting, rest⟩ := Prod.mk.inj ends
    obtain ⟨events, installed⟩ := Prod.mk.inj rest
    refine ⟨state, Lts.reachable_of_exec _ executed, selecting, ?_, ?_⟩
    · rw [events]
      exact .present List.mem_cons_self (.failed List.mem_cons_self)
    · rw [← ExtTreeSet.mem_toList, installed]
      exact List.mem_cons_self
  · have run : ((ringWatcher (fun _ => 0) 1 one_pos probingClient [lonelyEndpoint]).exec
        (ringWatcher (fun _ => 0) 1 one_pos probingClient [lonelyEndpoint]).init
        [.tick fun _ => false, .snapshot [lonelyEndpoint]]).map
          (fun watcher => (watcher.events, decide (weightedKey "a" 0 ∈ watcher.state.ring.nodes))) =
        some ([.snapshot [lonelyEndpoint], .probed [("a", false)]], true) := by
      decide +kernel
    obtain ⟨watcher, executed, ends⟩ := Option.map_eq_some_iff.mp run
    obtain ⟨events, installed⟩ := Prod.mk.inj ends
    refine ⟨watcher, Lts.reachable_of_exec _ executed, ?_, of_decide_eq_true installed⟩
    rw [events]
    exact .present List.mem_cons_self (.failed List.mem_cons_self)

end RustZero.Rpc
