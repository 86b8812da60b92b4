import Mathlib
import RustZero.Lib.Lts
import RustZero.Lib.Phases
import RustZero.Hash
import RustZero.RpcDiscovery

/-!
# The consistent-hash channel

`rpc/src/lib.rs`, `RpcConsistentHashChannel`.  Every snapshot replaces the ring as a
whole: `replace_state` copies the channels of the previous state, builds the next one
with a ring member for each unit of weight, stores it and then wakes the waiting calls.
A call registers for the next wake-up before it reads the state, and waits only when
the state it read had no member for it.

Replacements are made by one task, one after another; calls run concurrently with
them and with each other.  A channel is what it was opened for and a serial number.
-/

namespace RustZero.Rpc

open Std (ExtTreeMap ExtTreeSet)
open Lib Discov Hash

universe u

/-! ## Model -/

/-- A lazily connected Tonic channel; `serial` numbers the connections opened. -/
structure Channel (ε : Type u) where
  uri : String
  endpoint : ε
  serial : Nat
  deriving DecidableEq

structure ConsistentHashState (ε : Type u) where
  ring : ConsistentHash
  channels : ExtTreeMap String (Channel ε)

section Model

variable {ε : Type u} (hash : List UInt8 → UInt64)

def ConsistentHashState.empty (replicas : Nat) (positive : 0 < replicas) :
    ConsistentHashState ε :=
  ⟨ConsistentHash.new replicas positive, ∅⟩

def ConsistentHashState.addMember (state : ConsistentHashState ε) (channel : Channel ε)
    (member : String) : ConsistentHashState ε :=
  ⟨(state.ring.add hash member).1, state.channels.insert member channel⟩

/-- One endpoint of the loop in `replace_state`; the number counts connections opened. -/
def addEndpoint (available : ExtTreeSet String) (previous : ExtTreeMap String (Channel ε))
    (built : ConsistentHashState ε × Nat) (entry : String × ε × DiscoveredEndpoint) :
    ConsistentHashState ε × Nat :=
  if entry.1 ∈ available then
    let channel := previous[weightedKey entry.1 0]?.getD ⟨entry.1, entry.2.1, built.2⟩
    let opened := if (weightedKey entry.1 0) ∈ previous then built.2 else built.2 + 1
    ((List.range entry.2.2.weight).foldl
      (fun state slot => state.addMember hash channel (weightedKey entry.1 slot)) built.1, opened)
  else built

/-- The next state `replace_state` builds from the previous channels. -/
def nextState (configured : Configured ε) (available : ExtTreeSet String) (replicas : Nat)
    (positive : 0 < replicas) (previous : ExtTreeMap String (Channel ε)) (opened : Nat) :
    ConsistentHashState ε × Nat :=
  configured.toList.foldl (addEndpoint hash available previous)
    (ConsistentHashState.empty replicas positive, opened)

/-- The member a call takes: that of its key, else the next one in turn.  The flag says
whether the turn advanced. -/
def ConsistentHashState.member (state : ConsistentHashState ε) (key : Option (List UInt8))
    (fallback : UInt64) : Option String × Bool :=
  match key.bind fun bytes => state.ring.get hash bytes with
  | some member => (some member, false)
  | none => (state.channels.keys[fallback.toNat % max state.channels.size 1]?, true)

/-- What a call reads under the lock. -/
def ConsistentHashState.pick (state : ConsistentHashState ε) (key : Option (List UInt8))
    (fallback : UInt64) : Option (Channel ε) :=
  (state.member hash key fallback).1.bind fun member => state.channels[member]?

end Model

/-! ## What a built state holds -/

section Built

variable {ε : Type u} (hash : List UInt8 → UInt64)

/-- The state has exactly `members`, in this order on the ring, each with a channel opened for
its endpoint. -/
structure Holds (replicas : Nat) (state : ConsistentHashState ε) (members : List String) :
    Prop where
  represents : Represents hash state.ring members
  replicas : state.ring.replicas = replicas
  channels : ∀ member, member ∈ state.channels ↔ member ∈ members
  owners : ∀ (member : String) (channel : Channel ε),
    state.channels[member]? = some channel → ownerOf member = some channel.uri

variable {hash} {replicas : Nat}

theorem holds_empty (positive : 0 < replicas) :
    Holds hash replicas (ConsistentHashState.empty replicas positive : ConsistentHashState ε)
      [] where
  represents := represents_new hash replicas positive
  replicas := rfl
  channels member := by simp [ConsistentHashState.empty]
  owners member channel found := by simp [ConsistentHashState.empty] at found

theorem Holds.addMember {state : ConsistentHashState ε} {members : List String}
    (holds : Holds hash replicas state members) {channel : Channel ε} {member : String}
    (fresh : member ∉ members) (owner : ownerOf member = some channel.uri) :
    Holds hash replicas (state.addMember hash channel member) (members ++ [member]) where
  represents := holds.represents.add hash fresh
  replicas := (replicas_add hash state.ring member).trans holds.replicas
  channels other := by
    rw [ConsistentHashState.addMember, ExtTreeMap.mem_insert, compare_eq_iff_eq, holds.channels,
      List.mem_append, List.mem_singleton, or_comm, eq_comm]
  owners other found here := by
    rw [ConsistentHashState.addMember, ExtTreeMap.getElem?_insert] at here
    by_cases same : member = other
    · rw [if_pos (compare_eq_iff_eq.mpr same), Option.some.injEq] at here
      rw [← same, ← here]
      exact owner
    · rw [if_neg (fun equal => same (compare_eq_iff_eq.mp equal))] at here
      exact holds.owners other found here

theorem Holds.addMembers {state : ConsistentHashState ε} {members : List String}
    (holds : Holds hash replicas state members) (channel : Channel ε) (added : List String)
    (distinct : (members ++ added).Nodup) (owner : ∀ member ∈ added,
      ownerOf member = some channel.uri) :
    Holds hash replicas
      (added.foldl (fun state member => state.addMember hash channel member) state)
      (members ++ added) := by
  induction added generalizing state members with
  | nil => rwa [List.append_nil]
  | cons first rest ih =>
      have split : members ++ first :: rest = (members ++ [first]) ++ rest := by simp
      have fresh : first ∉ members := by
        intro member
        exact (List.nodup_append.mp distinct).2.2 first member first List.mem_cons_self rfl
      rw [split]
      apply ih (holds.addMember fresh (owner first List.mem_cons_self))
      · rwa [← split]
      · intro member later
        exact owner member (List.mem_cons_of_mem _ later)

/-- Channels are found under the keys of the endpoint they were opened for. -/
def OwnChannels (channels : ExtTreeMap String (Channel ε)) : Prop :=
  ∀ (member : String) (channel : Channel ε), channels[member]? = some channel →
    ownerOf member = some channel.uri

theorem Holds.addEndpoints {state : ConsistentHashState ε} {members : List String}
    (holds : Holds hash replicas state members) (available : ExtTreeSet String)
    {previous : ExtTreeMap String (Channel ε)} (own : OwnChannels previous)
    (entries : List (String × ε × DiscoveredEndpoint)) (opened : Nat)
    (distinct : (members ++ (entries.filter fun entry => entry.1 ∈ available).flatMap fun entry =>
      (List.range entry.2.2.weight).map (weightedKey entry.1)).Nodup) :
    Holds hash replicas (entries.foldl (addEndpoint hash available previous) (state, opened)).1
      (members ++ (entries.filter fun entry => entry.1 ∈ available).flatMap fun entry =>
        (List.range entry.2.2.weight).map (weightedKey entry.1)) := by
  induction entries generalizing state members opened with
  | nil => simpa using holds
  | cons entry rest ih =>
      rw [List.foldl_cons, addEndpoint]
      by_cases isAvailable : entry.1 ∈ available
      · rw [if_pos isAvailable]
        rw [List.filter_cons_of_pos (by simpa using isAvailable), List.flatMap_cons,
          ← List.append_assoc] at distinct ⊢
        refine ih ?_ _ distinct
        · have mapped := holds.addMembers
            (previous[weightedKey entry.1 0]?.getD ⟨entry.1, entry.2.1, opened⟩)
            ((List.range entry.2.2.weight).map (weightedKey entry.1))
            (List.nodup_append.mp distinct).1 (by
              intro member made
              obtain ⟨slot, _, same⟩ := List.mem_map.mp made
              rw [← same, ownerOf_weightedKey]
              cases found : previous[weightedKey entry.1 0]? with
              | none => rfl
              | some channel =>
                  have owner := own _ _ found
                  rwa [ownerOf_weightedKey] at owner)
          rwa [List.foldl_map] at mapped
      · rw [if_neg isAvailable]
        rw [List.filter_cons_of_neg (by simpa using isAvailable)] at distinct ⊢
        exact ih holds opened distinct

/-- `replace_state` builds a state of the weighted members of its snapshot. -/
theorem holds_nextState (configured : Configured ε) (available : ExtTreeSet String)
    (positive : 0 < replicas) {previous : ExtTreeMap String (Channel ε)}
    (own : OwnChannels previous) (opened : Nat) :
    Holds hash replicas (nextState hash configured available replicas positive previous opened).1
      (weightedList configured available) := by
  have start : Holds hash replicas (ConsistentHashState.empty replicas positive) [] :=
    holds_empty (ε := ε) positive
  exact start.addEndpoints available own configured.toList opened
    (nodup_weightedList configured available)

/-! ## What a call picks -/

theorem Holds.pick_of_key {state : ConsistentHashState ε} {members : List String}
    (holds : Holds hash replicas state members) {key : List UInt8} {member : String}
    (found : state.ring.get hash key = some member) (fallback : UInt64) :
    ∃ channel, state.pick hash (some key) fallback = some channel ∧
      ownerOf member = some channel.uri := by
  have inside : member ∈ state.channels :=
    (holds.channels member).mpr (holds.represents.get_mem hash found)
  rcases Option.isSome_iff_exists.mp (ExtTreeMap.mem_iff_isSome_getElem?.mp inside) with
    ⟨channel, held⟩
  refine ⟨channel, ?_, holds.owners member channel held⟩
  rw [ConsistentHashState.pick, ConsistentHashState.member, Option.bind_some, found]
  exact held

/-- A call with a key gets the channel of the endpoint its member belongs to. -/
theorem Holds.pick_key_eq_some {state : ConsistentHashState ε} {members : List String}
    (holds : Holds hash replicas state members) {key : List UInt8} {fallback : UInt64}
    {channel : Channel ε} (present : members ≠ [])
    (picked : state.pick hash (some key) fallback = some channel) :
    ∃ member, state.ring.get hash key = some member ∧ ownerOf member = some channel.uri := by
  cases found : state.ring.get hash key with
  | none => exact absurd (holds.represents.get_eq_none.mp found) present
  | some member =>
      obtain ⟨other, same, owner⟩ := holds.pick_of_key found fallback
      rw [picked, Option.some.injEq] at same
      rw [same]
      exact ⟨member, rfl, owner⟩

theorem Holds.size_channels {state : ConsistentHashState ε} {members : List String}
    (holds : Holds hash replicas state members) (present : members ≠ []) :
    0 < state.channels.size := by
  obtain ⟨member, listed⟩ := List.exists_mem_of_ne_nil _ present
  have inside := ExtTreeMap.mem_keys.mpr ((holds.channels member).mpr listed)
  rw [← ExtTreeMap.length_keys]
  exact List.length_pos_of_mem inside

theorem Holds.pick_empty {state : ConsistentHashState ε} (holds : Holds hash replicas state [])
    (key : Option (List UInt8)) (fallback : UInt64) : state.pick hash key fallback = none := by
  have noKeys : state.channels.keys = [] := by
    refine List.eq_nil_iff_forall_not_mem.mpr ?_
    intro member listed
    exact List.not_mem_nil ((holds.channels member).mp (ExtTreeMap.mem_keys.mp listed))
  have noMember : ∀ bytes, state.ring.get hash bytes = none :=
    fun bytes => holds.represents.get_eq_none.mpr rfl
  have unbound : (key.bind fun bytes => state.ring.get hash bytes) = none := by
    cases key with
    | none => rfl
    | some bytes => exact noMember bytes
  rw [ConsistentHashState.pick, ConsistentHashState.member, unbound, noKeys]
  rfl

/-- Where there are members, every call gets a channel. -/
theorem Holds.pick_isSome {state : ConsistentHashState ε} {members : List String}
    (holds : Holds hash replicas state members) (present : members ≠ [])
    (key : Option (List UInt8)) (fallback : UInt64) :
    ∃ channel, state.pick hash key fallback = some channel := by
  have turn : ∃ channel, (state.channels.keys[fallback.toNat % max state.channels.size 1]?).bind
      (fun member => state.channels[member]?) = some channel := by
    have size := holds.size_channels present
    have inRange : fallback.toNat % max state.channels.size 1 < state.channels.keys.length := by
      rw [ExtTreeMap.length_keys]
      have below := Nat.mod_lt fallback.toNat (show 0 < max state.channels.size 1 by omega)
      omega
    have listed := List.getElem_mem inRange
    rw [List.getElem?_eq_getElem inRange, Option.bind_some]
    exact Option.isSome_iff_exists.mp
      (ExtTreeMap.mem_iff_isSome_getElem?.mp (ExtTreeMap.mem_keys.mp listed))
  cases key with
  | none => exact turn
  | some bytes =>
      cases found : state.ring.get hash bytes with
      | none => exact absurd (holds.represents.get_eq_none.mp found) present
      | some member =>
          obtain ⟨channel, picked, _⟩ := holds.pick_of_key found fallback
          exact ⟨channel, picked⟩

end Built

/-! ## Calls and replacements -/

/-- A call of `select`.  `woken` says that its registration has been notified. -/
inductive SelectPhase (ε : Type u) where
  | idle
  | registered (key : Option (List UInt8)) (woken : Bool)
  | waiting (key : Option (List UInt8)) (woken : Bool)
  | selected (channel : Channel ε)
  deriving DecidableEq

/-- The arguments of a `replace_state`. -/
structure Snapshot (ε : Type u) where
  configured : Configured ε
  available : ExtTreeSet String

/-- Where the replacing task stands: before it read the channels, before it stored the next
state, or before it notified the waiting calls. -/
inductive ReplacePhase (ε : Type u) where
  | idle
  | built (next : ConsistentHashState ε) (snapshot : Snapshot ε)
  | stored

/-- `current` is the snapshot stored last. -/
structure Pool (ε : Type u) (Caller : Type) where
  state : ConsistentHashState ε
  current : Snapshot ε
  opened : Nat
  fallback : UInt64
  replacing : ReplacePhase ε
  calls : Caller → SelectPhase ε

inductive PoolAction (ε : Type u) (Caller : Type) where
  | read (snapshot : Snapshot ε)
  | store
  | notify
  | register (caller : Caller) (key : Option (List UInt8))
  | look (caller : Caller)
  | wake (caller : Caller)

section System

variable {ε : Type u} {Caller : Type} [DecidableEq Caller] (hash : List UInt8 → UInt64)

def SelectPhase.notified : SelectPhase ε → SelectPhase ε
  | .registered key _ => .registered key true
  | .waiting key _ => .waiting key true
  | phase => phase

def Pool.setCaller (pool : Pool ε Caller) (caller : Caller) (phase : SelectPhase ε) :
    Pool ε Caller :=
  { pool with calls := Function.update pool.calls caller phase }

/-- The locked read of a call and what follows from it. -/
def Pool.look (pool : Pool ε Caller) (caller : Caller) (key : Option (List UInt8)) (woken : Bool) :
    Pool ε Caller :=
  let turned := (pool.state.member hash key pool.fallback).2
  let pool' := { pool with fallback := if turned then pool.fallback + 1 else pool.fallback }
  match pool.state.pick hash key pool.fallback with
  | some channel => pool'.setCaller caller (.selected channel)
  | none => pool'.setCaller caller (.waiting key woken)

def Pool.step (replicas : Nat) (positive : 0 < replicas) (pool : Pool ε Caller) :
    PoolAction ε Caller → Option (Pool ε Caller)
  | .read snapshot =>
      match pool.replacing with
      | .idle =>
          let next := nextState hash snapshot.configured snapshot.available replicas positive
            pool.state.channels pool.opened
          some { pool with opened := next.2, replacing := .built next.1 snapshot }
      | _ => none
  | .store =>
      match pool.replacing with
      | .built next snapshot =>
          some { pool with state := next, current := snapshot, replacing := .stored }
      | _ => none
  | .notify =>
      match pool.replacing with
      | .stored =>
          some { pool with
            replacing := .idle
            calls := fun caller => (pool.calls caller).notified }
      | _ => none
  | .register caller key =>
      match pool.calls caller with
      | .idle => some (pool.setCaller caller (.registered key false))
      | _ => none
  | .look caller =>
      match pool.calls caller with
      | .registered key woken => some (pool.look hash caller key woken)
      | _ => none
  | .wake caller =>
      match pool.calls caller with
      | .waiting key true => some (pool.setCaller caller (.registered key false))
      | _ => none

def pool (replicas : Nat) (positive : 0 < replicas) :
    Lts (Pool ε Caller) (PoolAction ε Caller) where
  init :=
    { state := .empty replicas positive
      current := ⟨∅, ∅⟩
      opened := 0
      fallback := 0
      replacing := .idle
      calls := fun _ => .idle }
  step := Pool.step hash replicas positive

end System

/-! ## Snapshots -/

section Snapshots

variable {ε : Type u}

/-- The weight of an available endpoint. -/
def Snapshot.weightOf (snapshot : Snapshot ε) (uri : String) : Option Nat :=
  if uri ∈ snapshot.available then snapshot.configured[uri]?.map fun value => value.2.weight
  else none

/-- The members of the ring a snapshot is turned into. -/
def Snapshot.members (snapshot : Snapshot ε) : List String :=
  weightedList snapshot.configured snapshot.available

/-- The available endpoints with their weights, by URI. -/
def Snapshot.weights (snapshot : Snapshot ε) : List (String × Nat) :=
  (snapshot.configured.toList.filter fun entry => entry.1 ∈ snapshot.available).map
    fun entry => (entry.1, entry.2.2.weight)

theorem Snapshot.members_eq (snapshot : Snapshot ε) :
    snapshot.members = snapshot.weights.flatMap fun entry =>
      (List.range entry.2).map (weightedKey entry.1) := by
  rw [members, weightedList, weights, List.flatMap_map]

theorem Snapshot.mem_weights {snapshot : Snapshot ε} {uri : String} {weight : Nat} :
    (uri, weight) ∈ snapshot.weights ↔ snapshot.weightOf uri = some weight := by
  rw [weights, weightOf, List.mem_map]
  constructor
  · intro ⟨entry, kept, same⟩
    cases same
    obtain ⟨listed, isAvailable⟩ := List.mem_filter.mp kept
    have found := ExtTreeMap.mem_toList_iff_getElem?_eq_some.mp listed
    rw [if_pos (by simpa using isAvailable), found]
    rfl
  · intro found
    split at found
    · rename_i isAvailable
      obtain ⟨value, held, same⟩ := Option.map_eq_some_iff.mp found
      refine ⟨(uri, value), List.mem_filter.mpr
        ⟨ExtTreeMap.mem_toList_iff_getElem?_eq_some.mpr held, by simpa using isAvailable⟩, ?_⟩
      rw [← same]
    · cases found

theorem Snapshot.weights_ascend (snapshot : Snapshot ε) :
    snapshot.weights.Pairwise fun left right => left.1 < right.1 := by
  rw [weights, List.pairwise_map]
  exact (toList_ascends snapshot.configured).sublist List.filter_sublist

theorem eq_of_ascends {left right : List (String × Nat)}
    (leftAscends : left.Pairwise fun first second => first.1 < second.1)
    (rightAscends : right.Pairwise fun first second => first.1 < second.1)
    (same : ∀ entry, entry ∈ left ↔ entry ∈ right) : left = right := by
  have antisymm : Std.Antisymm fun first second : String × Nat => first.1 < second.1 :=
    ⟨fun _ _ below above => absurd above (lt_asymm below)⟩
  have irrefl : Std.Irrefl fun first second : String × Nat => first.1 < second.1 :=
    ⟨fun entry => lt_irrefl entry.1⟩
  exact leftAscends.eq_of_mem_iff rightAscends same

/-- `later` is `earlier` with some endpoints removed. -/
def Snapshot.Shrinks (earlier later : Snapshot ε) : Prop :=
  ∀ uri, later.weightOf uri = earlier.weightOf uri ∨ later.weightOf uri = none

/-- A ring member whose endpoint the snapshot still has. -/
def Snapshot.keeps (snapshot : Snapshot ε) (member : String) : Bool :=
  (ownerOf member).any fun uri => (snapshot.weightOf uri).isSome

theorem Snapshot.weights_shrink {earlier later : Snapshot ε} (shrinks : earlier.Shrinks later) :
    later.weights = earlier.weights.filter fun entry => (later.weightOf entry.1).isSome := by
  apply eq_of_ascends later.weights_ascend (earlier.weights_ascend.sublist List.filter_sublist)
  intro entry
  obtain ⟨uri, weight⟩ := entry
  rw [List.mem_filter, mem_weights, mem_weights]
  rcases shrinks uri with same | gone
  · rw [same]
    constructor
    · intro found
      exact ⟨found, by rw [found]; rfl⟩
    · exact And.left
  · rw [gone]
    constructor
    · intro found
      cases found
    · intro ⟨_, kept⟩
      cases kept

/-- Removing endpoints removes their members from the ring and moves no other. -/
theorem Snapshot.members_shrink {earlier later : Snapshot ε} (shrinks : earlier.Shrinks later) :
    later.members = earlier.members.filter later.keeps := by
  rw [members_eq, members_eq, weights_shrink shrinks, List.filter_flatMap]
  induction earlier.weights with
  | nil => rfl
  | cons entry rest ih =>
      have uniform : ((List.range entry.2).map (weightedKey entry.1)).filter later.keeps =
          if (later.weightOf entry.1).isSome then (List.range entry.2).map (weightedKey entry.1)
          else [] := by
        rw [List.filter_map]
        have constant : (later.keeps ∘ weightedKey entry.1) =
            fun _ => (later.weightOf entry.1).isSome := by
          funext slot
          simp [keeps]
        rw [constant]
        cases (later.weightOf entry.1).isSome with
        | true => simp
        | false => simp
      rw [List.flatMap_cons, ← ih, uniform, List.filter_cons]
      by_cases kept : (later.weightOf entry.1).isSome = true
      · rw [if_pos kept, if_pos kept, List.flatMap_cons]
      · rw [if_neg kept, if_neg kept, List.nil_append]

theorem Snapshot.members_ne_nil {snapshot : Snapshot ε} {uri : String}
    (isAvailable : (snapshot.weightOf uri).isSome) : snapshot.members ≠ [] := by
  obtain ⟨weight, found⟩ := Option.isSome_iff_exists.mp isAvailable
  rw [weightOf] at found
  split at found
  · rename_i inside
    obtain ⟨value, held, _⟩ := Option.map_eq_some_iff.mp found
    exact List.ne_nil_of_mem (mem_weightedList.mpr
      ⟨uri, value.1, value.2, 0, held, inside, value.2.weight_valid.1, rfl⟩)
  · cases found

theorem Snapshot.weightOf_of_member {snapshot : Snapshot ε} {member uri : String}
    (listed : member ∈ snapshot.members) (owner : ownerOf member = some uri) :
    (snapshot.weightOf uri).isSome := by
  obtain ⟨other, endpoint, discovered, slot, found, inside, _, same⟩ := mem_weightedList.mp listed
  rw [same, ownerOf_weightedKey, Option.some.injEq] at owner
  rw [← owner, weightOf, if_pos inside, found]
  rfl

end Snapshots

/-! ## Affinity and wake-ups -/

section Affinity

variable {ε : Type u} {Caller : Type} [DecidableEq Caller] {hash : List UInt8 → UInt64}
  {replicas : Nat} {positive : 0 < replicas}

/-- A call waits unnotified only for a pool that is empty or about to notify it. -/
structure Pool.Inv (hash : List UInt8 → UInt64) (replicas : Nat) (pool : Pool ε Caller) :
    Prop where
  holds : Holds hash replicas pool.state pool.current.members
  built : ∀ next snapshot, pool.replacing = .built next snapshot →
    Holds hash replicas next snapshot.members
  waiting : ∀ caller key, pool.calls caller = .waiting key false →
    pool.replacing = .stored ∨ pool.current.members = []

theorem SelectPhase.notified_ne_waiting (phase : SelectPhase ε) (key : Option (List UInt8)) :
    phase.notified ≠ .waiting key false := by
  cases phase <;> simp [SelectPhase.notified]

theorem Pool.Inv.setCaller {pool : Pool ε Caller} (inv : pool.Inv hash replicas) (caller : Caller)
    {phase : SelectPhase ε} (settled : ∀ key, phase = .waiting key false →
      pool.replacing = .stored ∨ pool.current.members = []) :
    (pool.setCaller caller phase).Inv hash replicas where
  holds := inv.holds
  built := inv.built
  waiting other key waits := by
    by_cases same : other = caller
    · subst same
      apply settled key
      simpa [Pool.setCaller] using waits
    · apply inv.waiting other key
      simpa [Pool.setCaller, Function.update_of_ne same] using waits

/-- The read of a registered call selects a channel, or finds the pool empty. -/
theorem Pool.Inv.look {pool : Pool ε Caller} (inv : pool.Inv hash replicas) (caller : Caller)
    (key : Option (List UInt8)) (woken : Bool) :
    (pool.look hash caller key woken).Inv hash replicas := by
  have turned : ∀ fallback,
      ({ pool with fallback := fallback } : Pool ε Caller).Inv hash replicas :=
    fun _ => ⟨inv.holds, inv.built, inv.waiting⟩
  unfold Pool.look
  split
  · apply (turned _).setCaller
    intro other waits
    cases waits
  · rename_i missed
    apply (turned _).setCaller
    intro other _
    right
    by_contra present
    obtain ⟨channel, picked⟩ := inv.holds.pick_isSome present key pool.fallback
    rw [missed] at picked
    cases picked

theorem Pool.Inv.step {pool next : Pool ε Caller} {action : PoolAction ε Caller}
    (inv : pool.Inv hash replicas) (taken : pool.step hash replicas positive action = some next) :
    next.Inv hash replicas := by
  cases action with
  | read snapshot =>
      simp only [Pool.step] at taken
      split at taken
      · rename_i idle
        cases taken
        refine ⟨inv.holds, ?_, ?_⟩
        · intro built shown same
          cases same
          exact holds_nextState snapshot.configured snapshot.available positive inv.holds.owners
            pool.opened
        · intro caller key waits
          rcases inv.waiting caller key waits with stored | empty
          · rw [idle] at stored
            cases stored
          · exact Or.inr empty
      · cases taken
  | store =>
      simp only [Pool.step] at taken
      split at taken
      · rename_i built snapshot stands
        cases taken
        refine ⟨inv.built built snapshot stands, ?_, ?_⟩
        · intro other shown same
          cases same
        · intro caller key waits
          exact Or.inl rfl
      · cases taken
  | notify =>
      simp only [Pool.step] at taken
      split at taken
      · cases taken
        refine ⟨inv.holds, ?_, ?_⟩
        · intro other shown same
          cases same
        · intro caller key waits
          exact absurd waits (SelectPhase.notified_ne_waiting _ key)
      · cases taken
  | register caller key =>
      simp only [Pool.step] at taken
      split at taken
      · cases taken
        apply inv.setCaller
        intro other waits
        cases waits
      · cases taken
  | look caller =>
      simp only [Pool.step] at taken
      split at taken
      · cases taken
        exact inv.look caller _ _
      · cases taken
  | wake caller =>
      simp only [Pool.step] at taken
      split at taken
      · cases taken
        apply inv.setCaller
        intro other waits
        cases waits
      · cases taken

theorem pool_inv {state : Pool ε Caller} (reach : (pool hash replicas positive).Reachable state) :
    state.Inv hash replicas := by
  refine reach.invariant ?_ fun _ _ _ inv _ taken => inv.step taken
  refine ⟨holds_empty positive, ?_, ?_⟩
  · intro next snapshot same
    cases same
  · intro caller key waits
    cases waits

omit [DecidableEq Caller] in
/-- Members that stay keep the keys they served. -/
theorem Pool.Inv.pick_shrinks {before after : Pool ε Caller} (inv : before.Inv hash replicas)
    (invAfter : after.Inv hash replicas) (shrinks : before.current.Shrinks after.current)
    {key : List UInt8} {channel : Channel ε} {fallback : UInt64} (later : UInt64)
    (picked : before.state.pick hash (some key) fallback = some channel)
    (stays : (after.current.weightOf channel.uri).isSome) :
    ∃ same, after.state.pick hash (some key) later = some same ∧ same.uri = channel.uri := by
  have present : before.current.members ≠ [] := by
    rcases shrinks channel.uri with same | gone
    · rw [same] at stays
      exact Snapshot.members_ne_nil stays
    · rw [gone] at stays
      cases stays
  obtain ⟨member, found, owner⟩ := inv.holds.pick_key_eq_some present picked
  have rest : Represents hash after.state.ring
      (before.current.members.filter after.current.keeps) := by
    rw [← Snapshot.members_shrink shrinks]
    exact invAfter.holds.represents
  have kept : after.current.keeps member = true := by
    simpa [Snapshot.keeps, owner] using stays
  have foundAfter := inv.holds.represents.get_of_kept hash rest
    (invAfter.holds.replicas.trans inv.holds.replicas.symm) kept found
  obtain ⟨same, pickedAfter, ownerAfter⟩ := invAfter.holds.pick_of_key foundAfter later
  rw [owner, Option.some.injEq] at ownerAfter
  exact ⟨same, pickedAfter, ownerAfter.symm⟩

omit [DecidableEq Caller] in
/-- The endpoint of a key is a function of the snapshot. -/
theorem Pool.Inv.pick_unique {left right : Pool ε Caller} (inv : left.Inv hash replicas)
    (invRight : right.Inv hash replicas)
    (same : ∀ uri, left.current.weightOf uri = right.current.weightOf uri)
    (key : List UInt8) (first second : UInt64) :
    (left.state.pick hash (some key) first).map Channel.uri =
      (right.state.pick hash (some key) second).map Channel.uri := by
  have shrinks : left.current.Shrinks right.current := fun uri => Or.inl (same uri).symm
  by_cases empty : left.current.members = []
  · have emptyRight : right.current.members = [] := by
      rw [Snapshot.members_shrink shrinks, empty]
      rfl
    have leftHolds := inv.holds
    have rightHolds := invRight.holds
    rw [empty] at leftHolds
    rw [emptyRight] at rightHolds
    rw [leftHolds.pick_empty, rightHolds.pick_empty]
  · obtain ⟨channel, picked⟩ := inv.holds.pick_isSome empty (some key) first
    obtain ⟨member, found, owner⟩ := inv.holds.pick_key_eq_some empty picked
    have stays := Snapshot.weightOf_of_member (inv.holds.represents.get_mem hash found) owner
    rw [same] at stays
    obtain ⟨other, pickedToo, uri⟩ := inv.pick_shrinks invRight shrinks second picked stays
    rw [picked, pickedToo, Option.map_some, Option.map_some, uri]

theorem Pool.Inv.look_selects {pool : Pool ε Caller} (inv : pool.Inv hash replicas)
    {caller : Caller} {key : Option (List UInt8)} {woken : Bool} {uri : String}
    (isAvailable : (pool.current.weightOf uri).isSome)
    (registered : pool.calls caller = .registered key woken) :
    ∃ channel next, pool.step hash replicas positive (.look caller) = some next ∧
      next.calls caller = .selected channel := by
  rcases inv.holds.pick_isSome (Snapshot.members_ne_nil isAvailable) key pool.fallback with
    ⟨channel, picked⟩
  refine ⟨channel, pool.look hash caller key woken, ?_, ?_⟩
  · simp only [Pool.step, registered]
  · simp [Pool.look, picked, Pool.setCaller]

/-- Every ring member has a channel, so calls return at once while an endpoint is available; the
endpoint of a key depends on the snapshot alone and survives the removal of others; and no call
waits past the notification of a pool that has endpoints. -/
theorem consistent_hash_affinity (hash : List UInt8 → UInt64) (replicas : Nat)
    (positive : 0 < replicas) :
    (∀ state : Pool ε Caller, (pool hash replicas positive).Reachable state →
      (∀ member ∈ state.state.ring.nodes, member ∈ state.state.channels) ∧
      (∀ uri caller key woken, (state.current.weightOf uri).isSome →
        state.calls caller = .registered key woken →
          ∃ channel next, state.step hash replicas positive (.look caller) = some next ∧
            next.calls caller = .selected channel) ∧
      (∀ uri caller key, (state.current.weightOf uri).isSome →
        state.calls caller = .waiting key false → state.replacing = .stored)) ∧
    (∀ left right : Pool ε Caller, (pool hash replicas positive).Reachable left →
      (pool hash replicas positive).Reachable right →
      (∀ uri, left.current.weightOf uri = right.current.weightOf uri) →
      ∀ key first second, (left.state.pick hash (some key) first).map Channel.uri =
        (right.state.pick hash (some key) second).map Channel.uri) ∧
    (∀ before after : Pool ε Caller, (pool hash replicas positive).Reachable before →
      (pool hash replicas positive).Reachable after → before.current.Shrinks after.current →
      ∀ key first second channel, before.state.pick hash (some key) first = some channel →
        (after.current.weightOf channel.uri).isSome →
          ∃ same, after.state.pick hash (some key) second = some same ∧
            same.uri = channel.uri) := by
  refine ⟨?_, ?_, ?_⟩
  · intro state reach
    have inv := pool_inv reach
    refine ⟨?_, ?_, ?_⟩
    · intro member inside
      exact (inv.holds.channels member).mpr (inv.holds.represents.mem_nodes.mp inside)
    · intro uri caller key woken isAvailable registered
      exact inv.look_selects isAvailable registered
    · intro uri caller key isAvailable waits
      exact (inv.waiting caller key waits).resolve_right (Snapshot.members_ne_nil isAvailable)
  · intro left right reachLeft reachRight same key first second
    exact (pool_inv reachLeft).pick_unique (pool_inv reachRight) same key first second
  · intro before after reachBefore reachAfter shrinks key first second channel picked stays
    exact (pool_inv reachBefore).pick_shrinks (pool_inv reachAfter) shrinks second picked stays

end Affinity

/-- A call that registered before the first endpoint appeared selects it. -/
theorem consistent_hash_affinity_first_endpoint :
    ∃ state : Pool Unit Bool, (pool hashBytes 1 one_pos).Reachable state ∧
      state.current.weightOf "a" = some 2 ∧
      ∃ channel next, state.step hashBytes 1 one_pos (.look true) = some next ∧
        next.calls true = .selected channel := by
  have run : ((pool hashBytes 1 one_pos).exec (pool hashBytes 1 one_pos).init
      [.register true (some [107]),
        .read ⟨(∅ : Configured Unit).insert "a" ((), ⟨"a", 2, [], by decide, by decide⟩),
          ExtTreeSet.ofList ["a"]⟩,
        .store, .notify]).map
      (fun state : Pool Unit Bool => (state.calls true, state.current.weightOf "a")) =
      some (.registered (some [107]) true, some 2) := by
    decide +kernel
  obtain ⟨state, executed, ends⟩ := Option.map_eq_some_iff.mp run
  obtain ⟨registered, weight⟩ := Prod.mk.inj ends
  have reach := Lts.reachable_of_exec _ executed
  have laws := (consistent_hash_affinity hashBytes 1 one_pos).1 state reach
  exact ⟨state, reach, weight,
    laws.2.1 "a" true (some [107]) true (by rw [weight]; rfl) registered⟩

end RustZero.Rpc
