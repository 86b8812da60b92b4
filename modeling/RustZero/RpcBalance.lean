import Mathlib
import RustZero.Lib.Lts
import RustZero.Lib.ChangeLog
import RustZero.RpcDiscovery

/-!
# The balanced discovery channel

`rpc/src/lib.rs`, `connect_discovered_with_status`.  The method fills the bounded
change channel of a Tonic balance channel with one key for each unit of weight and
spawns a watcher; the watcher turns every snapshot and every round of probes into
removals and insertions, key by key, so that the balancer ends up with the weighted
keys of the available endpoints.

The balancer's side is `receive`, which frees room in the channel, and `close`.  The
method holds the balance channel while it installs, so the balancer goes away only
afterwards.  A send that finds the channel full waits: it is not enabled.
-/

namespace RustZero.Rpc

open Std (ExtTreeMap ExtTreeSet)
open Lib Discov

universe u

/-- Where the method, then its watcher, stands. -/
inductive BalancePhase (ε : Type u) where
  | installing (todo : List (String × ε))
  | selecting
  | removing (desired : ExtTreeSet String) (todo : List String)
  | inserting (todo : List String)
  | returned
  | panicked
  deriving DecidableEq

/-- `sent` and `events`, oldest change and newest event first, are the history of the
channel and of the watcher. -/
structure Balance (ε : Type u) where
  known : Known ε
  installed : ExtTreeSet String
  capacity : Nat
  pending : Nat
  closed : Bool
  status : DiscoveryStatusSnapshot
  phase : BalancePhase ε
  sent : List (Change String ε)
  events : List Event

inductive BalanceAction where
  | install
  | receive
  | close
  | exit
  | snapshot (endpoints : List DiscoveredEndpoint)
  | disconnect
  | tick (healthy : String → Bool)
  | send

section Model

variable {ε : Type u} (client : RpcClient ε)

/-- The keys the method installs, in its order. -/
def initialKeys (configured : Configured ε) : List (String × ε) :=
  configured.toList.flatMap fun entry =>
    (List.range entry.2.2.weight).map fun slot => (weightedKey entry.1 slot, entry.2.1)

/-- `Channel::balance_channel` sized for the initial weights, and at least 128. -/
def initialCapacity (configured : Configured ε) : Nat :=
  max (configured.toList.map fun entry => entry.2.2.weight).sum 128

def Balance.start (endpoints : List DiscoveredEndpoint) : Balance ε :=
  let known := Known.start client endpoints
  { known := known
    installed := ∅
    capacity := initialCapacity known.configured
    pending := 0
    closed := false
    status := discoveryStatus known.discovered known.configured.size known.configured.size
      known.rejected
    phase := .installing (initialKeys known.configured)
    sent := []
    events := [] }

/-- A change enters the channel. -/
def Balance.push (state : Balance ε) (change : Change String ε) : Balance ε :=
  { state with sent := state.sent ++ [change], pending := state.pending + 1 }

/-- One `try_send` of the initial installation; a failed one panics. -/
def Balance.install (state : Balance ε) : Option (Balance ε) :=
  match state.phase with
  | .installing [] => some { state with phase := .selecting }
  | .installing ((key, endpoint) :: rest) =>
      let next := { state with installed := state.installed.insert key }
      if state.closed = false ∧ state.pending < state.capacity then
        some { next.push (.insert key endpoint) with phase := .installing rest }
      else some { next with phase := .panicked }
  | _ => none

/-- The loop body after `select!` took a branch. -/
def Balance.reconcile (state : Balance ε) (known : Known ε) (event : Event) : Balance ε :=
  { state with
    known := known
    phase := .removing known.desired (state.installed \ known.desired).toList
    events := event :: state.events }

/-- `changes.send(change).await`, with what the watcher does after it. -/
def Balance.sendThen (state : Balance ε) (change : Change String ε)
    (after : Balance ε → Balance ε) : Option (Balance ε) :=
  if state.closed then some { state with phase := .returned }
  else if state.pending < state.capacity then some (after (state.push change))
  else none

/-- One round of the two sending loops, or the move past the end of one. -/
def Balance.send (state : Balance ε) : Option (Balance ε) :=
  match state.phase with
  | .removing desired [] =>
      some { state with phase := .inserting (desired \ state.installed).toList }
  | .removing desired (key :: rest) =>
      state.sendThen (.remove key) fun next =>
        { next with installed := next.installed.erase key, phase := .removing desired rest }
  | .inserting [] => some { state with status := state.known.status, phase := .selecting }
  | .inserting (key :: rest) =>
      match rsplitOnce key '\x00' with
      | none => some { state with phase := .inserting rest }
      | some (uri, _) =>
          match state.known.configured[uri]? with
          | none => some { state with phase := .inserting rest }
          | some (endpoint, _) =>
              state.sendThen (.insert key endpoint) fun next =>
                { next with installed := next.installed.insert key, phase := .inserting rest }
  | _ => none

def Balance.step (state : Balance ε) : BalanceAction → Option (Balance ε)
  | .install => state.install
  | .receive => if 0 < state.pending then some { state with pending := state.pending - 1 } else none
  | .close =>
      match state.phase with
      | .installing _ => none
      | _ => some { state with closed := true }
  | .exit =>
      match state.phase with
      | .selecting => if state.closed then some { state with phase := .returned } else none
      | _ => none
  | .snapshot endpoints =>
      match state.phase with
      | .selecting =>
          some (state.reconcile (state.known.snapshot client endpoints) (.snapshot endpoints))
      | _ => none
  | .disconnect =>
      match state.phase with
      | .selecting => some { state with status := state.known.closedStatus, phase := .returned }
      | _ => none
  | .tick healthy =>
      match state.phase with
      | .selecting =>
          if client.discoveryHealthInterval.isSome then
            some (state.reconcile (state.known.probe healthy)
              (.probed (probes state.known.configured healthy)))
          else none
      | _ => none
  | .send => state.send

/-- The method on an initial snapshot, then its watcher. -/
def balance (endpoints : List DiscoveredEndpoint) : Lts (Balance ε) BalanceAction where
  init := Balance.start client endpoints
  step := Balance.step client

end Model

/-! ## What a step can do -/

section Steps

variable {ε : Type u} {client : RpcClient ε}

/-- The outcomes of a step, with what each was conditional on. -/
inductive BalanceTakes (client : RpcClient ε) (state : Balance ε) :
    BalanceAction → Balance ε → Prop where
  | started (stands : state.phase = .installing []) :
      BalanceTakes client state .install { state with phase := .selecting }
  | installs (key : String) (endpoint : ε) (rest : List (String × ε))
      (stands : state.phase = .installing ((key, endpoint) :: rest)) :
      BalanceTakes client state .install
        { state with
          installed := state.installed.insert key
          sent := state.sent ++ [.insert key endpoint]
          pending := state.pending + 1
          phase := .installing rest }
  | panics (key : String) (endpoint : ε) (rest : List (String × ε))
      (stands : state.phase = .installing ((key, endpoint) :: rest))
      (refused : ¬(state.closed = false ∧ state.pending < state.capacity)) :
      BalanceTakes client state .install
        { state with installed := state.installed.insert key, phase := .panicked }
  | receives (some : 0 < state.pending) :
      BalanceTakes client state .receive { state with pending := state.pending - 1 }
  | closes (stands : ∀ todo, state.phase ≠ .installing todo) :
      BalanceTakes client state .close { state with closed := true }
  | returns (action : BalanceAction) (status : DiscoveryStatusSnapshot) :
      BalanceTakes client state action { state with status := status, phase := .returned }
  | snapshot (endpoints : List DiscoveredEndpoint) (stands : state.phase = .selecting) :
      BalanceTakes client state (.snapshot endpoints)
        (state.reconcile (state.known.snapshot client endpoints) (.snapshot endpoints))
  | tick (healthy : String → Bool) (stands : state.phase = .selecting) :
      BalanceTakes client state (.tick healthy)
        (state.reconcile (state.known.probe healthy)
          (.probed (probes state.known.configured healthy)))
  | cleared (desired : ExtTreeSet String) (stands : state.phase = .removing desired []) :
      BalanceTakes client state .send
        { state with phase := .inserting (desired \ state.installed).toList }
  | removes (desired : ExtTreeSet String) (key : String) (rest : List String)
      (stands : state.phase = .removing desired (key :: rest)) :
      BalanceTakes client state .send
        { state with
          installed := state.installed.erase key
          sent := state.sent ++ [.remove key]
          pending := state.pending + 1
          phase := .removing desired rest }
  | skips (key : String) (rest : List String) (stands : state.phase = .inserting (key :: rest))
      (unknown : ∀ uri, ownerOf key = some uri → state.known.configured[uri]? = none) :
      BalanceTakes client state .send { state with phase := .inserting rest }
  | inserts (key : String) (rest : List String) (uri : String) (endpoint : ε)
      (discovered : DiscoveredEndpoint) (stands : state.phase = .inserting (key :: rest))
      (owner : ownerOf key = some uri)
      (found : state.known.configured[uri]? = some (endpoint, discovered)) :
      BalanceTakes client state .send
        { state with
          installed := state.installed.insert key
          sent := state.sent ++ [.insert key endpoint]
          pending := state.pending + 1
          phase := .inserting rest }
  | finished (stands : state.phase = .inserting []) :
      BalanceTakes client state .send
        { state with status := state.known.status, phase := .selecting }

theorem sendThen_cases {state next : Balance ε} {change : Change String ε}
    {after : Balance ε → Balance ε} (taken : state.sendThen change after = some next) :
    next = { state with phase := .returned } ∨ next = after (state.push change) := by
  unfold Balance.sendThen at taken
  split at taken
  · cases taken
    exact Or.inl rfl
  · split at taken
    · cases taken
      exact Or.inr rfl
    · cases taken

theorem send_takes {state next : Balance ε} (taken : state.send = some next) :
    BalanceTakes client state .send next := by
  unfold Balance.send at taken
  split at taken
  · rename_i desired stands
    cases taken
    exact .cleared desired stands
  · rename_i desired key rest stands
    rcases sendThen_cases taken with closed | sent
    · rw [closed]
      exact .returns _ state.status
    · rw [sent]
      exact .removes desired key rest stands
  · rename_i stands
    cases taken
    exact .finished stands
  · rename_i key rest stands
    split at taken
    · rename_i unsplit
      cases taken
      refine .skips key rest stands ?_
      intro uri owner
      rw [ownerOf, unsplit] at owner
      cases owner
    · rename_i uri slot split
      have owner : ownerOf key = some uri := by rw [ownerOf, split]; rfl
      split at taken
      · rename_i missing
        cases taken
        refine .skips key rest stands ?_
        intro other same
        rw [owner, Option.some.injEq] at same
        rwa [← same]
      · rename_i endpoint discovered found
        rcases sendThen_cases taken with closed | sent
        · rw [closed]
          exact .returns _ state.status
        · rw [sent]
          exact .inserts key rest uri endpoint discovered stands owner found
  · cases taken

theorem step_balanceTakes {state next : Balance ε} {action : BalanceAction}
    (taken : state.step client action = some next) : BalanceTakes client state action next := by
  cases action with
  | install =>
      simp only [Balance.step, Balance.install] at taken
      split at taken
      · cases taken
        exact .started ‹_›
      · rename_i key endpoint rest stands
        split at taken
        · cases taken
          exact .installs key endpoint rest stands
        · cases taken
          exact .panics key endpoint rest stands ‹_›
      · cases taken
  | receive =>
      simp only [Balance.step] at taken
      split at taken
      · cases taken
        exact .receives ‹_›
      · cases taken
  | close =>
      simp only [Balance.step] at taken
      split at taken
      · cases taken
      · rename_i notInstalling
        cases taken
        exact .closes notInstalling
  | exit =>
      simp only [Balance.step] at taken
      split at taken
      · split at taken
        · cases taken
          exact .returns _ state.status
        · cases taken
      · cases taken
  | snapshot endpoints =>
      simp only [Balance.step] at taken
      split at taken
      · cases taken
        exact .snapshot endpoints ‹_›
      · cases taken
  | disconnect =>
      simp only [Balance.step] at taken
      split at taken
      · cases taken
        exact .returns _ _
      · cases taken
  | tick healthy =>
      simp only [Balance.step] at taken
      split at taken
      · split at taken
        · cases taken
          exact .tick healthy ‹_›
        · cases taken
      · cases taken
  | send => exact send_takes taken

/-! ## Key sets of the channel -/

/-- A key set as a finite set. -/
def liveSet (keys : ExtTreeSet String) : Finset String := keys.toList.toFinset

@[simp] theorem mem_liveSet {keys : ExtTreeSet String} {key : String} :
    key ∈ liveSet keys ↔ key ∈ keys := by
  rw [liveSet, List.mem_toFinset, ExtTreeSet.mem_toList]

theorem mem_insert_key {keys : ExtTreeSet String} {key other : String} :
    other ∈ keys.insert key ↔ other = key ∨ other ∈ keys := by
  rw [ExtTreeSet.mem_insert, compare_eq_iff_eq, eq_comm]

theorem mem_erase_key {keys : ExtTreeSet String} {key other : String} :
    other ∈ keys.erase key ↔ other ≠ key ∧ other ∈ keys := by
  rw [ExtTreeSet.mem_erase, ne_eq, compare_eq_iff_eq, eq_comm]

theorem liveSet_insert (keys : ExtTreeSet String) (key : String) :
    liveSet (keys.insert key) = insert key (liveSet keys) := by
  ext other
  rw [mem_liveSet, mem_insert_key, Finset.mem_insert, mem_liveSet]

theorem liveSet_erase (keys : ExtTreeSet String) (key : String) :
    liveSet (keys.erase key) = (liveSet keys).erase key := by
  ext other
  rw [mem_liveSet, mem_erase_key, Finset.mem_erase, mem_liveSet]

theorem nodup_toList (keys : ExtTreeSet String) : keys.toList.Nodup := by
  refine (ExtTreeSet.ordered_toList (t := keys)).imp ?_
  intro left right below same
  rw [same, compare_lt_iff_lt] at below
  exact lt_irrefl _ below

/-- `todo` lists, once each, what `whole` has and `part` has not. -/
structure Missing (todo : List String) (part whole : ExtTreeSet String) : Prop where
  distinct : todo.Nodup
  lists : ∀ key, key ∈ todo ↔ key ∈ whole ∧ key ∉ part

theorem missing_diff (part whole : ExtTreeSet String) :
    Missing (whole \ part).toList part whole where
  distinct := nodup_toList _
  lists key := by rw [ExtTreeSet.mem_toList, ExtTreeSet.mem_diff_iff]

theorem Missing.insert {key : String} {rest : List String} {part whole : ExtTreeSet String}
    (missing : Missing (key :: rest) part whole) : Missing rest (part.insert key) whole where
  distinct := (List.nodup_cons.mp missing.distinct).2
  lists other := by
    have fresh := (List.nodup_cons.mp missing.distinct).1
    have listed := missing.lists other
    rw [List.mem_cons] at listed
    rw [mem_insert_key, not_or]
    constructor
    · intro later
      have both := listed.mp (Or.inr later)
      exact ⟨both.1, fun same => fresh (same ▸ later), both.2⟩
    · intro ⟨inWhole, different, notInPart⟩
      exact (listed.mpr ⟨inWhole, notInPart⟩).resolve_left different

theorem Missing.erase {key : String} {rest : List String} {part whole : ExtTreeSet String}
    (missing : Missing (key :: rest) part whole) : Missing rest part (whole.erase key) where
  distinct := (List.nodup_cons.mp missing.distinct).2
  lists other := by
    have fresh := (List.nodup_cons.mp missing.distinct).1
    have listed := missing.lists other
    rw [List.mem_cons] at listed
    rw [mem_erase_key]
    constructor
    · intro later
      have both := listed.mp (Or.inr later)
      exact ⟨⟨fun same => fresh (same ▸ later), both.1⟩, both.2⟩
    · intro ⟨⟨different, inWhole⟩, notInPart⟩
      exact (listed.mpr ⟨inWhole, notInPart⟩).resolve_left different

theorem Missing.subset {part whole : ExtTreeSet String} (missing : Missing [] part whole)
    {key : String} (member : key ∈ whole) : key ∈ part := by
  by_contra absent
  exact List.not_mem_nil ((missing.lists key).mpr ⟨member, absent⟩)

/-! ## The invariant -/

/-- A key and the endpoint configured for its URI. -/
def Carries (configured : Configured ε) (key : String) (endpoint : ε) : Prop :=
  ∃ uri slot discovered, key = weightedKey uri slot ∧
    configured[uri]? = some (endpoint, discovered)

/-- What holds where the watcher stands.  Only the removing loop may find keys beyond the
desired ones. -/
def Balance.Stands (state : Balance ε) : BalancePhase ε → Prop
  | .installing todo =>
      state.closed = false ∧ state.pending + todo.length ≤ state.capacity ∧
        (∀ key ∈ state.installed, key ∈ state.known.desired) ∧
        Missing (todo.map Prod.fst) state.installed state.known.desired ∧
        ∀ entry ∈ todo, Carries state.known.configured entry.1 entry.2
  | .selecting => state.installed = state.known.desired
  | .removing desired todo =>
      desired = state.known.desired ∧ Missing todo desired state.installed
  | .inserting todo =>
      (∀ key ∈ state.installed, key ∈ state.known.desired) ∧
        Missing todo state.installed state.known.desired
  | .returned => True
  | .panicked => False

structure Balance.Inv (state : Balance ε) : Prop where
  configuredOnly : ∀ uri ∈ state.known.available, uri ∈ state.known.configured
  tracks : Tracks state.sent (liveSet state.installed)
  stands : state.Stands state.phase

/-! ### The initial installation -/

theorem mem_initialKeys {configured : Configured ε} {key : String} {endpoint : ε} :
    (key, endpoint) ∈ initialKeys configured ↔
      ∃ uri discovered slot, configured[uri]? = some (endpoint, discovered) ∧
        slot < discovered.weight ∧ key = weightedKey uri slot := by
  rw [initialKeys, List.mem_flatMap]
  constructor
  · intro ⟨entry, listed, made⟩
    obtain ⟨uri, found, discovered⟩ := entry
    obtain ⟨slot, below, same⟩ := List.mem_map.mp made
    cases same
    exact ⟨uri, discovered, slot, ExtTreeMap.mem_toList_iff_getElem?_eq_some.mp listed,
      List.mem_range.mp below, rfl⟩
  · intro ⟨uri, discovered, slot, found, below, same⟩
    exact ⟨(uri, endpoint, discovered), ExtTreeMap.mem_toList_iff_getElem?_eq_some.mpr found,
      List.mem_map.mpr ⟨slot, List.mem_range.mpr below, by rw [same]⟩⟩

theorem nodup_initialKeys (configured : Configured ε) :
    ((initialKeys configured).map Prod.fst).Nodup := by
  have keys : (initialKeys configured).map Prod.fst = configured.toList.flatMap fun entry =>
      (List.range entry.2.2.weight).map (weightedKey entry.1) := by
    rw [initialKeys, List.map_flatMap]
    simp only [List.map_map]
    rfl
  rw [keys]
  exact nodup_keys_of_ascends (fun value : ε × DiscoveredEndpoint => value.2.weight)
    (toList_ascends configured)

theorem length_initialKeys (configured : Configured ε) :
    (initialKeys configured).length =
      (configured.toList.map fun entry => entry.2.2.weight).sum := by
  rw [initialKeys, List.length_flatMap]
  simp

theorem missing_initialKeys (endpoints : List DiscoveredEndpoint) :
    Missing ((initialKeys (Known.start client endpoints).configured).map Prod.fst) ∅
      (Known.start client endpoints).desired where
  distinct := nodup_initialKeys _
  lists key := by
    rw [Known.desired, mem_weightedKeys, List.mem_map]
    constructor
    · intro ⟨entry, listed, same⟩
      obtain ⟨made, endpoint⟩ := entry
      cases same
      obtain ⟨uri, discovered, slot, found, below, same⟩ := mem_initialKeys.mp listed
      have configuredUri : uri ∈ (client.configureDiscovered endpoints).1 :=
        ExtTreeMap.mem_iff_isSome_getElem?.mpr (by
          rw [show (client.configureDiscovered endpoints).1[uri]? = _ from found]
          rfl)
      exact ⟨⟨uri, endpoint, discovered, slot, found,
        (mem_available_start client endpoints uri).mpr configuredUri, below, same⟩,
        ExtTreeSet.not_mem_empty⟩
    · intro ⟨⟨uri, endpoint, discovered, slot, found, _, below, same⟩, _⟩
      exact ⟨(key, endpoint), mem_initialKeys.mpr ⟨uri, discovered, slot, found, below, same⟩, rfl⟩

theorem Balance.Inv.start (endpoints : List DiscoveredEndpoint) :
    (Balance.start client endpoints).Inv where
  configuredOnly uri member := (mem_available_start client endpoints uri).mp member
  tracks := tracks_nil
  stands := by
    refine ⟨rfl, ?_, ?_, missing_initialKeys endpoints, ?_⟩
    · have length := length_initialKeys (Known.start client endpoints).configured
      simp only [Balance.start, initialCapacity]
      omega
    · intro key member
      exact absurd member ExtTreeSet.not_mem_empty
    · intro entry listed
      obtain ⟨key, endpoint⟩ := entry
      obtain ⟨uri, discovered, slot, found, _, same⟩ := mem_initialKeys.mp listed
      exact ⟨uri, slot, discovered, same, found⟩

/-! ### Every step -/

theorem Balance.Inv.stands_at {state : Balance ε} (inv : state.Inv) {phase : BalancePhase ε}
    (stands : state.phase = phase) : state.Stands phase :=
  stands ▸ inv.stands

theorem Balance.Inv.reconcile {state : Balance ε} (inv : state.Inv) {known : Known ε}
    (configuredOnly : ∀ uri ∈ known.available, uri ∈ known.configured) (event : Event) :
    (state.reconcile known event).Inv where
  configuredOnly := configuredOnly
  tracks := inv.tracks
  stands := ⟨rfl, missing_diff _ _⟩

theorem Balance.Inv.installs {state : Balance ε} (inv : state.Inv) {key : String} {endpoint : ε}
    {rest : List (String × ε)} (stands : state.phase = .installing ((key, endpoint) :: rest)) :
    ({ state with
        installed := state.installed.insert key
        sent := state.sent ++ [.insert key endpoint]
        pending := state.pending + 1
        phase := .installing rest } : Balance ε).Inv := by
  obtain ⟨opened, room, inside, missing, carried⟩ := inv.stands_at stands
  have listed := (missing.lists key).mp List.mem_cons_self
  have fresh : key ∉ liveSet state.installed := fun member => listed.2 (mem_liveSet.mp member)
  refine ⟨inv.configuredOnly, ?_, opened, ?_, ?_, missing.insert, ?_⟩
  · rw [liveSet_insert]
    exact inv.tracks.insert endpoint fresh
  · rw [List.length_cons] at room
    show state.pending + 1 + rest.length ≤ state.capacity
    omega
  · intro other member
    rcases mem_insert_key.mp member with same | before
    · rw [same]
      exact listed.1
    · exact inside other before
  · intro entry later
    exact carried entry (List.mem_cons_of_mem _ later)

theorem Balance.Inv.removes {state : Balance ε} (inv : state.Inv) {desired : ExtTreeSet String}
    {key : String} {rest : List String} (stands : state.phase = .removing desired (key :: rest)) :
    ({ state with
        installed := state.installed.erase key
        sent := state.sent ++ [.remove key]
        pending := state.pending + 1
        phase := .removing desired rest } : Balance ε).Inv := by
  obtain ⟨same, missing⟩ := inv.stands_at stands
  have listed := (missing.lists key).mp List.mem_cons_self
  refine ⟨inv.configuredOnly, ?_, same, missing.erase⟩
  rw [liveSet_erase]
  exact inv.tracks.remove (mem_liveSet.mpr listed.1)

theorem Balance.Inv.inserts {state : Balance ε} (inv : state.Inv) {key : String}
    {rest : List String} (endpoint : ε) (stands : state.phase = .inserting (key :: rest)) :
    ({ state with
        installed := state.installed.insert key
        sent := state.sent ++ [.insert key endpoint]
        pending := state.pending + 1
        phase := .inserting rest } : Balance ε).Inv := by
  obtain ⟨inside, missing⟩ := inv.stands_at stands
  have listed := (missing.lists key).mp List.mem_cons_self
  have fresh : key ∉ liveSet state.installed := fun member => listed.2 (mem_liveSet.mp member)
  refine ⟨inv.configuredOnly, ?_, ?_, missing.insert⟩
  · rw [liveSet_insert]
    exact inv.tracks.insert endpoint fresh
  · intro other member
    rcases mem_insert_key.mp member with same | before
    · rw [same]
      exact listed.1
    · exact inside other before

/-- The inserting loop finds the endpoint of every key it has to insert. -/
theorem Balance.Inv.never_skips {state : Balance ε} (inv : state.Inv) {key : String}
    {rest : List String} (stands : state.phase = .inserting (key :: rest))
    (unknown : ∀ uri, ownerOf key = some uri → state.known.configured[uri]? = none) : False := by
  obtain ⟨_, missing⟩ := inv.stands_at stands
  have wanted := ((missing.lists key).mp List.mem_cons_self).1
  obtain ⟨uri, endpoint, discovered, slot, found, _, _, same⟩ := mem_weightedKeys.mp wanted
  have absent := unknown uri (by rw [same, ownerOf_weightedKey])
  rw [absent] at found
  cases found

theorem Balance.Inv.takes {state next : Balance ε} {action : BalanceAction} (inv : state.Inv)
    (takes : BalanceTakes client state action next) : next.Inv := by
  cases takes with
  | started stands =>
      obtain ⟨_, _, inside, missing, _⟩ := inv.stands_at stands
      refine ⟨inv.configuredOnly, inv.tracks, ?_⟩
      apply ExtTreeSet.ext_mem
      intro key
      exact ⟨inside key, missing.subset⟩
  | installs key endpoint rest stands => exact inv.installs stands
  | panics key endpoint rest stands refused =>
      obtain ⟨opened, room, _, _, _⟩ := inv.stands_at stands
      rw [List.length_cons] at room
      exact absurd ⟨opened, by omega⟩ refused
  | receives some =>
      refine ⟨inv.configuredOnly, inv.tracks, ?_⟩
      have stands := inv.stands
      cases phase : state.phase with
      | installing todo =>
          rw [phase] at stands
          obtain ⟨opened, room, rest⟩ := stands
          exact ⟨opened, Nat.le_trans (Nat.add_le_add_right (Nat.sub_le _ _) _) room, rest⟩
      | selecting => rwa [phase] at stands
      | removing desired todo => rwa [phase] at stands
      | inserting todo => rwa [phase] at stands
      | returned => trivial
      | panicked => rwa [phase] at stands
  | closes busy =>
      refine ⟨inv.configuredOnly, inv.tracks, ?_⟩
      have stands := inv.stands
      cases phase : state.phase with
      | installing todo => exact absurd phase (busy todo)
      | selecting => rwa [phase] at stands
      | removing desired todo => rwa [phase] at stands
      | inserting todo => rwa [phase] at stands
      | returned => trivial
      | panicked => rwa [phase] at stands
  | returns _ status => exact ⟨inv.configuredOnly, inv.tracks, trivial⟩
  | snapshot endpoints stands =>
      apply inv.reconcile
      intro uri member
      exact (mem_available_snapshot client state.known endpoints uri).mp member
  | tick healthy stands =>
      apply inv.reconcile
      intro uri member
      exact ((mem_available_probe state.known healthy uri).mp member).1
  | cleared desired stands =>
      obtain ⟨same, missing⟩ := inv.stands_at stands
      refine ⟨inv.configuredOnly, inv.tracks, ?_, ?_⟩
      · intro key member
        exact same ▸ missing.subset member
      · rw [same]
        exact missing_diff _ _
  | removes desired key rest stands => exact inv.removes stands
  | skips key rest stands unknown => exact (inv.never_skips stands unknown).elim
  | inserts key rest uri endpoint discovered stands owner found =>
      exact inv.inserts endpoint stands
  | finished stands =>
      obtain ⟨inside, missing⟩ := inv.stands_at stands
      refine ⟨inv.configuredOnly, inv.tracks, ?_⟩
      apply ExtTreeSet.ext_mem
      intro key
      exact ⟨inside key, missing.subset⟩

theorem balance_inv {endpoints : List DiscoveredEndpoint} {state : Balance ε}
    {P : Balance ε → BalanceAction → Prop} (reach : (balance client endpoints).Reach P state) :
    state.Inv :=
  reach.invariant (Balance.Inv.start endpoints) fun _ _ _ inv _ taken =>
    inv.takes (step_balanceTakes taken)

/-! ## The channel carries the weighted keys -/

/-- How many of the keys were made for `uri`. -/
def ownedKeys (keys : ExtTreeSet String) (uri : String) : Nat :=
  (keys.toList.filter fun key => ownerOf key = some uri).length

theorem ownedKeys_weightedKeys {configured : Configured ε} {available : ExtTreeSet String}
    {uri : String} {endpoint : ε} {discovered : DiscoveredEndpoint}
    (found : configured[uri]? = some (endpoint, discovered)) (isAvailable : uri ∈ available) :
    ownedKeys (weightedKeys configured available) uri = discovered.weight := by
  have owned : ((weightedKeys configured available).toList.filter
      fun key => ownerOf key = some uri).toFinset =
      (Finset.range discovered.weight).image (weightedKey uri) := by
    ext key
    rw [List.mem_toFinset, List.mem_filter, ExtTreeSet.mem_toList, mem_weightedKeys,
      Finset.mem_image]
    constructor
    · intro ⟨⟨other, otherEndpoint, otherDiscovered, slot, otherFound, _, below, same⟩, owner⟩
      rw [same, ownerOf_weightedKey, decide_eq_true_eq, Option.some.injEq] at owner
      rw [owner, found, Option.some.injEq, Prod.mk.injEq] at otherFound
      rw [← otherFound.2] at below
      exact ⟨slot, Finset.mem_range.mpr below, by rw [same, owner]⟩
    · intro ⟨slot, below, same⟩
      refine ⟨⟨uri, endpoint, discovered, slot, found, isAvailable, Finset.mem_range.mp below,
        same.symm⟩, ?_⟩
      rw [← same, ownerOf_weightedKey]
      simp
  have distinct : ((weightedKeys configured available).toList.filter
      fun key => ownerOf key = some uri).Nodup := (nodup_toList _).filter _
  rw [ownedKeys, ← List.toFinset_card_of_nodup distinct, owned, Finset.card_image_of_injective,
    Finset.card_range]
  intro slot other same
  exact (weightedKey_inj same).2

theorem ownedKeys_unavailable {configured : Configured ε} {available : ExtTreeSet String}
    {uri : String} (absent : uri ∉ available) :
    ownedKeys (weightedKeys configured available) uri = 0 := by
  rw [ownedKeys, List.length_eq_zero_iff, List.filter_eq_nil_iff]
  intro key member owner
  rw [ExtTreeSet.mem_toList, mem_weightedKeys] at member
  obtain ⟨other, _, _, slot, _, isAvailable, _, same⟩ := member
  rw [same, ownerOf_weightedKey, decide_eq_true_eq, Option.some.injEq] at owner
  exact absent (owner ▸ isAvailable)

/-- What a completed iteration leaves: the live keys of the channel are the installed ones,
these are the weighted keys, and each available endpoint owns as many as it weighs. -/
structure Balance.Reconciled (state : Balance ε) : Prop where
  live : liveKeys state.sent = (state.installed.toList : Multiset String)
  weighted : state.installed = weightedKeys state.known.configured state.known.available
  owned : ∀ uri ∈ state.known.available, ∃ endpoint discovered,
    state.known.configured[uri]? = some (endpoint, discovered) ∧
      ownedKeys state.installed uri = discovered.weight
  others : ∀ uri, uri ∉ state.known.available → ownedKeys state.installed uri = 0

theorem Balance.Inv.reconciled {state : Balance ε} (inv : state.Inv)
    (stands : state.phase = .selecting) : state.Reconciled := by
  have weighted : state.installed = weightedKeys state.known.configured state.known.available :=
    inv.stands_at stands
  refine ⟨?_, weighted, ?_, ?_⟩
  · rw [inv.tracks.liveKeys_eq, liveSet, List.toFinset_val, (nodup_toList _).dedup]
  · intro uri isAvailable
    have present := ExtTreeMap.mem_iff_isSome_getElem?.mp (inv.configuredOnly uri isAvailable)
    obtain ⟨⟨endpoint, discovered⟩, found⟩ := Option.isSome_iff_exists.mp present
    refine ⟨endpoint, discovered, found, ?_⟩
    rw [weighted]
    exact ownedKeys_weightedKeys found isAvailable
  · intro uri absent
    rw [weighted]
    exact ownedKeys_unavailable absent

/-- An insertion carries the endpoint configured for its key. -/
theorem Balance.Inv.carries {state next : Balance ε} {action : BalanceAction} (inv : state.Inv)
    (takes : BalanceTakes client state action next) {key : String} {endpoint : ε}
    (sends : next.sent = state.sent ++ [.insert key endpoint]) :
    Carries state.known.configured key endpoint := by
  have grows : ∀ entry : Change String ε, state.sent ++ [entry] =
      state.sent ++ [.insert key endpoint] → entry = .insert key endpoint := by
    intro entry same
    simpa using same
  cases takes with
  | installs made carried rest stands =>
      cases grows _ sends
      exact (inv.stands_at stands).2.2.2.2 _ List.mem_cons_self
  | removes desired made rest stands => cases grows _ sends
  | inserts made rest uri carried discovered stands owner found =>
      cases grows _ sends
      have wanted := (((inv.stands_at stands).2.lists key).mp List.mem_cons_self).1
      obtain ⟨other, _, _, slot, _, _, _, same⟩ := mem_weightedKeys.mp wanted
      rw [same, ownerOf_weightedKey, Option.some.injEq] at owner
      exact ⟨uri, slot, discovered, by rw [same, owner], found⟩
  | _ => simp [Balance.reconcile] at sends

/-- The initial sends never fail, the log of changes is orderly, every insertion carries the
endpoint configured for its key, and every completed iteration is reconciled. -/
theorem balance_reconciles (client : RpcClient ε) (endpoints : List DiscoveredEndpoint)
    (state : Balance ε) (reach : (balance client endpoints).Reachable state) :
    state.phase ≠ .panicked ∧ Orderly state.sent ∧
      (state.phase = .selecting → state.Reconciled) ∧
      ∀ action next key endpoint, state.step client action = some next →
        next.sent = state.sent ++ [.insert key endpoint] →
          Carries state.known.configured key endpoint := by
  have inv := balance_inv reach
  refine ⟨?_, inv.tracks.orderly, inv.reconciled, ?_⟩
  · intro panicked
    exact inv.stands_at panicked
  · intro action next key endpoint taken sends
    exact inv.carries (step_balanceTakes taken) sends

end Steps

/-- An endpoint loses half of its weight. -/
theorem balance_reconciles_lighter :
    ∃ state : Balance Unit,
      (balance ⟨fun _ => some (), none, 0, none⟩
        [⟨"a", 2, [], by decide, by decide⟩]).Reachable state ∧
      state.sent = [.insert "a\x000" (), .insert "a\x001" (), .remove "a\x001"] ∧
      state.Reconciled := by
  have run : ((balance (⟨fun _ => some (), none, 0, none⟩ : RpcClient Unit)
      [⟨"a", 2, [], by decide, by decide⟩]).exec
        (Balance.start ⟨fun _ => some (), none, 0, none⟩ [⟨"a", 2, [], by decide, by decide⟩])
        [.install, .install, .install, .snapshot [⟨"a", 1, [], by decide, by decide⟩], .send,
          .send, .send]).map (fun state => (state.phase, state.sent)) =
      some (.selecting, [.insert "a\x000" (), .insert "a\x001" (), .remove "a\x001"]) := by
    decide +kernel
  obtain ⟨state, executed, ends⟩ := Option.map_eq_some_iff.mp run
  obtain ⟨selecting, sent⟩ := Prod.mk.inj ends
  have reach := Lts.reachable_of_exec _ executed
  have laws := balance_reconciles _ _ state reach
  exact ⟨state, reach, sent, laws.2.2.1 selecting⟩

end RustZero.Rpc
