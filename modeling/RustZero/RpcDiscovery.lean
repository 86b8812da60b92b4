import Mathlib
import RustZero.Lib.Circle
import RustZero.Lib.TopRanked
import RustZero.Lib.Utf8
import RustZero.Hash
import RustZero.Discov

/-!
# Endpoints an RPC client takes from discovery

`rpc/src/lib.rs`, the functions both discovery transports share.  A discovery
snapshot is configured endpoint by endpoint; a client that subsets keeps the
endpoints that rank best by a seeded score of their URI, so that the choice depends
on the URIs alone and moves little when the snapshot does.

Building a Tonic endpoint from a URI, with the client's timeouts and TLS settings, is
the parameter `endpoint` of the client; `none` is a rejected URI.
-/

namespace RustZero.Rpc

open Std (ExtTreeMap ExtTreeSet)
open Lib Discov

universe u

structure RpcClient (ε : Type u) where
  endpoint : String → Option ε
  discoverySubsetSize : Option Nat
  discoverySubsetSeed : UInt64
  discoveryHealthInterval : Option Nat

/-- `BTreeMap<String, (Endpoint, DiscoveredEndpoint)>`. -/
abbrev Configured (ε : Type u) := ExtTreeMap String (ε × DiscoveredEndpoint)

/-! ## Subsetting -/

def discoverySubsetScore (uri : String) (seed : UInt64) : UInt64 :=
  Hash.splitMix (Hash.fnv (Hash.offsetBasis ^^^ seed) (Hash.asBytes uri))

/-- `ranked`, sorted by descending score and URI, and the URIs taken off its top. -/
def selectedUris (uris : List String) (limit : Nat) (seed : UInt64) : List String :=
  let ranked := (uris.map fun uri => (discoverySubsetScore uri seed, uri)).mergeSort
    fun left right => decide (toLex right ≤ toLex left)
  (ranked.take limit).map Prod.snd

/-- The part of `select_discovery_subset` after its size check. -/
def rankedSubset {ν : Type u} (configured : ExtTreeMap String ν) (limit : Nat) (seed : UInt64) :
    ExtTreeMap String ν :=
  let selected := selectedUris configured.keys limit seed
  configured.filter fun uri _ => uri ∈ selected

def selectDiscoverySubset {ν : Type u} (configured : ExtTreeMap String ν) (limit : Nat)
    (seed : UInt64) : ExtTreeMap String ν :=
  if configured.size ≤ limit then configured else rankedSubset configured limit seed

def RpcClient.configureDiscovered {ε : Type u} (client : RpcClient ε)
    (endpoints : List DiscoveredEndpoint) : Configured ε × Nat × Nat :=
  let discovered := endpoints.length
  let configured : Configured ε := ExtTreeMap.ofList (endpoints.filterMap fun discovered =>
    (client.endpoint discovered.uri).map fun endpoint => (discovered.uri, endpoint, discovered))
  let rejected := discovered - configured.size
  match client.discoverySubsetSize with
  | some limit =>
      (selectDiscoverySubset configured limit client.discoverySubsetSeed, discovered, rejected)
  | none => (configured, discovered, rejected)

/-! ## Weighted keys -/

/-- One key for each unit of an endpoint's weight: `"{uri}\0{slot}"`. -/
def weightedKey (uri : String) (slot : Nat) : String := uri ++ "\x00" ++ toString slot

/-- `str::rsplit_once`: the parts around the last occurrence of a character. -/
def rsplitOnce (text : String) (separator : Char) : Option (String × String) :=
  let reversed := text.toList.reverse
  match reversed.dropWhile (· ≠ separator) with
  | [] => none
  | _ :: before =>
      some (String.ofList before.reverse,
        String.ofList (reversed.takeWhile (· ≠ separator)).reverse)

/-- The keys of the available endpoints, by URI and slot. -/
def weightedList {ε : Type u} (configured : Configured ε) (available : ExtTreeSet String) :
    List String :=
  (configured.toList.filter fun entry => entry.1 ∈ available).flatMap fun entry =>
    (List.range entry.2.2.weight).map (weightedKey entry.1)

def weightedKeys {ε : Type u} (configured : Configured ε) (available : ExtTreeSet String) :
    ExtTreeSet String :=
  ExtTreeSet.ofList (weightedList configured available)

/-! ## Status -/

inductive DiscoveryReadiness where
  | empty
  | ready
  | degraded
  deriving DecidableEq, Repr

structure DiscoveryStatusSnapshot where
  readiness : DiscoveryReadiness
  discovered : Nat
  selected : Nat
  available : Nat
  rejected : Nat
  deriving DecidableEq, Repr

def discoveryStatus (discovered selected available rejected : Nat) : DiscoveryStatusSnapshot :=
  let readiness :=
    if discovered = 0 then .empty
    else if 0 < selected ∧ available = selected ∧ rejected = 0 then .ready
    else .degraded
  ⟨readiness, discovered, selected, available, rejected⟩

/-! ## What a watcher knows -/

/-- The local variables of a watcher task. -/
structure Known (ε : Type u) where
  configured : Configured ε
  discovered : Nat
  rejected : Nat
  available : ExtTreeSet String

def Known.status {ε : Type u} (known : Known ε) : DiscoveryStatusSnapshot :=
  discoveryStatus known.discovered known.configured.size known.available.size known.rejected

/-- The status sent when the subscription ends. -/
def Known.closedStatus {ε : Type u} (known : Known ε) : DiscoveryStatusSnapshot :=
  { discoveryStatus known.discovered known.configured.size 0 known.rejected with
    readiness := .degraded }

variable {ε : Type u} (client : RpcClient ε)

/-- Before the loop every configured endpoint counts as available. -/
def Known.start (endpoints : List DiscoveredEndpoint) : Known ε :=
  let next := client.configureDiscovered endpoints
  ⟨next.1, next.2.1, next.2.2, ExtTreeSet.ofList next.1.keys⟩

/-- A snapshot arrives: `retain` what is still configured, then `extend` by everything
that is. -/
def Known.snapshot (known : Known ε) (endpoints : List DiscoveredEndpoint) : Known ε :=
  let next := client.configureDiscovered endpoints
  let retained := known.available.filter fun uri => next.1.contains uri
  ⟨next.1, next.2.1, next.2.2, retained.insertMany next.1.keys⟩

/-- The probe results of a health tick; `healthy` answers for the connection attempts. -/
def probes (configured : Configured ε) (healthy : String → Bool) : List (String × Bool) :=
  configured.keys.map fun uri => (uri, healthy uri)

def probeDiscovered (configured : Configured ε) (healthy : String → Bool) : ExtTreeSet String :=
  ExtTreeSet.ofList ((probes configured healthy).filterMap fun result =>
    if result.2 then some result.1 else none)

/-- A health tick replaces the available endpoints. -/
def Known.probe (known : Known ε) (healthy : String → Bool) : Known ε :=
  { known with available := probeDiscovered known.configured healthy }

/-- What a loop iteration worked on, for the history of a watcher. -/
inductive Event where
  | snapshot (endpoints : List DiscoveredEndpoint)
  | probed (results : List (String × Bool))
  deriving DecidableEq

/-- The keys that should be installed. -/
def Known.desired (known : Known ε) : ExtTreeSet String :=
  weightedKeys known.configured known.available

/-! ## Key sets -/

section Keys

variable {ν : Type u}

/-- The keys of an ordered map. -/
def keySet (map : ExtTreeMap String ν) : Finset String := map.keys.toFinset

@[simp] theorem mem_keySet {map : ExtTreeMap String ν} {key : String} :
    key ∈ keySet map ↔ key ∈ map := by
  rw [keySet, List.mem_toFinset, ExtTreeMap.mem_keys]

theorem card_keySet (map : ExtTreeMap String ν) : (keySet map).card = map.size := by
  rw [keySet, List.toFinset_card_of_nodup ExtTreeMap.nodup_keys, ExtTreeMap.length_keys]

theorem keySet_insert (map : ExtTreeMap String ν) (key : String) (value : ν) :
    keySet (map.insert key value) = insert key (keySet map) := by
  ext other
  rw [mem_keySet, ExtTreeMap.mem_insert, compare_eq_iff_eq, Finset.mem_insert, mem_keySet,
    eq_comm]

theorem keySet_erase (map : ExtTreeMap String ν) (key : String) :
    keySet (map.erase key) = (keySet map).erase key := by
  ext other
  rw [mem_keySet, ExtTreeMap.mem_erase, ne_eq, compare_eq_iff_eq, Finset.mem_erase, mem_keySet,
    ne_eq, eq_comm]

end Keys

/-! ## Keys name their endpoint -/

/-- A key splits at its last NUL into the endpoint's URI and the slot. -/
theorem rsplitOnce_weightedKey (uri : String) (slot : Nat) :
    rsplitOnce (weightedKey uri slot) '\x00' = some (uri, toString slot) := by
  have reversed : (weightedKey uri slot).toList.reverse =
      (toString slot).toList.reverse ++ '\x00' :: uri.toList.reverse := by
    simp [weightedKey]
  have digits : ∀ c ∈ (toString slot).toList.reverse, decide (c ≠ '\x00') = true := by
    intro c member
    rw [List.mem_reverse] at member
    have nul : '\x00' ∉ (toString slot).toList := not_mem_toString (by decide) slot
    have different : c ≠ '\x00' := fun same => nul (same ▸ member)
    simpa using different
  simp only [rsplitOnce, reversed]
  rw [List.dropWhile_append_of_pos digits, List.takeWhile_append_of_pos digits]
  simp [Nat.repr_eq_ofList_toDigits]

theorem weightedKey_inj {uri other : String} {slot otherSlot : Nat}
    (same : weightedKey uri slot = weightedKey other otherSlot) :
    uri = other ∧ slot = otherSlot := by
  have split := rsplitOnce_weightedKey uri slot
  rw [same, rsplitOnce_weightedKey, Option.some.injEq, Prod.mk.injEq] at split
  refine ⟨split.1.symm, ?_⟩
  have digits := split.2
  rw [Nat.toString_eq_repr, Nat.toString_eq_repr] at digits
  exact (Nat.repr_injective digits).symm

/-- The URI a key was made for. -/
def ownerOf (key : String) : Option String :=
  (rsplitOnce key '\x00').map Prod.fst

@[simp] theorem ownerOf_weightedKey (uri : String) (slot : Nat) :
    ownerOf (weightedKey uri slot) = some uri := by
  rw [ownerOf, rsplitOnce_weightedKey]
  rfl

theorem mem_weightedList {configured : Configured ε} {available : ExtTreeSet String}
    {key : String} :
    key ∈ weightedList configured available ↔
      ∃ uri endpoint discovered slot, configured[uri]? = some (endpoint, discovered) ∧
        uri ∈ available ∧ slot < discovered.weight ∧ key = weightedKey uri slot := by
  rw [weightedList, List.mem_flatMap]
  constructor
  · intro ⟨entry, kept, made⟩
    obtain ⟨uri, endpoint, discovered⟩ := entry
    obtain ⟨listed, isAvailable⟩ := List.mem_filter.mp kept
    obtain ⟨slot, below, same⟩ := List.mem_map.mp made
    exact ⟨uri, endpoint, discovered, slot,
      ExtTreeMap.mem_toList_iff_getElem?_eq_some.mp listed, by simpa using isAvailable,
      List.mem_range.mp below, same.symm⟩
  · intro ⟨uri, endpoint, discovered, slot, found, isAvailable, below, same⟩
    refine ⟨(uri, endpoint, discovered), List.mem_filter.mpr
      ⟨ExtTreeMap.mem_toList_iff_getElem?_eq_some.mpr found, by simpa using isAvailable⟩, ?_⟩
    exact List.mem_map.mpr ⟨slot, List.mem_range.mpr below, same.symm⟩

theorem mem_weightedKeys {configured : Configured ε} {available : ExtTreeSet String}
    {key : String} :
    key ∈ weightedKeys configured available ↔
      ∃ uri endpoint discovered slot, configured[uri]? = some (endpoint, discovered) ∧
        uri ∈ available ∧ slot < discovered.weight ∧ key = weightedKey uri slot := by
  rw [weightedKeys, ExtTreeSet.mem_ofList, List.contains_iff_mem, mem_weightedList]

/-- Keys made along distinct URIs are distinct. -/
theorem nodup_keys_of_ascends {ν : Type u} {entries : List (String × ν)} (weight : ν → Nat)
    (ascends : entries.Pairwise fun left right => left.1 < right.1) :
    (entries.flatMap fun entry =>
      (List.range (weight entry.2)).map (weightedKey entry.1)).Nodup := by
  rw [List.nodup_flatMap]
  constructor
  · intro entry _
    refine List.nodup_range.map ?_
    intro slot other same
    exact (weightedKey_inj same).2
  · refine ascends.imp ?_
    intro left right below key inLeft inRight
    obtain ⟨slot, _, made⟩ := List.mem_map.mp inLeft
    obtain ⟨other, _, madeToo⟩ := List.mem_map.mp inRight
    have same := (weightedKey_inj (made.trans madeToo.symm)).1
    rw [same] at below
    exact lt_irrefl _ below

theorem nodup_weightedList (configured : Configured ε) (available : ExtTreeSet String) :
    (weightedList configured available).Nodup := by
  have ascends := (toList_ascends configured).sublist
    (List.filter_sublist (p := fun entry => decide (entry.1 ∈ available)))
  exact nodup_keys_of_ascends (fun value : ε × DiscoveredEndpoint => value.2.weight) ascends

/-! ## Which endpoints are available -/

theorem mem_available_start (endpoints : List DiscoveredEndpoint) (uri : String) :
    uri ∈ (Known.start client endpoints).available ↔
      uri ∈ (client.configureDiscovered endpoints).1 := by
  rw [Known.start, ExtTreeSet.mem_ofList, List.contains_iff_mem, ExtTreeMap.mem_keys]

/-- A snapshot makes all it configures available. -/
theorem mem_available_snapshot (known : Known ε) (endpoints : List DiscoveredEndpoint)
    (uri : String) :
    uri ∈ (known.snapshot client endpoints).available ↔
      uri ∈ (client.configureDiscovered endpoints).1 := by
  rw [Known.snapshot, ExtTreeSet.mem_insertMany_list, List.contains_iff_mem, ExtTreeMap.mem_keys]
  constructor
  · intro either
    rcases either with retained | extended
    · obtain ⟨_, kept⟩ := ExtTreeSet.mem_filter.mp retained
      simpa using kept
    · exact extended
  · exact Or.inr

omit client in
theorem mem_probes {configured : Configured ε} {healthy : String → Bool} {uri : String}
    {result : Bool} :
    (uri, result) ∈ probes configured healthy ↔ uri ∈ configured ∧ healthy uri = result := by
  rw [probes, List.mem_map]
  constructor
  · intro ⟨other, listed, same⟩
    cases same
    exact ⟨ExtTreeMap.mem_keys.mp listed, rfl⟩
  · intro ⟨member, same⟩
    exact ⟨uri, ExtTreeMap.mem_keys.mpr member, by rw [same]⟩

theorem mem_available_probe (known : Known ε) (healthy : String → Bool) (uri : String) :
    uri ∈ (known.probe healthy).available ↔ uri ∈ known.configured ∧ healthy uri = true := by
  rw [Known.probe, probeDiscovered, ExtTreeSet.mem_ofList, List.contains_iff_mem,
    List.mem_filterMap]
  constructor
  · intro ⟨result, listed, passed⟩
    obtain ⟨other, good⟩ := result
    cases good with
    | false => cases passed
    | true =>
        cases passed
        exact mem_probes.mp listed
  · intro passed
    exact ⟨(uri, true), mem_probes.mpr passed, rfl⟩

/-! ## The subset is the best ranked part -/

/-- What the ranking compares: scores, and URIs where they tie. -/
def subsetRank (seed : UInt64) (uri : String) : UInt64 ×ₗ String :=
  toLex (discoverySubsetScore uri seed, uri)

theorem subsetRank_injective (seed : UInt64) : Function.Injective (subsetRank seed) := by
  intro left right same
  exact congrArg (fun rank => (ofLex rank).2) same

section Subset

variable {ν : Type u}

/-- The URIs a client with this limit and seed keeps of `uris`. -/
def subsetOf (limit : Nat) (seed : UInt64) (uris : Finset String) : Finset String :=
  topRanked (subsetRank seed) limit uris

theorem mem_selectedUris {uris : List String} (distinct : uris.Nodup) {limit : Nat}
    {seed : UInt64} {uri : String} :
    uri ∈ selectedUris uris limit seed ↔ uri ∈ subsetOf limit seed uris.toFinset := by
  have sorted := sorted_mergeSort (subsetRank_injective seed) distinct
  have ranked : ((uris.map fun uri => (discoverySubsetScore uri seed, uri)).mergeSort
      fun left right => decide (toLex right ≤ toLex left)) =
      (uris.mergeSort fun left right =>
        decide (subsetRank seed right ≤ subsetRank seed left)).map
          fun uri => (discoverySubsetScore uri seed, uri) := by
    symm
    apply List.map_mergeSort
    intro left _ right _
    rfl
  have same : (uris.mergeSort fun left right =>
      decide (subsetRank seed right ≤ subsetRank seed left)).toFinset = uris.toFinset := by
    ext other
    rw [List.mem_toFinset, List.mem_mergeSort, List.mem_toFinset]
  rw [selectedUris, ranked, ← List.map_take, List.map_map, subsetOf, ← same,
    ← toFinset_take_ranked _ sorted, List.mem_toFinset]
  have uriBack : (Prod.snd ∘ fun uri => (discoverySubsetScore uri seed, uri)) = id := rfl
  rw [uriBack, List.map_id]

theorem getElem?_rankedSubset (configured : ExtTreeMap String ν) (limit : Nat) (seed : UInt64)
    (uri : String) :
    (rankedSubset configured limit seed)[uri]? =
      if uri ∈ subsetOf limit seed (keySet configured) then configured[uri]? else none := by
  rw [rankedSubset, ExtTreeMap.getElem?_filter']
  simp only [mem_selectedUris ExtTreeMap.nodup_keys, ← keySet.eq_def]
  by_cases kept : uri ∈ subsetOf limit seed (keySet configured)
  · cases configured[uri]? with
    | none => simp
    | some value => simp [kept]
  · cases configured[uri]? with
    | none => simp
    | some value => simp [kept]

/-- The early return for small maps agrees with the ranking. -/
theorem selectDiscoverySubset_eq_ranked (configured : ExtTreeMap String ν) (limit : Nat)
    (seed : UInt64) :
    selectDiscoverySubset configured limit seed = rankedSubset configured limit seed := by
  rw [selectDiscoverySubset]
  split
  · rename_i small
    apply ExtTreeMap.ext_getElem?
    intro uri
    rw [getElem?_rankedSubset, subsetOf, topRanked_of_card_le (by rwa [card_keySet])]
    by_cases member : uri ∈ configured
    · simp [member]
    · simp [member, getElem?_neg]
  · rfl

theorem getElem?_select (configured : ExtTreeMap String ν) (limit : Nat) (seed : UInt64)
    (uri : String) :
    (selectDiscoverySubset configured limit seed)[uri]? =
      if uri ∈ subsetOf limit seed (keySet configured) then configured[uri]? else none := by
  rw [selectDiscoverySubset_eq_ranked, getElem?_rankedSubset]

theorem keySet_select (configured : ExtTreeMap String ν) (limit : Nat) (seed : UInt64) :
    keySet (selectDiscoverySubset configured limit seed) =
      subsetOf limit seed (keySet configured) := by
  ext uri
  rw [mem_keySet, ExtTreeMap.mem_iff_isSome_getElem?, getElem?_select]
  by_cases kept : uri ∈ subsetOf limit seed (keySet configured)
  · have member : uri ∈ configured := mem_keySet.mp (topRanked_subset kept)
    simp [kept, ExtTreeMap.mem_iff_isSome_getElem?.mp member]
  · simp [kept]

/-- What subsetting promises of the maps it is applied to. -/
structure SubsetLaws (limit : Nat) (seed : UInt64) (configured : ExtTreeMap String ν) : Prop where
  submap : ∀ (uri : String) (value : ν),
    (selectDiscoverySubset configured limit seed)[uri]? = some value →
      configured[uri]? = some value
  size : (selectDiscoverySubset configured limit seed).size = min limit configured.size
  urisOnly : ∀ other : ExtTreeMap String ν, keySet other = keySet configured →
    keySet (selectDiscoverySubset other limit seed) =
      keySet (selectDiscoverySubset configured limit seed)
  ranking : selectDiscoverySubset configured limit seed = rankedSubset configured limit seed
  added : ∀ (uri : String) (value : ν), uri ∉ configured →
    selectDiscoverySubset (configured.insert uri value) limit seed =
        selectDiscoverySubset configured limit seed ∨
      (uri ∈ selectDiscoverySubset (configured.insert uri value) limit seed ∧
        keySet (selectDiscoverySubset (configured.insert uri value) limit seed) ⊆
          insert uri (keySet (selectDiscoverySubset configured limit seed)) ∧
        (keySet (selectDiscoverySubset configured limit seed) \
          keySet (selectDiscoverySubset (configured.insert uri value) limit seed)).card ≤ 1)
  removedOutside : ∀ uri : String, uri ∉ selectDiscoverySubset configured limit seed →
    selectDiscoverySubset (configured.erase uri) limit seed =
      selectDiscoverySubset configured limit seed
  removedMember : ∀ uri : String, uri ∈ selectDiscoverySubset configured limit seed →
    (keySet (selectDiscoverySubset configured limit seed)).erase uri ⊆
        keySet (selectDiscoverySubset (configured.erase uri) limit seed) ∧
      (keySet (selectDiscoverySubset (configured.erase uri) limit seed) \
        keySet (selectDiscoverySubset configured limit seed)).card ≤ 1
  nested : keySet (selectDiscoverySubset configured limit seed) ⊆
    keySet (selectDiscoverySubset configured (limit + 1) seed)

/-- Two maps that agree on the URIs kept have the same subset. -/
theorem select_congr {left right : ExtTreeMap String ν} {limit : Nat} {seed : UInt64}
    (same : subsetOf limit seed (keySet left) = subsetOf limit seed (keySet right))
    (agree : ∀ uri ∈ subsetOf limit seed (keySet right), left[uri]? = right[uri]?) :
    selectDiscoverySubset left limit seed = selectDiscoverySubset right limit seed := by
  apply ExtTreeMap.ext_getElem?
  intro uri
  rw [getElem?_select, getElem?_select, same]
  by_cases kept : uri ∈ subsetOf limit seed (keySet right)
  · rw [if_pos kept, if_pos kept, agree uri kept]
  · rw [if_neg kept, if_neg kept]

theorem select_insert_unchanged {configured : ExtTreeMap String ν} {limit : Nat} {seed : UInt64}
    {uri : String} (value : ν) (fresh : uri ∉ configured)
    (same : subsetOf limit seed (insert uri (keySet configured)) =
      subsetOf limit seed (keySet configured)) :
    selectDiscoverySubset (configured.insert uri value) limit seed =
      selectDiscoverySubset configured limit seed := by
  apply select_congr
  · rw [keySet_insert, same]
  · intro other kept
    have member : other ∈ configured := mem_keySet.mp (topRanked_subset kept)
    have different : uri ≠ other := fun equal => fresh (equal ▸ member)
    rw [ExtTreeMap.getElem?_insert, if_neg (by rwa [compare_eq_iff_eq])]

theorem select_erase_outside {configured : ExtTreeMap String ν} {limit : Nat} {seed : UInt64}
    {uri : String} (outside : uri ∉ selectDiscoverySubset configured limit seed) :
    selectDiscoverySubset (configured.erase uri) limit seed =
      selectDiscoverySubset configured limit seed := by
  rw [← mem_keySet, keySet_select] at outside
  apply select_congr
  · rw [keySet_erase, subsetOf, topRanked_erase_of_not_chosen (subsetRank_injective seed) outside]
    rfl
  · intro other kept
    have different : uri ≠ other := fun equal => outside (equal ▸ kept)
    rw [ExtTreeMap.getElem?_erase, if_neg (by rwa [compare_eq_iff_eq])]

theorem discovery_subset_laws (limit : Nat) (seed : UInt64) (configured : ExtTreeMap String ν) :
    SubsetLaws limit seed configured where
  submap uri value found := by
    rw [getElem?_select] at found
    split at found
    · exact found
    · cases found
  size := by
    rw [← card_keySet, keySet_select, subsetOf, card_topRanked (subsetRank_injective seed),
      card_keySet]
  urisOnly other same := by
    rw [keySet_select, keySet_select, same]
  ranking := selectDiscoverySubset_eq_ranked configured limit seed
  added uri value fresh := by
    have freshKey : uri ∉ keySet configured := fun member => fresh (mem_keySet.mp member)
    rcases topRanked_insert (subsetRank_injective seed) freshKey with same | enters
    · exact Or.inl (select_insert_unchanged value fresh same)
    · right
      rw [← mem_keySet, keySet_select, keySet_select, keySet_insert]
      exact enters
  removedOutside uri := select_erase_outside
  removedMember uri chosen := by
    rw [keySet_select, keySet_select, keySet_erase]
    exact ⟨erase_topRanked_subset, card_topRanked_erase_sdiff (subsetRank_injective seed)⟩
  nested := by
    rw [keySet_select, keySet_select]
    exact topRanked_mono (Nat.le_succ limit)

end Subset

/-- What is configured was discovered. -/
theorem mem_uris_of_configured {endpoints : List DiscoveredEndpoint} {uri : String}
    (member : uri ∈ (client.configureDiscovered endpoints).1) :
    uri ∈ endpoints.map DiscoveredEndpoint.uri := by
  have collected : uri ∈ (ExtTreeMap.ofList (endpoints.filterMap fun discovered =>
      (client.endpoint discovered.uri).map fun endpoint =>
        (discovered.uri, endpoint, discovered)) : Configured ε) := by
    rw [RpcClient.configureDiscovered] at member
    split at member
    · rw [← mem_keySet, keySet_select] at member
      exact mem_keySet.mp (topRanked_subset member)
    · exact member
  rw [ExtTreeMap.mem_ofList, List.contains_iff_mem, List.mem_map] at collected
  obtain ⟨entry, listed, same⟩ := collected
  obtain ⟨discovered, inside, made⟩ := List.mem_filterMap.mp listed
  obtain ⟨endpoint, _, built⟩ := Option.map_eq_some_iff.mp made
  rw [← built] at same
  exact List.mem_map.mpr ⟨discovered, inside, same⟩

end RustZero.Rpc
