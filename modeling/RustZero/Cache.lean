import Mathlib

/-!
# The in-memory cache

`core/src/cache.rs`.  `MemoryCache` is a bounded LRU map with per-entry expiry
behind one mutex, so each of its methods is one step.  Durations and instants are
nanoseconds; instants are unbounded here, so `Instant::now() + ttl` does not
overflow.

* `jitteredTtl` spreads expiries.
* `MemoryCache.insert`, `get`, `remove`, `removeWhere`, `clear` and `len` are the
  methods, with the clock passed in.
* `MemoryCache.value` is what a cache holds for a key, expired or not.  The
  lemmas about it say where a held value comes from, which is all that the users
  of the cache need: whatever they evict or expire, no method makes a value up.
-/

namespace RustZero.Cache

/-- The largest `Duration`, in nanoseconds. -/
def maxDuration : Nat := 2 ^ 64 * 1000000000 - 1

/-- The 64-bit value `jittered_ttl` derives from its sequence number. -/
def splitMix64 (sequence : UInt64) : UInt64 :=
  let value := sequence + 0x9e3779b97f4a7c15
  let value := (value ^^^ (value >>> 30)) * 0xbf58476d1ce4e5b9
  let value := (value ^^^ (value >>> 27)) * 0x94d049bb133111eb
  value ^^^ (value >>> 31)

def jitteredTtl (base jitter : Nat) (sequence : UInt64) : Nat :=
  if jitter = 0 then base
  else min (base + (splitMix64 sequence).toNat % (jitter + 1)) maxDuration

structure Entry (V : Type) where
  value : V
  expiresAt : Nat

/-- `CacheCounters`, and the `CacheStats` read from them. -/
structure CacheStats where
  hits : UInt64 := 0
  misses : UInt64 := 0
  insertions : UInt64 := 0
  evictions : UInt64 := 0

structure MemoryCache (K V : Type) where
  capacity : Nat
  entries : AList fun _ : K => Entry V
  leastToMostRecent : List K
  counters : CacheStats
  capacity_pos : 0 < capacity

namespace MemoryCache

variable {K V : Type}

def new (capacity : Nat) (positive : 0 < capacity) : MemoryCache K V :=
  ⟨capacity, ∅, [], {}, positive⟩

variable [DecidableEq K]

/-- What the cache holds for a key, expired or not. -/
def value (cache : MemoryCache K V) (key : K) : Option V :=
  (cache.entries.lookup key).map Entry.value

/-- `remove_from_recency`. -/
def removeFromRecency (recency : List K) (key : K) : List K :=
  recency.erase key

/-- The loop of `insert`: drop the least recent keys until the cache fits. -/
def evict (capacity : Nat) (entries : AList fun _ : K => Entry V) (evictions : UInt64) :
    List K → (AList fun _ : K => Entry V) × List K × UInt64
  | [] => (entries, [], evictions)
  | oldest :: rest =>
      if capacity < entries.entries.length then
        evict capacity (entries.erase oldest)
          (if (entries.lookup oldest).isSome then evictions + 1 else evictions) rest
      else (entries, oldest :: rest, evictions)

/-- `insert`; `none` is the panic of its assertion. -/
def insert (cache : MemoryCache K V) (now : Nat) (key : K) (value : V) (ttl : Nat) :
    Option (MemoryCache K V) :=
  if ttl = 0 then none
  else
    let recency := removeFromRecency cache.leastToMostRecent key ++ [key]
    let entries := cache.entries.insert key ⟨value, now + ttl⟩
    let (entries, recency, evictions) :=
      evict cache.capacity entries cache.counters.evictions recency
    some { cache with
      entries := entries
      leastToMostRecent := recency
      counters := { cache.counters with
        insertions := cache.counters.insertions + 1
        evictions := evictions } }

def get (cache : MemoryCache K V) (now : Nat) (key : K) : MemoryCache K V × Option V :=
  match cache.entries.lookup key with
  | some entry =>
      if entry.expiresAt ≤ now then
        ({ cache with
          entries := cache.entries.erase key
          leastToMostRecent := removeFromRecency cache.leastToMostRecent key
          counters := { cache.counters with
            evictions := cache.counters.evictions + 1
            misses := cache.counters.misses + 1 } }, none)
      else
        ({ cache with
          leastToMostRecent := removeFromRecency cache.leastToMostRecent key ++ [key]
          counters := { cache.counters with hits := cache.counters.hits + 1 } },
          some entry.value)
  | none =>
      ({ cache with counters := { cache.counters with misses := cache.counters.misses + 1 } },
        none)

def remove (cache : MemoryCache K V) (key : K) : MemoryCache K V × Option V :=
  ({ cache with
    leastToMostRecent := removeFromRecency cache.leastToMostRecent key
    entries := cache.entries.erase key }, cache.value key)

def removeWhere (cache : MemoryCache K V) (predicate : K → V → Bool) : MemoryCache K V × Nat :=
  let keys := (cache.entries.entries.filter fun entry => predicate entry.1 entry.2.value).map
    Sigma.fst
  (keys.foldl (fun cache key => (cache.remove key).1) cache, keys.length)

def clear (cache : MemoryCache K V) : MemoryCache K V :=
  { cache with entries := ∅, leastToMostRecent := [] }

def len (cache : MemoryCache K V) (now : Nat) : MemoryCache K V × Nat :=
  let expired := (cache.entries.entries.filter fun entry => entry.2.expiresAt ≤ now).map Sigma.fst
  let kept := expired.foldl (fun cache key => (cache.remove key).1) cache
  ({ kept with
    counters := { kept.counters with
      evictions := kept.counters.evictions + expired.length.toUInt64 } },
    kept.entries.entries.length)

/-! ## Where held values come from -/

variable {cache : MemoryCache K V} {now : Nat} {key key' : K} {held held' : V}

theorem value_erase (entries : AList fun _ : K => Entry V)
    (found : ((entries.erase key).lookup key').map Entry.value = some held) :
    key' ≠ key ∧ (entries.lookup key').map Entry.value = some held := by
  have ne : key' ≠ key := by
    rintro rfl
    rw [AList.lookup_erase] at found
    cases found
  rw [AList.lookup_erase_ne ne] at found
  exact ⟨ne, found⟩

theorem value_evict (capacity : Nat) (entries : AList fun _ : K => Entry V)
    (evictions : UInt64) (recency : List K)
    (found : (((evict capacity entries evictions recency).1).lookup key').map Entry.value =
      some held) : (entries.lookup key').map Entry.value = some held := by
  induction recency generalizing entries evictions with
  | nil => exact found
  | cons oldest rest ih =>
      unfold evict at found
      split at found
      · exact (value_erase entries (ih _ _ found)).2
      · exact found

theorem value_insert {cache' : MemoryCache K V} {ttl : Nat}
    (inserted : cache.insert now key held ttl = some cache')
    (found : cache'.value key' = some held') :
    key' = key ∧ held' = held ∨ key' ≠ key ∧ cache.value key' = some held' := by
  unfold insert at inserted
  split at inserted
  · cases inserted
  · cases inserted
    have found := value_evict _ _ _ _ found
    by_cases same : key' = key
    · subst same
      rw [AList.lookup_insert] at found
      exact .inl ⟨rfl, (Option.some.inj found).symm⟩
    · rw [AList.lookup_insert_ne same] at found
      exact .inr ⟨same, found⟩

theorem value_get (found : (cache.get now key).1.value key' = some held) :
    cache.value key' = some held := by
  unfold get at found
  split at found
  · split at found
    · exact (value_erase cache.entries found).2
    · exact found
  · exact found

/-- A hit returns what the cache holds. -/
theorem value_of_hit (hit : (cache.get now key).2 = some held) : cache.value key = some held := by
  unfold get at hit
  unfold value
  split at hit
  · rename_i entry found
    split at hit
    · cases hit
    · rw [found]
      exact hit
  · cases hit

theorem value_remove (found : (cache.remove key).1.value key' = some held) :
    key' ≠ key ∧ cache.value key' = some held :=
  value_erase cache.entries found

theorem value_foldl_remove (keys : List K)
    (found : (keys.foldl (fun cache key => (cache.remove key).1) cache).value key' =
      some held) : key' ∉ keys ∧ cache.value key' = some held := by
  induction keys generalizing cache with
  | nil => exact ⟨List.not_mem_nil, found⟩
  | cons first rest ih =>
      obtain ⟨absent, found⟩ := ih found
      obtain ⟨ne, found⟩ := value_remove found
      exact ⟨by simp [ne, absent], found⟩

theorem value_removeWhere (predicate : K → V → Bool)
    (found : (cache.removeWhere predicate).1.value key = some held) :
    predicate key held = false ∧ cache.value key = some held := by
  unfold removeWhere at found
  obtain ⟨absent, found⟩ := value_foldl_remove _ found
  refine ⟨?_, found⟩
  cases accepted : predicate key held with
  | false => rfl
  | true =>
      obtain ⟨entry, lookup, eq⟩ := Option.map_eq_some_iff.mp found
      have member := AList.mem_lookup_iff.mp (Option.mem_def.mpr lookup)
      subst eq
      apply absurd _ absent
      rw [List.mem_map]
      exact ⟨⟨key, entry⟩, List.mem_filter.mpr ⟨member, accepted⟩, rfl⟩

end MemoryCache

end RustZero.Cache
