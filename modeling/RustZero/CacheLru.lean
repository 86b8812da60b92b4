import RustZero.Cache
import RustZero.Lib.Lts
import RustZero.Lib.Lru

/-!
# The in-memory cache is a bounded LRU map

`MemoryCache` keeps a hash map and a recency list that must name the same keys.
Its calls are answered as `Lib.Lru`, an association list from the least to the
most recently used key, answers them.

`Agrees` ties a map and a recency list to such a list, and `Represents` adds the
bound; one lemma per method shows that the method keeps it and returns what the
list returns.
-/

namespace RustZero.Cache.MemoryCache

open RustZero.Lib (Lts)
open RustZero.Lib.Lru (Item Call Outcome keys without newest find answer mem_keys
  mem_without keys_without find_eq_some_iff find_eq_none_iff)

variable {K V : Type} [DecidableEq K]

/-! ## The map and the recency list agree -/

def toEntry (item : Item K V) : Sigma fun _ : K => Entry V :=
  ⟨item.key, item.value, item.expiresAt⟩

/-- The map holds exactly the items, and the recency list orders their keys. -/
structure Agrees (entries : AList fun _ : K => Entry V) (recency : List K)
    (items : List (Item K V)) : Prop where
  entries : entries.entries.Perm (items.map toEntry)
  recency : recency = keys items

section Agrees

variable {entries : AList fun _ : K => Entry V} {recency : List K} {items : List (Item K V)}
  {key : K}

omit [DecidableEq K] in
theorem keys_map_toEntry (items : List (Item K V)) : (items.map toEntry).keys = keys items := by
  rw [List.keys, List.map_map]
  rfl

omit [DecidableEq K] in
theorem Agrees.perm (agrees : Agrees entries recency items) : recency.Perm entries.keys := by
  rw [agrees.recency, ← keys_map_toEntry]
  exact (agrees.entries.map Sigma.fst).symm

omit [DecidableEq K] in
theorem Agrees.distinct (agrees : Agrees entries recency items) : (keys items).Nodup := by
  rw [← agrees.recency]
  exact agrees.perm.nodup_iff.mpr entries.keys_nodup

omit [DecidableEq K] in
theorem Agrees.length (agrees : Agrees entries recency items) :
    entries.entries.length = items.length := by
  rw [agrees.entries.length_eq, List.length_map]

omit [DecidableEq K] in
theorem Agrees.mem_iff (agrees : Agrees entries recency items) :
    key ∈ entries ↔ key ∈ keys items := by
  rw [AList.mem_keys, ← agrees.recency]
  exact agrees.perm.symm.mem_iff

omit [DecidableEq K] in
theorem toEntry_mem_map {value : V} {expiresAt : Nat} :
    (⟨key, value, expiresAt⟩ : Sigma fun _ : K => Entry V) ∈ items.map toEntry ↔
      ⟨key, value, expiresAt⟩ ∈ items := by
  rw [List.mem_map]
  refine ⟨?_, ?_⟩
  · intro mapped
    obtain ⟨item, member, same⟩ := mapped
    obtain ⟨itemKey, itemValue, itemExpiry⟩ := item
    cases same
    exact member
  · intro member
    exact ⟨_, member, rfl⟩

theorem Agrees.lookup_iff (agrees : Agrees entries recency items) {value : V} {expiresAt : Nat} :
    entries.lookup key = some ⟨value, expiresAt⟩ ↔ ⟨key, value, expiresAt⟩ ∈ items := by
  rw [← Option.mem_def, AList.mem_lookup_iff, agrees.entries.mem_iff]
  exact toEntry_mem_map

/-- A lookup is the list's search. -/
theorem Agrees.lookup_eq_find (agrees : Agrees entries recency items) (key : K) :
    entries.lookup key = (find items key).map fun item => ⟨item.value, item.expiresAt⟩ := by
  cases found : find items key with
  | none =>
      rw [Option.map_none, AList.lookup_eq_none, agrees.mem_iff]
      exact find_eq_none_iff.mp found
  | some item =>
      obtain ⟨member, keyed⟩ := (find_eq_some_iff agrees.distinct).mp found
      subst keyed
      exact agrees.lookup_iff.mpr member

/-- The same items of a key, the same lookup. -/
theorem Agrees.lookup_congr {entries' : AList fun _ : K => Entry V} {recency' : List K}
    {items' : List (Item K V)} (agrees : Agrees entries recency items)
    (agrees' : Agrees entries' recency' items')
    (same : ∀ value expiresAt,
      (⟨key, value, expiresAt⟩ : Item K V) ∈ items ↔ ⟨key, value, expiresAt⟩ ∈ items') :
    entries.lookup key = entries'.lookup key := by
  apply Option.ext
  intro entry
  obtain ⟨value, expiresAt⟩ := entry
  exact agrees.lookup_iff.trans ((same value expiresAt).trans agrees'.lookup_iff.symm)

theorem kerase_map_toEntry (distinct : (keys items).Nodup) :
    (items.map toEntry).kerase key = (without items key).map toEntry := by
  induction items with
  | nil => rfl
  | cons first rest ih =>
      obtain ⟨fresh, distinct⟩ := List.nodup_cons.mp distinct
      rw [List.map_cons]
      by_cases same : first.key = key
      · subst same
        have headed : first.key = (toEntry first).1 := rfl
        rw [List.kerase_cons_eq headed, Lib.Lru.without_cons_self, Lib.Lru.without_eq_self fresh]
      · rw [List.kerase_cons_ne (Ne.symm same), ih distinct, Lib.Lru.without_cons_ne same,
          List.map_cons]

theorem Agrees.kerase (agrees : Agrees entries recency items) :
    (entries.entries.kerase key).Perm ((without items key).map toEntry) := by
  rw [← kerase_map_toEntry agrees.distinct]
  exact agrees.entries.kerase entries.nodupKeys

theorem Agrees.erase (agrees : Agrees entries recency items) (key : K) :
    Agrees (entries.erase key) (removeFromRecency recency key) (without items key) := by
  refine ⟨agrees.kerase, ?_⟩
  rw [removeFromRecency, agrees.recency, keys_without agrees.distinct]

theorem Agrees.push (agrees : Agrees entries recency items) (key : K) (value : V)
    (expiresAt : Nat) :
    Agrees (entries.insert key ⟨value, expiresAt⟩) (removeFromRecency recency key ++ [key])
      (without items key ++ [⟨key, value, expiresAt⟩]) := by
  refine ⟨?_, ?_⟩
  · rw [AList.entries_insert, List.map_append]
    exact (agrees.kerase.cons _).trans (List.perm_append_singleton _ _).symm
  · rw [(agrees.erase key).recency, Lib.Lru.keys_append]
    rfl

theorem Agrees.touch (agrees : Agrees entries recency items) {item : Item K V}
    (member : item ∈ items) :
    Agrees entries (removeFromRecency recency item.key ++ [item.key])
      (without items item.key ++ [item]) := by
  refine ⟨?_, ?_⟩
  · have moved := (Lib.Lru.perm_cons_without agrees.distinct member).trans
      (List.perm_append_singleton item (without items item.key)).symm
    exact agrees.entries.trans (moved.map toEntry)
  · rw [(agrees.erase item.key).recency, Lib.Lru.keys_append]
    rfl

theorem Agrees.evict (capacity : Nat) (evictions : UInt64)
    (agrees : Agrees entries recency items) :
    Agrees (evict capacity entries evictions recency).1
      (evict capacity entries evictions recency).2.1 (newest capacity items) := by
  obtain ⟨perm, ordered⟩ := agrees
  subst ordered
  induction items generalizing entries evictions with
  | nil =>
      rw [Lib.Lru.newest_of_le (Nat.zero_le _)]
      exact ⟨perm, rfl⟩
  | cons first rest ih =>
      have agrees : Agrees entries (keys (first :: rest)) (first :: rest) := ⟨perm, rfl⟩
      have long : entries.entries.length = rest.length + 1 := agrees.length
      rw [show keys (first :: rest) = first.key :: keys rest from rfl, MemoryCache.evict]
      split
      · rename_i full
        have fresh := (List.nodup_cons.mp agrees.distinct).1
        have erased := (agrees.erase first.key).entries
        rw [Lib.Lru.without_cons_self, Lib.Lru.without_eq_self fresh] at erased
        have dropped : newest capacity (first :: rest) = newest capacity rest := by
          have count : (first :: rest).length - capacity = rest.length - capacity + 1 := by
            rw [List.length_cons]
            omega
          rw [newest, count, List.drop_succ_cons, newest]
        rw [dropped]
        exact ih _ erased
      · rename_i fits
        rw [Lib.Lru.newest_of_le (by rw [List.length_cons]; omega)]
        exact agrees

omit [DecidableEq K] in
/-- The entries a test accepts are the items it accepts. -/
theorem Agrees.length_filter (agrees : Agrees entries recency items)
    (test : (Sigma fun _ : K => Entry V) → Bool) :
    (entries.entries.filter test).length = items.countP fun item => test (toEntry item) := by
  rw [← List.countP_eq_length_filter, agrees.entries.countP_eq, List.countP_map]
  rfl

/-- Dropping the keys of the entries a test accepts drops the items it accepts. -/
theorem Agrees.filter_keys (agrees : Agrees entries recency items)
    (test : (Sigma fun _ : K => Entry V) → Bool) :
    (items.filter fun item => item.key ∉ (entries.entries.filter test).map Sigma.fst) =
      items.filter fun item => !test (toEntry item) := by
  apply List.filter_congr
  intro item member
  have accepted : item.key ∈ (entries.entries.filter test).map Sigma.fst ↔
      test (toEntry item) = true := by
    rw [List.mem_map]
    refine ⟨?_, ?_⟩
    · intro found
      obtain ⟨entry, inside, keyed⟩ := found
      obtain ⟨inside, passes⟩ := List.mem_filter.mp inside
      obtain ⟨other, held, same⟩ := List.mem_map.mp (agrees.entries.mem_iff.mp inside)
      subst same
      have equal : other = item :=
        List.inj_on_of_nodup_map agrees.distinct held member keyed
      rwa [← equal]
    · intro passes
      have inside := agrees.entries.mem_iff.mpr (List.mem_map_of_mem member)
      exact ⟨_, List.mem_filter.mpr ⟨inside, passes⟩, rfl⟩
  rw [← Bool.coe_iff_coe, decide_eq_true_iff, accepted]
  simp

end Agrees

/-! ## Every method answers as the list does -/

structure Represents (cache : MemoryCache K V) (items : List (Item K V)) : Prop where
  agrees : Agrees cache.entries cache.leastToMostRecent items
  fits : items.length ≤ cache.capacity

/-- One call of the cache's interface.  A refused insertion panics before it
takes the lock. -/
def call (cache : MemoryCache K V) (now : Nat) : Call K V → MemoryCache K V × Outcome V
  | .insert key value ttl =>
      match cache.insert now key value ttl with
      | some after => (after, .done)
      | none => (cache, .refused)
  | .get key => ((cache.get now key).1, .found (cache.get now key).2)
  | .remove key => ((cache.remove key).1, .found (cache.remove key).2)
  | .removeWhere predicate =>
      ((cache.removeWhere predicate).1, .count (cache.removeWhere predicate).2)
  | .clear => (cache.clear, .done)
  | .len => ((cache.len now).1, .count (cache.len now).2)

/-- What a call of the cache does when the list `items` stands for its content. -/
structure Answers (cache : MemoryCache K V) (items : List (Item K V)) (now : Nat)
    (request : Call K V) : Prop where
  represents : Represents (cache.call now request).1
    (answer cache.capacity now items request).1
  outcome : (cache.call now request).2 = (answer cache.capacity now items request).2
  capacity : (cache.call now request).1.capacity = cache.capacity

section Methods

variable {cache : MemoryCache K V} {items : List (Item K V)}

omit [DecidableEq K] in
theorem Represents.filtered {kept : List (Item K V)} {after : MemoryCache K V}
    (represents : Represents cache items) (fewer : kept.Sublist items)
    (same : after.capacity = cache.capacity)
    (agrees : Agrees after.entries after.leastToMostRecent kept) : Represents after kept := by
  refine ⟨agrees, ?_⟩
  rw [same]
  exact Nat.le_trans fewer.length_le represents.fits

theorem Represents.insert (represents : Represents cache items) (now : Nat) (key : K)
    (value : V) (ttl : Nat) : Answers cache items now (.insert key value ttl) := by
  have inserted : cache.call now (.insert key value ttl) =
      match cache.insert now key value ttl with
      | some after => (after, .done)
      | none => (cache, .refused) := rfl
  unfold MemoryCache.insert at inserted
  by_cases zero : ttl = 0
  · rw [if_pos zero] at inserted
    have answered : answer cache.capacity now items (.insert key value ttl) =
        (items, .refused) := if_pos zero
    refine ⟨?_, ?_, ?_⟩
    · rw [inserted, answered]
      exact represents
    · rw [inserted, answered]
    · rw [inserted]
  · rw [if_neg zero] at inserted
    have answered : answer cache.capacity now items (.insert key value ttl) =
        (newest cache.capacity (without items key ++ [⟨key, value, now + ttl⟩]), .done) :=
      if_neg zero
    refine ⟨?_, ?_, ?_⟩
    · rw [inserted, answered]
      refine ⟨?_, Lib.Lru.length_newest⟩
      exact (represents.agrees.push key value (now + ttl)).evict _ _
    · rw [inserted, answered]
    · rw [inserted]

theorem Represents.get (represents : Represents cache items) (now : Nat) (key : K) :
    Answers cache items now (.get key) := by
  have called : cache.call now (.get key) =
      ((cache.get now key).1, .found (cache.get now key).2) := rfl
  have looked := represents.agrees.lookup_eq_find key
  unfold MemoryCache.get at called
  cases found : find items key with
  | none =>
      rw [found] at looked
      rw [looked] at called
      have answered : answer cache.capacity now items (.get key) = (items, .found none) := by
        simp only [answer, found]
      refine ⟨?_, ?_, ?_⟩
      · rw [called, answered]
        exact ⟨represents.agrees, represents.fits⟩
      · rw [called, answered]
        rfl
      · rw [called]
        rfl
  | some item =>
      obtain ⟨member, keyed⟩ := (find_eq_some_iff represents.agrees.distinct).mp found
      rw [found] at looked
      rw [looked] at called
      by_cases expired : item.expiresAt ≤ now
      · have answered : answer cache.capacity now items (.get key) =
            (without items key, .found none) := by
          simp only [answer, found, if_pos expired]
        simp only [Option.map_some, if_pos expired] at called
        refine ⟨?_, ?_, ?_⟩
        · rw [called, answered]
          exact represents.filtered List.filter_sublist rfl (represents.agrees.erase key)
        · rw [called, answered]
        · rw [called]
      · have answered : answer cache.capacity now items (.get key) =
            (without items key ++ [item], .found (some item.value)) := by
          simp only [answer, found, if_neg expired]
        simp only [Option.map_some, if_neg expired] at called
        refine ⟨?_, ?_, ?_⟩
        · rw [called, answered]
          subst keyed
          refine ⟨represents.agrees.touch member, ?_⟩
          have moved := (Lib.Lru.perm_cons_without represents.agrees.distinct member).length_eq
          rw [List.length_append, List.length_singleton, ← List.length_cons, ← moved]
          exact represents.fits
        · rw [called, answered]
        · rw [called]

theorem Represents.remove (represents : Represents cache items) (now : Nat) (key : K) :
    Answers cache items now (.remove key) := by
  refine ⟨?_, ?_, rfl⟩
  · exact represents.filtered List.filter_sublist rfl (represents.agrees.erase key)
  · change Outcome.found ((cache.entries.lookup key).map Entry.value) =
      Outcome.found ((find items key).map Item.value)
    rw [represents.agrees.lookup_eq_find, Option.map_map]
    rfl

/-- The loop of `remove_where` and `len` over the keys to drop. -/
theorem Represents.foldl_remove (represents : Represents cache items) (dropped : List K) :
    Represents (dropped.foldl (fun cache key => (cache.remove key).1) cache)
        (items.filter fun item => item.key ∉ dropped) ∧
      (dropped.foldl (fun cache key => (cache.remove key).1) cache).capacity =
        cache.capacity := by
  induction dropped generalizing cache items with
  | nil =>
      simp only [List.not_mem_nil, not_false_eq_true, decide_true, List.filter_true]
      exact ⟨represents, rfl⟩
  | cons first rest ih =>
      have removed : Represents (cache.remove first).1 (without items first) :=
        represents.filtered List.filter_sublist rfl (represents.agrees.erase first)
      obtain ⟨after, same⟩ := ih removed
      refine ⟨?_, same⟩
      have filtered : (without items first).filter (fun item => item.key ∉ rest) =
          items.filter fun item => item.key ∉ first :: rest := by
        rw [without, List.filter_filter]
        apply List.filter_congr
        intro item _
        rw [← Bool.coe_iff_coe]
        simp [and_comm]
      rw [← filtered]
      exact after

theorem Represents.removeWhere (represents : Represents cache items) (now : Nat)
    (predicate : K → V → Bool) : Answers cache items now (.removeWhere predicate) := by
  have dropped := represents.foldl_remove
    ((cache.entries.entries.filter fun entry => predicate entry.1 entry.2.value).map Sigma.fst)
  rw [represents.agrees.filter_keys] at dropped
  refine ⟨dropped.1, ?_, dropped.2⟩
  have counted := represents.agrees.length_filter fun entry => predicate entry.1 entry.2.value
  exact congrArg Outcome.count ((List.length_map _).trans counted)

theorem Represents.clear (represents : Represents cache items) (now : Nat) :
    Answers cache items now .clear := by
  refine ⟨?_, rfl, rfl⟩
  exact represents.filtered (List.nil_sublist _) rfl ⟨List.Perm.refl _, rfl⟩

theorem Represents.len (represents : Represents cache items) (now : Nat) :
    Answers cache items now .len := by
  have dropped := represents.foldl_remove
    ((cache.entries.entries.filter fun entry => entry.2.expiresAt ≤ now).map Sigma.fst)
  rw [represents.agrees.filter_keys] at dropped
  have live : (items.filter fun item => !decide ((toEntry item).2.expiresAt ≤ now)) =
      items.filter fun item => now < item.expiresAt := by
    apply List.filter_congr
    intro item _
    rw [← decide_not, decide_eq_decide]
    exact Nat.not_le
  rw [live] at dropped
  refine ⟨⟨dropped.1.agrees, dropped.1.fits⟩, ?_, dropped.2⟩
  exact congrArg Outcome.count dropped.1.agrees.length

theorem Represents.answers (represents : Represents cache items) (now : Nat)
    (request : Call K V) : Answers cache items now request := by
  cases request with
  | insert key value ttl => exact represents.insert now key value ttl
  | get key => exact represents.get now key
  | remove key => exact represents.remove now key
  | removeWhere predicate => exact represents.removeWhere now predicate
  | clear => exact represents.clear now
  | len => exact represents.len now

end Methods

end RustZero.Cache.MemoryCache
