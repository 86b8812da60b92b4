import RustZero.CacheLru

/-!
# Inserts whose expiry is no instant

`core/src/cache.rs` again, with instants that end.  `MemoryCache::insert` and `TtlCache::insert`
compute `Instant::now() + ttl` under the lock, and the sum panics when there is no such instant;
in `MemoryCache` the recency list names the key by then, and the map does not hold it yet.

* `Guarded` is a cache behind its mutex: a panic under the lock poisons it, and every later
  `lock().expect` panics.  `none` is a call that panics.
* `Sound` and `TtlCache` runs: as long as every expiry is an instant, no call poisons the mutex.
* `inserts_total_iff`: an insert is total exactly if its own expiry is an instant.
-/

namespace RustZero.Cache

open RustZero.Lib (Lts)
open RustZero.Lib.Lru (Call Outcome)

/-- The last `Instant`, whose seconds are an `i64`. -/
def lastInstant : Nat := 2 ^ 63 * 1000000000 - 1

/-- A cache behind its mutex. -/
structure Guarded (σ : Type) where
  cache : σ
  poisoned : Bool

/-- An insertion's expiry is an instant; the zero TTL is asserted against before the lock. -/
def Fits (now ttl : Nat) : Prop :=
  ttl ≠ 0 → now + ttl ≤ lastInstant

instance Fits.decidable (now ttl : Nat) : Decidable (Fits now ttl) :=
  inferInstanceAs (Decidable (ttl ≠ 0 → now + ttl ≤ lastInstant))

/-! ## The two caches behind their mutexes -/

namespace MemoryCache

variable {K V : Type} [DecidableEq K]

/-- What a panic of `insert` leaves: the recency list has been changed, the map has not. -/
def interrupted (cache : MemoryCache K V) (key : K) : MemoryCache K V :=
  { cache with leastToMostRecent := removeFromRecency cache.leastToMostRecent key ++ [key] }

/-- One call, with the lock. -/
def guardedCall (guarded : Guarded (MemoryCache K V)) (now : Nat) :
    Call K V → Guarded (MemoryCache K V) × Option (Outcome V)
  | .insert key value ttl =>
      match guarded.cache.insert now key value ttl with
      | none => (guarded, none)
      | some later =>
          if guarded.poisoned then (guarded, none)
          else if now + ttl ≤ lastInstant then (⟨later, false⟩, some .done)
          else (⟨guarded.cache.interrupted key, true⟩, none)
  | request =>
      if guarded.poisoned then (guarded, none)
      else
        let (later, outcome) := guarded.cache.call now request
        (⟨later, false⟩, some outcome)

/-- Any calls, at any times. -/
def calls (capacity : Nat) (positive : 0 < capacity) :
    Lts (Guarded (MemoryCache K V)) (Nat × Call K V) where
  init := ⟨.new capacity positive, false⟩
  step := fun guarded timed => some (guardedCall guarded timed.1 timed.2).1

/-- Every expiry is an instant. -/
def FitsCall (_ : Guarded (MemoryCache K V)) (timed : Nat × Call K V) : Prop :=
  match timed.2 with
  | .insert _ _ ttl => Fits timed.1 ttl
  | _ => True

/-- The insert returns, the mutex can be locked again, and the recency list orders the keys of the
map. -/
structure InsertTotal (guarded : Guarded (MemoryCache K V)) (now : Nat) (key : K) (value : V)
    (ttl : Nat) : Prop where
  returns : (guardedCall guarded now (.insert key value ttl)).2 = some .done
  unpoisoned : (guardedCall guarded now (.insert key value ttl)).1.poisoned = false
  inStep : (guardedCall guarded now (.insert key value ttl)).1.cache.leastToMostRecent.Perm
    (guardedCall guarded now (.insert key value ttl)).1.cache.entries.keys

/-- Whatever is called from now on panics. -/
def Unusable (guarded : Guarded (MemoryCache K V)) : Prop :=
  ∀ timed : List (Nat × Call K V), ∀ now request,
    (guardedCall (timed.foldl (fun guarded timed => (guardedCall guarded timed.1 timed.2).1)
      guarded) now request).2 = none

end MemoryCache

/-- `TtlCache`, whose mutex guards its entries. -/
structure TtlCache (K V : Type) where
  entries : AList fun _ : K => Entry V

/-- The calls on a `TtlCache`. -/
inductive TtlCall (K V : Type) where
  | insert (key : K) (value : V) (ttl : Nat)
  | get (key : K)
  | remove (key : K)
  | len

namespace TtlCache

variable {K V : Type} [DecidableEq K]

/-- `insert`; `none` is the panic of its assertion. -/
def insert (cache : TtlCache K V) (now : Nat) (key : K) (value : V) (ttl : Nat) :
    Option (TtlCache K V) :=
  if ttl = 0 then none
  else some ⟨cache.entries.insert key ⟨value, now + ttl⟩⟩

def get (cache : TtlCache K V) (now : Nat) (key : K) : TtlCache K V × Option V :=
  let expired := (cache.entries.lookup key).any fun entry => decide (entry.expiresAt ≤ now)
  if expired then (⟨cache.entries.erase key⟩, none)
  else (cache, (cache.entries.lookup key).map Entry.value)

def remove (cache : TtlCache K V) (key : K) : TtlCache K V × Option V :=
  (⟨cache.entries.erase key⟩, (cache.entries.lookup key).map Entry.value)

def len (cache : TtlCache K V) (now : Nat) : TtlCache K V × Nat :=
  let retained := cache.entries.entries.filter fun entry => now < entry.2.expiresAt
  (⟨⟨retained, cache.entries.nodupKeys.sublist List.filter_sublist⟩⟩, retained.length)

/-- One call, with the lock. -/
def guardedCall (guarded : Guarded (TtlCache K V)) (now : Nat) :
    TtlCall K V → Guarded (TtlCache K V) × Option (Outcome V)
  | .insert key value ttl =>
      match guarded.cache.insert now key value ttl with
      | none => (guarded, none)
      | some later =>
          if guarded.poisoned then (guarded, none)
          else if now + ttl ≤ lastInstant then (⟨later, false⟩, some .done)
          else (⟨guarded.cache, true⟩, none)
  | .get key =>
      if guarded.poisoned then (guarded, none)
      else
        let (later, found) := guarded.cache.get now key
        (⟨later, false⟩, some (.found found))
  | .remove key =>
      if guarded.poisoned then (guarded, none)
      else
        let (later, found) := guarded.cache.remove key
        (⟨later, false⟩, some (.found found))
  | .len =>
      if guarded.poisoned then (guarded, none)
      else
        let (later, count) := guarded.cache.len now
        (⟨later, false⟩, some (.count count))

def calls (K V : Type) [DecidableEq K] : Lts (Guarded (TtlCache K V)) (Nat × TtlCall K V) where
  init := ⟨⟨∅⟩, false⟩
  step := fun guarded timed => some (guardedCall guarded timed.1 timed.2).1

def FitsCall (_ : Guarded (TtlCache K V)) (timed : Nat × TtlCall K V) : Prop :=
  match timed.2 with
  | .insert _ _ ttl => Fits timed.1 ttl
  | _ => True

/-- The insert returns, and the mutex can be locked again. -/
structure InsertTotal (guarded : Guarded (TtlCache K V)) (now : Nat) (key : K) (value : V)
    (ttl : Nat) : Prop where
  returns : (guardedCall guarded now (.insert key value ttl)).2 = some .done
  unpoisoned : (guardedCall guarded now (.insert key value ttl)).1.poisoned = false

def Unusable (guarded : Guarded (TtlCache K V)) : Prop :=
  ∀ timed : List (Nat × TtlCall K V), ∀ now request,
    (guardedCall (timed.foldl (fun guarded timed => (guardedCall guarded timed.1 timed.2).1)
      guarded) now request).2 = none

end TtlCache

/-! ## One call -/

namespace MemoryCache

variable {K V : Type} [DecidableEq K] {guarded : Guarded (MemoryCache K V)} {now ttl : Nat}
  {key : K} {value : V}

theorem insert_eq_none_iff (cache : MemoryCache K V) (now : Nat) (key : K) (value : V) :
    cache.insert now key value ttl = none ↔ ttl = 0 := by
  rw [insert]
  split
  case isTrue zero => exact iff_of_true rfl zero
  case isFalse some_ => exact iff_of_false (Option.some_ne_none _) some_

/-- An insertion that is due takes the lock, and what it comes to depends on its expiry. -/
theorem guardedCall_insert (unpoisoned : guarded.poisoned = false) (nonzero : ttl ≠ 0)
    (now : Nat) (key : K) (value : V) :
    ∃ later, guarded.cache.insert now key value ttl = some later ∧
      guardedCall guarded now (.insert key value ttl) =
        if now + ttl ≤ lastInstant then (⟨later, false⟩, some .done)
        else (⟨guarded.cache.interrupted key, true⟩, none) := by
  have inserts := mt (insert_eq_none_iff guarded.cache now key value).mp nonzero
  obtain ⟨later, inserted⟩ := Option.ne_none_iff_exists'.mp inserts
  refine ⟨later, inserted, ?_⟩
  rw [guardedCall, inserted, unpoisoned]
  rfl

/-- A poisoned mutex stays so, and every call on it panics. -/
theorem guardedCall_poisoned (poisoned : guarded.poisoned = true) (now : Nat)
    (request : Call K V) : guardedCall guarded now request = (guarded, none) := by
  cases request with
  | insert key value ttl =>
    rw [guardedCall]
    split
    · rfl
    · exact if_pos poisoned
  | get key => exact if_pos poisoned
  | remove key => exact if_pos poisoned
  | removeWhere predicate => exact if_pos poisoned
  | clear => exact if_pos poisoned
  | len => exact if_pos poisoned

theorem unusable_of_poisoned (poisoned : guarded.poisoned = true) : Unusable guarded := by
  intro timed
  induction timed with
  | nil =>
    intro now request
    rw [List.foldl_nil, guardedCall_poisoned poisoned]
  | cons first rest ih =>
    rw [List.foldl_cons, guardedCall_poisoned poisoned]
    exact ih

/-- What holds as long as every expiry is an instant. -/
structure Sound (guarded : Guarded (MemoryCache K V)) : Prop where
  unpoisoned : guarded.poisoned = false
  represented : ∃ items, Represents guarded.cache items

/-- A call that returns is that of `RustZero.Cache`. -/
theorem Sound.called (sound : Sound guarded) (now : Nat) (request : Call K V) :
    Sound ⟨(guarded.cache.call now request).1, false⟩ := by
  obtain ⟨items, represents⟩ := sound.represented
  exact ⟨rfl, _, (represents.answers now request).represents⟩

theorem Sound.step (sound : Sound guarded) {timed : Nat × Call K V}
    (fits : FitsCall guarded timed) : Sound (guardedCall guarded timed.1 timed.2).1 := by
  obtain ⟨now, request⟩ := timed
  have unpoisoned : ¬ guarded.poisoned = true := by
    rw [sound.unpoisoned]
    exact Bool.false_ne_true
  cases request with
  | insert key value ttl =>
    by_cases zero : ttl = 0
    · have refused : guarded.cache.insert now key value ttl = none :=
        (insert_eq_none_iff guarded.cache now key value).mpr zero
      rw [guardedCall, refused]
      exact sound
    · obtain ⟨later, inserted, ran⟩ := guardedCall_insert sound.unpoisoned zero now key value
      have after := sound.called now (.insert key value ttl)
      rw [call, inserted] at after
      rw [ran, if_pos (fits zero)]
      exact after
  | get key =>
    have ran : guardedCall guarded now (.get key) = _ := if_neg unpoisoned
    rw [ran]
    exact sound.called now (.get key)
  | remove key =>
    have ran : guardedCall guarded now (.remove key) = _ := if_neg unpoisoned
    rw [ran]
    exact sound.called now (.remove key)
  | removeWhere predicate =>
    have ran : guardedCall guarded now (.removeWhere predicate) = _ := if_neg unpoisoned
    rw [ran]
    exact sound.called now (.removeWhere predicate)
  | clear =>
    have ran : guardedCall guarded now .clear = _ := if_neg unpoisoned
    rw [ran]
    exact sound.called now .clear
  | len =>
    have ran : guardedCall guarded now .len = _ := if_neg unpoisoned
    rw [ran]
    exact sound.called now .len

theorem sound_of_reach {capacity : Nat} {positive : 0 < capacity}
    (reach : (calls capacity positive).Reach FitsCall guarded) : Sound guarded := by
  have begins : Sound (calls (K := K) (V := V) capacity positive).init :=
    ⟨rfl, [], ⟨List.Perm.refl _, rfl⟩, Nat.zero_le _⟩
  refine reach.invariant (I := Sound) begins ?_
  intro before timed after sound fits taken
  cases taken
  exact sound.step fits

theorem Sound.insertTotal_iff (sound : Sound guarded) (now : Nat) (key : K) (value : V)
    (nonzero : ttl ≠ 0) : InsertTotal guarded now key value ttl ↔ now + ttl ≤ lastInstant := by
  obtain ⟨later, _, ran⟩ := guardedCall_insert sound.unpoisoned nonzero now key value
  refine ⟨?_, ?_⟩
  · intro total
    by_contra past
    have returns := total.returns
    rw [ran, if_neg past] at returns
    cases returns
  · intro fits
    have fitsCall : FitsCall guarded (now, .insert key value ttl) := fun _ => fits
    have stepped := sound.step fitsCall
    obtain ⟨items, represents⟩ := stepped.represented
    refine ⟨?_, stepped.unpoisoned, represents.agrees.perm⟩
    rw [ran, if_pos fits]

/-- A failed insert leaves the map as it was, the recency list with the key, and no use of the
cache. -/
structure InsertFails (guarded : Guarded (MemoryCache K V)) (now : Nat) (key : K) (value : V)
    (ttl : Nat) : Prop where
  panics : (guardedCall guarded now (.insert key value ttl)).2 = none
  entries : (guardedCall guarded now (.insert key value ttl)).1.cache.entries =
    guarded.cache.entries
  recency : key ∈ (guardedCall guarded now (.insert key value ttl)).1.cache.leastToMostRecent
  unusable : Unusable (guardedCall guarded now (.insert key value ttl)).1

theorem Sound.insertFails (sound : Sound guarded) (now : Nat) (key : K) (value : V)
    (nonzero : ttl ≠ 0) (past : ¬ now + ttl ≤ lastInstant) :
    InsertFails guarded now key value ttl := by
  obtain ⟨later, _, ran⟩ := guardedCall_insert sound.unpoisoned nonzero now key value
  rw [if_neg past] at ran
  refine ⟨?_, ?_, ?_, ?_⟩
  · rw [ran]
  · rw [ran]
    rfl
  · rw [ran]
    exact List.mem_append_right _ (List.mem_singleton_self key)
  · rw [ran]
    exact unusable_of_poisoned rfl

end MemoryCache

namespace TtlCache

variable {K V : Type} [DecidableEq K] {guarded : Guarded (TtlCache K V)} {now ttl : Nat}
  {key : K} {value : V}

theorem guardedCall_insert (unpoisoned : guarded.poisoned = false) (nonzero : ttl ≠ 0)
    (now : Nat) (key : K) (value : V) :
    guardedCall guarded now (.insert key value ttl) =
      if now + ttl ≤ lastInstant then
        (⟨⟨guarded.cache.entries.insert key ⟨value, now + ttl⟩⟩, false⟩, some .done)
      else (⟨guarded.cache, true⟩, none) := by
  rw [guardedCall, insert, if_neg nonzero, unpoisoned]
  rfl

theorem guardedCall_poisoned (poisoned : guarded.poisoned = true) (now : Nat)
    (request : TtlCall K V) : guardedCall guarded now request = (guarded, none) := by
  cases request with
  | insert key value ttl =>
    rw [guardedCall]
    split
    · rfl
    · exact if_pos poisoned
  | get key => exact if_pos poisoned
  | remove key => exact if_pos poisoned
  | len => exact if_pos poisoned

theorem unusable_of_poisoned (poisoned : guarded.poisoned = true) : Unusable guarded := by
  intro timed
  induction timed with
  | nil =>
    intro now request
    rw [List.foldl_nil, guardedCall_poisoned poisoned]
  | cons first rest ih =>
    rw [List.foldl_cons, guardedCall_poisoned poisoned]
    exact ih

theorem unpoisoned_step (unpoisoned : guarded.poisoned = false) {timed : Nat × TtlCall K V}
    (fits : FitsCall guarded timed) :
    (guardedCall guarded timed.1 timed.2).1.poisoned = false := by
  obtain ⟨now, request⟩ := timed
  have free : ¬ guarded.poisoned = true := by
    rw [unpoisoned]
    exact Bool.false_ne_true
  cases request with
  | insert key value ttl =>
    by_cases zero : ttl = 0
    · rw [guardedCall, insert, if_pos zero]
      exact unpoisoned
    · rw [guardedCall_insert unpoisoned zero, if_pos (fits zero)]
  | get key =>
    rw [guardedCall, if_neg free]
  | remove key =>
    rw [guardedCall, if_neg free]
  | len =>
    rw [guardedCall, if_neg free]

theorem unpoisoned_of_reach (reach : (calls K V).Reach FitsCall guarded) :
    guarded.poisoned = false := by
  refine reach.invariant (I := fun guarded => guarded.poisoned = false) rfl ?_
  intro before timed after unpoisoned fits taken
  cases taken
  exact unpoisoned_step unpoisoned fits

theorem insertTotal_iff (unpoisoned : guarded.poisoned = false) (now : Nat) (key : K) (value : V)
    (nonzero : ttl ≠ 0) : InsertTotal guarded now key value ttl ↔ now + ttl ≤ lastInstant := by
  have ran := guardedCall_insert unpoisoned nonzero now key value
  refine ⟨?_, ?_⟩
  · intro total
    by_contra past
    have returns := total.returns
    rw [ran, if_neg past] at returns
    cases returns
  · intro fits
    refine ⟨?_, ?_⟩
    · rw [ran, if_pos fits]
    · rw [ran, if_pos fits]

end TtlCache

/-! ## Runs -/

section Runs

variable {K V : Type} [DecidableEq K]

/-- After any calls whose expiries are instants, an insert is total exactly if its own expiry is
one; otherwise it panics half done and nothing can be called any more. -/
theorem inserts_total_iff (capacity : Nat) (positive : 0 < capacity)
    (memory : Guarded (MemoryCache K V))
    (memoryRuns : (MemoryCache.calls capacity positive).Reach MemoryCache.FitsCall memory)
    (expiring : Guarded (TtlCache K V))
    (expiringRuns : (TtlCache.calls K V).Reach TtlCache.FitsCall expiring) (now : Nat) (key : K)
    (value : V) (ttl : Nat) (nonzero : ttl ≠ 0) :
    (MemoryCache.InsertTotal memory now key value ttl ↔ now + ttl ≤ lastInstant) ∧
    (TtlCache.InsertTotal expiring now key value ttl ↔ now + ttl ≤ lastInstant) ∧
    (¬ now + ttl ≤ lastInstant → MemoryCache.InsertFails memory now key value ttl ∧
      TtlCache.Unusable (TtlCache.guardedCall expiring now (.insert key value ttl)).1) := by
  have sound := MemoryCache.sound_of_reach memoryRuns
  have unpoisoned := TtlCache.unpoisoned_of_reach expiringRuns
  refine ⟨sound.insertTotal_iff now key value nonzero,
    TtlCache.insertTotal_iff unpoisoned now key value nonzero, ?_⟩
  intro past
  refine ⟨sound.insertFails now key value nonzero past, ?_⟩
  rw [TtlCache.guardedCall_insert unpoisoned nonzero, if_neg past]
  exact TtlCache.unusable_of_poisoned rfl

/-- An entry that lives for a minute. -/
theorem inserts_total_minute :
    MemoryCache.InsertTotal ⟨.new 1 Nat.one_pos, false⟩ 0 "user" 7 60000000000 ∧
      TtlCache.InsertTotal ⟨⟨∅⟩, false⟩ 0 "user" 7 60000000000 := by
  have total := inserts_total_iff 1 Nat.one_pos _ Lts.Reach.init _ Lts.Reach.init 0 "user" 7
    60000000000 (by omega)
  have fits : 0 + 60000000000 ≤ lastInstant := by
    rw [lastInstant]
    omega
  exact ⟨total.1.mpr fits, total.2.1.mpr fits⟩

/-- A TTL that the jitter has saturated to the largest `Duration`. -/
theorem saturated_ttl_not_total :
    jitteredTtl maxDuration 1 0 ≠ 0 ∧ jitteredTtl maxDuration 1 0 ≤ maxDuration ∧
    ¬ MemoryCache.InsertTotal ⟨.new 1 Nat.one_pos, false⟩ 0 "user" 7 (jitteredTtl maxDuration 1 0) ∧
    ¬ TtlCache.InsertTotal ⟨⟨∅⟩, false⟩ 0 "user" 7 (jitteredTtl maxDuration 1 0) := by
  have saturated : jitteredTtl maxDuration 1 0 = maxDuration := by
    rw [jitteredTtl, if_neg Nat.one_ne_zero]
    exact min_eq_right (Nat.le_add_right _ _)
  have nonzero : maxDuration ≠ 0 := by
    rw [maxDuration]
    omega
  have past : ¬ 0 + maxDuration ≤ lastInstant := by
    rw [maxDuration, lastInstant]
    omega
  rw [saturated]
  refine ⟨nonzero, Nat.le_refl _, ?_, ?_⟩
  · intro total
    have sound := MemoryCache.sound_of_reach (Lts.Reach.init
      (L := MemoryCache.calls (K := String) (V := Nat) 1 Nat.one_pos))
    exact past ((sound.insertTotal_iff 0 "user" 7 nonzero).mp total)
  · intro total
    exact past ((TtlCache.insertTotal_iff rfl 0 "user" 7 nonzero).mp total)

end Runs

end RustZero.Cache
