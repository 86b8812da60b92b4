import RustZero.Cache
import RustZero.Staleness

/-!
# The read-through cache

`ReadThroughCache` of `core/src/cache.rs`: a `MemoryCache` whose misses `take`
loads once across concurrent callers.  The closure of `take` looks again, fetches
and inserts what it fetched; `remove` is one step on the cache and neither of them
knows about the other.

The calls of `get` and `take` are named by `C` and those of `remove` by `R`.  What
the code does not keep is `now`, which counts the steps, and the stamps taken from
it: of a value, of the beginning of a read and of a removal.
-/

namespace RustZero.ReadThrough

open Lib Cache SingleFlight Staleness

/-- The state the calls share. -/
structure Shared (K V : Type) where
  now : Nat
  clock : Nat
  cache : MemoryCache K (Fetched V)

/-- The closure that `take` passes to `execute`. -/
inductive Take (V : Type) where
  | start (ttl : Nat)
  | missed (ttl : Nat)
  | fetching (ttl startedAt : Nat)
  | fetched (ttl : Nat) (value : Fetched V)

/-- What the closure does not decide itself: the outcome of its fetch. -/
inductive Label (V E : Type) where
  | run
  | fetch (outcome : Except E V)

/-- How far a call of `get` or `take` has come; once it has called `execute` the
flights say how far. -/
inductive ReadCall (K V : Type) where
  | idle
  | absent (key : K) (began : Nat)
  | answered (key : K) (began : Nat) (value : Fetched V)
  | missed (key : K) (ttl began : Nat)
  | executing (key : K) (began : Nat)

inductive RemoveCall (K V : Type) where
  | idle
  | removed (key : K) (removedAt : Nat) (value : Option (Fetched V))

structure System (C R K V E : Type) where
  shared : Shared K V
  reads : C → ReadCall K V
  flights : Flights C K (Take V) (Fetched V) E
  removes : R → RemoveCall K V

/-- `ReadThroughCache::new`. -/
def System.new (C R K V E : Type) (capacity : Nat) (positive : 0 < capacity) :
    System C R K V E where
  shared := ⟨0, 0, .new capacity positive⟩
  reads := fun _ => .idle
  flights := SingleFlight.new C K (Take V) (Fetched V) E
  removes := fun _ => .idle

inductive Action (C R K V E : Type) where
  | get (call : C) (key : K)
  /-- `take` begins with its first cache look-up. -/
  | take (call : C) (key : K) (ttl : Nat)
  | enter (call : C)
  | flight (action : SingleFlight.Action C K (Take V) (Label V E))
  | remove (call : R) (key : K)
  | elapse (nanos : Nat)

section Step

variable {C R K V E : Type} [DecidableEq K]

/-- The closure of `take`. -/
def takeOperation : Operation C (Shared K V) K (Take V) (Label V E) (Fetched V) E where
  step shared _ key
    | .start ttl, .run =>
        match shared.cache.get shared.clock key with
        | (cache, some value) => some ({ shared with cache := cache }, .ready (.ok value))
        | (cache, none) => some ({ shared with cache := cache }, .pending (.missed ttl))
    | .missed ttl, .run => some (shared, .pending (.fetching ttl shared.now))
    | .fetching ttl startedAt, .fetch outcome =>
        match outcome with
        | .error error => some (shared, .ready (.error error))
        | .ok value => some (shared, .pending (.fetched ttl ⟨value, startedAt⟩))
    | .fetched ttl value, .run =>
        match shared.cache.insert shared.clock key value ttl with
        | some cache => some ({ shared with cache := cache }, .ready (.ok value))
        | none => some (shared, .unwind)
    | _, _ => none
  suspended
    | .fetching _ _ => true
    | _ => false

variable [DecidableEq C] [DecidableEq R]

/-- One step, without the step count. -/
def act (s : System C R K V E) : Action C R K V E → Option (System C R K V E)
  | .get call key =>
      match s.reads call with
      | .idle =>
          let (cache, found) := s.shared.cache.get s.shared.clock key
          let next := match found with
            | some value => .answered key s.shared.now value
            | none => .absent key s.shared.now
          some { s with
            shared := { s.shared with cache := cache }
            reads := Function.update s.reads call next }
      | _ => none
  | .take call key ttl =>
      match s.reads call with
      | .idle =>
          let (cache, found) := s.shared.cache.get s.shared.clock key
          let next := match found with
            | some value => .answered key s.shared.now value
            | none => .missed key ttl s.shared.now
          some { s with
            shared := { s.shared with cache := cache }
            reads := Function.update s.reads call next }
      | _ => none
  | .enter call =>
      match s.reads call with
      | .missed key ttl began =>
          (SingleFlight.step takeOperation s.shared s.flights
            (.enter call key (.start ttl))).map fun (shared, flights) =>
              { s with
                shared := shared
                flights := flights
                reads := Function.update s.reads call (.executing key began) }
      | _ => none
  | .flight (.enter _ _ _) => none
  | .flight action =>
      (SingleFlight.step takeOperation s.shared s.flights action).map fun (shared, flights) =>
        { s with shared := shared, flights := flights }
  | .remove call key =>
      match s.removes call with
      | .idle =>
          let (cache, value) := s.shared.cache.remove key
          some { s with
            shared := { s.shared with cache := cache }
            removes := Function.update s.removes call (.removed key s.shared.now value) }
      | _ => none
  | .elapse nanos => some { s with shared := { s.shared with clock := s.shared.clock + nanos } }

/-- One step. -/
def step (s : System C R K V E) (a : Action C R K V E) : Option (System C R K V E) :=
  (act s a).map fun s' => { s' with shared := { s'.shared with now := s.shared.now + 1 } }

/-- Every interleaving of calls on one cache. -/
def lts (C R K V E : Type) [DecidableEq C] [DecidableEq R] [DecidableEq K] (capacity : Nat)
    (positive : 0 < capacity) : Lts (System C R K V E) (Action C R K V E) where
  init := .new C R K V E capacity positive
  step := step

end Step

/-! ## The requirement and its condition -/

section Requirement

variable {C R K V E : Type}

/-- The key a call looks for and the step it began in. -/
def ReadCall.since : ReadCall K V → Option (K × Nat)
  | .idle => none
  | .absent key began => some (key, began)
  | .answered key began _ => some (key, began)
  | .missed key _ began => some (key, began)
  | .executing key began => some (key, began)

/-- When the fetch of a closure was started. -/
def Take.held : Take V → Option Nat
  | .fetching _ startedAt => some startedAt
  | .fetched _ value => some value.startedAt
  | _ => none

/-- The key was removed in this step. -/
def System.Removed (s : System C R K V E) (key : K) (removedAt : Nat) : Prop :=
  ∃ call value, s.removes call = .removed key removedAt value

/-- A `remove` returns in the step it removes in. -/
def System.Returned (s : System C R K V E) (key : K) (removedAt returnedAt : Nat) : Prop :=
  s.Removed key removedAt ∧ returnedAt = removedAt

/-- A `take` inserts what it fetched only when the key was not removed since it
started to fetch, and joins a flight only when the flight's fetch was not started
before a removal that the call has to observe. -/
def Sticks (s : System C R K V E) : Action C R K V E → Prop
  | .enter call => ∀ key ttl began leader startedAt, s.reads call = .missed key ttl began →
      Holds Take.held (s.flights.calls leader) key startedAt →
      Fresh s.Returned (some (key, began)) startedAt
  | .flight (.poll call _) => ∀ key ttl value,
      s.flights.calls call = .leading key (.fetched ttl value) →
      Outlives s.Removed key value.startedAt
  | _ => True

/-- The invariant: what the cache holds outlives every removal, and every value a
call has got, or will get from the flight it waits for, is fresh. -/
structure Inv [DecidableEq K] (s : System C R K V E) : Prop where
  removed : ∀ key removedAt, s.Removed key removedAt → removedAt < s.shared.now
  began : ∀ call key began, (s.reads call).since = some (key, began) → began < s.shared.now
  cached : ∀ key value, s.shared.cache.value key = some value →
    Outlives s.Removed key value.startedAt
  answered : ∀ call key began value, s.reads call = .answered key began value →
    Fresh s.Returned (some (key, began)) value.startedAt
  delivers : Delivers (Owes Take.held s.Returned fun call => (s.reads call).since)
    (Good s.Returned fun call => (s.reads call).since) s.flights

/-! ## The closure -/

variable [DecidableEq K] {shared shared' : Shared K V} {call : C} {key : K} {op : Take V}
  {label : Label V E} {progress : Progress (Take V) (Fetched V) E}

theorem takeOperation_stamps {F : Nat → Prop}
    (run : takeOperation.step shared call key op label = some (shared', progress))
    (cached : ∀ value, shared.cache.value key = some value → F value.startedAt)
    (now : F shared.now) (held : ∀ startedAt, op.held = some startedAt → F startedAt) :
    Stamps Take.held F progress := by
  dsimp only [takeOperation] at run
  split at run
  · split at run <;> rename_i got <;> cases run
    · exact cached _ (MemoryCache.value_of_hit (congrArg Prod.snd got))
    · exact nofun
  · cases run
    intro startedAt eq
    cases eq
    exact now
  · split at run <;> cases run
    · trivial
    · exact held
  · split at run <;> cases run
    · exact held _ rfl
    · trivial
  · cases run

/-- The closure stores nothing but what it fetched. -/
theorem takeOperation_stores
    (run : takeOperation.step shared call key op label = some (shared', progress))
    {key' : K} {value : Fetched V} (found : shared'.cache.value key' = some value) :
    shared.cache.value key' = some value ∨ key' = key ∧ ∃ ttl, op = .fetched ttl value := by
  dsimp only [takeOperation] at run
  split at run
  · split at run <;> rename_i got <;> cases run
    all_goals
      have looked : (shared.cache.get shared.clock key).1.value key' = some value := by
        rw [got]
        exact found
      exact .inl (MemoryCache.value_get looked)
  · cases run
    exact .inl found
  · split at run <;> cases run <;> exact .inl found
  · rename_i ttl fetched
    split at run <;> rename_i inserted <;> cases run
    · rcases MemoryCache.value_insert inserted found with ⟨rfl, rfl⟩ | ⟨_, old⟩
      · exact .inr ⟨rfl, ttl, rfl⟩
      · exact .inl old
    · exact .inl found
  · cases run

/-! ## Every step keeps the invariant -/

theorem Inv.init (capacity : Nat) (positive : 0 < capacity) :
    Inv (System.new C R K V E capacity positive) where
  removed := nofun
  began := nofun
  cached := nofun
  answered := nofun
  delivers := Delivers.new

variable {s s' : System C R K V E}

theorem Inv.returned_past (inv : Inv s) (key : K) (removedAt returnedAt : Nat)
    (returned : s.Returned key removedAt returnedAt) : removedAt < s.shared.now :=
  inv.removed key removedAt returned.1

/-- What the cache holds is fresh for every call. -/
theorem Inv.fresh_cached (inv : Inv s) {key : K} {value : Fetched V} {began : Nat}
    (cached : s.shared.cache.value key = some value) :
    Fresh s.Returned (some (key, began)) value.startedAt :=
  (inv.cached key value cached).fresh fun _ _ returned => returned.1

variable [DecidableEq C]

/-- A call that looks the key up: a hit is its answer. -/
theorem Inv.look (inv : Inv s) {call : C} {key : K} {miss : ReadCall K V}
    (idle : s.reads call = .idle) (since : miss.since = some (key, s.shared.now))
    (noAnswer : ∀ key' began value, miss ≠ .answered key' began value) :
    Inv { s with
      shared := { s.shared with
        cache := (s.shared.cache.get s.shared.clock key).1, now := s.shared.now + 1 }
      reads := Function.update s.reads call
        (match (s.shared.cache.get s.shared.clock key).2 with
          | some value => .answered key s.shared.now value
          | none => miss) } where
  removed key' removedAt removed := Nat.lt_succ_of_lt (inv.removed key' removedAt removed)
  began := by
    intro call' key' began eq
    dsimp only at eq
    rw [Function.update_apply] at eq
    split at eq
    · have now : began = s.shared.now := by
        split at eq
        · cases eq
          rfl
        · rw [since] at eq
          cases eq
          rfl
      rw [now]
      exact Nat.lt_succ_self _
    · exact Nat.lt_succ_of_lt (inv.began call' key' began eq)
  cached key' value found := inv.cached key' value (MemoryCache.value_get found)
  answered := by
    intro call' key' began value eq
    rcases phase_of_update eq with ⟨_, new⟩ | ⟨_, old⟩
    · split at new
      · rename_i hit
        cases new
        exact inv.fresh_cached (MemoryCache.value_of_hit hit)
      · exact absurd new (noAnswer key' began value)
    · exact inv.answered call' key' began value old
  delivers := by
    refine delivers_keep inv.delivers (fun call' started => ?_)
      (fun call' key' began eq => Nat.le_of_lt (inv.began call' key' began eq))
      fun _ _ _ removed => .inl removed
    have ne : call' ≠ call := by
      rintro rfl
      rw [idle] at started
      exact started rfl
    dsimp only
    rw [Function.update_of_ne ne]

/-- A step of the flights, with calls that look for the same as before. -/
theorem Inv.flight (inv : Inv s) {reads : C → ReadCall K V}
    {action : SingleFlight.Action C K (Take V) (Label V E)} {shared' : Shared K V}
    {flights' : Flights C K (Take V) (Fetched V) E}
    (same : ∀ call, (reads call).since = (s.reads call).since)
    (answered : ∀ call key began value, reads call = .answered key began value →
      s.reads call = .answered key began value)
    (step : SingleFlight.step takeOperation s.shared s.flights action =
      some (shared', flights'))
    (enter : ∀ call key op, action = .enter call key op → op.held = none ∧
      (∃ began, (s.reads call).since = some (key, began)) ∧
      ∀ leader startedAt, Holds Take.held (s.flights.calls leader) key startedAt →
        Fresh s.Returned (s.reads call).since startedAt)
    (inserts : ∀ call label key ttl value, action = .poll call label →
      s.flights.calls call = .leading key (.fetched ttl value) →
      Outlives s.Removed key value.startedAt) :
    Inv { s with
      shared := { shared' with now := s.shared.now + 1 }
      reads := reads
      flights := flights' } where
  removed key' removedAt removed := Nat.lt_succ_of_lt (inv.removed key' removedAt removed)
  began := by
    intro call key began eq
    dsimp only at eq
    rw [same] at eq
    exact Nat.lt_succ_of_lt (inv.began call key began eq)
  cached := by
    intro key' value found
    rcases step_polls_or step with ⟨call, label, key, op, progress, rfl, leading, run, _⟩ |
      ⟨rfl, _⟩
    · rcases takeOperation_stores run found with old | ⟨rfl, ttl, rfl⟩
      · exact inv.cached key' value old
      · exact inserts call label key' ttl value rfl leading
    · exact inv.cached key' value found
  answered call key began value eq :=
    inv.answered call key began value (answered call key began value eq)
  delivers := by
    have steps := delivers_flight inv.delivers step enter
      fun call key op label shared' progress began run fresh => takeOperation_stamps run
        (fun _ cached => inv.fresh_cached cached) (fresh_now inv.returned_past) fresh
    exact delivers_keep steps (fun call _ => same call)
      (fun call key began eq => Nat.le_of_lt (inv.began call key began eq))
      fun _ _ _ removed => .inl removed

omit [DecidableEq C] in
/-- A removal: no call that has begun has to observe it. -/
theorem Inv.remove [DecidableEq R] (inv : Inv s) {call : R} {key : K}
    (after : s' = { s with
      shared := { s.shared with
        cache := (s.shared.cache.remove key).1, now := s.shared.now + 1 }
      removes := Function.update s.removes call
        (.removed key s.shared.now (s.shared.cache.remove key).2) }) : Inv s' := by
  have removes : ∀ key' removedAt, s'.Removed key' removedAt →
      s.Removed key' removedAt ∨ key' = key ∧ removedAt = s.shared.now := by
    rintro key' removedAt ⟨call', value, eq⟩
    rw [after] at eq
    rcases phase_of_update eq with ⟨_, new⟩ | ⟨_, old⟩
    · cases new
      exact .inr ⟨rfl, rfl⟩
    · exact .inl ⟨call', value, old⟩
  have later : ∀ key' removedAt returnedAt, s'.Returned key' removedAt returnedAt →
      s.Returned key' removedAt returnedAt ∨ s.shared.now ≤ returnedAt := by
    rintro key' removedAt returnedAt ⟨removed, same⟩
    rcases removes key' removedAt removed with old | ⟨_, now⟩
    · exact .inl ⟨old, same⟩
    · exact .inr (same.trans now).ge
  have began := fun call' key' began eq => Nat.le_of_lt (inv.began call' key' began eq)
  subst after
  constructor
  · intro key' removedAt removed
    rcases removes key' removedAt removed with old | ⟨_, rfl⟩
    · exact Nat.lt_succ_of_lt (inv.removed key' removedAt old)
    · exact Nat.lt_succ_self _
  · exact fun call' key' began eq => Nat.lt_succ_of_lt (inv.began call' key' began eq)
  · intro key' value found removedAt removed
    obtain ⟨ne, old⟩ := MemoryCache.value_remove found
    rcases removes key' removedAt removed with before | ⟨same, _⟩
    · exact inv.cached key' value old removedAt before
    · exact absurd same ne
  · intro call' key' start value eq
    refine (inv.answered call' key' start value eq).keep (fun _ _ eq' => ?_) later
    cases eq'
    refine began call' key' start ?_
    rw [eq]
    rfl
  · exact delivers_keep inv.delivers (fun _ _ => rfl) began later

theorem Inv.step [DecidableEq R] {a : Action C R K V E} (inv : Inv s) (sticks : Sticks s a)
    (step : ReadThrough.step s a = some s') : Inv s' := by
  obtain ⟨t, h, rfl⟩ := Option.map_eq_some_iff.mp step
  clear step
  cases a with
  | get call key =>
      simp only [act] at h
      split at h
      · rename_i idle
        cases h
        exact inv.look idle rfl nofun
      · cases h
  | take call key ttl =>
      simp only [act] at h
      split at h
      · rename_i idle
        cases h
        exact inv.look idle rfl nofun
      · cases h
  | enter call =>
      simp only [act] at h
      split at h
      · rename_i key ttl began missed
        obtain ⟨⟨shared', flights'⟩, step, rfl⟩ := Option.map_eq_some_iff.mp h
        have since : (s.reads call).since = some (key, began) := by
          rw [missed]
          rfl
        refine inv.flight (fun call' => ?_) (fun call' key' began' value eq => ?_) step
          (fun call' key' op eq => ?_) nofun
        · dsimp only
          rw [Function.update_apply]
          split
          · subst call'
            exact since.symm
          · rfl
        · rcases phase_of_update eq with ⟨_, new⟩ | ⟨_, old⟩
          · cases new
          · exact old
        · cases eq
          refine ⟨rfl, ⟨began, since⟩, fun leader startedAt holds => ?_⟩
          rw [since]
          exact sticks key ttl began leader startedAt missed holds
      · cases h
  | flight action =>
      obtain ⟨notEnter, h⟩ : (∀ call key op, action ≠ .enter call key op) ∧
          (SingleFlight.step takeOperation s.shared s.flights action).map
            (fun (shared, flights) => { s with shared := shared, flights := flights }) =
              some t := by
        cases action with
        | enter call key op => cases h
        | _ => exact ⟨nofun, h⟩
      obtain ⟨⟨shared', flights'⟩, step, rfl⟩ := Option.map_eq_some_iff.mp h
      refine inv.flight (fun _ => rfl) (fun _ _ _ _ eq => eq) step
        (fun call key op eq => absurd eq (notEnter call key op)) ?_
      rintro call label key ttl value rfl leading
      exact sticks key ttl value leading
  | remove call key =>
      simp only [act] at h
      split at h
      · cases h
        exact inv.remove rfl
      · cases h
  | elapse nanos =>
      cases h
      constructor
      · exact fun key removedAt removed => Nat.lt_succ_of_lt (inv.removed key removedAt removed)
      · exact fun call key began eq => Nat.lt_succ_of_lt (inv.began call key began eq)
      · exact inv.cached
      · exact inv.answered
      · exact inv.delivers

theorem Inv.reach [DecidableEq R] {capacity : Nat} {positive : 0 < capacity}
    (reach : (lts C R K V E capacity positive).Reach Sticks s) : Inv s :=
  reach.invariant (Inv.init capacity positive) fun _ _ _ inv sticks step => inv.step sticks step

end Requirement

/-- The call of `get` or `take` has returned this value. -/
def Returns {C R K V E : Type} (s : System C R K V E) (call : C) (key : K) (began : Nat)
    (value : Fetched V) : Prop :=
  s.reads call = .answered key began value ∨
    s.reads call = .executing key began ∧ s.flights.calls call = .returned (.ok value)

/-- A call that begins after a removal returned gets a value fetched after it. -/
theorem Inv.returns_fresh {C R K V E : Type} [DecidableEq K] {s : System C R K V E}
    (inv : Inv s) {call : C} {key : K} {began : Nat} {value : Fetched V}
    (returns : Returns s call key began value) :
    Fresh s.Returned (some (key, began)) value.startedAt := by
  rcases returns with answered | ⟨executing, returned⟩
  · exact inv.answered call key began value answered
  · have good : Fresh s.Returned (s.reads call).since value.startedAt :=
      (inv.delivers.returned call _ returned value rfl).2
    rw [executing] at good
    exact good

end RustZero.ReadThrough
