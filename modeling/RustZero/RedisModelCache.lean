import RustZero.Cache
import RustZero.Redis
import RustZero.Staleness

/-!
# The Redis model cache

`RedisModelCache` of `core/src/stores_redis.rs`: `get_or_fetch` coalesces the misses
of one instance, reads the entry from Redis, fetches on a miss and writes what it
fetched back; `invalidate` deletes keys one by one.  Any number of instances `N`
share one Redis namespace and nothing else.

Every Redis command is one step.  The `PSETEX` of a call is sent in one step and
served in another, since the call may give up on it, or be dropped, before Redis
serves it.  Serialization is a parameter.  Connection failures, timeouts and error
replies are labels of the steps they can happen in.  What the code does not keep is
`now`, which counts the steps, and the stamps taken from it.
-/

namespace RustZero.RedisModel

open Lib Cache SingleFlight Staleness Redis

structure RedisModelCacheConfig where
  ttl : Nat
  notFoundTtl : Nat := 5000000000
  expiryJitter : Nat := 0
  cacheNotFound : Bool := true

inductive ModelCacheEntry (T : Type) where
  | value (value : T)
  | notFound

/-- `serde_json` for entries. -/
structure Codec (T B : Type) where
  toVec : ModelCacheEntry T → Option B
  fromSlice : B → Option (ModelCacheEntry T)

inductive RedisModelCacheError (F : Type) where
  | store (error : RedisStoreError)
  | serialization
  | fetch (error : F)

/-- The instances and the namespace they share. -/
structure Setup (N T B : Type) where
  config : N → RedisModelCacheConfig
  codec : Codec T B
  keyPrefix : String

/-- The `PSETEX` of a call. -/
inductive Write (B : Type) where
  | none
  | sent (key : String) (bytes : Fetched B) (millis : Nat)
  | replied (ok : Bool)

structure Shared (N C B : Type) where
  now : Nat
  server : Server (Fetched B)
  writes : N × C → Write B
  counters : N → CacheStats
  ttlSequence : N → UInt64

/-- The closure that `get_or_fetch` passes to `execute`. -/
inductive Load (T B : Type) where
  /-- Waiting for the reply to its `GET`. -/
  | start
  | missed
  | fetching (startedAt : Nat)
  | fetched (value : Fetched (Option T))
  /-- Waiting for the connection `set` writes on. -/
  | connecting (value : Fetched (Option T)) (bytes : Fetched B) (ttl : Nat)
  /-- Waiting for the reply to its `PSETEX`. -/
  | setting (value : Fetched (Option T))

inductive Label (T F : Type) where
  | run
  | fetch (outcome : Except F (Option T))
  /-- The awaited Redis operation fails. -/
  | fail (error : RedisStoreError)

inductive ReadCall where
  | idle
  | called (key : String) (began : Nat)
  | executing (key : String) (began : Nat)

/-- A call of `invalidate`, with the keys it has deleted and the steps it did so. -/
inductive InvalidateCall where
  | idle
  | deleting (rest : List String) (removed : Nat) (deleted : List (String × Nat))
  | returned (removed : Nat) (deleted : List (String × Nat)) (returnedAt : Nat)
  | failed (deleted : List (String × Nat))

def InvalidateCall.deleted : InvalidateCall → List (String × Nat)
  | .idle => []
  | .deleting _ _ deleted => deleted
  | .returned _ deleted _ => deleted
  | .failed deleted => deleted

structure System (N C R T B F : Type) where
  shared : Shared N C B
  reads : N × C → ReadCall
  flights : N → Flights C String (Load T B) (Fetched (Option T)) (RedisModelCacheError F)
  invalidates : N × R → InvalidateCall

/-- New instances on an empty namespace. -/
def System.new (N C R T B F : Type) : System N C R T B F where
  shared := ⟨0, .new (Fetched B), fun _ => .none, fun _ => {}, fun _ => 0⟩
  reads := fun _ => .idle
  flights := fun _ => SingleFlight.new C String (Load T B) (Fetched (Option T))
    (RedisModelCacheError F)
  invalidates := fun _ => .idle

inductive Action (N C R T B F : Type) where
  | getOrFetch (cache : N) (call : C) (key : String)
  | enter (cache : N) (call : C)
  | flight (cache : N) (action : SingleFlight.Action C String (Load T B) (Label T F))
  /-- Redis serves the `PSETEX` of a call. -/
  | serve (cache : N) (call : C)
  | invalidate (cache : N) (call : R) (keys : List String)
  /-- Redis serves the next `DEL` of an `invalidate`, which returns after the last. -/
  | proceed (cache : N) (call : R)
  /-- An `invalidate` fails or is dropped. -/
  | abort (cache : N) (call : R)
  /-- Redis evicts a key, or serves a `DEL` its caller has given up on. -/
  | evict (key : String)
  | elapse (millis : Nat)

section Step

variable {N C R T B F : Type} [DecidableEq N] [DecidableEq C]

/-- The entry `get_or_fetch` writes for what it fetched, and its base expiry. -/
def entryFor (config : RedisModelCacheConfig) : Option T → Option (ModelCacheEntry T × Nat)
  | some value => some (.value value, config.ttl)
  | none => if config.cacheNotFound then some (.notFound, config.notFoundTtl) else none

/-- The milliseconds `RedisStore::set` passes to `PSETEX`. -/
def setMillis (ttl : Nat) : Except RedisStoreError Nat :=
  if ttl = 0 then .error .invalidTtl else durationMillis ttl

def ModelCacheEntry.get : ModelCacheEntry T → Option T
  | .value model => some model
  | .notFound => none

/-- The closure of `get_or_fetch`. -/
def loadOperation (setup : Setup N T B) (cache : N) :
    Operation C (Shared N C B) String (Load T B) (Label T F) (Fetched (Option T))
      (RedisModelCacheError F) where
  step shared call key
    | .start, .run =>
        match shared.server.get (storeKey setup.keyPrefix key) with
        | some bytes =>
            match setup.codec.fromSlice bytes.value with
            | none => some (shared, .ready (.error .serialization))
            | some entry =>
                let stats := shared.counters cache
                some ({ shared with
                  counters := Function.update shared.counters cache
                    { stats with hits := stats.hits + 1 } },
                  .ready (.ok ⟨entry.get, bytes.startedAt⟩))
        | none =>
            let stats := shared.counters cache
            some ({ shared with
              counters := Function.update shared.counters cache
                { stats with misses := stats.misses + 1 } }, .pending .missed)
    | .start, .fail error => some (shared, .ready (.error (.store error)))
    | .missed, .run => some (shared, .pending (.fetching shared.now))
    | .fetching startedAt, .fetch outcome =>
        match outcome with
        | .error error => some (shared, .ready (.error (.fetch error)))
        | .ok value => some (shared, .pending (.fetched ⟨value, startedAt⟩))
    | .fetched value, .run =>
        match entryFor (setup.config cache) value.value with
        | none => some (shared, .ready (.ok value))
        | some (entry, base) =>
            match setup.codec.toVec entry with
            | none => some (shared, .ready (.error .serialization))
            | some bytes =>
                let sequence := shared.ttlSequence cache
                let ttl := jitteredTtl base (setup.config cache).expiryJitter sequence
                some ({ shared with
                  ttlSequence := Function.update shared.ttlSequence cache (sequence + 1) },
                  .pending (.connecting value ⟨bytes, value.startedAt⟩ ttl))
    | .connecting value bytes ttl, .run =>
        match setMillis ttl with
        | .error error => some (shared, .ready (.error (.store error)))
        | .ok millis =>
            some ({ shared with
              writes := Function.update shared.writes (cache, call) (.sent key bytes millis) },
              .pending (.setting value))
    | .connecting _ _ _, .fail error => some (shared, .ready (.error (.store error)))
    | .setting value, .run =>
        match shared.writes (cache, call) with
        | .replied true =>
            let stats := shared.counters cache
            some ({ shared with
              counters := Function.update shared.counters cache
                { stats with insertions := stats.insertions + 1 } }, .ready (.ok value))
        | .replied false => some (shared, .ready (.error (.store .redis)))
        | _ => none
    | .setting _, .fail error => some (shared, .ready (.error (.store error)))
    | _, _ => none
  suspended
    | .missed => false
    | .fetched _ => false
    | _ => true

variable [DecidableEq R]

/-- One step, without the step count. -/
def act (setup : Setup N T B) (s : System N C R T B F) :
    Action N C R T B F → Option (System N C R T B F)
  | .getOrFetch cache call key =>
      match s.reads (cache, call) with
      | .idle =>
          some { s with
            reads := Function.update s.reads (cache, call) (.called key s.shared.now) }
      | _ => none
  | .enter cache call =>
      match s.reads (cache, call) with
      | .called key began =>
          (SingleFlight.step (loadOperation setup cache) s.shared (s.flights cache)
            (.enter call key .start)).map fun (shared, flights) =>
              { s with
                shared := shared
                flights := Function.update s.flights cache flights
                reads := Function.update s.reads (cache, call) (.executing key began) }
      | _ => none
  | .flight _ (.enter _ _ _) => none
  | .flight cache action =>
      (SingleFlight.step (loadOperation setup cache) s.shared (s.flights cache) action).map
        fun (shared, flights) =>
          { s with shared := shared, flights := Function.update s.flights cache flights }
  | .serve cache call =>
      match s.shared.writes (cache, call) with
      | .sent key bytes millis =>
          let reply := s.shared.server.psetEx (storeKey setup.keyPrefix key) bytes millis
          some { s with shared := { s.shared with
            server := reply.getD s.shared.server
            writes := Function.update s.shared.writes (cache, call)
              (.replied reply.isSome) } }
      | _ => none
  | .invalidate cache call keys =>
      match s.invalidates (cache, call) with
      | .idle =>
          some { s with
            invalidates := Function.update s.invalidates (cache, call) (.deleting keys 0 []) }
      | _ => none
  | .proceed cache call =>
      match s.invalidates (cache, call) with
      | .deleting (key :: rest) removed deleted =>
          let (server, count) := s.shared.server.del (storeKey setup.keyPrefix key)
          some { s with
            shared := { s.shared with server := server }
            invalidates := Function.update s.invalidates (cache, call)
              (.deleting rest (removed + count) (deleted ++ [(key, s.shared.now)])) }
      | .deleting [] removed deleted =>
          let stats := s.shared.counters cache
          some { s with
            shared := { s.shared with
              counters := Function.update s.shared.counters cache
                { stats with evictions := stats.evictions + UInt64.ofNat removed } }
            invalidates := Function.update s.invalidates (cache, call)
              (.returned removed deleted s.shared.now) }
      | _ => none
  | .abort cache call =>
      match s.invalidates (cache, call) with
      | .deleting _ _ deleted =>
          some { s with
            invalidates := Function.update s.invalidates (cache, call) (.failed deleted) }
      | _ => none
  | .evict key =>
      some { s with shared := { s.shared with server := s.shared.server.put key none } }
  | .elapse millis =>
      some { s with shared := { s.shared with server := s.shared.server.elapse millis } }

/-- One step. -/
def step (setup : Setup N T B) (s : System N C R T B F) (a : Action N C R T B F) :
    Option (System N C R T B F) :=
  (act setup s a).map fun s' => { s' with shared := { s'.shared with now := s.shared.now + 1 } }

/-- Every interleaving of calls on the instances. -/
def lts (N C R F : Type) [DecidableEq N] [DecidableEq C] [DecidableEq R]
    (setup : Setup N T B) : Lts (System N C R T B F) (Action N C R T B F) where
  init := .new N C R T B F
  step := step setup

end Step

/-! ## The requirement and its condition -/

section Requirement

variable {N C R T B F : Type}

/-- The key a call looks for and the step it began in. -/
def ReadCall.since : ReadCall → Option (String × Nat)
  | .idle => none
  | .called key began => some (key, began)
  | .executing key began => some (key, began)

/-- When the fetch of a closure was started. -/
def Load.held : Load T B → Option Nat
  | .fetching startedAt => some startedAt
  | .fetched value => some value.startedAt
  | .connecting value _ _ => some value.startedAt
  | .setting value => some value.startedAt
  | _ => none

/-- The calls of one instance, with what they look for. -/
def System.since (s : System N C R T B F) (cache : N) (call : C) : Option (String × Nat) :=
  (s.reads (cache, call)).since

/-- An `invalidate` of some instance deleted the key in this step. -/
def System.Deleted (s : System N C R T B F) (key : String) (deletedAt : Nat) : Prop :=
  ∃ call, (key, deletedAt) ∈ (s.invalidates call).deleted

/-- An `invalidate` that deleted the key in this step has returned. -/
def System.Returned (s : System N C R T B F) (key : String) (deletedAt returnedAt : Nat) :
    Prop :=
  ∃ call removed deleted, s.invalidates call = .returned removed deleted returnedAt ∧
    (key, deletedAt) ∈ deleted

/-- Redis serves a write only when its key was not deleted since its fetch was
started, and a call joins a flight only when the flight's fetch was not started
before a deletion that the call has to observe. -/
def Sticks (s : System N C R T B F) : Action N C R T B F → Prop
  | .enter cache call => ∀ key began leader startedAt,
      s.reads (cache, call) = .called key began →
      Holds Load.held ((s.flights cache).calls leader) key startedAt →
      Fresh s.Returned (some (key, began)) startedAt
  | .serve cache call => ∀ key bytes millis,
      s.shared.writes (cache, call) = .sent key bytes millis →
      Outlives s.Deleted key bytes.startedAt
  | _ => True

/-- The invariant: what Redis stores outlives every deletion, and every value a call
has got, or will get from the flight it waits for, is fresh. -/
structure Inv (setup : Setup N T B) (s : System N C R T B F) : Prop where
  deleted : ∀ key deletedAt, s.Deleted key deletedAt → deletedAt < s.shared.now
  began : ∀ cache call key began, s.since cache call = some (key, began) → began < s.shared.now
  stored : ∀ key entry,
    s.shared.server.entries (storeKey setup.keyPrefix key) = some entry →
    Outlives s.Deleted key entry.value.startedAt
  delivers : ∀ cache, Delivers (Owes Load.held s.Returned (s.since cache))
    (Good s.Returned (s.since cache)) (s.flights cache)

variable {setup : Setup N T B} {s s' : System N C R T B F}

theorem System.Returned.deleted {key : String} {deletedAt returnedAt : Nat}
    (returned : s.Returned key deletedAt returnedAt) : s.Deleted key deletedAt := by
  obtain ⟨call, removed, deleted, eq, member⟩ := returned
  refine ⟨call, ?_⟩
  rw [eq]
  exact member

theorem Inv.init : Inv setup (System.new N C R T B F) where
  deleted := by
    rintro key deletedAt ⟨call, member⟩
    cases member
  began := nofun
  stored := nofun
  delivers _ := Delivers.new

/-- What Redis stores for a key is fresh for every call. -/
theorem Inv.fresh_stored (inv : Inv setup s) {key : String} {value : Fetched B} {began : Nat}
    (found : s.shared.server.get (storeKey setup.keyPrefix key) = some value) :
    Fresh s.Returned (some (key, began)) value.startedAt := by
  obtain ⟨entry, stored, rfl⟩ := Server.entry_of_get found
  exact (inv.stored key entry stored).fresh fun _ _ returned => returned.deleted

/-! ## The closure -/

variable [DecidableEq N] [DecidableEq C] {shared shared' : Shared N C B} {cache : N} {call : C}
  {key : String} {op : Load T B} {label : Label T F}
  {progress : Progress (Load T B) (Fetched (Option T)) (RedisModelCacheError F)}

theorem loadOperation_stamps {Q : Nat → Prop}
    (run : (loadOperation setup cache).step shared call key op label = some (shared', progress))
    (stored : ∀ value, shared.server.get (storeKey setup.keyPrefix key) = some value →
      Q value.startedAt)
    (now : Q shared.now) (held : ∀ startedAt, op.held = some startedAt → Q startedAt) :
    Stamps Load.held Q progress := by
  dsimp only [loadOperation] at run
  split at run
  · split at run
    · rename_i bytes got
      split at run <;> cases run
      · trivial
      · exact stored bytes got
    · cases run
      exact nofun
  · cases run
    trivial
  · cases run
    intro startedAt eq
    cases eq
    exact now
  · split at run <;> cases run
    · trivial
    · exact held
  · split at run
    · cases run
      exact held _ rfl
    · split at run <;> cases run
      · trivial
      · exact held
  · split at run <;> cases run
    · trivial
    · exact held
  · cases run
    trivial
  · split at run <;> cases run
    · exact held _ rfl
    · trivial
  · cases run
    trivial
  · cases run

/-- The closure reads from the server and sends writes to it, which the server
serves later. -/
theorem loadOperation_server
    (run : (loadOperation setup cache).step shared call key op label = some (shared', progress)) :
    shared'.server = shared.server := by
  dsimp only [loadOperation] at run
  split at run
  · split at run
    · split at run <;> cases run <;> rfl
    · cases run
      rfl
  · cases run
    rfl
  · cases run
    rfl
  · split at run <;> cases run <;> rfl
  · split at run
    · cases run
      rfl
    · split at run <;> cases run <;> rfl
  · split at run <;> cases run <;> rfl
  · cases run
    rfl
  · split at run <;> cases run <;> rfl
  · cases run
    rfl
  · cases run

/-! ## Every step keeps the invariant -/

omit [DecidableEq N] [DecidableEq C] in
/-- What a step has to show: deletions empty their key, invalidations return now,
calls that have begun look for the same, and what is stored is old or outlives every
deletion so far. -/
theorem Inv.next (inv : Inv setup s) (now : s'.shared.now = s.shared.now + 1)
    (deleted : ∀ key deletedAt, s'.Deleted key deletedAt → s.Deleted key deletedAt ∨
      deletedAt = s.shared.now ∧
        s'.shared.server.entries (storeKey setup.keyPrefix key) = none)
    (returned : ∀ key deletedAt returnedAt, s'.Returned key deletedAt returnedAt →
      s.Returned key deletedAt returnedAt ∨ s.shared.now ≤ returnedAt)
    (same : ∀ cache call, s.since cache call ≠ none → s'.since cache call = s.since cache call)
    (begins : ∀ cache call key began, s'.since cache call = some (key, began) →
      s.since cache call = some (key, began) ∨ began = s.shared.now)
    (stored : ∀ key entry,
      s'.shared.server.entries (storeKey setup.keyPrefix key) = some entry →
      s.shared.server.entries (storeKey setup.keyPrefix key) = some entry ∨
        Outlives s.Deleted key entry.value.startedAt)
    (delivers : ∀ cache, Delivers (Owes Load.held s.Returned (s.since cache))
      (Good s.Returned (s.since cache)) (s'.flights cache)) : Inv setup s' where
  deleted := by
    intro key deletedAt after
    rw [now]
    rcases deleted key deletedAt after with old | ⟨rfl, _⟩
    · exact Nat.lt_succ_of_lt (inv.deleted key deletedAt old)
    · exact Nat.lt_succ_self _
  began := by
    intro cache call key began eq
    rw [now]
    rcases begins cache call key began eq with old | rfl
    · exact Nat.lt_succ_of_lt (inv.began cache call key began old)
    · exact Nat.lt_succ_self _
  stored := by
    intro key entry found deletedAt after
    rcases deleted key deletedAt after with old | ⟨_, gone⟩
    · rcases stored key entry found with before | outlives
      · exact inv.stored key entry before deletedAt old
      · exact outlives deletedAt old
    · rw [gone] at found
      cases found
  delivers cache := delivers_keep (delivers cache) (same cache)
    (fun call key began eq => Nat.le_of_lt (inv.began cache call key began eq)) returned

/-- A step of the flights of one instance, with calls that look for the same as
before. -/
theorem Inv.flight (inv : Inv setup s) {reads : N × C → ReadCall}
    {action : SingleFlight.Action C String (Load T B) (Label T F)}
    {flights' : Flights C String (Load T B) (Fetched (Option T)) (RedisModelCacheError F)}
    (same : ∀ call, (reads call).since = (s.reads call).since)
    (step : SingleFlight.step (loadOperation setup cache) s.shared (s.flights cache) action =
      some (shared', flights'))
    (enter : ∀ call key op, action = .enter call key op → op.held = none ∧
      (∃ began, s.since cache call = some (key, began)) ∧
      ∀ leader startedAt, Holds Load.held ((s.flights cache).calls leader) key startedAt →
        Fresh s.Returned (s.since cache call) startedAt) :
    Inv setup { s with
      shared := { shared' with now := s.shared.now + 1 }
      reads := reads
      flights := Function.update s.flights cache flights' } := by
  have server : shared'.server = s.shared.server := by
    rcases step_polls_or step with ⟨_, _, _, _, _, _, _, run, _⟩ | ⟨rfl, _⟩
    · exact loadOperation_server run
    · rfl
  refine inv.next rfl (fun _ _ deleted => .inl deleted) (fun _ _ _ returned => .inl returned)
    (fun cache' call _ => same (cache', call)) (fun cache' call key began eq => ?_)
    (fun key entry found => ?_) fun cache' => ?_
  · exact .inl ((same (cache', call)).symm.trans eq)
  · dsimp only at found
    rw [server] at found
    exact .inl found
  · by_cases other : cache' = cache
    · subst cache'
      dsimp only
      rw [Function.update_self]
      exact delivers_flight (inv.delivers cache) step enter
        fun call key op label shared' progress began run fresh => loadOperation_stamps run
          (fun _ found => inv.fresh_stored found)
          (fresh_now fun key _ _ returned => inv.deleted key _ returned.deleted) fresh
    · dsimp only
      rw [Function.update_of_ne other]
      exact inv.delivers cache'

omit [DecidableEq C] in
/-- A step of an `invalidate`: what it deletes is gone from Redis, and it returns
now. -/
theorem Inv.proceed [DecidableEq R] (inv : Inv setup s) {call : N × R} {phase : InvalidateCall}
    (deletes : ∀ key deletedAt, (key, deletedAt) ∈ phase.deleted →
      (key, deletedAt) ∈ (s.invalidates call).deleted ∨ deletedAt = s.shared.now ∧
        shared'.server.entries (storeKey setup.keyPrefix key) = none)
    (returns : ∀ removed deleted returnedAt, phase = .returned removed deleted returnedAt →
      returnedAt = s.shared.now)
    (stored : ∀ key entry, shared'.server.entries (storeKey setup.keyPrefix key) = some entry →
      s.shared.server.entries (storeKey setup.keyPrefix key) = some entry) :
    Inv setup { s with
      shared := { shared' with now := s.shared.now + 1 }
      invalidates := Function.update s.invalidates call phase } := by
  refine inv.next rfl ?_ ?_ (fun _ _ _ => rfl) (fun _ _ _ _ eq => .inl eq)
    (fun key entry found => .inl (stored key entry found)) inv.delivers
  · rintro key deletedAt ⟨call', member⟩
    dsimp only at member
    rw [Function.update_apply] at member
    split at member
    · rcases deletes key deletedAt member with old | new
      · exact .inl ⟨call, old⟩
      · exact .inr new
    · exact .inl ⟨call', member⟩
  · rintro key deletedAt returnedAt ⟨call', removed, deleted, eq, member⟩
    rcases phase_of_update eq with ⟨_, new⟩ | ⟨_, old⟩
    · exact .inr (returns removed deleted returnedAt new).ge
    · exact .inl ⟨call', removed, deleted, old, member⟩

theorem Inv.step [DecidableEq R] {a : Action N C R T B F} (inv : Inv setup s)
    (sticks : Sticks s a) (step : RedisModel.step setup s a = some s') : Inv setup s' := by
  obtain ⟨t, h, rfl⟩ := Option.map_eq_some_iff.mp step
  clear step
  cases a with
  | getOrFetch cache call key =>
      simp only [act] at h
      split at h
      · rename_i idle
        cases h
        refine inv.next rfl (fun _ _ deleted => .inl deleted) (fun _ _ _ returned => .inl returned)
          (fun cache' call' started => ?_) (fun cache' call' key' began eq => ?_)
          (fun _ _ found => .inl found) inv.delivers
        · have other : (cache', call') ≠ (cache, call) := by
            intro eq
            rw [System.since, eq, idle] at started
            exact started rfl
          dsimp only [System.since]
          rw [Function.update_of_ne other]
        · dsimp only [System.since] at eq
          rw [Function.update_apply] at eq
          split at eq
          · cases eq
            exact .inr rfl
          · exact .inl eq
      · cases h
  | enter cache call =>
      simp only [act] at h
      split at h
      · rename_i key began called
        obtain ⟨⟨shared', flights'⟩, step, rfl⟩ := Option.map_eq_some_iff.mp h
        have since : s.since cache call = some (key, began) := by
          rw [System.since, called]
          rfl
        refine inv.flight (fun call' => ?_) step fun call' key' op eq => ?_
        · dsimp only
          rw [Function.update_apply]
          split
          · subst call'
            exact since.symm
          · rfl
        · cases eq
          refine ⟨rfl, ⟨began, since⟩, fun leader startedAt holds => ?_⟩
          rw [since]
          exact sticks key began leader startedAt called holds
      · cases h
  | flight cache action =>
      obtain ⟨notEnter, h⟩ : (∀ call key op, action ≠ .enter call key op) ∧
          (SingleFlight.step (loadOperation setup cache) s.shared (s.flights cache) action).map
            (fun (shared, flights) =>
              { s with shared := shared, flights := Function.update s.flights cache flights }) =
              some t := by
        cases action with
        | enter call key op => cases h
        | _ => exact ⟨nofun, h⟩
      obtain ⟨⟨shared', flights'⟩, step, rfl⟩ := Option.map_eq_some_iff.mp h
      exact inv.flight (fun _ => rfl) step fun call key op eq => absurd eq (notEnter call key op)
  | serve cache call =>
      simp only [act] at h
      split at h
      · rename_i key bytes millis sent
        cases h
        refine inv.next rfl (fun _ _ deleted => .inl deleted) (fun _ _ _ returned => .inl returned)
          (fun _ _ _ => rfl) (fun _ _ _ _ eq => .inl eq) (fun key' entry found => ?_) inv.delivers
        dsimp only at found
        cases reply : s.shared.server.psetEx (storeKey setup.keyPrefix key) bytes millis with
        | none =>
            rw [reply] at found
            exact .inl found
        | some server =>
            rw [reply] at found
            rcases Server.psetEx_entries reply found with ⟨sameKey, sameValue⟩ | old
            · have := storeKey_injective setup.keyPrefix sameKey
              subst this
              rw [sameValue]
              exact .inr (sticks key' bytes millis sent)
            · exact .inl old
      · cases h
  | invalidate cache call keys =>
      simp only [act] at h
      split at h
      · cases h
        exact inv.proceed nofun nofun fun _ _ found => found
      · cases h
  | proceed cache call =>
      simp only [act] at h
      split at h
      · rename_i key rest removed deleted phase
        cases h
        refine inv.proceed (fun key' deletedAt member => ?_) nofun
          fun _ _ found => (Server.put_none_entries found).2
        rw [phase]
        rcases List.mem_append.mp member with old | new
        · exact .inl old
        · cases List.mem_singleton.mp new
          exact .inr ⟨rfl, (Server.put_entries _ _ _ _).trans (if_pos rfl)⟩
      · rename_i removed deleted phase
        cases h
        refine inv.proceed (fun key' deletedAt member => ?_) (fun _ _ _ eq => ?_)
          fun _ _ found => found
        · rw [phase]
          exact .inl member
        · cases eq
          rfl
      · cases h
  | abort cache call =>
      simp only [act] at h
      split at h
      · rename_i rest removed deleted phase
        cases h
        refine inv.proceed (fun key' deletedAt member => ?_) nofun fun _ _ found => found
        rw [phase]
        exact .inl member
      · cases h
  | evict key =>
      cases h
      exact inv.next rfl (fun _ _ deleted => .inl deleted) (fun _ _ _ returned => .inl returned)
        (fun _ _ _ => rfl) (fun _ _ _ _ eq => .inl eq)
        (fun _ _ found => .inl (Server.put_none_entries found).2) inv.delivers
  | elapse millis =>
      cases h
      exact inv.next rfl (fun _ _ deleted => .inl deleted) (fun _ _ _ returned => .inl returned)
        (fun _ _ _ => rfl) (fun _ _ _ _ eq => .inl eq) (fun _ _ found => .inl found)
        inv.delivers

theorem Inv.reach [DecidableEq R] (reach : (lts N C R F setup).Reach Sticks s) : Inv setup s :=
  reach.invariant Inv.init fun _ _ _ inv sticks step => inv.step sticks step

end Requirement

/-- The call of `get_or_fetch` has returned this value. -/
def Returns {N C R T B F : Type} (s : System N C R T B F) (cache : N) (call : C)
    (key : String) (began : Nat) (value : Fetched (Option T)) : Prop :=
  s.reads (cache, call) = .executing key began ∧
    (s.flights cache).calls call = .returned (.ok value)

/-- A call that begins after an invalidation returned gets a value fetched after
it. -/
theorem Inv.returns_fresh {N C R T B F : Type} {setup : Setup N T B} {s : System N C R T B F}
    (inv : Inv setup s) {cache : N} {call : C} {key : String} {began : Nat}
    {value : Fetched (Option T)} (returns : Returns s cache call key began value) :
    Fresh s.Returned (some (key, began)) value.startedAt := by
  obtain ⟨executing, returned⟩ := returns
  have good := ((inv.delivers cache).returned call _ returned value rfl).2
  rw [System.since, executing] at good
  exact good

end RustZero.RedisModel
