import Mathlib

/-!
# The commands of a Redis server

What `RedisStore` in `core/src/stores_redis.rs` asks of Redis, each command as one
step on the server: string values under keys with an expiry in milliseconds.  An
expired entry is absent for every command.

* `Server` and its commands `get`, `psetEx`, `setNxPx`, `pexpire` and `del`; `none`
  is an error reply, which leaves the server as it was.
* `storeKey` is the namespace of a store and `durationMillis` how it passes
  durations on.
-/

namespace RustZero.Redis

/-- The errors of `RedisStoreError` that the modelled functions return. -/
inductive RedisStoreError where
  /-- Redis replied with an error, or the connection failed. -/
  | redis
  | timeout
  | invalidTtl
  | durationOverflow
  | invalidArgument (message : String)
  deriving DecidableEq, Repr

/-- `RedisStore::key`. -/
def storeKey (keyPrefix key : String) : String := keyPrefix ++ key

theorem storeKey_injective (keyPrefix : String) : Function.Injective (storeKey keyPrefix) := by
  intro key key' same
  have lists := congrArg String.toList same
  simp only [storeKey, String.toList_append, List.append_cancel_left_eq] at lists
  exact String.toList_injective lists

/-- Whole milliseconds of a duration in nanoseconds, as an `u64`. -/
def durationMillis (nanos : Nat) : Except RedisStoreError Nat :=
  if nanos / 1000000 < 2 ^ 64 then .ok (nanos / 1000000) else .error .durationOverflow

structure Entry (B : Type) where
  value : B
  expiresAt : Nat

/-- The clock counts milliseconds. -/
structure Server (B : Type) where
  clock : Nat
  entries : String → Option (Entry B)

namespace Server

variable {B : Type}

def new (B : Type) : Server B := ⟨0, fun _ => none⟩

/-- The entry under a key that has not expired. -/
def live (server : Server B) (key : String) : Option (Entry B) :=
  (server.entries key).filter fun entry => server.clock < entry.expiresAt

def get (server : Server B) (key : String) : Option B :=
  (server.live key).map Entry.value

/-- Redis accepts a positive expiry whose instant it can represent. -/
def accepts (server : Server B) (millis : Nat) : Bool :=
  0 < millis && server.clock + millis < 2 ^ 63

/-- Write an entry, or remove it. -/
def put (server : Server B) (key : String) (entry : Option (Entry B)) : Server B :=
  { server with entries := Function.update server.entries key entry }

/-- `PSETEX key millis value`. -/
def psetEx (server : Server B) (key : String) (value : B) (millis : Nat) : Option (Server B) :=
  if server.accepts millis then
    some (server.put key (some ⟨value, server.clock + millis⟩))
  else none

/-- `SET key value NX PX millis`, and whether it was set. -/
def setNxPx (server : Server B) (key : String) (value : B) (millis : Nat) :
    Option (Server B × Bool) :=
  if server.accepts millis then
    match server.get key with
    | some _ => some (server, false)
    | none => some (server.put key (some ⟨value, server.clock + millis⟩), true)
  else none

/-- `DEL key`, and how many keys it removed. -/
def del (server : Server B) (key : String) : Server B × Nat :=
  (server.put key none, if (server.get key).isSome then 1 else 0)

/-- `PEXPIRE key millis`, and how many keys it changed: an expiry that is not in the
future removes the key. -/
def pexpire (server : Server B) (key : String) (millis : Nat) : Option (Server B × Nat) :=
  if server.clock + millis < 2 ^ 63 then
    match server.live key with
    | none => some (server, 0)
    | some entry =>
        if millis = 0 then some (server.put key none, 1)
        else some (server.put key (some ⟨entry.value, server.clock + millis⟩), 1)
  else none

/-- Time passes. -/
def elapse (server : Server B) (millis : Nat) : Server B :=
  { server with clock := server.clock + millis }

/-! ## What a key holds -/

variable {server server' : Server B} {key key' : String}

theorem put_entries (server : Server B) (key key' : String) (entry : Option (Entry B)) :
    (server.put key entry).entries key' = if key' = key then entry else server.entries key' :=
  Function.update_apply server.entries key entry key'

/-- What a command reads is stored. -/
theorem entry_of_get {value : B} (found : server.get key = some value) :
    ∃ entry, server.entries key = some entry ∧ entry.value = value := by
  obtain ⟨entry, live, eq⟩ := Option.map_eq_some_iff.mp found
  exact ⟨entry, (Option.filter_eq_some_iff.mp live).1, eq⟩

/-- `PSETEX` stores its value under its key. -/
theorem psetEx_entries {value : B} {millis : Nat} {entry : Entry B}
    (set : server.psetEx key value millis = some server')
    (stored : server'.entries key' = some entry) :
    key' = key ∧ entry.value = value ∨ server.entries key' = some entry := by
  unfold psetEx at set
  split at set
  · cases set
    rw [put_entries] at stored
    split at stored
    · cases stored
      exact .inl ⟨‹_›, rfl⟩
    · exact .inr stored
  · cases set

theorem pexpire_live {entry : Entry B} (live : server.live key = some entry) (millis : Nat) :
    server.pexpire key millis =
      if server.clock + millis < 2 ^ 63 then
        some (server.put key
          (if millis = 0 then none else some ⟨entry.value, server.clock + millis⟩), 1)
      else none := by
  unfold pexpire
  rw [live]
  split
  · dsimp only
    split <;> rfl
  · rfl

/-- What a removed key leaves. -/
theorem put_none_entries {entry : Entry B}
    (stored : (server.put key none).entries key' = some entry) :
    key' ≠ key ∧ server.entries key' = some entry := by
  rw [put_entries] at stored
  split at stored
  · cases stored
  · exact ⟨‹_›, stored⟩

end Server

end RustZero.Redis
