import RustZero.Lib.Lts
import RustZero.Lib.Phases
import RustZero.Redis

/-!
# The Redis lock

`RedisLock` of `core/src/stores_redis.rs`: a lock is a key that holds the token of
its owner until it is released or its expiry passes.  Who owns the key is kept in
Redis, in the expiry there, and in the `held` flag of each `RedisLock`; `acquire`,
`extend` and `release` keep the three in step, more or less.

Any number of locks `I`, with tokens of their own, compete for one key with calls
named by `C` for each.  Every command and script is one step of the server.  The commands of
a lock travel on one connection, so the server serves them in the order they were
sent in, also those whose call has given up.  `acquire` and `release` borrow the
lock mutably and exclude other calls that start; calls of `extend` may overlap.

What the code does not keep is the `lease` of a lock (when the key that it owns
expires), whether one of its calls has `errored`, and the token a command `found`.
-/

namespace RustZero.RedisLock

open Lib Redis

/-- The locks on one key, as `RedisStore::lock` makes them. -/
structure Setup (I : Type) where
  key : String
  token : I → String
  ttl : I → Nat
  distinct : Function.Injective token
  positive : ∀ lock, 0 < ttl lock

inductive Command where
  | acquire (millis : Nat)
  | extend (millis : Nat)
  | release
  deriving DecidableEq

/-- The call borrows its lock mutably. -/
def Command.mutates : Command → Bool
  | .extend _ => false
  | _ => true

/-- How far a call has come. -/
inductive Call where
  | idle
  | sent (command : Command)
  /-- Redis has served the command; `none` is an error reply. -/
  | answered (command : Command) (found : Option String) (answer : Option Bool)
  | returned (command : Command) (found : Option String) (result : Bool)
  /-- `false`, without a command. -/
  | refused
  /-- The call has returned an error, or was dropped. -/
  | failed (error : RedisStoreError)

structure Lock (C : Type) where
  held : Bool := false
  /-- The call of `acquire` or `release` that is under way. -/
  mutator : Option C := none
  calls : C → Call := fun _ => .idle
  queue : List (C × Command) := []
  lease : Option Nat := none
  errored : Bool := false

structure System (I C : Type) where
  server : Server String
  locks : I → Lock C

def System.new (I C : Type) : System I C := ⟨.new String, fun _ => {}⟩

inductive Action (I C : Type) where
  /-- The connection fails with `failure`, if there is one. -/
  | acquire (lock : I) (call : C) (failure : Option RedisStoreError)
  | extend (lock : I) (call : C) (ttl : Nat) (failure : Option RedisStoreError)
  | release (lock : I) (call : C) (failure : Option RedisStoreError)
  /-- Redis serves the next command of a lock. -/
  | serve (lock : I)
  /-- The next command of a lock never reaches Redis. -/
  | lose (lock : I)
  | receive (lock : I) (call : C)
  | abort (lock : I) (call : C) (error : RedisStoreError)
  | elapse (millis : Nat)

/-- `RELEASE_LOCK`: delete the key if it holds the token. -/
def releaseLock (server : Server String) (key token : String) : Server String × Nat :=
  if server.get key = some token then server.del key else (server, 0)

/-- `EXTEND_LOCK`: set the expiry of the key if it holds the token. -/
def extendLock (server : Server String) (key token : String) (millis : Nat) :
    Option (Server String × Nat) :=
  if server.get key = some token then server.pexpire key millis else some (server, 0)

section Step

variable {I C : Type}

/-- The effect of a command and the answer its call gets; `none` is an error. -/
def execute (setup : Setup I) (server : Server String) (lock : I) :
    Command → Server String × Option Bool
  | .acquire millis =>
      match server.setNxPx setup.key (setup.token lock) millis with
      | some (server, set) => (server, some set)
      | none => (server, none)
  | .extend millis =>
      match extendLock server setup.key (setup.token lock) millis with
      | some (server, changed) => (server, some (changed == 1))
      | none => (server, none)
  | .release =>
      let (server, deleted) := releaseLock server setup.key (setup.token lock)
      (server, some (deleted == 1))

/-- When the key expires that the lock owns after its command. -/
def leaseAfter (clock : Nat) (lease : Option Nat) : Command → Option Bool → Option Nat
  | .acquire millis, some true => some (clock + millis)
  | .extend millis, some true => some (clock + millis)
  | .release, some true => none
  | _, _ => lease

/-- The flag after the answer to a command. -/
def heldAfter (held answer : Bool) : Command → Bool
  | .acquire _ => answer
  | .extend _ => held
  | .release => false

variable [DecidableEq I] [DecidableEq C]

namespace Lock

def send (l : Lock C) (call : C) (command : Command) : Lock C :=
  { l with
    mutator := if command.mutates then some call else l.mutator
    calls := Function.update l.calls call (.sent command)
    queue := l.queue ++ [(call, command)] }

/-- A call ends, and with it its borrow of the lock. -/
def finish (l : Lock C) (call : C) (outcome : Call) : Lock C :=
  { l with
    mutator := if l.mutator = some call then none else l.mutator
    calls := Function.update l.calls call outcome }

def fail (l : Lock C) (call : C) (error : RedisStoreError) : Lock C :=
  { l.finish call (.failed error) with errored := true }

/-- A call sends its command, with a duration that may not be representable, unless
its connection fails. -/
def request (l : Lock C) (call : C) (failure : Option RedisStoreError)
    (command : Except RedisStoreError Command) : Lock C :=
  match failure, command with
  | some error, _ => l.fail call error
  | none, .error error => l.fail call error
  | none, .ok command => l.send call command

def acquire (l : Lock C) (ttl : Nat) (call : C) (failure : Option RedisStoreError) : Lock C :=
  l.request call failure ((durationMillis ttl).map .acquire)

def extend (l : Lock C) (call : C) (ttl : Nat) (failure : Option RedisStoreError) : Lock C :=
  if l.held = false ∨ ttl = 0 then l.finish call .refused
  else l.request call failure ((durationMillis ttl).map .extend)

def release (l : Lock C) (call : C) (failure : Option RedisStoreError) : Lock C :=
  if l.held = false then l.finish call .refused
  else l.request call failure (.ok .release)

/-- Redis has served the first command of the queue; the answer reaches the call if
that still waits for it. -/
def serve (l : Lock C) (clock : Nat) (call : C) (command : Command) (rest : List (C × Command))
    (found : Option String) (answer : Option Bool) : Lock C :=
  { l with
    calls := match l.calls call with
      | .sent _ => Function.update l.calls call (.answered command found answer)
      | _ => l.calls
    queue := rest
    lease := leaseAfter clock l.lease command answer }

/-- A call takes the answer to its command. -/
def receive (l : Lock C) (call : C) (command : Command) (found : Option String)
    (result : Bool) : Lock C :=
  { l.finish call (.returned command found result) with
    held := heldAfter l.held result command }

end Lock

/-- A call can start: it is new, and no call borrows the lock mutably. -/
def Lock.ready (l : Lock C) (call : C) : Bool :=
  match l.calls call, l.mutator with
  | .idle, none => true
  | _, _ => false

def System.set (s : System I C) (lock : I) (l : Lock C) : System I C :=
  { s with locks := Function.update s.locks lock l }

/-- One step. -/
def step (setup : Setup I) (s : System I C) : Action I C → Option (System I C)
  | .acquire lock call failure =>
      if (s.locks lock).ready call then
        some (s.set lock ((s.locks lock).acquire (setup.ttl lock) call failure))
      else none
  | .extend lock call ttl failure =>
      if (s.locks lock).ready call then
        some (s.set lock ((s.locks lock).extend call ttl failure))
      else none
  | .release lock call failure =>
      if (s.locks lock).ready call then
        some (s.set lock ((s.locks lock).release call failure))
      else none
  | .serve lock =>
      match (s.locks lock).queue with
      | (call, command) :: rest =>
          let (server, answer) := execute setup s.server lock command
          let found := s.server.get setup.key
          some { s.set lock
              ((s.locks lock).serve s.server.clock call command rest found answer) with
            server := server }
      | [] => none
  | .lose lock =>
      match (s.locks lock).queue with
      | _ :: rest => some (s.set lock { s.locks lock with queue := rest })
      | [] => none
  | .receive lock call =>
      let l := s.locks lock
      match l.calls call with
      | .answered command found (some result) =>
          some (s.set lock (l.receive call command found result))
      | .answered _ _ none => some (s.set lock (l.fail call .redis))
      | _ => none
  | .abort lock call error =>
      let l := s.locks lock
      match l.calls call with
      | .sent _ => some (s.set lock (l.fail call error))
      | .answered _ _ _ => some (s.set lock (l.fail call error))
      | _ => none
  | .elapse millis => some { s with server := s.server.elapse millis }

/-- Every interleaving of calls on the locks, with time passing. -/
def lts (C : Type) [DecidableEq C] (setup : Setup I) : Lts (System I C) (Action I C) where
  init := .new I C
  step := step setup

end Step

/-! ## Leases -/

section Leases

variable {I : Type} {setup : Setup I} {server : Server String} {lease : I → Option Nat}

/-- The key holds the token of a lock as long as its lease runs, and only then. -/
structure Leases (setup : Setup I) (server : Server String) (lease : I → Option Nat) :
    Prop where
  running : ∀ lock expiresAt, lease lock = some expiresAt → server.clock < expiresAt →
    server.entries setup.key = some ⟨setup.token lock, expiresAt⟩
  stored : ∀ lock entry, server.entries setup.key = some entry →
    entry.value = setup.token lock → lease lock = some entry.expiresAt

theorem Leases.init : Leases setup (Server.new String) fun _ => none where
  running := nofun
  stored := nofun

/-- The stored token is that of the lock whose lease runs. -/
theorem Leases.get_iff (leases : Leases setup server lease) (lock : I) :
    server.get setup.key = some (setup.token lock) ↔
      ∃ expiresAt, lease lock = some expiresAt ∧ server.clock < expiresAt := by
  constructor
  · intro found
    obtain ⟨entry, live, value⟩ := Option.map_eq_some_iff.mp found
    obtain ⟨stored, alive⟩ := Option.filter_eq_some_iff.mp live
    exact ⟨entry.expiresAt, leases.stored lock entry stored value, of_decide_eq_true alive⟩
  · rintro ⟨expiresAt, leased, runs⟩
    have stored := leases.running lock expiresAt leased runs
    simp [Server.get, Server.live, stored, runs]

/-- While a lease runs, nobody else's token is stored. -/
theorem Leases.unique (leases : Leases setup server lease) {lock other : I} {expiresAt : Nat}
    (leased : lease lock = some expiresAt) (runs : server.clock < expiresAt)
    (found : server.get setup.key = some (setup.token other)) : other = lock := by
  have mine := (leases.get_iff lock).mpr ⟨expiresAt, leased, runs⟩
  rw [mine] at found
  exact setup.distinct (Option.some.inj found).symm

theorem Leases.elapse (leases : Leases setup server lease) (millis : Nat) :
    Leases setup (server.elapse millis) lease where
  running lock expiresAt leased runs :=
    leases.running lock expiresAt leased (Nat.lt_of_le_of_lt (Nat.le_add_right _ _) runs)
  stored := leases.stored

/-- What a command can do: succeed, or leave the server alone. -/
inductive Effect (setup : Setup I) (server : Server String) (lock : I) :
    Command → Server String → Option Bool → Prop
  | acquired {millis} (vacant : server.get setup.key = none) :
      Effect setup server lock (.acquire millis)
        (server.put setup.key (some ⟨setup.token lock, server.clock + millis⟩)) (some true)
  | extended {millis} (mine : server.get setup.key = some (setup.token lock)) :
      Effect setup server lock (.extend millis)
        (server.put setup.key
          (if millis = 0 then none else some ⟨setup.token lock, server.clock + millis⟩))
        (some true)
  | released (mine : server.get setup.key = some (setup.token lock)) :
      Effect setup server lock .release (server.put setup.key none) (some true)
  | unchanged {command answer} (fails : answer ≠ some true)
      (foreign : command = .release → server.get setup.key ≠ some (setup.token lock)) :
      Effect setup server lock command server answer

theorem execute_effect (setup : Setup I) (server : Server String) (lock : I)
    (command : Command) : Effect setup server lock command
      (execute setup server lock command).1 (execute setup server lock command).2 := by
  cases command with
  | acquire millis =>
      simp only [execute, Server.setNxPx]
      split
      · rename_i set
        split at set
        · split at set <;> rename_i got <;> cases set
          · exact .unchanged nofun nofun
          · exact .acquired got
        · cases set
      · exact .unchanged nofun nofun
  | extend millis =>
      simp only [execute, extendLock]
      by_cases mine : server.get setup.key = some (setup.token lock)
      · obtain ⟨entry, live, value⟩ := Option.map_eq_some_iff.mp mine
        rw [if_pos mine, Server.pexpire_live live, value]
        split
        · rename_i set
          split at set <;> cases set
          exact .extended mine
        · exact .unchanged nofun nofun
      · rw [if_neg mine]
        exact .unchanged nofun nofun
  | release =>
      simp only [execute, releaseLock]
      by_cases mine : server.get setup.key = some (setup.token lock)
      · simp only [Server.del, mine, Option.isSome_some, if_true]
        exact .released mine
      · simp only [if_neg mine]
        exact .unchanged nofun fun _ => mine

variable [DecidableEq I]

/-- Storing the token of a lock, with its lease, when no other lease runs. -/
theorem Leases.put (leases : Leases setup server lease) {lock : I} {expiresAt : Nat}
    (alone : ∀ other, other ≠ lock → server.get setup.key ≠ some (setup.token other)) :
    Leases setup (server.put setup.key (some ⟨setup.token lock, expiresAt⟩))
      (Function.update lease lock (some expiresAt)) where
  running := by
    intro other expiresAt' leased runs
    rw [Server.put_entries, if_pos rfl]
    rw [Function.update_apply] at leased
    split at leased
    · subst other
      cases leased
      rfl
    · rename_i ne
      exact absurd ((leases.get_iff other).mpr ⟨expiresAt', leased, runs⟩) (alone other ne)
  stored := by
    intro other entry stored value
    rw [Server.put_entries, if_pos rfl] at stored
    cases stored
    have same := setup.distinct value
    subst other
    rw [Function.update_self]

/-- Removing the token of a lock, with a lease that does not run, or none. -/
theorem Leases.remove (leases : Leases setup server lease) {lock : I} {expired : Option Nat}
    (alone : ∀ other, other ≠ lock → server.get setup.key ≠ some (setup.token other))
    (ends : ∀ expiresAt, expired = some expiresAt → ¬ server.clock < expiresAt) :
    Leases setup (server.put setup.key none) (Function.update lease lock expired) where
  running := by
    intro other expiresAt' leased runs
    rw [Function.update_apply] at leased
    split at leased
    · exact absurd runs (ends expiresAt' leased)
    · rename_i ne
      exact absurd ((leases.get_iff other).mpr ⟨expiresAt', leased, runs⟩) (alone other ne)
  stored := by
    intro other entry stored _
    rw [Server.put_entries, if_pos rfl] at stored
    cases stored

/-- A command keeps leases and stored tokens in step. -/
theorem Leases.execute (leases : Leases setup server lease) (lock : I) (command : Command) :
    Leases setup (RedisLock.execute setup server lock command).1
      (Function.update lease lock (leaseAfter server.clock (lease lock) command
        (RedisLock.execute setup server lock command).2)) := by
  have alone : server.get setup.key = some (setup.token lock) → ∀ other, other ≠ lock →
      server.get setup.key ≠ some (setup.token other) := by
    intro mine other ne found
    rw [mine] at found
    exact ne (setup.distinct (Option.some.inj found)).symm
  have effect := execute_effect setup server lock command
  generalize (RedisLock.execute setup server lock command).1 = server' at effect ⊢
  generalize (RedisLock.execute setup server lock command).2 = answer at effect ⊢
  cases effect with
  | acquired vacant =>
      refine leases.put fun other _ => ?_
      rw [vacant]
      exact nofun
  | extended mine =>
      split
      · rename_i zero
        refine leases.remove (alone mine) fun expiresAt eq => ?_
        cases eq
        omega
      · exact leases.put (alone mine)
  | released mine => exact leases.remove (alone mine) nofun
  | unchanged fails foreign =>
      have same : leaseAfter server.clock (lease lock) command answer = lease lock := by
        unfold leaseAfter
        split <;> first | rfl | exact absurd rfl fails
      rw [same, Function.update_eq_self]
      exact leases

end Leases

end RustZero.RedisLock
