import Mathlib
import RustZero.Lib.Checks
import RustZero.Redis
import RustZero.RedisLock

/-!
# Durations that Redis is told

The operations of `core/src/stores_redis.rs` that pass a `Duration` to Redis in milliseconds:
`set`, `set_if_absent`, `expire`, `RedisLock::acquire` and `extend`, and the `BLOCK` of the two
stream reads.  Each refuses a zero duration or does not, and `duration_millis` rounds down.

* `Command` is what is sent, `Connection` how Redis answers: an expiry of zero is an error for
  the commands that store a value, and for no other.
* `Run` is what an operation sent and returned.
* Durations count nanoseconds.
-/

namespace RustZero.RedisDurations

open Lib Redis

variable {B σ : Type}

/-- The commands, with their durations in milliseconds; values and tokens have type `B`. -/
inductive Command (B : Type) where
  | set (key : String) (value : B)
  | psetEx (key : String) (millis : Nat) (value : B)
  | setNx (key : String) (value : B) (px : Option Nat)
  | pexpire (key : String) (millis : Nat)
  /-- The script `EXTEND_LOCK`. -/
  | extendLock (key : String) (token : B) (millis : Nat)
  | xread (count block : Option Nat) (streams : List (String × String))
  | xreadGroup (group consumer : String) (count block : Option Nat) (noAck : Bool)
      (streams : List (String × String))

namespace Command

def millis : Command B → Option Nat
  | set _ _ => none
  | psetEx _ millis _ => some millis
  | setNx _ _ px => px
  | pexpire _ millis => some millis
  | extendLock _ _ millis => some millis
  | xread _ block _ => block
  | xreadGroup _ _ _ block _ _ => block

/-- The command stores a value under a key. -/
def stores : Command B → Bool
  | set _ _ | psetEx _ _ _ | setNx _ _ _ => true
  | _ => false

end Command

/-- The replies; those of the stream reads have type `σ`. -/
inductive Reply (σ : Type) where
  | nil
  | status (text : String)
  | integer (value : Int)
  | streams (reply : σ)

/-- What the operations return. -/
inductive Outcome (σ : Type) where
  | done
  | flag (value : Bool)
  | streams (reply : Reply σ)

/-- Redis as a store reaches it: whether there is a connection, and what each command is
answered with.  `ERR invalid expire time` is the answer to an expiry of zero. -/
structure Connection (B σ : Type) where
  connect : Except RedisStoreError Unit
  answer : Command B → Except RedisStoreError (Reply σ)
  invalidExpire : ∀ command, command.stores = true → command.millis = some 0 →
    ∃ error, answer command = .error error

/-- What an operation sent, and what it returned. -/
structure Run (B σ : Type) where
  sent : Option (Command B)
  result : Except RedisStoreError (Outcome σ)

/-- The operation ends before a command is sent. -/
def Run.stop (result : Except RedisStoreError (Outcome σ)) : Run B σ :=
  ⟨none, result⟩

/-- `RedisStore::connection`, and what follows it. -/
def Connection.connected (redis : Connection B σ) (next : Run B σ) : Run B σ :=
  match redis.connect with
  | .error error => .stop (.error error)
  | .ok _ => next

/-- `RedisStore::run`: the command is sent and its reply read. -/
def Connection.send (redis : Connection B σ) (command : Except RedisStoreError (Command B))
    (read : Reply σ → Outcome σ) : Run B σ :=
  match command with
  | .error error => .stop (.error error)
  | .ok command => ⟨some command, (redis.answer command).map read⟩

/-- `RedisStore::query` on a command that could be built. -/
def Connection.query (redis : Connection B σ) (command : Except RedisStoreError (Command B))
    (read : Reply σ → Outcome σ) : Run B σ :=
  match command with
  | .error error => .stop (.error error)
  | .ok command => redis.connected (redis.send (.ok command) read)

/-- `Option<String>::is_some` of a reply. -/
def Reply.isSome : Reply σ → Bool
  | nil => false
  | _ => true

/-- A reply as a `bool`. -/
def Reply.isTrue : Reply σ → Bool
  | integer value => value != 0
  | status _ => true
  | _ => false

/-- A reply that is the number one. -/
def Reply.isOne : Reply σ → Bool
  | integer value => value == 1
  | _ => false

/-! ## The operations -/

/-- `RedisStore::set`. -/
def set (redis : Connection B σ) (keyPrefix key : String) (value : B) (ttl : Option Nat) :
    Run B σ :=
  redis.connected <|
    match ttl with
    | some 0 => .stop (.error .invalidTtl)
    | some ttl =>
        redis.send ((durationMillis ttl).map fun millis =>
          .psetEx (storeKey keyPrefix key) millis value) fun _ => .done
    | none => redis.send (.ok (.set (storeKey keyPrefix key) value)) fun _ => .done

/-- `RedisStore::set_json`, on the encoding of a value. -/
def setJson (redis : Connection B σ) (keyPrefix key : String)
    (encoded : Except RedisStoreError B) (ttl : Option Nat) : Run B σ :=
  match encoded with
  | .error error => .stop (.error error)
  | .ok value => set redis keyPrefix key value ttl

/-- `RedisStore::set_if_absent`. -/
def setIfAbsent (redis : Connection B σ) (keyPrefix key : String) (value : B)
    (ttl : Option Nat) : Run B σ :=
  match ttl with
  | none =>
      redis.query (.ok (.setNx (storeKey keyPrefix key) value none)) fun reply =>
        .flag reply.isSome
  | some 0 => .stop (.error .invalidTtl)
  | some ttl =>
      redis.query ((durationMillis ttl).map fun millis =>
        .setNx (storeKey keyPrefix key) value (some millis)) fun reply => .flag reply.isSome

/-- `RedisStore::expire`. -/
def expire (redis : Connection B σ) (keyPrefix key : String) (ttl : Nat) : Run B σ :=
  if ttl = 0 then .stop (.error .invalidTtl)
  else
    redis.query ((durationMillis ttl).map fun millis => .pexpire (storeKey keyPrefix key) millis)
      fun reply => .flag reply.isTrue

/-- `RedisLock`: `RedisStore::lock` panics unless its `ttl` is positive. -/
structure Lock (B : Type) where
  key : String
  token : B
  ttl : Nat
  held : Bool
  positive : 0 < ttl

/-- `RedisLock::acquire`. -/
def Lock.acquire (redis : Connection B σ) (keyPrefix : String) (lock : Lock B) : Run B σ :=
  redis.connected <|
    redis.send ((durationMillis lock.ttl).map fun millis =>
      .setNx (storeKey keyPrefix lock.key) lock.token (some millis)) fun reply =>
        .flag reply.isSome

/-- `RedisLock::extend`. -/
def Lock.extend (redis : Connection B σ) (keyPrefix : String) (lock : Lock B) (ttl : Nat) :
    Run B σ :=
  if !lock.held || ttl == 0 then .stop (.ok (.flag false))
  else
    redis.connected <|
      redis.send ((durationMillis ttl).map fun millis =>
        .extendLock (storeKey keyPrefix lock.key) lock.token millis) fun reply =>
          .flag reply.isOne

/-- `append_stream_read_options`: the `COUNT` and the `BLOCK` of a command. -/
def streamReadOptions (count block : Option Nat) :
    Except RedisStoreError (Option Nat × Option Nat) :=
  if count = some 0 then
    .error (.invalidArgument "Redis stream read count must be positive")
  else
    match block with
    | none => .ok (count, none)
    | some block => (durationMillis block).map fun millis => (count, some millis)

/-- `append_streams`. -/
def streamsOf (keyPrefix : String) (streams : List (String × String)) :
    Except RedisStoreError (List (String × String)) :=
  if streams.isEmpty then
    .error (.invalidArgument "Redis stream reads require at least one stream")
  else .ok (streams.map fun stream => (storeKey keyPrefix stream.1, stream.2))

/-- `RedisStore::stream_read`. -/
def streamRead (redis : Connection B σ) (keyPrefix : String) (streams : List (String × String))
    (count block : Option Nat) : Run B σ :=
  redis.query (do
    let options ← streamReadOptions count block
    let streams ← streamsOf keyPrefix streams
    pure (.xread options.1 options.2 streams)) .streams

/-- `RedisStore::stream_group_read`. -/
def streamGroupRead (redis : Connection B σ) (keyPrefix group consumer : String)
    (streams : List (String × String)) (count block : Option Nat) (noAck : Bool) : Run B σ :=
  if group.isEmpty || consumer.isEmpty then
    .stop (.error (.invalidArgument "Redis stream group and consumer names must not be empty"))
  else
    redis.query (do
      let options ← streamReadOptions count block
      let streams ← streamsOf keyPrefix streams
      pure (.xreadGroup group consumer options.1 options.2 noAck streams)) .streams

/-- The operations that take a duration, with their other arguments. -/
inductive Operation (B : Type) where
  | set (key : String) (value : B)
  | setJson (key : String) (encoded : Except RedisStoreError B)
  | setIfAbsent (key : String) (value : B)
  | expire (key : String)
  | acquire (key : String) (token : B) (held : Bool)
  | extend (lock : Lock B)
  | streamRead (streams : List (String × String)) (count : Option Nat)
  | streamGroupRead (group consumer : String) (streams : List (String × String))
      (count : Option Nat) (noAck : Bool)

namespace Operation

/-- An operation called with a positive duration. -/
def run (redis : Connection B σ) (keyPrefix : String) (ttl : Nat) (positive : 0 < ttl) :
    Operation B → Run B σ
  | set key value => RedisDurations.set redis keyPrefix key value (some ttl)
  | setJson key encoded => RedisDurations.setJson redis keyPrefix key encoded (some ttl)
  | setIfAbsent key value => RedisDurations.setIfAbsent redis keyPrefix key value (some ttl)
  | expire key => RedisDurations.expire redis keyPrefix key ttl
  | acquire key token held => Lock.acquire redis keyPrefix ⟨key, token, ttl, held, positive⟩
  | extend lock => lock.extend redis keyPrefix ttl
  | streamRead streams count =>
      RedisDurations.streamRead redis keyPrefix streams count (some ttl)
  | streamGroupRead group consumer streams count noAck =>
      RedisDurations.streamGroupRead redis keyPrefix group consumer streams count (some ttl) noAck

/-! ## What an operation sends -/

/-- The other arguments are not refused, and a lock that is extended is held. -/
def sends : Operation B → Bool
  | setJson _ encoded => encoded.isOk
  | extend lock => lock.held
  | streamRead streams count => count != some 0 && !streams.isEmpty
  | streamGroupRead group consumer streams count _ =>
      !(group.isEmpty || consumer.isEmpty) && (count != some 0 && !streams.isEmpty)
  | _ => true

/-- The operation stores a value that expires. -/
def stores : Operation B → Bool
  | set _ _ | setJson _ _ | setIfAbsent _ _ | acquire _ _ _ => true
  | _ => false

/-- How the reply is read. -/
def read : Operation B → Reply σ → Outcome σ
  | set _ _, _ | setJson _ _, _ => .done
  | setIfAbsent _ _, reply | acquire _ _ _, reply => .flag reply.isSome
  | expire _, reply => .flag reply.isTrue
  | extend _, reply => .flag reply.isOne
  | streamRead _ _, reply | streamGroupRead _ _ _ _ _, reply => .streams reply

/-- The streams with their keys. -/
def keyed (keyPrefix : String) (streams : List (String × String)) : List (String × String) :=
  streams.map fun stream => (storeKey keyPrefix stream.1, stream.2)

/-- The command of the operation; `none` where a value has no encoding. -/
def command (keyPrefix : String) : Operation B → Nat → Option (Command B)
  | set key value, millis => some (.psetEx (storeKey keyPrefix key) millis value)
  | setJson key (.ok value), millis => some (.psetEx (storeKey keyPrefix key) millis value)
  | setJson _ (.error _), _ => none
  | setIfAbsent key value, millis => some (.setNx (storeKey keyPrefix key) value (some millis))
  | expire key, millis => some (.pexpire (storeKey keyPrefix key) millis)
  | acquire key token _, millis => some (.setNx (storeKey keyPrefix key) token (some millis))
  | extend lock, millis =>
      some (.extendLock (storeKey keyPrefix lock.key) lock.token millis)
  | streamRead streams count, millis => some (.xread count (some millis) (keyed keyPrefix streams))
  | streamGroupRead group consumer streams count noAck, millis =>
      some (.xreadGroup group consumer count (some millis) noAck (keyed keyPrefix streams))

section

/-- A command that was sent had been built. -/
theorem sent_of_connected {redis : Connection B σ}
    {command : Except RedisStoreError (Command B)} {read : Reply σ → Outcome σ}
    {sent : Command B}
    (was : (redis.connected (redis.send command read)).sent = some sent) :
    command = .ok sent := by
  rw [Connection.connected] at was
  cases connect : redis.connect with
  | error error =>
      rw [connect] at was
      cases was
  | ok _ =>
      rw [connect] at was
      cases command with
      | error error => cases was
      | ok command =>
          cases was
          rfl

theorem sent_of_query {redis : Connection B σ}
    {command : Except RedisStoreError (Command B)} {read : Reply σ → Outcome σ}
    {sent : Command B} (was : (redis.query command read).sent = some sent) :
    command = .ok sent := by
  cases command with
  | error error => cases was
  | ok command => exact sent_of_connected was

variable {redis : Connection B σ} {keyPrefix : String} {ttl millis : Nat} {positive : 0 < ttl}
  {operation : Operation B} {sent : Command B}

theorem command_millis (built : operation.command keyPrefix millis = some sent) :
    sent.millis = some millis := by
  rcases operation with _ | ⟨_, _ | _⟩ | _ | _ | _ | _ | _ | _ <;> cases built <;> rfl

theorem command_stores (built : operation.command keyPrefix millis = some sent) :
    sent.stores = operation.stores := by
  rcases operation with _ | ⟨_, _ | _⟩ | _ | _ | _ | _ | _ | _ <;> cases built <;> rfl

theorem streamReadOptions_some {count : Option Nat} (positive : (count != some 0) = true) :
    streamReadOptions count (some ttl) =
      (durationMillis ttl).map fun millis => (count, some millis) := by
  rw [streamReadOptions, if_neg (by simpa using positive)]

theorem streamReadOptions_cases {count : Option Nat} {options : Option Nat × Option Nat}
    (chosen : streamReadOptions count (some ttl) = .ok options) :
    ∃ millis, durationMillis ttl = .ok millis ∧ (count != some 0) = true ∧
      options = (count, some millis) := by
  rw [streamReadOptions] at chosen
  split at chosen
  · cases chosen
  · obtain ⟨millis, representable, same⟩ := map_eq_ok chosen
    exact ⟨millis, representable, bne_iff_ne.mpr ‹_›, same.symm⟩

theorem streamsOf_cases {streams keys : List (String × String)}
    (named : streamsOf keyPrefix streams = .ok keys) :
    (!streams.isEmpty) = true ∧ keys = keyed keyPrefix streams := by
  rw [streamsOf] at named
  split at named
  case isTrue => cases named
  case isFalse given =>
    cases named
    exact ⟨by simpa using given, rfl⟩

theorem streamsOf_keyed {streams : List (String × String)} (given : (!streams.isEmpty) = true) :
    streamsOf keyPrefix streams = .ok (keyed keyPrefix streams) := by
  rw [streamsOf, if_neg (by simpa using given)]
  rfl

/-- With a duration that can be represented the operation sends its command. -/
theorem run_of_millis (redis : Connection B σ) (keyPrefix : String) (positive : 0 < ttl)
    (sends : operation.sends = true)
    (representable : durationMillis ttl = .ok millis) :
    ∃ command, operation.command keyPrefix millis = some command ∧
      operation.run redis keyPrefix ttl positive =
        redis.connected (redis.send (.ok command) operation.read) := by
  obtain ⟨before, rfl⟩ := Nat.exists_eq_succ_of_ne_zero positive.ne'
  cases operation with
  | set key value =>
      refine ⟨_, rfl, ?_⟩
      simp only [run, RedisDurations.set, representable]
      rfl
  | setJson key encoded =>
      cases encoded with
      | error error => cases sends
      | ok value =>
          refine ⟨_, rfl, ?_⟩
          simp only [run, RedisDurations.setJson, RedisDurations.set, representable]
          rfl
  | setIfAbsent key value =>
      refine ⟨_, rfl, ?_⟩
      simp only [run, RedisDurations.setIfAbsent, representable]
      rfl
  | expire key =>
      refine ⟨_, rfl, ?_⟩
      simp only [run, RedisDurations.expire, representable]
      rfl
  | acquire key token held =>
      refine ⟨_, rfl, ?_⟩
      simp only [run, Lock.acquire, representable]
      rfl
  | extend lock =>
      refine ⟨_, rfl, ?_⟩
      have held : lock.held = true := sends
      simp only [run, Lock.extend, representable, held]
      rfl
  | streamRead streams count =>
      refine ⟨_, rfl, ?_⟩
      obtain ⟨counted, given⟩ := Bool.and_eq_true_iff.mp sends
      simp only [run, RedisDurations.streamRead, streamReadOptions_some counted,
        streamsOf_keyed given, representable]
      rfl
  | streamGroupRead group consumer streams count noAck =>
      refine ⟨_, rfl, ?_⟩
      obtain ⟨named, further⟩ := Bool.and_eq_true_iff.mp sends
      obtain ⟨counted, given⟩ := Bool.and_eq_true_iff.mp further
      have named : (group.isEmpty || consumer.isEmpty) = false := by simpa using named
      simp only [run, RedisDurations.streamGroupRead, streamReadOptions_some counted,
        streamsOf_keyed given, representable, named]
      rfl

/-- What an operation sends is its command, in the milliseconds of its duration. -/
theorem sent_cases (was : (operation.run redis keyPrefix ttl positive).sent = some sent) :
    ∃ millis, durationMillis ttl = .ok millis ∧ operation.sends = true ∧
      operation.command keyPrefix millis = some sent := by
  obtain ⟨before, rfl⟩ := Nat.exists_eq_succ_of_ne_zero positive.ne'
  cases operation with
  | set key value =>
      obtain ⟨millis, representable, same⟩ := map_eq_ok (sent_of_connected was)
      exact ⟨millis, representable, rfl, congrArg some same⟩
  | setJson key encoded =>
      cases encoded with
      | error error => cases was
      | ok value =>
          obtain ⟨millis, representable, same⟩ := map_eq_ok (sent_of_connected was)
          exact ⟨millis, representable, rfl, congrArg some same⟩
  | setIfAbsent key value =>
      obtain ⟨millis, representable, same⟩ := map_eq_ok (sent_of_query was)
      exact ⟨millis, representable, rfl, congrArg some same⟩
  | expire key =>
      obtain ⟨millis, representable, same⟩ := map_eq_ok (sent_of_query was)
      exact ⟨millis, representable, rfl, congrArg some same⟩
  | acquire key token held =>
      obtain ⟨millis, representable, same⟩ := map_eq_ok (sent_of_connected was)
      exact ⟨millis, representable, rfl, congrArg some same⟩
  | extend lock =>
      cases held : lock.held with
      | false =>
          simp only [run, Lock.extend, held] at was
          cases was
      | true =>
          simp only [run, Lock.extend, held] at was
          obtain ⟨millis, representable, same⟩ := map_eq_ok (sent_of_connected was)
          exact ⟨millis, representable, held, congrArg some same⟩
  | streamRead streams count =>
      obtain ⟨options, chosen, further⟩ := bind_eq_ok (sent_of_query was)
      obtain ⟨keys, named, same⟩ := bind_eq_ok further
      obtain ⟨millis, representable, counted, rfl⟩ := streamReadOptions_cases chosen
      obtain ⟨given, rfl⟩ := streamsOf_cases named
      cases same
      exact ⟨millis, representable, Bool.and_eq_true_iff.mpr ⟨counted, given⟩, rfl⟩
  | streamGroupRead group consumer streams count noAck =>
      cases unnamed : group.isEmpty || consumer.isEmpty with
      | true =>
          simp only [run, RedisDurations.streamGroupRead, unnamed] at was
          cases was
      | false =>
          simp only [run, RedisDurations.streamGroupRead, unnamed] at was
          obtain ⟨options, chosen, further⟩ := bind_eq_ok (sent_of_query was)
          obtain ⟨keys, named, same⟩ := bind_eq_ok further
          obtain ⟨millis, representable, counted, rfl⟩ := streamReadOptions_cases chosen
          obtain ⟨given, rfl⟩ := streamsOf_cases named
          cases same
          refine ⟨millis, representable, ?_, rfl⟩
          simp only [sends, unnamed, counted, given]
          rfl

end

end Operation

/-! ## Positive durations -/

/-- An error, or a positive number of milliseconds less than one away from the duration. -/
def StaysPositive (nanos : Nat) (run : Run B σ) : Prop :=
  (∃ error, run.result = .error error) ∨
    ∀ command, run.sent = some command → ∃ millis, command.millis = some millis ∧ 1 ≤ millis ∧
      nanos < millis * 1000000 + 1000000 ∧ millis * 1000000 < nanos + 1000000

/-- There is no connection, or Redis answers the command with an error. -/
def Connection.Fails (redis : Connection B σ) (command : Command B) : Prop :=
  (∃ error, redis.connect = .error error) ∨ ∃ error, redis.answer command = .error error

section

variable {redis : Connection B σ} {keyPrefix : String} {ttl millis : Nat}
  {operation : Operation B} {sent : Command B}

theorem durationMillis_eq (representable : durationMillis ttl = .ok millis) :
    millis = ttl / 1000000 := by
  rw [durationMillis] at representable
  split at representable <;> cases representable
  rfl

theorem durationMillis_short (short : ttl < 1000000) : durationMillis ttl = .ok 0 := by
  rw [durationMillis, Nat.div_eq_of_lt short]
  rfl

/-- Rounded down, a duration of at least a millisecond stays positive and near. -/
theorem staysPositive_of_long {run : Run B σ} (long : 1000000 ≤ ttl)
    (rounded : ∀ command, run.sent = some command → command.millis = some (ttl / 1000000)) :
    StaysPositive ttl run := by
  refine .inr fun command sent => ⟨_, rounded command sent, ?_⟩
  have whole := Nat.div_add_mod ttl 1000000
  have rest := Nat.mod_lt ttl (show 0 < 1000000 by omega)
  omega

/-- A command that fails is an operation that fails. -/
theorem connected_error {read : Reply σ → Outcome σ} (fails : redis.Fails sent) :
    ∃ error, (redis.connected (redis.send (.ok sent) read)).result = .error error := by
  rw [Connection.connected]
  cases connect : redis.connect with
  | error error => exact ⟨error, rfl⟩
  | ok _ =>
      rcases fails with ⟨error, failed⟩ | ⟨error, failed⟩
      · cases connect.symm.trans failed
      · exact ⟨error, by simp [Connection.send, failed, Except.map]⟩

/-- A command that does not fail is sent, and the operation returns no error. -/
theorem connected_ok (read : Reply σ → Outcome σ) (works : ¬redis.Fails sent) :
    ∃ outcome, redis.connected (redis.send (.ok sent) read) = ⟨some sent, .ok outcome⟩ := by
  rw [Connection.connected]
  cases connect : redis.connect with
  | error error => exact (works (.inl ⟨error, connect⟩)).elim
  | ok _ =>
      cases answer : redis.answer sent with
      | error error => exact (works (.inr ⟨error, answer⟩)).elim
      | ok reply => exact ⟨read reply, by simp [Connection.send, answer, Except.map]⟩

/-- A duration below a millisecond is refused where its command stores a value, and becomes
zero where it does not. -/
theorem staysPositive_iff (positive : 0 < ttl) :
    StaysPositive ttl (operation.run redis keyPrefix ttl positive) ↔
      1000000 ≤ ttl ∨ operation.stores = true ∨ operation.sends = false ∨
        ∃ command, operation.command keyPrefix 0 = some command ∧ redis.Fails command := by
  rcases Nat.lt_or_ge ttl 1000000 with short | long
  · cases sends : operation.sends with
    | false =>
        refine iff_of_true (.inr fun command sent => ?_) (.inr (.inr (.inl rfl)))
        obtain ⟨_, _, wrong, _⟩ := Operation.sent_cases sent
        cases sends.symm.trans wrong
    | true =>
        obtain ⟨command, built, ran⟩ :=
          Operation.run_of_millis redis keyPrefix positive sends (durationMillis_short short)
        rw [ran]
        constructor
        · intro stays
          by_cases fails : redis.Fails command
          · exact .inr (.inr (.inr ⟨command, built, fails⟩))
          · obtain ⟨outcome, done⟩ := connected_ok operation.read fails
            rw [done] at stays
            rcases stays with ⟨error, wrong⟩ | counted
            · cases wrong
            · obtain ⟨millis, same, one, _⟩ := counted command rfl
              cases (Operation.command_millis built).symm.trans same
              cases one
        · intro condition
          refine .inl (connected_error ?_)
          rcases condition with long | stores | wrong | ⟨other, same, fails⟩
          · omega
          · exact .inr (redis.invalidExpire command
              ((Operation.command_stores built).trans stores) (Operation.command_millis built))
          · cases wrong
          · cases built.symm.trans same
            exact fails
  · refine iff_of_true (staysPositive_of_long long fun command sent => ?_) (.inl long)
    obtain ⟨millis, representable, _, built⟩ := Operation.sent_cases sent
    rw [Operation.command_millis built, durationMillis_eq representable]

end

/-- A Redis server whose streams are empty. -/
def serving (server : Server String) : Connection String Unit where
  connect := .ok ()
  answer
    | .set _ _ => .ok (.status "OK")
    | .psetEx key millis value =>
        match server.psetEx key value millis with
        | some _ => .ok (.status "OK")
        | none => .error .redis
    | .setNx key value (some millis) =>
        match server.setNxPx key value millis with
        | some (_, true) => .ok (.status "OK")
        | some (_, false) => .ok .nil
        | none => .error .redis
    | .setNx key _ none => .ok (if (server.get key).isSome then .nil else .status "OK")
    | .pexpire key millis =>
        match server.pexpire key millis with
        | some (_, changed) => .ok (.integer changed)
        | none => .error .redis
    | .extendLock key token millis =>
        match RedisLock.extendLock server key token millis with
        | some (_, changed) => .ok (.integer changed)
        | none => .error .redis
    | .xread _ _ _ => .ok .nil
    | .xreadGroup _ _ _ _ _ _ => .ok .nil
  invalidExpire := by
    intro command stores zero
    rcases command with _ | _ | ⟨_, _, _ | _⟩ | _ | _ | _ | _ <;> cases stores <;> cases zero
    · exact ⟨.redis, rfl⟩
    · exact ⟨.redis, rfl⟩

/-- The lock is held by `token` for another second. -/
def lockedServer : Server String :=
  (Server.new String).put "app:lock" (some ⟨"token", 1000⟩)

def heldLock : Lock String :=
  ⟨"lock", "token", 1000000000, true, by decide⟩

theorem staysPositive_two_millis :
    StaysPositive 2000000
      ((Operation.extend heldLock).run (serving lockedServer) "app:" 2000000 (by decide)) :=
  (staysPositive_iff (by decide)).mpr (.inl (by decide))

/-- Extended by 999999 ns, a lock is reported as extended and is gone. -/
theorem extend_drops_lock :
    ¬StaysPositive 999999
        ((Operation.extend heldLock).run (serving lockedServer) "app:" 999999 (by decide)) ∧
      heldLock.extend (serving lockedServer) "app:" 999999 =
        ⟨some (.extendLock "app:lock" "token" 0), .ok (.flag true)⟩ ∧
      ((RedisLock.extendLock lockedServer "app:lock" "token" 0).map fun served =>
        served.1.get "app:lock") = some none := by
  have ran : heldLock.extend (serving lockedServer) "app:" 999999 =
      ⟨some (.extendLock "app:lock" "token" 0), .ok (.flag true)⟩ := by rfl
  refine ⟨?_, ran, by rfl⟩
  intro stays
  rw [Operation.run, ran] at stays
  rcases stays with ⟨error, wrong⟩ | counted
  · cases wrong
  · obtain ⟨millis, same, one, _⟩ := counted _ rfl
    cases same
    cases one

end RustZero.RedisDurations
