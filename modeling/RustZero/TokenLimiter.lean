import RustZero.RedisLimiter

/-!
# The token bucket, in the process and at Redis

`TokenLimiter` and `TOKEN_BUCKET_SCRIPT` of `core/src/limit.rs`, over exact
rational numbers in place of floating point.  The bucket of a process and the
hash at Redis are taken from at the same times; Redis may delete the hash at any
time from its expiry on.  `Related` says how the two compare: a hash holds what
the bucket holds, and where there is none the bucket has had the time to fill.
-/

namespace RustZero.TokenLimiter

open Lib RedisLimiter

/-- `TokenLimiter::new` asserts that both are positive. -/
structure Config where
  rate : Nat
  burst : Nat
  rate_pos : 0 < rate
  burst_pos : 0 < burst

/-- A decision with the exact seconds that become its `retry_after`. -/
inductive Decision where
  | allowed
  | hitQuota
  | overQuota (retryAfter : ℚ)
  deriving DecidableEq, Repr

/-! ## In the process -/

/-- Times are milliseconds. -/
structure Bucket where
  available : ℚ
  lastRefill : Nat
  deriving DecidableEq, Repr

/-- The bucket of `TokenLimiter::new`. -/
def Bucket.new (config : Config) (now : Nat) : Bucket :=
  ⟨config.burst, now⟩

/-- `Duration::MAX` in seconds. -/
def durationMaxSeconds : ℚ :=
  (2 ^ 64 - 1) + 999999999 / 10 ^ 9

def Bucket.refill (config : Config) (bucket : Bucket) (now : Nat) : Bucket :=
  let elapsed : ℚ := ((now - bucket.lastRefill : Nat) : ℚ) / 1000
  { available := min (bucket.available + elapsed * config.rate) config.burst, lastRefill := now }

/-- `TokenLimiter::take`, which asserts a positive permit count. -/
def Bucket.take (config : Config) (bucket : Bucket) (now permits : Nat) :
    Option (Decision × Bucket) :=
  if permits = 0 then none
  else if config.burst < permits then some (.overQuota durationMaxSeconds, bucket)
  else
    let bucket := bucket.refill config now
    if (permits : ℚ) ≤ bucket.available then
      let bucket := { bucket with available := bucket.available - permits }
      some (if bucket.available < 1 then .hitQuota else .allowed, bucket)
    else some (.overQuota ((permits - bucket.available) / config.rate), bucket)

/-! ## At Redis -/

/-- The hash of the script with the time from which Redis may delete it. -/
structure Hash where
  tokens : ℚ
  updated : Nat
  deadline : Nat
  deriving DecidableEq, Repr

/-- The argument of `PEXPIRE`. -/
def ttl (config : Config) : Nat :=
  max 1000 ⌈(config.burst * 2000 / config.rate : ℚ)⌉.toNat

/-- The tokens and the time that the script reads, refilled. -/
def scriptTokens (config : Config) (hash : Option Hash) (now : Nat) : ℚ :=
  let tokens := (hash.map Hash.tokens).getD config.burst
  let updated := (hash.map Hash.updated).getD now
  if updated < now then
    min config.burst (tokens + (now - updated : Nat) * config.rate / 1000)
  else tokens

/-- `TOKEN_BUCKET_SCRIPT`: its reply and the hash it leaves. -/
def script (config : Config) (hash : Option Hash) (now permits : Nat) : List Int × Hash :=
  let tokens := scriptTokens config hash now
  if (permits : ℚ) ≤ tokens then
    let tokens := tokens - permits
    ([if tokens < 1 then 1 else 0, 0], ⟨tokens, now, now + ttl config⟩)
  else
    ([2, ⌈((permits - tokens) * 1000 / config.rate : ℚ)⌉], ⟨tokens, now, now + ttl config⟩)

/-! ## Side by side -/

/-- A decision of the process and what `parse_redis_decision` makes of the reply
at Redis: the same outcome, with the retry time rounded up to milliseconds. -/
def Agrees : Decision → Except String LimitDecision → Prop
  | .allowed, reply => reply = .ok .allowed
  | .hitQuota, reply => reply = .ok .hitQuota
  | .overQuota retryAfter, reply =>
      reply = .ok (.overQuota (Duration.fromMillis ⌈retryAfter * 1000⌉.toNat))

/-- The hash at Redis, the bucket of the process, and the time of the last step. -/
structure Rig where
  hash : Option Hash
  bucket : Bucket
  clock : Nat

inductive Action where
  | take (time : RedisTime) (permits : Nat)
  /-- Redis deletes the hash. -/
  | expire (now : Nat)

/-- A step of both, with the two decisions of a take. -/
def Rig.advance (config : Config) (rig : Rig) :
    Action → Option (Rig × List (Decision × Except String LimitDecision))
  | .take time permits =>
      if rig.clock ≤ time.millis ∧ permits ≤ config.burst then
        (rig.bucket.take config time.millis permits).map fun taken =>
          let reply := script config rig.hash time.millis permits
          (⟨some reply.2, taken.2, time.millis⟩, [(taken.1, parseRedisDecision reply.1)])
      else none
  | .expire now =>
      match rig.hash with
      | none => none
      | some hash =>
          if rig.clock ≤ now ∧ hash.deadline ≤ now then some (⟨none, rig.bucket, now⟩, [])
          else none

/-- Both over whole runs, from a limiter built at `start` and no hash. -/
def sideBySide (config : Config) (start : Nat) :
    Lts (Rig × List (Decision × Except String LimitDecision)) Action :=
  Lts.emitting ⟨none, Bucket.new config start, start⟩ (Rig.advance config)

/-- How the hash and the bucket compare: an absent hash is a bucket that has had
the time to fill. -/
structure Related (config : Config) (rig : Rig) : Prop where
  nonneg : 0 ≤ rig.bucket.available
  le_burst : rig.bucket.available ≤ config.burst
  past : rig.bucket.lastRefill ≤ rig.clock
  same : ∀ hash, rig.hash = some hash → hash.tokens = rig.bucket.available
    ∧ hash.updated = rig.bucket.lastRefill ∧ hash.deadline = rig.bucket.lastRefill + ttl config
  full : rig.hash = none → (config.burst : ℚ) ≤ rig.bucket.available
    + ((rig.clock - rig.bucket.lastRefill : Nat) : ℚ) / 1000 * config.rate

section Steps

variable {config : Config} {rig later : Rig} {now permits : Nat}

/-- The time to live is enough to fill any bucket. -/
theorem burst_le_ttl (config : Config) :
    (config.burst : ℚ) ≤ (ttl config : ℚ) / 1000 * config.rate := by
  have rate : (0 : ℚ) < config.rate := by exact_mod_cast config.rate_pos
  have burst : (0 : ℚ) < config.burst := by exact_mod_cast config.burst_pos
  have ceil : (config.burst * 2000 / config.rate : ℚ) ≤ ttl config := by
    have positive : (0 : ℚ) ≤ config.burst * 2000 / config.rate := by positivity
    calc (config.burst * 2000 / config.rate : ℚ)
        ≤ (⌈(config.burst * 2000 / config.rate : ℚ)⌉ : ℤ) := Int.le_ceil _
      _ = (⌈(config.burst * 2000 / config.rate : ℚ)⌉.toNat : ℚ) := by
          exact_mod_cast (Int.toNat_of_nonneg (Int.ceil_nonneg positive)).symm
      _ ≤ ttl config := Nat.cast_le.mpr (le_max_right _ _)
  have enough : (config.burst * 2000 : ℚ) ≤ ttl config * config.rate :=
    (div_le_iff₀ rate).mp ceil
  linarith

/-- More time refills at least as much. -/
theorem elapsed_mono (config : Config) {low high : Nat} (le : low ≤ high) :
    (low : ℚ) / 1000 * config.rate ≤ (high : ℚ) / 1000 * config.rate := by
  have cast : (low : ℚ) ≤ high := by exact_mod_cast le
  gcongr

/-- The script and the process see the same tokens. -/
theorem Related.scriptTokens_eq (related : Related config rig) (later : rig.clock ≤ now) :
    scriptTokens config rig.hash now = (rig.bucket.refill config now).available := by
  cases hash : rig.hash with
  | none =>
      have longer := elapsed_mono config
        (show rig.clock - rig.bucket.lastRefill ≤ now - rig.bucket.lastRefill by omega)
      have full := related.full hash
      simp only [scriptTokens, Bucket.refill, Option.map_none, Option.getD_none, lt_irrefl,
        if_false]
      rw [min_eq_right (by linarith)]
  | some stored =>
      obtain ⟨tokens, updated, -⟩ := related.same stored hash
      simp only [scriptTokens, Bucket.refill, Option.map_some, Option.getD_some, tokens, updated]
      split
      case isTrue =>
        rw [min_comm]
        congr 2
        ring
      case isFalse notLater =>
        have still : now - rig.bucket.lastRefill = 0 := by omega
        rw [still, min_eq_left (by simpa using related.le_burst)]
        simp

theorem refill_le_burst (config : Config) (bucket : Bucket) (now : Nat) :
    (bucket.refill config now).available ≤ config.burst :=
  min_le_right _ _

theorem refill_nonneg (config : Config) {bucket : Bucket} (nonneg : 0 ≤ bucket.available)
    (now : Nat) :
    0 ≤ (bucket.refill config now).available := by
  refine le_min ?_ (Nat.cast_nonneg _)
  positivity

/-- The two right after a take at `now`. -/
theorem related_after_take {tokens : ℚ} (nonneg : 0 ≤ tokens) (le_burst : tokens ≤ config.burst)
    (now : Nat) : Related config ⟨some ⟨tokens, now, now + ttl config⟩, ⟨tokens, now⟩, now⟩ := by
  refine ⟨nonneg, le_burst, le_rfl, ?_, ?_⟩
  · intro hash stored
    cases stored
    exact ⟨rfl, rfl, rfl⟩
  · intro absent
    cases absent

/-- A take of the process and of the script that see the same tokens. -/
theorem take_agrees (positive : 0 < permits) (within : permits ≤ config.burst)
    (nonneg : 0 ≤ rig.bucket.available)
    (same : scriptTokens config rig.hash now = (rig.bucket.refill config now).available) :
    ∃ decision bucket reply hash, rig.bucket.take config now permits = some (decision, bucket)
      ∧ script config rig.hash now permits = (reply, hash)
      ∧ Agrees decision (parseRedisDecision reply)
      ∧ Related config ⟨some hash, bucket, now⟩ := by
  have refilled := refill_le_burst config rig.bucket now
  have filled := refill_nonneg config nonneg now
  simp only [Bucket.take, script, same]
  rw [if_neg (by omega), if_neg (by omega)]
  generalize tokens : (rig.bucket.refill config now).available = available at refilled filled
  by_cases enough : (permits : ℚ) ≤ available
  · have left : 0 ≤ available - permits := sub_nonneg.mpr enough
    have most : available - permits ≤ config.burst :=
      (sub_le_self _ (Nat.cast_nonneg permits)).trans refilled
    rw [if_pos enough, if_pos enough]
    refine ⟨_, _, _, _, rfl, rfl, ?_, related_after_take left most now⟩
    by_cases last : available - permits < 1
    · rw [if_pos last, if_pos last]
      rfl
    · rw [if_neg last, if_neg last]
      rfl
  · rw [if_neg enough, if_neg enough]
    have after : rig.bucket.refill config now = ⟨available, now⟩ := by
      rw [← tokens]
      rfl
    rw [after]
    refine ⟨_, _, _, _, rfl, rfl, ?_, related_after_take filled refilled now⟩
    have short : (0 : ℚ) ≤ (permits - available) * 1000 / config.rate := by
      have missing : 0 ≤ (permits : ℚ) - available := by linarith
      positivity
    have millis : (permits - available) / config.rate * 1000
        = (permits - available) * 1000 / config.rate := by
      ring
    rw [Agrees, parseRedisDecision, millis]
    simp [Int.ceil_nonneg short]

theorem take_step (related : Related config rig) {time : RedisTime}
    {outcomes : List (Decision × Except String LimitDecision)}
    (advanced : rig.advance config (.take time permits) = some (later, outcomes)) :
    Related config later ∧ ∀ outcome ∈ outcomes, Agrees outcome.1 outcome.2 := by
  rw [Rig.advance] at advanced
  split at advanced
  case isFalse => cases advanced
  case isTrue enabled =>
    obtain ⟨after, within⟩ := enabled
    by_cases positive : permits = 0
    · rw [Bucket.take, if_pos positive] at advanced
      cases advanced
    · obtain ⟨decision, bucket, reply, hash, taken, ran, agrees, related⟩ :=
        take_agrees (Nat.pos_of_ne_zero positive) within related.nonneg
          (related.scriptTokens_eq after)
      rw [taken, ran] at advanced
      cases advanced
      refine ⟨related, ?_⟩
      intro outcome member
      rw [List.mem_singleton.mp member]
      exact agrees

/-- A hash may be deleted only once the bucket has had the time to fill. -/
theorem expire_step (related : Related config rig)
    {outcomes : List (Decision × Except String LimitDecision)}
    (advanced : rig.advance config (.expire now) = some (later, outcomes)) :
    Related config later ∧ ∀ outcome ∈ outcomes, Agrees outcome.1 outcome.2 := by
  rw [Rig.advance] at advanced
  cases hash : rig.hash with
  | none =>
      rw [hash] at advanced
      cases advanced
  | some stored =>
      rw [hash] at advanced
      dsimp only at advanced
      split at advanced
      case isFalse => cases advanced
      case isTrue enabled =>
        cases advanced
        obtain ⟨after, expired⟩ := enabled
        obtain ⟨-, -, deadline⟩ := related.same stored hash
        have past := related.past
        refine ⟨⟨related.nonneg, related.le_burst, ?_, ?_, ?_⟩, ?_⟩
        · exact past.trans after
        · intro other absent
          cases absent
        · intro _
          have elapsed := elapsed_mono config
            (show ttl config ≤ now - rig.bucket.lastRefill by omega)
          have enough := burst_le_ttl config
          have nonneg := related.nonneg
          linarith
        · intro outcome member
          cases member

end Steps

/-- At every take of every run the script at Redis decides as the process does,
whenever Redis deletes an expired hash. -/
theorem script_decides_as_tokenLimiter (config : Config) (start : Nat) {rig : Rig}
    {outcomes : List (Decision × Except String LimitDecision)}
    (reach : (sideBySide config start).Reachable (rig, outcomes)) :
    ∀ outcome ∈ outcomes, Agrees outcome.1 outcome.2 := by
  have start_related : Related config ⟨none, Bucket.new config start, start⟩ := by
    refine ⟨Nat.cast_nonneg _, le_rfl, le_rfl, ?_, ?_⟩
    · intro hash absent
      cases absent
    · intro _
      simp [Bucket.new]
  have kept : Related config rig ∧ ∀ outcome ∈ outcomes, Agrees outcome.1 outcome.2 := by
    refine reach.emitting_invariant
      (I := fun rig outcomes => Related config rig ∧ ∀ outcome ∈ outcomes,
        Agrees outcome.1 outcome.2)
      ⟨start_related, fun outcome member => by cases member⟩ ?_
    intro rig outcomes action later new kept _ advanced
    obtain ⟨related, agreed⟩ := kept
    have step : Related config later ∧ ∀ outcome ∈ new, Agrees outcome.1 outcome.2 := by
      cases action with
      | take time permits => exact take_step related advanced
      | expire now => exact expire_step related advanced
    refine ⟨step.1, ?_⟩
    intro outcome member
    rcases List.mem_append.mp member with old | new
    · exact agreed outcome old
    · exact step.2 outcome new
  exact kept.2

/-- Two permits a second at most: one take that empties the bucket, one that is
refused for half a second, and one after the hash has expired. -/
theorem script_decides_three_takes :
    ∃ rig, (sideBySide ⟨1, 2, by decide, by decide⟩ 0).Reachable
        (rig, [(.hitQuota, .ok .hitQuota), (.overQuota (1 / 2), .ok (.overQuota 500000000)),
          (.hitQuota, .ok .hitQuota)])
      ∧ ∀ outcome ∈ [(Decision.hitQuota, Except.ok (ε := String) LimitDecision.hitQuota),
          (.overQuota (1 / 2), .ok (.overQuota 500000000)), (.hitQuota, .ok .hitQuota)],
        Agrees outcome.1 outcome.2 := by
  have run : ((sideBySide ⟨1, 2, by decide, by decide⟩ 0).exec
      (sideBySide ⟨1, 2, by decide, by decide⟩ 0).init
      [.take ⟨0, 0, by decide⟩ 2, .take ⟨0, 500000, by decide⟩ 1, .expire 4500,
        .take ⟨4, 500000, by decide⟩ 2]).map Prod.snd
      = some [(.hitQuota, .ok .hitQuota), (.overQuota (1 / 2), .ok (.overQuota 500000000)),
          (.hitQuota, .ok .hitQuota)] := by
    decide +kernel
  obtain ⟨state, executed, ends⟩ := Option.map_eq_some_iff.mp run
  obtain ⟨rig, outcomes⟩ := state
  dsimp only at ends
  subst ends
  have reach := Lts.reachable_of_exec _ executed
  exact ⟨rig, reach, script_decides_as_tokenLimiter _ _ reach⟩

end RustZero.TokenLimiter
