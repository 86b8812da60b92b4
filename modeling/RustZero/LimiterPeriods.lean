import RustZero.PeriodLimiter

/-!
# The periods that the limiters divide by

`PeriodLimiter::new` and `RedisPeriodLimiter::new` of `core/src/limit.rs` ask for a period that is
not zero, and the takes divide by the period in whole milliseconds.  Here the limiters are as the
constructors accept them: `none` is a division by zero, and in the script a remainder by zero.

* `Settings.take_eq` and `RedisSettings.script_eq`: from a millisecond on these are the takes of
  `RustZero.PeriodLimiter`.
* `Retries`: a take that refuses does so for a time in the period.
* `limiters_divide_iff`: that is so of all takes exactly for periods of at least a millisecond.
-/

namespace RustZero.PeriodLimiter

open RedisLimiter

/-- The arguments that `PeriodLimiter::new` accepts. -/
structure Settings where
  period : Duration
  quota : Nat
  period_pos : 0 < period
  quota_pos : 0 < quota
  quota_lt : quota < 2 ^ 32

/-- The arguments that `RedisPeriodLimiter::new` accepts. -/
structure RedisSettings extends Settings where
  maxRescueKeys : Nat
  period_le : period.asMillis ≤ u64Max
  keys_pos : 0 < maxRescueKeys

/-- `PeriodLimiter::take`; a period below one millisecond divides by zero. -/
def Settings.take {K : Type} [DecidableEq K] (settings : Settings)
    (windows : K → Option PeriodWindow) (now : Nat) (key : K) :
    Option (LimitDecision × (K → Option PeriodWindow)) :=
  let period := settings.period.asMillis
  if period = 0 then none
  else
    let currentWindow := now / period
    let retryAfter := durationFromMillisSaturating ((currentWindow + 1) * period - now)
    let window := currentEntry (windows key) currentWindow
    if settings.quota ≤ window.used then
      some (.overQuota retryAfter, Function.update windows key (some window))
    else
      let used := window.used + 1
      some (if used = settings.quota then .hitQuota else .allowed,
        Function.update windows key (some { window with used := used }))

/-- The rescue limiter that `RedisPeriodLimiter::new` makes. -/
def RedisSettings.rescue (settings : RedisSettings) : BoundedPeriodLimiter where
  period := settings.period
  quota := settings.quota
  maxKeys := settings.maxRescueKeys

def RedisSettings.config (settings : RedisSettings) (positive : 0 < settings.period.asMillis) :
    Config :=
  ⟨settings.period, settings.quota, positive, settings.period_le, settings.quota_pos,
    settings.quota_lt⟩

/-- `PERIOD_SCRIPT`, whose remainder `now % period` there is if the period is not read as zero. -/
def RedisSettings.script (lua : LuaNumbers) (settings : RedisSettings) (counter : Option Counter)
    (time : RedisTime) : Option (List Int × Option Counter) :=
  if remains : lua.tonumber settings.period.asMillis ≠ 0 then
    have positive : 0 < settings.period.asMillis := by
      refine Nat.pos_of_ne_zero ?_
      intro zero
      rw [zero] at remains
      exact remains (lua.tonumber_exact 0 (Nat.zero_le _))
    some (PeriodLimiter.script lua (settings.config positive) counter time)
  else none

/-- A decision that refuses names a time in the period. -/
def Retries (period : Duration) (decision : LimitDecision) : Prop :=
  ∀ retryAfter, decision = .overQuota retryAfter → 0 < retryAfter ∧ retryAfter ≤ period

/-- What a take makes of the entry of its key. -/
def spend (quota : Nat) (entry : PeriodWindow) (retryAfter : Duration) :
    LimitDecision × PeriodWindow :=
  if quota ≤ entry.used then (.overQuota retryAfter, entry)
  else (if entry.used + 1 = quota then .hitQuota else .allowed,
    { entry with used := entry.used + 1 })

/-- What is left of the window of a time, as a duration. -/
def retryAfter (period : Duration) (now : Nat) : Duration :=
  durationFromMillisSaturating ((now / period.asMillis + 1) * period.asMillis - now)

theorem take_eq_spend {K : Type} [DecidableEq K] (config : Config)
    (windows : K → Option PeriodWindow) (now : Nat) (key : K) :
    take config windows now key =
      ((spend config.quota (currentEntry (windows key) (now / config.period.asMillis))
          (retryAfter config.period now)).1,
        Function.update windows key
          (some (spend config.quota (currentEntry (windows key) (now / config.period.asMillis))
            (retryAfter config.period now)).2)) := by
  rw [take, spend, retryAfter]
  split
  · rfl
  · rfl

theorem use_eq_spend (limiter : BoundedPeriodLimiter) (windows : Windows) (key : String)
    (window : Nat) (retryAfter : Duration) :
    limiter.use windows key window retryAfter =
      ((spend limiter.quota (currentEntry (windows.lookup key) window) retryAfter).1,
        windows.insert key
          (spend limiter.quota (currentEntry (windows.lookup key) window) retryAfter).2) := by
  rw [BoundedPeriodLimiter.use, spend, currentEntry]
  dsimp only
  split_ifs
  all_goals rfl

theorem Settings.take_eq_spend {K : Type} [DecidableEq K] {settings : Settings}
    (positive : 0 < settings.period.asMillis) (windows : K → Option PeriodWindow) (now : Nat)
    (key : K) :
    settings.take windows now key = some
      ((spend settings.quota (currentEntry (windows key) (now / settings.period.asMillis))
          (retryAfter settings.period now)).1,
        Function.update windows key
          (some (spend settings.quota (currentEntry (windows key) (now / settings.period.asMillis))
            (retryAfter settings.period now)).2)) := by
  rw [Settings.take, spend, retryAfter]
  simp only [positive.ne', if_false]
  split
  · rfl
  · rfl

/-- From a millisecond on the settings are a configuration of `RustZero.PeriodLimiter`. -/
theorem Settings.take_eq {K : Type} [DecidableEq K] (settings : Settings) (config : Config)
    (period : settings.period = config.period) (quota : settings.quota = config.quota)
    (windows : K → Option PeriodWindow) (now : Nat) (key : K) :
    settings.take windows now key = some (PeriodLimiter.take config windows now key) := by
  have positive : 0 < settings.period.asMillis := period ▸ config.period_pos
  rw [Settings.take_eq_spend positive, PeriodLimiter.take_eq_spend, period, quota]

section Retries

variable {period : Duration}

theorem asMillis_pos_iff : 0 < period.asMillis ↔ 10 ^ 6 ≤ period := by
  rw [Duration.asMillis, Nat.div_pos_iff]
  exact and_iff_right (by decide)

/-- What is left of the window of a time is in the period. -/
theorem retryAfter_range (positive : 0 < period.asMillis) (now : Nat) :
    0 < retryAfter period now ∧ retryAfter period now ≤ period := by
  have division := Nat.div_add_mod' now period.asMillis
  have rest := Nat.mod_lt now positive
  have whole : period.asMillis * 10 ^ 6 ≤ period := Nat.div_mul_le_self period (10 ^ 6)
  have most := min_le_left (period.asMillis - now % period.asMillis) u64Max
  have some_ : 0 < min (period.asMillis - now % period.asMillis) u64Max :=
    lt_min (by omega) (by decide)
  have left : (now / period.asMillis + 1) * period.asMillis - now =
      period.asMillis - now % period.asMillis := by
    rw [Nat.succ_mul]
    omega
  rw [retryAfter, left, durationFromMillisSaturating, Duration.fromMillis]
  refine ⟨Nat.mul_pos some_ (by decide), le_trans ?_ whole⟩
  exact Nat.mul_le_mul_right _ (most.trans (Nat.sub_le _ _))

theorem spend_retries (positive : 0 < period.asMillis) (quota now : Nat) (entry : PeriodWindow) :
    Retries period (spend quota entry (retryAfter period now)).1 := by
  intro refused same
  rw [spend] at same
  split_ifs at same
  cases same
  exact retryAfter_range positive now

end Retries

section Takes

theorem Settings.take_retries {K : Type} [DecidableEq K] {settings : Settings}
    (positive : 0 < settings.period.asMillis) (windows : K → Option PeriodWindow) (now : Nat)
    (key : K) : ∃ decision later, settings.take windows now key = some (decision, later) ∧
      Retries settings.period decision :=
  ⟨_, _, Settings.take_eq_spend positive windows now key, spend_retries positive _ _ _⟩

theorem rescue_take_retries (limiter : BoundedPeriodLimiter)
    (positive : 0 < limiter.period.asMillis) (windows : Windows) (now : Nat) (key : String) :
    ∃ decision later, limiter.take windows now key = some (decision, later) ∧
      Retries limiter.period decision := by
  have used (windows : Windows) : Retries limiter.period (limiter.use windows key
      (now / limiter.period.asMillis) (retryAfter limiter.period now)).1 := by
    rw [use_eq_spend]
    exact spend_retries positive _ _ _
  have refused : Retries limiter.period (.overQuota (retryAfter limiter.period now)) := by
    intro refused same
    cases same
    exact retryAfter_range positive now
  rw [BoundedPeriodLimiter.take]
  simp only [positive.ne', if_false]
  split
  · split
    · exact ⟨_, _, rfl, refused⟩
    · exact ⟨_, _, rfl, used _⟩
  · exact ⟨_, _, rfl, used _⟩

/-- Where all that the script computes is exact, it refuses for a time in the period. -/
theorem script_retries (lua : LuaNumbers) (config : Config) {time : RedisTime}
    (exact : WindowEndsExact config time.millis) (counter : Option Counter)
    {decision : LimitDecision}
    (parsed : parseRedisDecision (PeriodLimiter.script lua config counter time).1 = .ok decision) :
    Retries config.period decision := by
  have later := lt_boundary config time.millis
  have bound : boundary config time.millis ≤ 2 ^ 53 := exact
  have retry : lua.sub (boundary config time.millis) time.millis =
      (boundary config time.millis : Int) - time.millis :=
    lua.sub_exact _ _ (by omega) (by omega) (by exact_mod_cast bound)
  have period := lua.tonumber_exact config.period.asMillis
    ((period_le_boundary config time.millis).trans exact)
  have range := retryAfter_range config.period_pos time.millis
  have millis : Duration.fromMillis ((boundary config time.millis : Int) - time.millis).toNat =
      retryAfter config.period time.millis := by
    have left : ((boundary config time.millis : Int) - time.millis).toNat =
        boundary config time.millis - time.millis := by
      omega
    have unsaturated : min (boundary config time.millis - time.millis) u64Max =
        boundary config time.millis - time.millis := by
      rw [u64Max]
      omega
    rw [left, retryAfter, durationFromMillisSaturating, ← boundary, unsaturated]
  rw [PeriodLimiter.script] at parsed
  simp only [script_now exact, period, script_boundary exact, retry] at parsed
  have ahead : (0 : Int) ≤ boundary config time.millis - time.millis := by omega
  have refusal : parseRedisDecision [2, (boundary config time.millis : Int) - time.millis] =
      .ok (.overQuota (retryAfter config.period time.millis)) := by
    rw [parseRedisDecision, if_neg (by decide), if_neg (by decide), if_pos ⟨rfl, ahead⟩, millis]
  intro refused same
  subst same
  split at parsed
  · cases refusal.symm.trans parsed
    exact range
  · split at parsed
    · simp [parseRedisDecision] at parsed
    · simp [parseRedisDecision] at parsed

end Takes

/-! ## Every take -/

/-- Every take of the process divides by a period that is not zero, and refuses for a time in
it. -/
def Settings.Divides {K : Type} [DecidableEq K] (settings : Settings) (key : K) : Prop :=
  ∀ windows now, ∃ decision later, settings.take windows now key = some (decision, later) ∧
    Retries settings.period decision

/-- So does every take of the rescue limiter. -/
def RedisSettings.RescueDivides (settings : RedisSettings) (key : String) : Prop :=
  ∀ windows now, ∃ decision later, settings.rescue.take windows now key = some (decision, later) ∧
    Retries settings.period decision

/-- So does every run of the script, for the replies that are exact. -/
def RedisSettings.ScriptDivides (lua : LuaNumbers) (settings : RedisSettings) : Prop :=
  ∀ counter time, ∃ reply later, settings.script lua counter time = some (reply, later) ∧
    ((time.millis / settings.period.asMillis + 1) * settings.period.asMillis ≤ 2 ^ 53 →
      ∀ decision, parseRedisDecision reply = .ok decision → Retries settings.period decision)

section Every

variable {K : Type} [DecidableEq K]

theorem Settings.divides_iff (settings : Settings) (key : K) :
    settings.Divides key ↔ 10 ^ 6 ≤ settings.period := by
  rw [← asMillis_pos_iff]
  refine ⟨fun divides => ?_, fun positive windows now => take_retries positive windows now key⟩
  obtain ⟨decision, later, taken, _⟩ := divides (fun _ => none) 0
  rw [Settings.take] at taken
  split at taken
  case isTrue => cases taken
  case isFalse some_ => exact Nat.pos_of_ne_zero some_

theorem RedisSettings.rescueDivides_iff (settings : RedisSettings) (key : String) :
    settings.RescueDivides key ↔ 10 ^ 6 ≤ settings.period := by
  rw [← asMillis_pos_iff]
  refine ⟨fun divides => ?_, fun positive windows now => ?_⟩
  · obtain ⟨decision, later, taken, _⟩ := divides [] 0
    rw [BoundedPeriodLimiter.take] at taken
    split at taken
    case isTrue => cases taken
    case isFalse some_ => exact Nat.pos_of_ne_zero some_
  · exact rescue_take_retries settings.rescue positive windows now key

theorem RedisSettings.scriptDivides_iff (lua : LuaNumbers)
    (reads : ∀ millis, 0 < millis → lua.tonumber millis ≠ 0) (settings : RedisSettings) :
    settings.ScriptDivides lua ↔ 10 ^ 6 ≤ settings.period := by
  rw [← asMillis_pos_iff]
  refine ⟨fun divides => ?_, fun positive counter time => ?_⟩
  · obtain ⟨reply, later, ran, _⟩ := divides none ⟨0, 0, by decide⟩
    rw [RedisSettings.script] at ran
    split at ran
    case isTrue remains =>
      refine Nat.pos_of_ne_zero ?_
      intro zero
      rw [zero] at remains
      exact remains (lua.tonumber_exact 0 (Nat.zero_le _))
    case isFalse => cases ran
  · have ran : settings.script lua counter time =
        some (PeriodLimiter.script lua (settings.config positive) counter time) := by
      rw [RedisSettings.script, dif_pos (reads _ positive)]
    refine ⟨_, _, ran, ?_⟩
    intro exact decision parsed
    exact script_retries lua (settings.config positive) exact counter parsed

/-- Every take divides by a period that is not zero, and refuses for a time in the period, exactly
if the period is at least a millisecond. -/
theorem limiters_divide_iff (lua : LuaNumbers)
    (reads : ∀ millis, 0 < millis → lua.tonumber millis ≠ 0) (settings : Settings) (key : K)
    (redis : RedisSettings) (rescueKey : String) :
    (settings.Divides key ↔ 10 ^ 6 ≤ settings.period) ∧
      (redis.RescueDivides rescueKey ∧ redis.ScriptDivides lua ↔ 10 ^ 6 ≤ redis.period) := by
  refine ⟨settings.divides_iff key, ?_⟩
  rw [redis.rescueDivides_iff, redis.scriptDivides_iff lua reads, and_self]

end Every

/-! ## A second and half a millisecond -/

/-- No positive number is read as zero. -/
theorem roundDouble_ne_zero {n : Int} (positive : 0 < n) : roundDouble n ≠ 0 := by
  rw [roundDouble]
  split
  case isTrue => exact positive.ne'
  case isFalse large =>
    have some_ : n.natAbs ≠ 0 := by omega
    have unit : 2 ^ (Nat.log2 n.natAbs - 52) ≤ n.natAbs :=
      (Nat.pow_le_pow_right (by decide) (Nat.sub_le _ _)).trans (Nat.log2_self_le some_)
    have unit_pos : 0 < 2 ^ (Nat.log2 n.natAbs - 52) := Nat.pow_pos (by decide)
    have low := Nat.div_pos unit unit_pos
    rw [Int.sign_eq_one_of_pos positive, one_mul]
    generalize 2 ^ (Nat.log2 n.natAbs - 52) = unit at low unit_pos ⊢
    split
    · exact_mod_cast (Nat.mul_pos low unit_pos).ne'
    · exact_mod_cast (Nat.mul_pos (Nat.succ_pos _) unit_pos).ne'

theorem two_lt_word : 2 < 2 ^ 32 := by
  decide

theorem ten_pos : 0 < 10 := by
  decide

/-- Limiters of two takes for each period. -/
def twoPer (period : Duration) (positive : 0 < period) : Settings :=
  ⟨period, 2, positive, Nat.two_pos, two_lt_word⟩

def twoPerAtRedis (period : Duration) (positive : 0 < period) (short : period.asMillis ≤ u64Max) :
    RedisSettings :=
  ⟨twoPer period positive, 10, short, ten_pos⟩

theorem second_divides : (twoPer (10 ^ 9) (by decide)).Divides "tenant" ∧
    (twoPerAtRedis (10 ^ 9) (by decide) (by decide)).RescueDivides "tenant" ∧
      (twoPerAtRedis (10 ^ 9) (by decide) (by decide)).ScriptDivides luaDoubles := by
  obtain ⟨process, redis⟩ := limiters_divide_iff luaDoubles
    (fun millis positive => roundDouble_ne_zero (by exact_mod_cast positive))
    (twoPer (10 ^ 9) (by decide)) "tenant" (twoPerAtRedis (10 ^ 9) (by decide) (by decide)) "tenant"
  exact ⟨process.mpr (by decide), redis.mpr (by decide)⟩

/-- Half a millisecond is accepted, and all three divide by zero. -/
theorem half_millisecond_divides_by_zero :
    (¬∀ settings : Settings, settings.Divides "tenant") ∧
      (¬∀ settings : RedisSettings, settings.RescueDivides "tenant") ∧
        ¬∀ settings : RedisSettings, settings.ScriptDivides luaDoubles := by
  refine ⟨?_, ?_, ?_⟩
  · intro divides
    obtain ⟨decision, later, taken, _⟩ :=
      divides (twoPer 500000 (by decide)) (fun _ => none) 1700000000000
    cases taken
  · intro divides
    obtain ⟨decision, later, taken, _⟩ :=
      divides (twoPerAtRedis 500000 (by decide) (by decide)) [] 1700000000000
    cases taken
  · intro divides
    obtain ⟨reply, later, ran, _⟩ := divides (twoPerAtRedis 500000 (by decide) (by decide)) none
      ⟨1700000000, 0, by decide⟩
    cases ran

end RustZero.PeriodLimiter
