import RustZero.RedisLimiter

/-!
# The fixed window, in the process and at Redis

`PeriodLimiter` and `PERIOD_SCRIPT` of `core/src/limit.rs`, taken from at the
same times on one key.  The process keeps the number of the window its count is
for; the script keeps a counter that expires at the end of the window of its
first increment.  `Related` says that these are the same.

The numbers of a Lua script are doubles.  What the script relies on is that
integers up to `2 ^ 53` are exact (`LuaNumbers`), which holds of all it computes
as long as the current window ends by then; `RedisPeriodLimiter::new` accepts
periods of up to `2 ^ 64 - 1` milliseconds.
-/

namespace RustZero.PeriodLimiter

open Lib RedisLimiter

/-! ## In the process -/

/-- The arguments that `PeriodLimiter::new` and `RedisPeriodLimiter::new` accept,
with a period of at least a millisecond. -/
structure Config where
  period : Duration
  quota : Nat
  period_pos : 0 < period.asMillis
  period_le : period.asMillis ≤ u64Max
  quota_pos : 0 < quota
  quota_lt : quota < 2 ^ 32

section Process

variable {K : Type} [DecidableEq K]

/-- The entry of a key, made anew when it is absent or of another window. -/
def currentEntry (stored : Option PeriodWindow) (currentWindow : Nat) : PeriodWindow :=
  let entry := stored.getD ⟨0, currentWindow⟩
  if entry.window = currentWindow then entry else ⟨0, currentWindow⟩

/-- `PeriodLimiter::take`, which reads the wall clock at `now` milliseconds. -/
def take (config : Config) (windows : K → Option PeriodWindow) (now : Nat) (key : K) :
    LimitDecision × (K → Option PeriodWindow) :=
  let period := config.period.asMillis
  let currentWindow := now / period
  let retryAfter := durationFromMillisSaturating ((currentWindow + 1) * period - now)
  let window := currentEntry (windows key) currentWindow
  if config.quota ≤ window.used then
    (.overQuota retryAfter, Function.update windows key (some window))
  else
    let used := window.used + 1
    (if used = config.quota then .hitQuota else .allowed,
      Function.update windows key (some { window with used := used }))

end Process

/-! ## At Redis -/

/-- Lua's arithmetic on nonnegative integers, exact up to `2 ^ 53`; `floorDiv a b`
is `math.floor(a / b)`, and `a % b` is `a - math.floor(a / b) * b`. -/
structure LuaNumbers where
  tonumber : Nat → Int
  add : Int → Int → Int
  sub : Int → Int → Int
  mul : Int → Int → Int
  floorDiv : Int → Int → Int
  mod : Int → Int → Int
  tonumber_exact : ∀ n, n ≤ 2 ^ 53 → tonumber n = n
  add_exact : ∀ a b, 0 ≤ a → 0 ≤ b → a + b ≤ 2 ^ 53 → add a b = a + b
  sub_exact : ∀ a b, 0 ≤ b → b ≤ a → a ≤ 2 ^ 53 → sub a b = a - b
  mul_exact : ∀ a b, 0 ≤ a → 0 ≤ b → a * b ≤ 2 ^ 53 → mul a b = a * b
  floorDiv_exact : ∀ a b, 0 ≤ a → 0 < b → (a / b + 1) * b ≤ 2 ^ 53 → floorDiv a b = a / b
  mod_exact : ∀ a b, 0 ≤ a → 0 < b → (a / b + 1) * b ≤ 2 ^ 53 → mod a b = a % b

/-- The counter of a key, and when it expires once that is set. -/
structure Counter where
  value : Nat
  deadline : Option Nat
  deriving DecidableEq, Repr

/-- The counter that commands see: a key is absent at and after its expiry. -/
def live (counter : Option Counter) (now : Nat) : Option Counter :=
  counter.filter fun stored => stored.deadline.all (now < ·)

/-- `PERIOD_SCRIPT`: its reply and the counter it leaves. -/
def script (lua : LuaNumbers) (config : Config) (counter : Option Counter) (time : RedisTime) :
    List Int × Option Counter :=
  let now := lua.add (lua.mul time.seconds 1000) (lua.floorDiv time.micros 1000)
  let period := lua.tonumber config.period.asMillis
  let quota := lua.tonumber config.quota
  let boundary := lua.add (lua.sub now (lua.mod now period)) period
  let counter := live counter time.millis
  let used := (counter.map fun stored => lua.tonumber stored.value).getD 0
  if quota ≤ used then ([2, lua.sub boundary now], counter)
  else
    -- `INCR` creates an absent key at zero, without an expiry
    let stored := counter.getD ⟨0, none⟩
    let value := stored.value + 1
    let used := lua.tonumber value
    let deadline := if used = 1 then some boundary.toNat else stored.deadline
    ([if used = quota then 1 else 0, 0], some ⟨value, deadline⟩)

/-! ## The script over exact numbers -/

/-- The end of the window of a time. -/
def boundary (config : Config) (now : Nat) : Nat :=
  (now / config.period.asMillis + 1) * config.period.asMillis

/-- All that the script computes is exact. -/
def WindowEndsExact (config : Config) (now : Nat) : Prop :=
  boundary config now ≤ 2 ^ 53

instance WindowEndsExact.decidable (config : Config) (now : Nat) :
    Decidable (WindowEndsExact config now) :=
  inferInstanceAs (Decidable (_ ≤ _))

section Exact

variable {lua : LuaNumbers} {config : Config} {time : RedisTime} {counter : Option Counter}

theorem lt_boundary (config : Config) (now : Nat) : now < boundary config now := by
  rw [boundary, Nat.mul_comm]
  exact Nat.lt_mul_div_succ now config.period_pos

theorem period_le_boundary (config : Config) (now : Nat) :
    config.period.asMillis ≤ boundary config now :=
  Nat.le_mul_of_pos_left _ (Nat.succ_pos _)

theorem script_now (exact : WindowEndsExact config time.millis) :
    lua.add (lua.mul time.seconds 1000) (lua.floorDiv time.micros 1000) = time.millis := by
  have bound := (lt_boundary config time.millis).trans_le exact
  have micros := time.micros_lt
  rw [RedisTime.millis] at bound ⊢
  rw [lua.mul_exact _ _ (by omega) (by omega) (by omega),
    lua.floorDiv_exact _ _ (by omega) (by omega) (by omega),
    lua.add_exact _ _ (by omega) (by omega) (by omega)]
  omega

theorem script_boundary (exact : WindowEndsExact config time.millis) :
    lua.add (lua.sub time.millis (lua.mod time.millis config.period.asMillis))
      config.period.asMillis = boundary config time.millis := by
  have bound := (lt_boundary config time.millis).trans_le exact
  have positive := config.period_pos
  have small := Nat.mod_le time.millis config.period.asMillis
  have parts : time.millis - time.millis % config.period.asMillis + config.period.asMillis
      = boundary config time.millis := by
    have division := Nat.div_add_mod' time.millis config.period.asMillis
    rw [boundary, Nat.succ_mul]
    omega
  have ends : ((time.millis : Int) / config.period.asMillis + 1) * config.period.asMillis
      ≤ 2 ^ 53 := by
    exact_mod_cast exact
  rw [WindowEndsExact] at exact
  rw [lua.mod_exact _ _ (by omega) (by omega) ends, ← Int.natCast_mod,
    lua.sub_exact _ _ (by omega) (by omega) (by omega),
    lua.add_exact _ _ (by omega) (by omega) (by omega)]
  omega

/-- The script when all it computes is exact. -/
theorem script_exact (exact : WindowEndsExact config time.millis)
    (counted : ∀ stored, counter = some stored → stored.value ≤ config.quota) :
    script lua config counter time
      = if config.quota ≤ ((live counter time.millis).map Counter.value).getD 0 then
          ([2, (boundary config time.millis : Int) - time.millis], live counter time.millis)
        else
          let stored := (live counter time.millis).getD ⟨0, none⟩
          ([if stored.value + 1 = config.quota then 1 else 0, 0],
            some ⟨stored.value + 1, if stored.value = 0 then some (boundary config time.millis)
              else stored.deadline⟩) := by
  have period := lua.tonumber_exact config.period.asMillis
    ((period_le_boundary config time.millis).trans exact)
  have small := config.quota_lt
  have quota := lua.tonumber_exact config.quota (by omega)
  have retry : lua.sub (boundary config time.millis) time.millis
      = (boundary config time.millis : Int) - time.millis := by
    have before := lt_boundary config time.millis
    rw [WindowEndsExact] at exact
    exact lua.sub_exact _ _ (by omega) (by omega) (by omega)
  have within : ∀ stored, live counter time.millis = some stored → stored.value ≤ config.quota := by
    intro stored seen
    exact counted stored (Option.filter_eq_some_iff.mp seen).1
  rw [script]
  simp only [script_now exact, period, quota, script_boundary exact, retry]
  cases seen : live counter time.millis with
  | none =>
      have one := lua.tonumber_exact 1 (by omega)
      have last : (1 : Int) = config.quota ↔ 1 = config.quota := by omega
      simp [one, last]
  | some stored =>
      have bound := within stored seen
      have value := lua.tonumber_exact stored.value (by omega)
      have next := lua.tonumber_exact (stored.value + 1) (by omega)
      have last : (stored.value : Int) + 1 = config.quota ↔ stored.value + 1 = config.quota := by
        omega
      simp [value, next, last]

end Exact

/-! ## Side by side -/

/-- One take: its time, what the process decided and what `parse_redis_decision`
makes of the reply at Redis. -/
structure Taken where
  now : Nat
  process : LimitDecision
  redis : Except String LimitDecision

/-- The counter at Redis, the windows of the process, and the time of the last
take. -/
structure Rig (K : Type) where
  counter : Option Counter
  windows : K → Option PeriodWindow
  clock : Nat

/-- A take on the key by a client, at the time Redis shows. -/
structure Take (C : Type) where
  client : C
  time : RedisTime

section System

variable {K C : Type} [DecidableEq K]

/-- A take at Redis and in the process; neither sees which client it is for. -/
def Rig.advance (lua : LuaNumbers) (config : Config) (key : K) (rig : Rig K) (action : Take C) :
    Option (Rig K × List Taken) :=
  let now := action.time.millis
  if rig.clock ≤ now then
    let decided := take config rig.windows now key
    let reply := script lua config rig.counter action.time
    some (⟨reply.2, decided.2, now⟩, [⟨now, decided.1, parseRedisDecision reply.1⟩])
  else none

/-- Both over whole runs, from no counter and no window. -/
def sideBySide (C : Type) (lua : LuaNumbers) (config : Config) (key : K) :
    Lts (Rig K × List Taken) (Take C) :=
  Lts.emitting ⟨none, fun _ => none, 0⟩ (Rig.advance lua config key)

end System

/-- The takes of a window. -/
def inWindow (config : Config) (window : Nat) (history : List Taken) : List Taken :=
  history.filter fun taken => taken.now / config.period.asMillis = window

/-- `LimitDecision::is_allowed`. -/
def isAllowed : LimitDecision → Bool
  | .overQuota _ => false
  | _ => true

/-- The takes of a history, at Redis as in the process, respect the windows. -/
structure FixedWindows (config : Config) (history : List Taken) : Prop where
  /-- Redis and the process decide alike, with the same retry times. -/
  same : ∀ taken ∈ history, taken.redis = .ok taken.process
  /-- At most the quota is allowed in a window. -/
  atMost : ∀ window,
    ((inWindow config window history).filter (isAllowed ·.process)).length ≤ config.quota
  /-- The quota is hit by the take of the window with that number, and no other. -/
  quotaHit : ∀ before taken after, history = before ++ taken :: after →
    (taken.process = .hitQuota
      ↔ (inWindow config (taken.now / config.period.asMillis) before).length + 1 = config.quota)

/-- The number of takes so far in the window of a time. -/
def taken (config : Config) (history : List Taken) (now : Nat) : Nat :=
  (inWindow config (now / config.period.asMillis) history).length

/-- What is decided after a number of takes in the window. -/
def decided (config : Config) (count now : Nat) : LimitDecision :=
  if config.quota ≤ count then
    .overQuota (durationFromMillisSaturating (boundary config now - now))
  else if count + 1 = config.quota then .hitQuota
  else .allowed

section Takes

variable {lua : LuaNumbers} {config : Config} {time : RedisTime} {counter : Option Counter}
  {count now : Nat}

/-- The counter of a window in which some number of takes was made. -/
def counterOf (config : Config) (count now : Nat) : Option Counter :=
  if count = 0 then none
  else some ⟨min config.quota count, some (boundary config now)⟩

/-- The script after a number of takes in the window. -/
theorem script_decided (lua : LuaNumbers) (exact : WindowEndsExact config time.millis)
    (counted : ∀ stored, counter = some stored → stored.value ≤ config.quota)
    (seen : live counter time.millis = counterOf config count time.millis) :
    parseRedisDecision (script lua config counter time).1 = .ok (decided config count time.millis)
      ∧ (script lua config counter time).2 = counterOf config (count + 1) time.millis := by
  have positive := config.quota_pos
  rw [script_exact exact counted, seen]
  by_cases spent : config.quota ≤ count
  · have some : count ≠ 0 := by omega
    have next : min config.quota (count + 1) = config.quota := min_eq_left (by omega)
    have later := lt_boundary config time.millis
    have millis : ((boundary config time.millis : Int) - time.millis).toNat
        = boundary config time.millis - time.millis := by
      omega
    have unsaturated : min (boundary config time.millis - time.millis) u64Max
        = boundary config time.millis - time.millis := by
      rw [WindowEndsExact] at exact
      rw [u64Max]
      omega
    have ahead : (time.millis : Int) ≤ boundary config time.millis := by omega
    simp [counterOf, some, next, decided, spent, parseRedisDecision, millis, ahead,
      durationFromMillisSaturating, unsaturated]
  · have room : min config.quota count = count := min_eq_right (by omega)
    have next : min config.quota (count + 1) = count + 1 := min_eq_right (by omega)
    have read : ((counterOf config count time.millis).map Counter.value).getD 0 = count
        ∧ ((counterOf config count time.millis).getD ⟨0, none⟩).value = count
        ∧ (if count = 0 then some (boundary config time.millis)
            else ((counterOf config count time.millis).getD ⟨0, none⟩).deadline)
          = some (boundary config time.millis) := by
      by_cases fresh : count = 0
      · simp [counterOf, fresh]
      · simp [counterOf, fresh, room]
    obtain ⟨used, value, deadline⟩ := read
    simp only [used, if_neg spent, value, deadline, decided]
    refine ⟨?_, ?_⟩
    · split
      · rfl
      · rfl
    · rw [counterOf, if_neg (by omega), next]

theorem take_decided {K : Type} [DecidableEq K] {windows : K → Option PeriodWindow} {key : K}
    (seen : currentEntry (windows key) (now / config.period.asMillis)
      = ⟨min config.quota count, now / config.period.asMillis⟩) :
    take config windows now key = (decided config count now,
      Function.update windows key
        (some ⟨min config.quota (count + 1), now / config.period.asMillis⟩)) := by
  rw [take, decided]
  simp only [seen]
  by_cases spent : config.quota ≤ count
  · have full : min config.quota count = config.quota := min_eq_left spent
    have next : min config.quota (count + 1) = config.quota := min_eq_left (by omega)
    rw [full, next, if_pos le_rfl, if_pos spent]
    rfl
  · have room : min config.quota count = count := min_eq_right (by omega)
    have next : min config.quota (count + 1) = count + 1 := min_eq_right (by omega)
    rw [room, next, if_neg spent, if_neg spent]

end Takes

/-- The counter and the window of the key are those of the takes so far, now and
at any later time before the next take. -/
structure Related {K : Type} (config : Config) (key : K) (rig : Rig K) (history : List Taken) :
    Prop where
  past : ∀ entry ∈ history, entry.now ≤ rig.clock
  counted : ∀ stored, rig.counter = some stored → stored.value ≤ config.quota
  redis : ∀ now, rig.clock ≤ now →
    live rig.counter now = counterOf config (taken config history now) now
  process : ∀ now, rig.clock ≤ now →
    currentEntry (rig.windows key) (now / config.period.asMillis)
      = ⟨min config.quota (taken config history now), now / config.period.asMillis⟩

section Windows

variable {config : Config} {history : List Taken} {entry : Taken} {now later : Nat}

theorem inWindow_append (config : Config) (window : Nat) (left right : List Taken) :
    inWindow config window (left ++ right)
      = inWindow config window left ++ inWindow config window right :=
  List.filter_append _ _

theorem taken_same_window (history : List Taken) (same : later / config.period.asMillis
      = entry.now / config.period.asMillis) :
    taken config (history ++ [entry]) later = taken config history entry.now + 1 := by
  rw [taken, inWindow_append, List.length_append, same]
  simp [taken, inWindow]

/-- No take so far is of a window that has yet to begin. -/
theorem taken_later_window (past : ∀ entry ∈ history, entry.now ≤ now)
    (after : now / config.period.asMillis < later / config.period.asMillis) :
    taken config history later = 0 := by
  rw [taken, List.length_eq_zero_iff, inWindow, List.filter_eq_nil_iff]
  intro entry member
  have before := Nat.div_le_div_right (past entry member) (c := config.period.asMillis)
  simp only [decide_eq_true_eq]
  omega

/-- A time is in a window until the window ends. -/
theorem lt_boundary_iff (order : now ≤ later) :
    later < boundary config now
      ↔ later / config.period.asMillis = now / config.period.asMillis := by
  have monotone := Nat.div_le_div_right order (c := config.period.asMillis)
  rw [boundary, ← Nat.div_lt_iff_lt_mul config.period_pos]
  omega

theorem boundary_same_window (same : later / config.period.asMillis
      = now / config.period.asMillis) : boundary config later = boundary config now := by
  rw [boundary, boundary, same]

/-- Right after a take. -/
theorem related_after_take {K : Type} [DecidableEq K] (key : K)
    (windows : K → Option PeriodWindow) (entry : Taken)
    (past : ∀ earlier ∈ history, earlier.now ≤ entry.now) :
    Related config key
      ⟨counterOf config (taken config history entry.now + 1) entry.now,
        Function.update windows key (some ⟨min config.quota (taken config history entry.now + 1),
          entry.now / config.period.asMillis⟩), entry.now⟩ (history ++ [entry]) := by
  have all : ∀ earlier ∈ history ++ [entry], earlier.now ≤ entry.now := by
    intro earlier member
    rcases List.mem_append.mp member with old | new
    · exact past earlier old
    · rw [List.mem_singleton.mp new]
  have stored : counterOf config (taken config history entry.now + 1) entry.now
      = some ⟨min config.quota (taken config history entry.now + 1),
          some (boundary config entry.now)⟩ :=
    if_neg (Nat.succ_ne_zero _)
  refine ⟨all, ?_, ?_, ?_⟩
  · intro counter found
    rw [stored] at found
    cases found
    exact min_le_left _ _
  · intro later order
    dsimp only at order ⊢
    rw [stored, live, Option.filter_some]
    simp only [Option.all_some, decide_eq_true_eq, lt_boundary_iff order]
    by_cases same : later / config.period.asMillis = entry.now / config.period.asMillis
    · rw [if_pos same, taken_same_window history same, counterOf, if_neg (Nat.succ_ne_zero _),
        boundary_same_window same]
    · have monotone := Nat.div_le_div_right order (c := config.period.asMillis)
      rw [if_neg same, taken_later_window all (by omega)]
      rfl
  · intro later order
    dsimp only at order ⊢
    rw [Function.update_self, currentEntry, Option.getD_some]
    by_cases same : later / config.period.asMillis = entry.now / config.period.asMillis
    · rw [if_pos same.symm, taken_same_window history same, same]
    · have monotone := Nat.div_le_div_right order (c := config.period.asMillis)
      rw [if_neg (Ne.symm same), taken_later_window all (by omega), Nat.min_zero]

/-! ## Histories -/

/-- A history in which every take was decided by the takes before it. -/
structure Decided (config : Config) (history : List Taken) : Prop where
  windows : FixedWindows config history
  granted : ∀ window, ((inWindow config window history).filter (isAllowed ·.process)).length
    = min config.quota (inWindow config window history).length

theorem isAllowed_decided (config : Config) (count now : Nat) :
    isAllowed (decided config count now) = decide (count < config.quota) := by
  rw [decided]
  split
  case isTrue spent => simp [isAllowed, spent]
  case isFalse room =>
    have less : count < config.quota := by omega
    split
    · simp [isAllowed, less]
    · simp [isAllowed, less]

theorem decided_eq_hitQuota_iff (config : Config) (count now : Nat) :
    decided config count now = .hitQuota ↔ count + 1 = config.quota := by
  rw [decided]
  split
  · simp
    omega
  · split
    · simp [*]
    · simp [*]

/-- One more take, decided by those before it. -/
theorem Decided.append (past : Decided config history)
    (process : entry.process = decided config (taken config history entry.now) entry.now)
    (redis : entry.redis = .ok entry.process) : Decided config (history ++ [entry]) := by
  have granted : ∀ window, ((inWindow config window (history ++ [entry])).filter
      (isAllowed ·.process)).length
      = min config.quota (inWindow config window (history ++ [entry])).length := by
    intro window
    have before := past.granted window
    rw [inWindow_append, List.filter_append, List.length_append, List.length_append, before]
    by_cases here : entry.now / config.period.asMillis = window
    · have counted : taken config history entry.now = (inWindow config window history).length := by
        rw [taken, here]
      have allowed : isAllowed entry.process
          = decide ((inWindow config window history).length < config.quota) := by
        rw [process, isAllowed_decided, counted]
      have added : inWindow config window [entry] = [entry] := by
        simp [inWindow, here]
      rw [added, List.filter_singleton, allowed, List.length_singleton]
      by_cases room : (inWindow config window history).length < config.quota
      · rw [decide_eq_true room, cond_true, List.length_singleton]
        omega
      · rw [decide_eq_false room, cond_false, List.length_nil]
        omega
    · simp [inWindow, here]
  refine ⟨⟨?_, ?_, ?_⟩, granted⟩
  · intro other member
    rcases List.mem_append.mp member with old | new
    · exact past.windows.same other old
    · rw [List.mem_singleton.mp new, redis]
  · intro window
    rw [granted window]
    exact min_le_left _ _
  · intro before other after parts
    rcases List.eq_nil_or_concat after with rfl | ⟨rest, last, rfl⟩
    · obtain ⟨rfl, same⟩ := List.append_inj' parts rfl
      cases same
      rw [process, decided_eq_hitQuota_iff]
      rfl
    · have older : history = before ++ other :: rest := by
        rw [List.concat_eq_append, ← List.cons_append, ← List.append_assoc] at parts
        exact (List.append_inj' parts rfl).1
      exact past.windows.quotaHit before other rest older

end Windows

section Runs

variable {K C : Type} [DecidableEq K] {lua : LuaNumbers} {config : Config} {key : K}
  {rig later : Rig K} {history : List Taken}

/-- One take in a window that ends within the exact numbers. -/
theorem take_step {action : Take C} {new : List Taken} (related : Related config key rig history)
    (past : Decided config history) (exact : WindowEndsExact config action.time.millis)
    (advanced : rig.advance lua config key action = some (later, new)) :
    Related config key later (history ++ new) ∧ Decided config (history ++ new) := by
  rw [Rig.advance] at advanced
  split at advanced
  case isFalse => cases advanced
  case isTrue order =>
    obtain ⟨reply, counter⟩ :=
      script_decided lua exact related.counted (related.redis _ order)
    have process := take_decided (related.process _ order)
    rw [process] at advanced
    simp only [reply, counter, Option.some.injEq, Prod.mk.injEq] at advanced
    obtain ⟨rfl, rfl⟩ := advanced
    have before : ∀ earlier ∈ history, earlier.now ≤ action.time.millis := by
      intro earlier member
      exact (related.past earlier member).trans order
    exact ⟨related_after_take key rig.windows ⟨action.time.millis, _, _⟩ before,
      past.append rfl rfl⟩

end Runs

/-- In every run whose takes all fall in windows that end by `2 ^ 53`
milliseconds, the script decides as the process does, at most the quota is
allowed in each window and the last of these hits it. -/
theorem script_keeps_fixedWindows_when_exact {K : Type} [DecidableEq K] (C : Type)
    (lua : LuaNumbers) (config : Config) (key : K) {rig : Rig K} {history : List Taken}
    (reach : (sideBySide C lua config key).Reach
      (fun _ action => WindowEndsExact config action.time.millis) (rig, history)) :
    FixedWindows config history := by
  have start : Related config key ⟨none, fun _ => none, 0⟩ [] ∧ Decided config [] := by
    refine ⟨⟨?_, ?_, ?_, ?_⟩, ⟨⟨?_, ?_, ?_⟩, ?_⟩⟩
    · intro entry member
      cases member
    · intro stored absent
      cases absent
    · intro now _
      rfl
    · intro now _
      simp [currentEntry, taken, inWindow]
    · intro entry member
      cases member
    · intro window
      exact Nat.zero_le _
    · intro before entry after parts
      simp at parts
    · intro window
      simp [inWindow]
  have kept : Related config key rig history ∧ Decided config history := by
    refine reach.emitting_invariant
      (I := fun rig history => Related config key rig history ∧ Decided config history) start ?_
    intro rig history action later new kept exact advanced
    obtain ⟨related, past⟩ := kept
    exact take_step related past exact advanced
  exact kept.2.windows

/-! ## Doubles -/

/-- An integer rounded to 53 binary digits, ties to even. -/
def roundDouble (n : Int) : Int :=
  if n.natAbs ≤ 2 ^ 53 then n
  else
    let unit := 2 ^ (Nat.log2 n.natAbs - 52)
    let low := n.natAbs / unit
    let rest := n.natAbs % unit
    let rounded := if 2 * rest < unit ∨ (2 * rest = unit ∧ low % 2 = 0) then low else low + 1
    n.sign * (rounded * unit)

theorem roundDouble_exact {n : Int} (low : 0 ≤ n) (high : n ≤ 2 ^ 53) : roundDouble n = n := by
  rw [roundDouble, if_pos (by omega)]

theorem quotient_bounds {a b : Int} (left : 0 ≤ a) (right : 0 < b)
    (bound : (a / b + 1) * b ≤ 2 ^ 53) :
    0 ≤ a / b ∧ a / b ≤ 2 ^ 53 ∧ 0 ≤ a / b * b ∧ a / b * b + b ≤ 2 ^ 53 := by
  have quotient := Int.ediv_nonneg left right.le
  have product := Int.mul_nonneg quotient right.le
  have larger : a / b * 1 ≤ a / b * b := Int.mul_le_mul_of_nonneg_left right quotient
  rw [Int.add_mul, Int.one_mul] at bound
  exact ⟨quotient, by omega, product, bound⟩

/-- The doubles of Lua on integers; a quotient that is floored is not rounded
before. -/
def luaDoubles : LuaNumbers where
  tonumber n := roundDouble n
  add a b := roundDouble (a + b)
  sub a b := roundDouble (a - b)
  mul a b := roundDouble (a * b)
  floorDiv a b := roundDouble (a / b)
  mod a b := roundDouble (a - roundDouble (roundDouble (a / b) * b))
  tonumber_exact n bound := roundDouble_exact (by omega) (by exact_mod_cast bound)
  add_exact a b left right bound := roundDouble_exact (by omega) bound
  sub_exact a b left right bound := roundDouble_exact (by omega) (by omega)
  mul_exact a b left right bound := roundDouble_exact (Int.mul_nonneg left right) bound
  floorDiv_exact a b left right bound := by
    obtain ⟨low, high, -, -⟩ := quotient_bounds left right bound
    exact roundDouble_exact low high
  mod_exact a b left right bound := by
    obtain ⟨low, high, multiple, ends⟩ := quotient_bounds left right bound
    have positive := Int.emod_nonneg a right.ne'
    have small := Int.emod_lt_of_pos a right
    have parts : a - a / b * b = a % b := by
      rw [Int.emod_def, Int.mul_comm]
    rw [roundDouble_exact low high, roundDouble_exact multiple (by omega), parts,
      roundDouble_exact positive (by omega)]

/-- A period of `2 ^ 53 + 1` milliseconds, which the constructor accepts. -/
def longPeriod : Config :=
  ⟨Duration.fromMillis 9007199254740993, 1, by decide, by decide, by decide, by decide⟩

/-- Two takes of one key in the first window of such a period: Redis reads the
period as `2 ^ 53` and answers the second with a retry time that is a millisecond
short of the process's. -/
theorem long_period_retry_differs :
    ∃ rig history, (sideBySide Nat luaDoubles longPeriod "tenant").Reachable (rig, history)
      ∧ ¬ FixedWindows longPeriod history := by
  have run : ((sideBySide Nat luaDoubles longPeriod "tenant").exec
      (sideBySide Nat luaDoubles longPeriod "tenant").init
      [⟨0, ⟨1700000000, 0, by decide⟩⟩, ⟨1, ⟨1700000000, 0, by decide⟩⟩]).map
        (fun state => state.2.map fun taken => (taken.process, taken.redis))
      = some [(.hitQuota, .ok .hitQuota),
          (.overQuota (Duration.fromMillis 9005499254740993),
            .ok (.overQuota (Duration.fromMillis 9005499254740992)))] := by
    decide +kernel
  obtain ⟨state, executed, ends⟩ := Option.map_eq_some_iff.mp run
  obtain ⟨rig, history⟩ := state
  refine ⟨rig, history, Lts.reachable_of_exec _ executed, ?_⟩
  intro windows
  dsimp only at ends
  obtain ⟨first, rest, rfl, -, ends⟩ := List.map_eq_cons_iff.mp ends
  obtain ⟨second, none, rfl, decisions, -⟩ := List.map_eq_cons_iff.mp ends
  have same := windows.same second (by simp)
  obtain ⟨process, redis⟩ := Prod.mk.inj decisions
  rw [process, redis] at same
  exact absurd same (by decide)

/-- A quota of two in windows of a second. -/
def twoPerSecond : Config :=
  ⟨Duration.fromMillis 1000, 2, by decide, by decide, by decide, by decide⟩

/-- Three takes in one such window and one in the next, by two clients. -/
theorem script_keeps_two_windows :
    ∃ rig history, (sideBySide Nat luaDoubles twoPerSecond "tenant").Reach
        (fun _ action => WindowEndsExact twoPerSecond action.time.millis) (rig, history)
      ∧ history.length = 4 ∧ FixedWindows twoPerSecond history := by
  have run : ((sideBySide Nat luaDoubles twoPerSecond "tenant").exec
      (sideBySide Nat luaDoubles twoPerSecond "tenant").init
      [⟨0, ⟨7, 0, by decide⟩⟩, ⟨1, ⟨7, 500000, by decide⟩⟩, ⟨0, ⟨7, 999999, by decide⟩⟩,
        ⟨1, ⟨8, 0, by decide⟩⟩]).map (fun state => state.2.length) = some 4 := by
    decide +kernel
  have meets : (sideBySide Nat luaDoubles twoPerSecond "tenant").Meets
      (fun _ action => WindowEndsExact twoPerSecond action.time.millis)
      (sideBySide Nat luaDoubles twoPerSecond "tenant").init
      [⟨0, ⟨7, 0, by decide⟩⟩, ⟨1, ⟨7, 500000, by decide⟩⟩, ⟨0, ⟨7, 999999, by decide⟩⟩,
        ⟨1, ⟨8, 0, by decide⟩⟩] := by
    decide +kernel
  obtain ⟨state, executed, ends⟩ := Option.map_eq_some_iff.mp run
  obtain ⟨rig, history⟩ := state
  have reach := Lts.reach_of_exec _ meets executed
  exact ⟨rig, history, reach, ends,
    script_keeps_fixedWindows_when_exact Nat luaDoubles twoPerSecond "tenant" reach⟩

end RustZero.PeriodLimiter
