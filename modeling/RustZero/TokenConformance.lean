import RustZero.Lib.Lts
import RustZero.Lib.TokenBucket
import RustZero.TokenLimiter

/-!
# Token buckets conform to their rate

`TokenLimiter::take` of `core/src/limit.rs` and `TokenBucket::try_acquire` of
`rest/src/middleware.rs`, over exact rational numbers with times in seconds; `Instant`s do not go
back.

* `takeAt` is the take of `RustZero.TokenLimiter` at any time (`takeAt_millis`), `tryAcquire` that
  of the REST limiter; both draw from a bucket of `Lib.TokenBucket`.
* `Answers` and `RestAnswers` say what one request is answered, and when a refused one would be
  granted.
* `limiters_conform`: the permits granted in any interval, after any requests.
-/

namespace RustZero.TokenLimiter

open Lib

/-! ## The two limiters -/

/-- `TokenLimiter::take`, which asserts a positive permit count. -/
def takeAt (config : Config) (bucket : TokenBucket ℚ) (now : ℚ) (permits : Nat) :
    Option (Decision × TokenBucket ℚ) :=
  if permits = 0 then none
  else if config.burst < permits then some (.overQuota durationMaxSeconds, bucket)
  else
    let bucket := bucket.refill (config.rate : ℚ) (config.burst : ℚ) now
    if (permits : ℚ) ≤ bucket.available then
      let bucket := bucket.spend permits
      some (if bucket.available < 1 then .hitQuota else .allowed, bucket)
    else some (.overQuota ((permits - bucket.available) / config.rate), bucket)

/-- The times of `RustZero.TokenLimiter` are milliseconds. -/
def Bucket.inSeconds (bucket : Bucket) : TokenBucket ℚ :=
  ⟨bucket.available, bucket.lastRefill / 1000⟩

theorem refill_inSeconds (config : Config) {bucket : Bucket} {now : Nat}
    (order : bucket.lastRefill ≤ now) :
    (bucket.refill config now).inSeconds =
      bucket.inSeconds.refill (config.rate : ℚ) (config.burst : ℚ) ((now : ℚ) / 1000) := by
  rw [Bucket.refill, Bucket.inSeconds, Bucket.inSeconds, TokenBucket.refill, Nat.cast_sub order,
    sub_div]

/-- At a whole millisecond it is the take of `RustZero.TokenLimiter`. -/
theorem takeAt_millis (config : Config) {bucket : Bucket} {now : Nat}
    (order : bucket.lastRefill ≤ now) (permits : Nat) :
    takeAt config bucket.inSeconds ((now : ℚ) / 1000) permits =
      (bucket.take config now permits).map fun taken => (taken.1, taken.2.inSeconds) := by
  have refilled := refill_inSeconds config order
  rw [takeAt, Bucket.take, ← refilled]
  by_cases none_ : permits = 0
  · rw [if_pos none_, if_pos none_]
    rfl
  · rw [if_neg none_, if_neg none_]
    by_cases more : config.burst < permits
    · rw [if_pos more, if_pos more]
      rfl
    · rw [if_neg more, if_neg more]
      by_cases enough : (permits : ℚ) ≤ (bucket.refill config now).available
      · rw [Bucket.inSeconds, if_pos enough, if_pos enough]
        rfl
      · rw [Bucket.inSeconds, if_neg enough, if_neg enough]
        rfl

/-- The bucket of the REST limiter. -/
structure RestBucket where
  available : ℚ
  capacity : ℚ
  lastRefill : ℚ
  deriving DecidableEq, Repr

/-- `RateLimit::new`, whose arguments `Config` checks. -/
def RestBucket.new (config : Config) (now : ℚ) : RestBucket :=
  ⟨config.burst, config.burst, now⟩

/-- `TokenBucket::try_acquire`: the time until the next permit when the bucket is empty. -/
def RestBucket.tryAcquire (permitsPerSecond : ℚ) (bucket : RestBucket) (now : ℚ) :
    Option ℚ × RestBucket :=
  let elapsed := now - bucket.lastRefill
  let available := min (bucket.available + elapsed * permitsPerSecond) bucket.capacity
  if 1 ≤ available then
    (none, { bucket with available := available - 1, lastRefill := now })
  else
    (some ((1 - available) / permitsPerSecond),
      { bucket with available := available, lastRefill := now })

/-! ## One request -/

/-- `LimitDecision::is_allowed`. -/
def Decision.isAllowed : Decision → Bool
  | .overQuota _ => false
  | _ => true

/-- What a take is answered, and the bucket after it. -/
structure Answers (config : Config) (bucket : TokenBucket ℚ) (now : ℚ) (permits : Nat)
    (decision : Decision) (later : TokenBucket ℚ) : Prop where
  /-- A refused take changes the level at most by the refill. -/
  refused : decision.isAllowed = false → bucket.available ≤ later.available ∧
    later.available ≤ bucket.available + config.rate * (now - bucket.lastRefill)
  /-- It would be granted from the retry time on, and no earlier. -/
  retry : permits ≤ config.burst → ∀ retryAfter, decision = .overQuota retryAfter →
    0 < retryAfter ∧ ∀ next, now ≤ next →
      ((∃ again last, takeAt config later next permits = some (again, last) ∧
        again.isAllowed = true) ↔ now + retryAfter ≤ next)
  /-- A granted take hits the quota exactly if less than one permit remains. -/
  quota : decision.isAllowed = true → (decision = .hitQuota ↔ later.available < 1)

section Takes

variable {config : Config} {bucket later : TokenBucket ℚ} {now : ℚ} {permits : Nat}

theorem rate_pos (config : Config) : (0 : ℚ) < config.rate := by
  exact_mod_cast config.rate_pos

theorem burst_nonneg (config : Config) : (0 : ℚ) ≤ config.burst := by
  positivity

/-- What there is to a take of some permits. -/
theorem takeAt_some (some_ : permits ≠ 0) (fits : ¬config.burst < permits) :
    takeAt config bucket now permits =
      if (permits : ℚ) ≤ (bucket.refill (config.rate : ℚ) (config.burst : ℚ) now).available then
        some (if ((bucket.refill (config.rate : ℚ) (config.burst : ℚ) now).spend
            permits).available < 1 then .hitQuota else .allowed,
          (bucket.refill (config.rate : ℚ) (config.burst : ℚ) now).spend permits)
      else some (.overQuota ((permits - (bucket.refill (config.rate : ℚ) (config.burst : ℚ)
          now).available) / config.rate),
        bucket.refill (config.rate : ℚ) (config.burst : ℚ) now) := by
  rw [takeAt, if_neg some_, if_neg fits]

theorem takeAt_granted_iff (some_ : permits ≠ 0) (fits : permits ≤ config.burst)
    (bucket : TokenBucket ℚ) (now : ℚ) :
    (∃ decision later, takeAt config bucket now permits = some (decision, later) ∧
      decision.isAllowed = true) ↔
        (permits : ℚ) ≤ (bucket.refill (config.rate : ℚ) (config.burst : ℚ) now).available := by
  rw [takeAt_some some_ (not_lt.mpr fits)]
  split
  case isTrue enough =>
    refine iff_of_true ⟨_, _, rfl, ?_⟩ enough
    split
    · rfl
    · rfl
  case isFalse refused =>
    refine iff_of_false ?_ refused
    intro granted
    obtain ⟨decision, later, same, allowed⟩ := granted
    cases same
    cases allowed

/-- What a take gives. -/
def grantsOf (decision : Decision) (now : ℚ) (permits : Nat) : List (ℚ × ℚ) :=
  if decision.isAllowed then [(now, (permits : ℚ))] else []

/-- Every take is answered, and draws from the bucket. -/
theorem takeAt_answers (level : bucket.available ≤ config.burst)
    (order : bucket.lastRefill ≤ now) (some_ : 0 < permits) :
    ∃ decision later, takeAt config bucket now permits = some (decision, later) ∧
      Answers config bucket now permits decision later ∧
        TokenBucket.Draws (config.rate : ℚ) (config.burst : ℚ) bucket now
          (grantsOf decision now permits) later := by
  have rate := rate_pos config
  have flow := mul_nonneg rate.le (sub_nonneg.mpr order)
  by_cases more : config.burst < permits
  · refine ⟨_, _, by rw [takeAt, if_neg some_.ne', if_pos more], ⟨?_, ?_, ?_⟩, .untouched⟩
    · intro _
      exact ⟨le_rfl, le_add_of_nonneg_right flow⟩
    · intro fits
      exact absurd fits (not_le.mpr more)
    · intro allowed
      cases allowed
  · have fits : (permits : ℚ) ≤ config.burst := by exact_mod_cast not_lt.mp more
    rw [takeAt_some some_.ne' more]
    split
    case isTrue enough =>
      refine ⟨_, _, rfl, ⟨?_, ?_, ?_⟩, ?_⟩
      · intro refused
        split at refused
        · cases refused
        · cases refused
      · intro _ retryAfter same
        split at same
        · cases same
        · cases same
      · intro _
        split
        case isTrue short => exact iff_of_true rfl short
        case isFalse rest => exact iff_of_false (by simp) rest
      · have granted : grantsOf (if ((bucket.refill (config.rate : ℚ) (config.burst : ℚ)
            now).spend permits).available < 1 then .hitQuota else .allowed) now permits =
              [(now, (permits : ℚ))] := by
          split
          · rfl
          · rfl
        rw [granted]
        exact .granted (Nat.cast_nonneg permits) enough
    case isFalse refused =>
      obtain ⟨positive, exact_⟩ := TokenBucket.retry_exact rate fits refused
      refine ⟨_, _, rfl, ⟨?_, ?_, ?_⟩, .refused⟩
      · intro _
        refine ⟨TokenBucket.le_refill rate.le level order, ?_⟩
        rw [mul_comm]
        exact min_le_left _ _
      · intro fits retryAfter same
        cases same
        refine ⟨positive, ?_⟩
        intro next _
        rw [takeAt_granted_iff some_.ne' fits]
        exact exact_ next
      · intro allowed
        cases allowed

end Takes

/-- What a request at the REST limiter is answered, and the bucket after it. -/
structure RestAnswers (config : Config) (bucket : RestBucket) (now : ℚ)
    (refusal : Option ℚ) (later : RestBucket) : Prop where
  refused : refusal ≠ none → bucket.available ≤ later.available ∧
    later.available ≤ bucket.available + config.rate * (now - bucket.lastRefill)
  retry : ∀ retryAfter, refusal = some retryAfter → 0 < retryAfter ∧ ∀ next, now ≤ next →
    ((later.tryAcquire config.rate next).1 = none ↔ now + retryAfter ≤ next)

section Acquires

variable {config : Config} {bucket : RestBucket} {now : ℚ}

/-- The bucket without its capacity. -/
def RestBucket.tokens (bucket : RestBucket) : TokenBucket ℚ :=
  ⟨bucket.available, bucket.lastRefill⟩

theorem tryAcquire_none_iff (full : bucket.capacity = config.burst) (now : ℚ) :
    (bucket.tryAcquire config.rate now).1 = none ↔
      1 ≤ (bucket.tokens.refill (config.rate : ℚ) (config.burst : ℚ) now).available := by
  rw [RestBucket.tryAcquire, full]
  split
  case isTrue enough => exact iff_of_true rfl enough
  case isFalse refused => exact iff_of_false (by simp) refused

/-- What a request gives. -/
def acquired (refusal : Option ℚ) (now : ℚ) : List (ℚ × ℚ) :=
  if refusal = none then [(now, 1)] else []

/-- Every request is answered, and draws from the bucket. -/
theorem tryAcquire_answers (full : bucket.capacity = config.burst)
    (level : bucket.available ≤ config.burst) (order : bucket.lastRefill ≤ now) :
    RestAnswers config bucket now (bucket.tryAcquire config.rate now).1
        (bucket.tryAcquire config.rate now).2 ∧
      (bucket.tryAcquire config.rate now).2.capacity = config.burst ∧
        TokenBucket.Draws (config.rate : ℚ) (config.burst : ℚ) bucket.tokens now
          (acquired (bucket.tryAcquire config.rate now).1 now)
          (bucket.tryAcquire config.rate now).2.tokens := by
  have rate := rate_pos config
  have one : (1 : ℚ) ≤ config.burst := by exact_mod_cast config.burst_pos
  by_cases enough : 1 ≤ (bucket.tokens.refill (config.rate : ℚ) (config.burst : ℚ) now).available
  · have ran : bucket.tryAcquire config.rate now = (none, { bucket with
        available := (bucket.tokens.refill (config.rate : ℚ) (config.burst : ℚ) now).available - 1,
        lastRefill := now }) := by
      rw [RestBucket.tryAcquire, full]
      exact if_pos enough
    rw [ran]
    refine ⟨⟨fun refused => absurd rfl refused, ?_⟩, full, .granted zero_le_one enough⟩
    intro retryAfter same
    cases same
  · have ran : bucket.tryAcquire config.rate now =
        (some ((1 - (bucket.tokens.refill (config.rate : ℚ) (config.burst : ℚ) now).available) /
          config.rate), { bucket with
        available := (bucket.tokens.refill (config.rate : ℚ) (config.burst : ℚ) now).available,
        lastRefill := now }) := by
      rw [RestBucket.tryAcquire, full]
      exact if_neg enough
    rw [ran]
    obtain ⟨positive, exact_⟩ := TokenBucket.retry_exact rate one enough
    refine ⟨⟨?_, ?_⟩, full, .refused⟩
    · intro _
      have more : bucket.tokens.available ≤
          (bucket.tokens.refill (config.rate : ℚ) (config.burst : ℚ) now).available :=
        TokenBucket.le_refill rate.le level order
      refine ⟨more, ?_⟩
      rw [mul_comm]
      exact min_le_left _ _
    · intro retryAfter same
      cases same
      refine ⟨positive, ?_⟩
      intro next _
      have again := exact_ next
      rw [tryAcquire_none_iff (by exact full)]
      exact again

end Acquires

/-! ## Runs -/

/-- A limiter, the time of its last request, and all it has granted. -/
structure Metered (β : Type) where
  bucket : β
  clock : ℚ
  grants : List (ℚ × ℚ)

/-- A take of any positive number of permits, at a time that is not before the last. -/
def Metered.take (config : Config) (metered : Metered (TokenBucket ℚ)) (action : ℚ × Nat) :
    Option (Metered (TokenBucket ℚ)) :=
  if metered.clock ≤ action.1 then
    (takeAt config metered.bucket action.1 action.2).map fun taken =>
      ⟨taken.2, action.1, metered.grants ++ grantsOf taken.1 action.1 action.2⟩
  else none

/-- A request at the REST limiter. -/
def Metered.acquire (config : Config) (metered : Metered RestBucket) (now : ℚ) :
    Option (Metered RestBucket) :=
  if metered.clock ≤ now then
    let (refusal, later) := metered.bucket.tryAcquire config.rate now
    some ⟨later, now, metered.grants ++ acquired refusal now⟩
  else none

/-- Takes from a limiter built at a time. -/
def takes (config : Config) (start : ℚ) : Lts (Metered (TokenBucket ℚ)) (ℚ × Nat) where
  init := ⟨⟨config.burst, start⟩, start, []⟩
  step := Metered.take config

def acquires (config : Config) (start : ℚ) : Lts (Metered RestBucket) ℚ where
  init := ⟨.new config start, start, []⟩
  step := Metered.acquire config

/-- The level stays in the bucket, and in any interval at most a full bucket is granted and what
flows in. -/
structure Rated (config : Config) (available : ℚ) (grants : List (ℚ × ℚ)) : Prop where
  level : 0 ≤ available ∧ available ≤ config.burst
  interval : ∀ first length, 0 ≤ length →
    TokenBucket.given grants first (first + length) ≤ config.burst + config.rate * length

section Runs

variable {config : Config} {start : ℚ}

theorem rated_of_conforms {bucket : TokenBucket ℚ} {grants : List (ℚ × ℚ)}
    (conforms : TokenBucket.Conforms (config.rate : ℚ) (config.burst : ℚ) bucket grants) :
    Rated config bucket.available grants := by
  refine ⟨⟨conforms.nonneg, conforms.le_capacity⟩, ?_⟩
  intro first length positive
  have bound := conforms.within first (first + length) (le_add_of_nonneg_right positive)
  rwa [add_sub_cancel_left] at bound

/-- What every take keeps. -/
structure Metered.Kept (config : Config) (metered : Metered (TokenBucket ℚ)) : Prop where
  conforms : TokenBucket.Conforms (config.rate : ℚ) (config.burst : ℚ) metered.bucket metered.grants
  past : metered.bucket.lastRefill ≤ metered.clock

theorem draws_past {rate capacity now : ℚ} {bucket later : TokenBucket ℚ}
    {grants : List (ℚ × ℚ)} (past : bucket.lastRefill ≤ now)
    (draws : TokenBucket.Draws rate capacity bucket now grants later) : later.lastRefill ≤ now := by
  cases draws with
  | untouched => exact past
  | refused => exact le_rfl
  | granted => exact le_rfl

theorem Metered.Kept.step {metered next : Metered (TokenBucket ℚ)} {action : ℚ × Nat}
    (kept : metered.Kept config) (taken : metered.take config action = some next) :
    next.Kept config := by
  obtain ⟨now, permits⟩ := action
  rw [Metered.take] at taken
  split at taken
  case isFalse => cases taken
  case isTrue order =>
    dsimp only at order taken
    have past := kept.past.trans order
    have some_ : 0 < permits := by
      refine Nat.pos_of_ne_zero ?_
      intro none
      rw [takeAt, if_pos none] at taken
      cases taken
    obtain ⟨decision, later, ran, _, draws⟩ :=
      takeAt_answers kept.conforms.le_capacity past some_
    rw [ran] at taken
    cases taken
    exact ⟨kept.conforms.draws (rate_pos config).le past draws, draws_past past draws⟩

/-- What every request at the REST limiter keeps. -/
structure Metered.RestKept (config : Config) (metered : Metered RestBucket) : Prop where
  full : metered.bucket.capacity = config.burst
  conforms : TokenBucket.Conforms (config.rate : ℚ) (config.burst : ℚ) metered.bucket.tokens
    metered.grants
  past : metered.bucket.lastRefill ≤ metered.clock

theorem Metered.RestKept.step {metered next : Metered RestBucket} {now : ℚ}
    (kept : metered.RestKept config) (acquired : metered.acquire config now = some next) :
    next.RestKept config := by
  rw [Metered.acquire] at acquired
  split at acquired
  case isFalse => cases acquired
  case isTrue order =>
    have past := kept.past.trans order
    obtain ⟨_, full, draws⟩ := tryAcquire_answers kept.full kept.conforms.le_capacity past
    cases acquired
    exact ⟨full, kept.conforms.draws (rate_pos config).le past draws, draws_past past draws⟩

end Runs

theorem takes_kept (config : Config) (start : ℚ) {metered : Metered (TokenBucket ℚ)}
    (reach : (takes config start).Reachable metered) : metered.Kept config := by
  have begins : (takes config start).init.Kept config :=
    ⟨.start (burst_nonneg config) (rate_pos config).le start, le_rfl⟩
  refine reach.invariant (I := Metered.Kept config) begins ?_
  intro before action after kept _ taken
  exact kept.step taken

theorem acquires_kept (config : Config) (start : ℚ) {metered : Metered RestBucket}
    (reach : (acquires config start).Reachable metered) : metered.RestKept config := by
  have begins : (acquires config start).init.RestKept config :=
    ⟨rfl, .start (burst_nonneg config) (rate_pos config).le start, le_rfl⟩
  refine reach.invariant (I := Metered.RestKept config) begins ?_
  intro before now after kept _ acquired
  exact kept.step acquired

/-- Both limiters after any requests: the level, what was granted in any interval, and the answer to
any further request. -/
theorem limiters_conform (config : Config) (start : ℚ) :
    (∀ metered, (takes config start).Reachable metered →
      Rated config metered.bucket.available metered.grants ∧
        ∀ now permits, metered.clock ≤ now → 0 < permits → ∃ decision later,
          takeAt config metered.bucket now permits = some (decision, later) ∧
            Answers config metered.bucket now permits decision later) ∧
    ∀ metered, (acquires config start).Reachable metered →
      Rated config metered.bucket.available metered.grants ∧
        ∀ now, metered.clock ≤ now → RestAnswers config metered.bucket now
          (metered.bucket.tryAcquire config.rate now).1
          (metered.bucket.tryAcquire config.rate now).2 := by
  refine ⟨?_, ?_⟩
  · intro metered reach
    have kept := takes_kept config start reach
    refine ⟨rated_of_conforms kept.conforms, ?_⟩
    intro now permits order some_
    obtain ⟨decision, later, ran, answers, _⟩ :=
      takeAt_answers kept.conforms.le_capacity (kept.past.trans order) some_
    exact ⟨decision, later, ran, answers⟩
  · intro metered reach
    have kept := acquires_kept config start reach
    refine ⟨rated_of_conforms kept.conforms, ?_⟩
    intro now order
    exact (tryAcquire_answers kept.full kept.conforms.le_capacity (kept.past.trans order)).1

end RustZero.TokenLimiter
