import Mathlib

/-!
# Token buckets

A bucket of tokens that fills at a constant rate up to its capacity and is drawn from at times
that do not go back.

* `Draws` is what one request can come to: nothing happens, the bucket is refilled, or it is
  refilled and gives some of what it holds.
* `Conforms` is what any sequence of requests keeps, with the level of the bucket as the potential:
  what was given since a time and what is left is at most a full bucket and what has flowed in
  since.
* `Conforms.within` bounds what is given in an interval, and `le_refill_iff` is the time from which
  a request of so much is met.
-/

namespace RustZero.Lib

/-- What is in the bucket, and since when. -/
structure TokenBucket (F : Type*) where
  available : F
  lastRefill : F
  deriving DecidableEq

namespace TokenBucket

variable {F : Type*} [Field F] [LinearOrder F]

def refill (rate capacity : F) (bucket : TokenBucket F) (now : F) : TokenBucket F :=
  ⟨min (bucket.available + (now - bucket.lastRefill) * rate) capacity, now⟩

def spend (bucket : TokenBucket F) (amount : F) : TokenBucket F :=
  { bucket with available := bucket.available - amount }

/-- What a request at a time gives, and the bucket after it. -/
inductive Draws (rate capacity : F) (bucket : TokenBucket F) (now : F) :
    List (F × F) → TokenBucket F → Prop
  | untouched : Draws rate capacity bucket now [] bucket
  | refused : Draws rate capacity bucket now [] (bucket.refill rate capacity now)
  | granted {amount : F} (nonneg : 0 ≤ amount)
      (enough : amount ≤ (bucket.refill rate capacity now).available) :
      Draws rate capacity bucket now [(now, amount)]
        ((bucket.refill rate capacity now).spend amount)

/-- What was given from a time to a time; each grant has its time and its amount. -/
def given (grants : List (F × F)) (first last : F) : F :=
  ((grants.filter fun grant => first ≤ grant.1 ∧ grant.1 ≤ last).map Prod.snd).sum

/-- What any sequence of requests keeps. -/
structure Conforms (rate capacity : F) (bucket : TokenBucket F) (grants : List (F × F)) : Prop where
  nonneg : 0 ≤ bucket.available
  le_capacity : bucket.available ≤ capacity
  past : ∀ grant ∈ grants, grant.1 ≤ bucket.lastRefill
  since : ∀ first, first ≤ bucket.lastRefill →
    given grants first bucket.lastRefill + bucket.available ≤
      capacity + rate * (bucket.lastRefill - first)
  within : ∀ first last, first ≤ last →
    given grants first last ≤ capacity + rate * (last - first)

section Given

variable {grants : List (F × F)} {first last bound : F}

theorem given_nil (first last : F) : given [] first last = 0 :=
  rfl

theorem given_append (grants : List (F × F)) (now amount first last : F) :
    given (grants ++ [(now, amount)]) first last =
      given grants first last + if first ≤ now ∧ now ≤ last then amount else 0 := by
  rw [given, List.filter_append, List.map_append, List.sum_append, ← given]
  split
  · rw [List.filter_singleton, decide_eq_true ‹_›]
    simp
  · rw [List.filter_singleton, decide_eq_false ‹_›]
    simp

/-- Nothing was given after the last grant. -/
theorem given_after (past : ∀ grant ∈ grants, grant.1 ≤ bound) (after : bound < first) (last : F) :
    given grants first last = 0 := by
  have none : grants.filter (fun grant => first ≤ grant.1 ∧ grant.1 ≤ last) = [] := by
    rw [List.filter_eq_nil_iff]
    intro grant member interval
    have begins := (of_decide_eq_true interval).1
    exact absurd ((past grant member).trans_lt after) (not_lt.mpr begins)
  rw [given, none]
  rfl

/-- A later end adds nothing once all grants are past. -/
theorem given_past (past : ∀ grant ∈ grants, grant.1 ≤ bound) (after : bound ≤ last) (first : F) :
    given grants first last = given grants first bound := by
  rw [given, given]
  congr 2
  apply List.filter_congr
  intro grant member
  have early := past grant member
  simp [early, early.trans after]

end Given

section Requests

variable [IsStrictOrderedRing F] {rate capacity now amount : F} {bucket later : TokenBucket F}
  {grants new : List (F × F)}

/-- A refilled bucket. -/
theorem refill_bounds (rate_nonneg : 0 ≤ rate) (nonneg : 0 ≤ bucket.available)
    (capacity_nonneg : 0 ≤ capacity) (order : bucket.lastRefill ≤ now) :
    0 ≤ (bucket.refill rate capacity now).available ∧
      (bucket.refill rate capacity now).available ≤ capacity ∧
        (bucket.refill rate capacity now).available ≤
          bucket.available + rate * (now - bucket.lastRefill) := by
  have flow : 0 ≤ (now - bucket.lastRefill) * rate :=
    mul_nonneg (sub_nonneg.mpr order) rate_nonneg
  refine ⟨le_min (add_nonneg nonneg flow) capacity_nonneg, min_le_right _ _, ?_⟩
  rw [mul_comm rate]
  exact min_le_left _ _

/-- The times at which a request of so much is met. -/
theorem le_refill_iff (rate_pos : 0 < rate) (fits : amount ≤ capacity) (now : F) :
    amount ≤ (bucket.refill rate capacity now).available ↔
      bucket.lastRefill + (amount - bucket.available) / rate ≤ now := by
  rw [refill, le_min_iff, and_iff_left fits, ← le_sub_iff_add_le', div_le_iff₀ rate_pos,
    sub_le_iff_le_add']

/-- A refill only adds. -/
theorem le_refill (rate_nonneg : 0 ≤ rate) (le_capacity : bucket.available ≤ capacity)
    (order : bucket.lastRefill ≤ now) :
    bucket.available ≤ (bucket.refill rate capacity now).available :=
  le_min (le_add_of_nonneg_right (mul_nonneg (sub_nonneg.mpr order) rate_nonneg)) le_capacity

/-- A request that is refused is met from a known time on, and not before. -/
theorem retry_exact (rate_pos : 0 < rate) (fits : amount ≤ capacity)
    (refused : ¬amount ≤ (bucket.refill rate capacity now).available) :
    0 < (amount - (bucket.refill rate capacity now).available) / rate ∧
      ∀ next, amount ≤ ((bucket.refill rate capacity now).refill rate capacity next).available ↔
        now + (amount - (bucket.refill rate capacity now).available) / rate ≤ next :=
  ⟨div_pos (sub_pos.mpr (not_le.mp refused)) rate_pos, fun next => le_refill_iff rate_pos fits next⟩

theorem Conforms.start (capacity_nonneg : 0 ≤ capacity) (rate_nonneg : 0 ≤ rate) (now : F) :
    Conforms rate capacity ⟨capacity, now⟩ [] := by
  refine ⟨capacity_nonneg, le_rfl, ?_, ?_, ?_⟩
  · intro grant member
    cases member
  · intro first order
    have flow := mul_nonneg rate_nonneg (sub_nonneg.mpr order)
    rw [given_nil, zero_add]
    exact le_add_of_nonneg_right flow
  · intro first last order
    have flow := mul_nonneg rate_nonneg (sub_nonneg.mpr order)
    rw [given_nil]
    exact add_nonneg capacity_nonneg flow

/-- The potential of the refilled bucket. -/
theorem Conforms.refilled (conforms : Conforms rate capacity bucket grants)
    (rate_nonneg : 0 ≤ rate) (order : bucket.lastRefill ≤ now) {first : F} (begins : first ≤ now) :
    given grants first now + (bucket.refill rate capacity now).available ≤
      capacity + rate * (now - first) := by
  have capacity_nonneg := conforms.nonneg.trans conforms.le_capacity
  obtain ⟨_, full, flow⟩ := refill_bounds rate_nonneg conforms.nonneg capacity_nonneg order
  rcases le_or_gt first bucket.lastRefill with early | late
  · have potential := conforms.since first early
    rw [given_past conforms.past order]
    linarith
  · have inflow := mul_nonneg rate_nonneg (sub_nonneg.mpr begins)
    rw [given_after conforms.past late]
    linarith

/-- One request more. -/
theorem Conforms.draws (conforms : Conforms rate capacity bucket grants) (rate_nonneg : 0 ≤ rate)
    (order : bucket.lastRefill ≤ now) (draws : Draws rate capacity bucket now new later) :
    Conforms rate capacity later (grants ++ new) := by
  have capacity_nonneg := conforms.nonneg.trans conforms.le_capacity
  obtain ⟨nonneg, full, _⟩ := refill_bounds rate_nonneg conforms.nonneg capacity_nonneg order
  have past : ∀ grant ∈ grants, grant.1 ≤ now := fun grant member =>
    (conforms.past grant member).trans order
  cases draws with
  | untouched =>
      rw [List.append_nil]
      exact conforms
  | refused =>
      rw [List.append_nil]
      exact ⟨nonneg, full, past, fun first begins => conforms.refilled rate_nonneg order begins,
        conforms.within⟩
  | @granted amount amount_nonneg enough =>
      refine ⟨?_, ?_, ?_, ?_, ?_⟩
      · exact sub_nonneg.mpr enough
      · exact (sub_le_self _ amount_nonneg).trans full
      · intro grant member
        rcases List.mem_append.mp member with old | new
        · exact past grant old
        · rw [List.mem_singleton.mp new]
          exact le_rfl
      · intro first begins
        have potential := conforms.refilled rate_nonneg order begins
        rw [given_append, if_pos ⟨begins, le_rfl⟩]
        dsimp only [spend, refill] at potential ⊢
        linarith
      · intro first last interval
        rw [given_append]
        split
        case isFalse =>
          rw [add_zero]
          exact conforms.within first last interval
        case isTrue inside =>
          have potential := conforms.refilled rate_nonneg order inside.1
          have flow := mul_nonneg rate_nonneg (sub_nonneg.mpr inside.2)
          rw [given_past past inside.2]
          have longer : rate * (last - first) = rate * (now - first) + rate * (last - now) := by
            ring
          linarith

end Requests

end TokenBucket

end RustZero.Lib
