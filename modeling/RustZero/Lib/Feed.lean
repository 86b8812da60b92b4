import Mathlib

/-!
# Feeds

A feed gives chunk after chunk on demand, possibly without end: `none` is its end and an error
the last thing it gives.  `first` is what its first chunks contain, and `ExceedsAt` names the
first number of chunks that contain more than a limit.
-/

namespace RustZero.Lib

universe u v

abbrev Feed (ε : Type u) (α : Type v) := Nat → Option (Except ε (List α))

namespace Feed

variable {ε : Type u} {α : Type v} {feed : Feed ε α}

/-- The contents of the first `count` chunks, if there are as many. -/
def first (feed : Feed ε α) : Nat → Option (List α)
  | 0 => some []
  | count + 1 =>
      match first feed count, feed count with
      | some before, some (.ok chunk) => some (before ++ chunk)
      | _, _ => none

theorem first_succ_eq_some {count : Nat} {contents : List α} :
    feed.first (count + 1) = some contents ↔
      ∃ before chunk, feed.first count = some before ∧ feed count = some (.ok chunk) ∧
        contents = before ++ chunk := by
  rw [first]
  split
  case h_1 before chunk here next =>
    constructor
    · intro same
      exact ⟨before, chunk, here, next, (Option.some.inj same).symm⟩
    · intro same
      obtain ⟨other, piece, here', next', rfl⟩ := same
      cases here.symm.trans here'
      cases next.symm.trans next'
      rfl
  case h_2 neither =>
    constructor
    · intro wrong
      cases wrong
    · intro same
      obtain ⟨before, chunk, here, next, _⟩ := same
      exact (neither before chunk here next).elim

theorem first_extend {count : Nat} {before chunk : List α} (here : feed.first count = some before)
    (next : feed count = some (.ok chunk)) : feed.first (count + 1) = some (before ++ chunk) :=
  first_succ_eq_some.mpr ⟨before, chunk, here, next, rfl⟩

/-- Fewer chunks contain an initial part of what more chunks contain. -/
theorem first_mono {fewer more : Nat} {contents : List α} (le : fewer ≤ more)
    (all : feed.first more = some contents) :
    ∃ part, feed.first fewer = some part ∧ part <+: contents := by
  induction le generalizing contents with
  | refl => exact ⟨contents, all, List.prefix_rfl⟩
  | step _ ih =>
      obtain ⟨before, chunk, here, _, rfl⟩ := first_succ_eq_some.mp all
      obtain ⟨part, there, inside⟩ := ih here
      exact ⟨part, there, inside.trans (List.prefix_append before chunk)⟩

/-- A feed that has ended or failed has no further chunks. -/
theorem first_eq_none {stop count : Nat} (stopped : ∀ chunk, feed stop ≠ some (.ok chunk))
    (beyond : stop < count) : feed.first count = none := by
  cases contents : feed.first count with
  | none => rfl
  | some all =>
      obtain ⟨_, upto, _⟩ := first_mono beyond contents
      obtain ⟨_, chunk, _, next, _⟩ := first_succ_eq_some.mp upto
      exact (stopped chunk next).elim

/-- The first `count` chunks, and no fewer, contain more than `limit`. -/
structure ExceedsAt (feed : Feed ε α) (limit count : Nat) : Prop where
  exceeds : ∃ contents, feed.first count = some contents ∧ limit < contents.length
  within : ∀ fewer contents, fewer < count → feed.first fewer = some contents →
    contents.length ≤ limit

end Feed

end RustZero.Lib
