import Mathlib

/-!
# Unstable sorting by descending key

`sort_unstable_by_key` with a reversed key: the result is some descending
arrangement of the input, and how equal keys are arranged is not promised.  What
holds for every `UnstableSort` holds whichever the library picks.
-/

namespace RustZero.Lib

universe u

structure UnstableSort (α : Type u) (key : α → Nat) where
  sort : List α → List α
  perm : ∀ values, (sort values).Perm values
  descends : ∀ values, (sort values).Pairwise fun first second => key second ≤ key first

variable {α : Type u} {key : α → Nat}

/-- The stable sort is one of them. -/
def UnstableSort.stable (α : Type u) (key : α → Nat) : UnstableSort α key where
  sort values := values.insertionSort fun first second => key second ≤ key first
  perm values := List.perm_insertionSort _ values
  descends values := by
    have total : Std.Total fun first second : α => key second ≤ key first :=
      ⟨fun first second => le_total (key second) (key first)⟩
    have trans : IsTrans α fun first second => key second ≤ key first :=
      ⟨fun _ _ _ left right => le_trans right left⟩
    exact List.pairwise_insertionSort _ values

theorem UnstableSort.mem_sort (sorting : UnstableSort α key) {values : List α} {value : α} :
    value ∈ sorting.sort values ↔ value ∈ values :=
  (sorting.perm values).mem_iff

/-- Any descending arrangement of a list is what some sort makes of it. -/
theorem UnstableSort.exists_sort_eq {values sorted : List α} (perm : sorted.Perm values)
    (descends : sorted.Pairwise fun first second => key second ≤ key first) :
    ∃ sorting : UnstableSort α key, sorting.sort values = sorted := by
  classical
  let stable := UnstableSort.stable α key
  refine ⟨⟨fun others => if others = values then sorted else stable.sort others, ?_, ?_⟩, ?_⟩
  · intro others
    split
    · rename_i same
      rw [same]
      exact perm
    · exact stable.perm others
  · intro others
    split
    · exact descends
    · exact stable.descends others
  · exact if_pos rfl

/-- The first hit in descending order has the greatest key of all hits. -/
theorem find?_of_descends {values : List α} {hits : α → Bool} {first : α}
    (descends : values.Pairwise fun left right => key right ≤ key left)
    (found : values.find? hits = some first) {other : α} (member : other ∈ values)
    (hit : hits other = true) : key other ≤ key first := by
  obtain ⟨_, before, after, split, misses⟩ := List.find?_eq_some_iff_append.mp found
  rw [split] at member descends
  rcases List.mem_append.mp member with earlier | here
  · have missed := misses other earlier
    rw [hit] at missed
    cases missed
  · rcases List.mem_cons.mp here with same | later
    · rw [same]
    · exact (List.pairwise_cons.mp (List.pairwise_append.mp descends).2.1).1 other later

end RustZero.Lib
