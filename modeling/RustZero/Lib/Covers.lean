import Mathlib

/-!
# Positions covered by items

Each item covers a finite set of positions.  `covered` is what the items of a list cover together:
an item of the list is among it, the order of the list does not matter, and an item that is not
among it makes it larger.
-/

namespace RustZero.Lib

universe u v

variable {α : Type u} {ι : Type v} [DecidableEq ι] (covers : α → Finset ι)

def covered (items : List α) : Finset ι :=
  items.foldr (fun item held => covers item ∪ held) ∅

variable {covers} {items others : List α} {item : α} {position : ι} {held : Finset ι}

@[simp] theorem mem_covered :
    position ∈ covered covers items ↔ ∃ item ∈ items, position ∈ covers item := by
  induction items with
  | nil => simp [covered]
  | cons first items ih =>
      rw [covered, List.foldr_cons, Finset.mem_union, ← covered, ih, List.exists_mem_cons_iff]

theorem covers_subset (member : item ∈ items) : covers item ⊆ covered covers items := by
  intro position inside
  exact mem_covered.mpr ⟨item, member, inside⟩

theorem covered_concat (items : List α) (item : α) :
    covered covers (items ++ [item]) = covered covers items ∪ covers item := by
  ext position
  simp only [Finset.mem_union, mem_covered, List.mem_append, List.mem_singleton, or_and_right,
    exists_or, exists_eq_left]

/-- What is covered depends on which items there are. -/
theorem covered_congr (same : ∀ item, item ∈ items ↔ item ∈ others) :
    covered covers items = covered covers others := by
  ext position
  rw [mem_covered, mem_covered]
  exact exists_congr fun item => and_congr_left' (same item)

/-- An item that is not covered adds a position. -/
theorem card_lt_of_not_covered (fresh : ¬covers item ⊆ held) :
    held.card < (held ∪ covers item).card := by
  refine Finset.card_lt_card ⟨Finset.subset_union_left, ?_⟩
  intro within
  exact fresh (Finset.subset_union_right.trans within)

end RustZero.Lib
