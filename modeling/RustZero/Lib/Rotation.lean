import Mathlib

/-!
# Round robin around a circle

Positions on a circle of some size, of which some are open.  A selection begins at a position
and takes the first open one from there; the next selection begins one position further.

Over one turn each position is the start once.  So an open position is taken once for itself,
and once more for each closed position directly before it.
-/

namespace RustZero.Lib

variable (isOpen : Nat → Bool) (size : Nat)

def firstFrom (start : Nat) : Option Nat :=
  ((List.range size).find? fun offset => isOpen ((start + offset) % size)).map
    fun offset => (start + offset) % size

/-- The position some steps back. -/
def stepsBack (position steps : Nat) : Nat := (position + (size - steps)) % size

/-- How many closed positions lie directly before a position. -/
def closedBefore (position : Nat) : Nat :=
  ((List.range size).find? fun steps => isOpen (stepsBack size position (steps + 1))).getD size

variable {isOpen size} {position start : Nat}

theorem firstFrom_eq_some :
    firstFrom isOpen size start = some position ↔
      ∃ offset < size, (start + offset) % size = position ∧ isOpen position = true ∧
        ∀ earlier < offset, isOpen ((start + earlier) % size) = false := by
  simp only [firstFrom, Option.map_eq_some_iff, List.find?_range_eq_some, List.mem_range,
    Bool.not_eq_true']
  constructor
  · intro held
    obtain ⟨offset, ⟨opened, below, closed⟩, same⟩ := held
    exact ⟨offset, below, same, same ▸ opened, closed⟩
  · intro held
    obtain ⟨offset, below, same, opened, closed⟩ := held
    exact ⟨offset, ⟨same ▸ opened, below, closed⟩, same⟩

theorem firstFrom_lt (found : firstFrom isOpen size start = some position) : position < size := by
  obtain ⟨offset, below, same, _⟩ := firstFrom_eq_some.mp found
  rw [← same]
  exact Nat.mod_lt _ (by omega)

theorem firstFrom_mod : firstFrom isOpen size (start % size) = firstFrom isOpen size start := by
  simp only [firstFrom, Nat.mod_add_mod]

theorem firstFrom_self (below : start < size) (opened : isOpen start = true) :
    firstFrom isOpen size start = some start := by
  refine firstFrom_eq_some.mpr ⟨0, by omega, ?_, opened, by simp⟩
  rw [Nat.add_zero, Nat.mod_eq_of_lt below]

theorem exists_offset (below : position < size) (start : Nat) :
    ∃ offset < size, (start + offset) % size = position := by
  have less := Nat.mod_lt start (by omega : 0 < size)
  by_cases later : start % size ≤ position
  · refine ⟨position - start % size, by omega, ?_⟩
    rw [Nat.add_mod, Nat.mod_eq_of_lt (by omega : position - start % size < size)]
    rw [Nat.add_sub_cancel' later, Nat.mod_eq_of_lt below]
  · refine ⟨position + size - start % size, by omega, ?_⟩
    rw [← Nat.mod_add_mod, Nat.add_sub_cancel' (by omega), Nat.add_mod_right,
      Nat.mod_eq_of_lt below]

theorem firstFrom_eq_none :
    firstFrom isOpen size start = none ↔ ∀ position < size, isOpen position = false := by
  simp only [firstFrom, Option.map_eq_none_iff, List.find?_eq_none, List.mem_range,
    Bool.not_eq_true]
  constructor
  · intro closed position below
    obtain ⟨offset, less, same⟩ := exists_offset below start
    exact same ▸ closed offset less
  · intro closed offset less
    exact closed _ (Nat.mod_lt _ (by omega))

/-! ## One turn -/

/-- A turn starts at each position once, wherever it begins. -/
theorem turn_perm (size start : Nat) :
    ((List.range size).map fun offset => (start + offset) % size).Perm (List.range size) := by
  rcases Nat.eq_zero_or_pos size with none | positive
  · subst none
    exact .nil
  · have listed :
        List.range size ⊆ (List.range size).map fun offset => (start + offset) % size := by
      intro position member
      obtain ⟨offset, less, same⟩ := exists_offset (List.mem_range.mp member) start
      exact List.mem_map.mpr ⟨offset, List.mem_range.mpr less, same⟩
    exact ((List.nodup_range.subperm listed).perm_of_length_le (by simp)).symm

theorem stepsBack_eq (below : position < size) {steps : Nat} (fewer : steps ≤ size) :
    stepsBack size position steps =
      if steps ≤ position then position - steps else position + size - steps := by
  unfold stepsBack
  split
  · rename_i later
    have moved : position + (size - steps) = position - steps + size := by omega
    rw [moved, Nat.add_mod_right, Nat.mod_eq_of_lt (by omega)]
  · rw [Nat.mod_eq_of_lt (by omega)]
    omega

/-- Every position is some steps back. -/
theorem stepsBack_perm (below : position < size) :
    ((List.range size).map (stepsBack size position)).Perm (List.range size) := by
  have listed : List.range size ⊆ (List.range size).map (stepsBack size position) := by
    intro start member
    have less := List.mem_range.mp member
    by_cases later : start ≤ position
    · refine List.mem_map.mpr ⟨position - start, List.mem_range.mpr (by omega), ?_⟩
      rw [stepsBack_eq below (by omega), if_pos (by omega)]
      omega
    · refine List.mem_map.mpr ⟨position + size - start, List.mem_range.mpr (by omega), ?_⟩
      rw [stepsBack_eq below (by omega), if_neg (by omega)]
      omega
  exact ((List.nodup_range.subperm listed).perm_of_length_le (by simp)).symm

/-- From some steps back, an open position is the first when all between are closed. -/
theorem firstFrom_stepsBack (below : position < size) (opened : isOpen position = true)
    {steps : Nat} (fewer : steps < size) :
    firstFrom isOpen size (stepsBack size position steps) = some position ↔
      ∀ nearer < steps, isOpen (stepsBack size position (nearer + 1)) = false := by
  have between {offset : Nat} (less : offset ≤ steps) :
      (stepsBack size position steps + offset) % size =
        stepsBack size position (steps - offset) := by
    have moved : position + (size - steps) + offset = position + (size - (steps - offset)) := by
      omega
    rw [stepsBack, stepsBack, Nat.mod_add_mod, moved]
  have here : stepsBack size position 0 = position := by
    rw [stepsBack_eq below (Nat.zero_le _), if_pos (Nat.zero_le _), Nat.sub_zero]
  constructor
  · intro found nearer less
    obtain ⟨offset, range, same, _, closed⟩ := firstFrom_eq_some.mp found
    have reaches : steps ≤ offset := by
      by_contra short
      have early := between (Nat.le_of_not_le short)
      rw [same, stepsBack_eq below (by omega)] at early
      split at early <;> omega
    have clear := closed (steps - (nearer + 1)) (by omega)
    rw [between (by omega), show steps - (steps - (nearer + 1)) = nearer + 1 by omega] at clear
    exact clear
  · intro closed
    refine firstFrom_eq_some.mpr ⟨steps, fewer, ?_, opened, ?_⟩
    · rw [between (Nat.le_refl _), Nat.sub_self, here]
    · intro earlier less
      have clear := closed (steps - earlier - 1) (by omega)
      rw [between (by omega)]
      rwa [show steps - earlier - 1 + 1 = steps - earlier by omega] at clear

theorem countP_range_lt {bound : Nat} (le : bound ≤ size) :
    (List.range size).countP (fun value => value < bound) = bound := by
  induction size with
  | zero =>
      simp only [List.range_zero, List.countP_nil]
      omega
  | succ size ih =>
      rw [List.range_succ, List.countP_append, List.countP_singleton]
      by_cases whole : bound = size + 1
      · subst whole
        have all : (List.range size).countP (fun value => value < size + 1) = size := by
          conv_rhs => rw [← List.length_range (n := size)]
          refine List.countP_eq_length.mpr ?_
          intro value member
          have less := List.mem_range.mp member
          simp only [decide_eq_true_eq]
          omega
        rw [all]
        simp
      · rw [ih (by omega)]
        have not : ¬size < bound := by omega
        simp [not]

/-- Over one turn an open position is taken once for itself and once for each closed position
directly before it. -/
theorem countP_firstFrom (below : position < size) (opened : isOpen position = true) :
    (List.range size).countP (fun start => firstFrom isOpen size start = some position) =
      closedBefore isOpen size position + 1 := by
  have last : stepsBack size position (size - 1 + 1) = position := by
    rw [stepsBack_eq below (by omega)]
    split <;> omega
  have bounded : ∃ closed, closedBefore isOpen size position = closed ∧ closed < size ∧
      isOpen (stepsBack size position (closed + 1)) = true ∧
      ∀ nearer < closed, isOpen (stepsBack size position (nearer + 1)) = false := by
    cases found : (List.range size).find?
        (fun steps => isOpen (stepsBack size position (steps + 1))) with
    | none =>
        have shut := List.find?_eq_none.mp found (size - 1) (List.mem_range.mpr (by omega))
        rw [last] at shut
        exact absurd opened shut
    | some closed =>
        obtain ⟨wide, member, shut⟩ := List.find?_range_eq_some.mp found
        refine ⟨closed, by rw [closedBefore, found]; rfl, List.mem_range.mp member, wide, ?_⟩
        intro nearer less
        simpa using shut nearer less
  obtain ⟨closed, same, less, wide, shut⟩ := bounded
  rw [same, ← (stepsBack_perm below).countP_eq, List.countP_map]
  have counted : (List.range size).countP (fun value => value < closed + 1) = closed + 1 :=
    countP_range_lt (by omega)
  conv_rhs => rw [← counted]
  refine List.countP_congr ?_
  intro steps member
  have fewer := List.mem_range.mp member
  rw [Function.comp_apply, decide_eq_true_eq, decide_eq_true_eq,
    firstFrom_stepsBack below opened fewer]
  constructor
  · intro clear
    by_contra beyond
    have closed := clear closed (by omega)
    rw [wide] at closed
    cases closed
  · intro near nearer before
    exact shut nearer (by omega)

end RustZero.Lib
