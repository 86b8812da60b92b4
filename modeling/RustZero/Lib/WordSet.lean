import Mathlib

/-!
# Sets of numbers as words

A list of 64-bit words holds the numbers whose bits are set: `has` reads the bit of a number and
`add` sets it, by a mask of one bit.  `positions` is the set that the words hold, and words of one
length are equal if they hold the same set.
-/

namespace RustZero.Lib

abbrev Word := BitVec 64

namespace WordSet

def mask (index : Nat) : Word :=
  1#64 <<< (index % 64)

def has (words : List Word) (index : Nat) : Bool :=
  (words.getD (index / 64) 0).getLsbD (index % 64)

def add (words : List Word) (index : Nat) : List Word :=
  words.modify (index / 64) (· ||| mask index)

def positions (words : List Word) : Finset Nat :=
  (Finset.range (64 * words.length)).filter fun index => has words index = true

variable {words others : List Word} {index other : Nat}

theorem getLsbD_mask {bit : Nat} (inside : bit < 64) :
    (mask index).getLsbD bit = decide (bit = index % 64) := by
  have width : index % 64 < 64 := Nat.mod_lt _ (by decide)
  rw [mask, BitVec.getLsbD_shiftLeft, BitVec.getLsbD_one]
  rw [Bool.eq_iff_iff]
  simp only [Bool.and_eq_true, decide_eq_true_eq, Bool.not_eq_true', decide_eq_false_iff_not]
  omega

/-- Masking a word reads one bit of it. -/
theorem and_mask_eq_zero (word : Word) (index : Nat) :
    word &&& mask index = 0 ↔ word.getLsbD (index % 64) = false := by
  have width : index % 64 < 64 := Nat.mod_lt _ (by decide)
  refine ⟨?_, ?_⟩
  · intro zero
    have bit := congrArg (·.getLsbD (index % 64)) zero
    rw [BitVec.getLsbD_and, getLsbD_mask width, decide_eq_true rfl, Bool.and_true] at bit
    exact bit.trans BitVec.getLsbD_zero
  · intro clear
    refine BitVec.eq_of_getLsbD_eq fun bit inside => ?_
    rw [BitVec.getLsbD_and, getLsbD_mask inside]
    by_cases same : bit = index % 64
    · rw [same, clear, Bool.false_and]
      exact BitVec.getLsbD_zero.symm
    · rw [decide_eq_false same, Bool.and_false]
      exact BitVec.getLsbD_zero.symm

@[simp] theorem length_add (words : List Word) (index : Nat) :
    (add words index).length = words.length :=
  List.length_modify ..

theorem has_add (inside : index / 64 < words.length) :
    has (add words index) other = (decide (other = index) || has words other) := by
  have width : other % 64 < 64 := Nat.mod_lt _ (by decide)
  by_cases word : other / 64 = index / 64
  · have found : words[index / 64]? = some words[index / 64] := List.getElem?_eq_getElem inside
    have same : other % 64 = index % 64 ↔ other = index := by omega
    rw [has, has, add, word, List.getD_eq_getElem?_getD, List.getD_eq_getElem?_getD,
      List.getElem?_modify_eq, found, Option.map_eq_map, Option.map_some, Option.getD_some,
      Option.getD_some, BitVec.getLsbD_or, getLsbD_mask width, Bool.or_comm,
      decide_eq_decide.mpr same]
  · have differs : other ≠ index := by
      intro same
      exact word (congrArg (· / 64) same)
    rw [has, has, add, List.getD_eq_getElem?_getD, List.getD_eq_getElem?_getD,
      List.getElem?_modify_ne _ _ (Ne.symm word), decide_eq_false differs, Bool.false_or]

/-- Words of one length are equal if they have the same bits. -/
theorem ext_has (length : words.length = others.length)
    (same : ∀ index, has words index = has others index) : words = others := by
  refine List.ext_getElem length fun word inside inside' => ?_
  refine BitVec.eq_of_getLsbD_eq fun bit width => ?_
  have here := same (64 * word + bit)
  have quotient : (64 * word + bit) / 64 = word := by omega
  have rest : (64 * word + bit) % 64 = bit := by omega
  rw [has, has, quotient, rest, List.getD_eq_getElem _ _ inside,
    List.getD_eq_getElem _ _ inside'] at here
  exact here

theorem has_lt (set : has words index = true) : index < 64 * words.length := by
  by_contra beyond
  have outside : words.length ≤ index / 64 := by omega
  rw [has, List.getD_eq_default _ _ outside] at set
  cases set.symm.trans BitVec.getLsbD_zero

@[simp] theorem mem_positions : index ∈ positions words ↔ has words index = true := by
  rw [positions, Finset.mem_filter, Finset.mem_range]
  exact ⟨And.right, fun set => ⟨has_lt set, set⟩⟩

theorem positions_injective (length : words.length = others.length)
    (same : positions words = positions others) : words = others := by
  refine ext_has length fun index => ?_
  rw [Bool.eq_iff_iff, ← mem_positions, ← mem_positions, same]

theorem has_replicate (count index : Nat) : has (List.replicate count 0) index = false := by
  rw [has, List.getD_eq_getElem?_getD, List.getElem?_replicate]
  split
  · exact BitVec.getLsbD_zero
  · exact BitVec.getLsbD_zero

end WordSet

end RustZero.Lib
