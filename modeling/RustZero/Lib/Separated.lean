import Mathlib

/-!
# Separated lists

Splitting a list at a separator, and joining what has none: `splitOn_eq_iff` says that the parts
of a list are the one way to write it with the separator between parts that do not contain it,
and `splitOn_terminated` splits parts that each end with the separator.  `rooted` paths have it
before each part, and `rooted_prefix_iff` says which of them another begins.  `words` are the runs
of the items that are kept, however many others stand between them.
-/

namespace RustZero.Lib

universe u

variable {α : Type u} [BEq α] [LawfulBEq α] {separator : α} {list : List α}

/-- No part contains the separator. -/
theorem not_mem_of_mem_splitOn {part : List α} (member : part ∈ list.splitOn separator) :
    separator ∉ part := by
  induction list generalizing part with
  | nil =>
      rw [List.splitOn_nil, List.mem_singleton] at member
      rw [member]
      exact List.not_mem_nil
  | cons first rest ih =>
      rw [List.splitOn_cons_eq_if_modifyHead] at member
      split at member
      case isTrue =>
        rcases List.mem_cons.mp member with rfl | later
        · exact List.not_mem_nil
        · exact ih later
      case isFalse differs =>
        rcases parts : rest.splitOn separator with _ | ⟨head, others⟩
        · exact (List.splitOn_ne_nil separator rest parts).elim
        rw [parts, List.modifyHead_cons] at member
        rw [parts] at ih
        rcases List.mem_cons.mp member with rfl | later
        · intro inside
          rcases List.mem_cons.mp inside with same | further
          · exact differs (beq_iff_eq.mpr same.symm)
          · exact ih List.mem_cons_self further
        · exact ih (List.mem_cons_of_mem _ later)

/-- The parts of a list are the one way to write it with the separator between them. -/
theorem splitOn_eq_iff {parts : List (List α)} :
    list.splitOn separator = parts ↔
      list = [separator].intercalate parts ∧ parts ≠ [] ∧ ∀ part ∈ parts, separator ∉ part := by
  constructor
  · intro same
    subst same
    exact ⟨(List.intercalate_splitOn separator).symm, List.splitOn_ne_nil separator list,
      fun _ => not_mem_of_mem_splitOn⟩
  · intro same
    obtain ⟨rfl, some, free⟩ := same
    exact List.splitOn_intercalate separator free some

theorem intercalate_cons {β : Type u} (separator : β) (part : List β) (parts : List (List β)) :
    [separator].intercalate (part :: parts) = part ++ parts.flatMap (separator :: ·) := by
  induction parts generalizing part with
  | nil => simp
  | cons next parts ih =>
      rw [List.intercalate_cons_of_ne_nil (by simp), ih, List.flatMap_cons, List.append_assoc]
      rfl

theorem mem_intercalate {β : Type u} {separator item : β} {parts : List (List β)}
    (inside : item ∈ [separator].intercalate parts) :
    item = separator ∨ ∃ part ∈ parts, item ∈ part := by
  cases parts with
  | nil => cases inside
  | cons part parts =>
      rw [intercalate_cons, List.mem_append, List.mem_flatMap] at inside
      rcases inside with first | ⟨other, member, later⟩
      · exact .inr ⟨part, List.mem_cons_self, first⟩
      · rcases List.mem_cons.mp later with same | later
        · exact .inl same
        · exact .inr ⟨other, List.mem_cons_of_mem _ member, later⟩

theorem mem_intercalate_of_mem {β : Type u} {separator item : β} {part : List β}
    {parts : List (List β)} (member : part ∈ parts) (inside : item ∈ part) :
    item ∈ [separator].intercalate parts := by
  cases parts with
  | nil => cases member
  | cons first parts =>
      rw [intercalate_cons, List.mem_append, List.mem_flatMap]
      rcases List.mem_cons.mp member with rfl | later
      · exact .inl inside
      · exact .inr ⟨part, later, List.mem_cons_of_mem _ inside⟩

theorem length_le_of_mem_intercalate {β : Type u} {separator : β} {part : List β}
    {parts : List (List β)} (member : part ∈ parts) :
    part.length ≤ ([separator].intercalate parts).length := by
  have later {parts : List (List β)} (member : part ∈ parts) :
      part.length ≤ (parts.flatMap (separator :: ·)).length := by
    rw [List.length_flatMap]
    have own := List.le_sum_of_mem
      (List.mem_map_of_mem (f := fun part => (separator :: part).length) member)
    exact (Nat.le_succ _).trans own
  cases parts with
  | nil => cases member
  | cons first parts =>
      rw [intercalate_cons, List.length_append]
      rcases List.mem_cons.mp member with rfl | member
      · exact Nat.le_add_right _ _
      · exact (later member).trans (Nat.le_add_left _ _)

/-- There is a separator between any two parts. -/
theorem length_le_intercalate {β : Type u} (separator : β) (parts : List (List β)) :
    parts.length ≤ ([separator].intercalate parts).length + 1 := by
  have each (parts : List (List β)) :
      parts.length ≤ (parts.flatMap (separator :: ·)).length := by
    induction parts with
    | nil => exact Nat.le_refl _
    | cons part parts ih =>
        rw [List.flatMap_cons, List.length_append, List.length_cons, List.length_cons]
        omega
  cases parts with
  | nil => exact Nat.zero_le _
  | cons part parts =>
      have rest := each parts
      rw [intercalate_cons, List.length_append, List.length_cons]
      omega

theorem intercalate_terminated {β : Type u} {separator : β} (parts : List (List β)) :
    [separator].intercalate (parts ++ [[]]) = parts.flatMap (· ++ [separator]) := by
  induction parts with
  | nil => rfl
  | cons part parts ih =>
      rw [List.cons_append, List.intercalate_cons_of_ne_nil (by simp), ih, List.flatMap_cons]

/-- Parts that the separator ends are split off, and nothing is left. -/
theorem splitOn_terminated {parts : List (List α)} (free : ∀ part ∈ parts, separator ∉ part) :
    (parts.flatMap (· ++ [separator])).splitOn separator = parts ++ [[]] := by
  rw [splitOn_eq_iff]
  refine ⟨(intercalate_terminated parts).symm, by simp, ?_⟩
  intro part member
  rcases List.mem_append.mp member with member | last
  · exact free part member
  · rw [List.mem_singleton.mp last]
    exact List.not_mem_nil

/-! ## Rooted paths -/

section Rooted

/-- The path from the root: the separator stands before each part. -/
def rooted {β : Type u} (separator : β) (parts : List (List β)) : List β :=
  parts.flatMap (separator :: ·)

theorem rooted_append {β : Type u} (separator : β) (parts others : List (List β)) :
    rooted separator (parts ++ others) = rooted separator parts ++ rooted separator others :=
  List.flatMap_append

theorem splitOn_rooted {parts : List (List α)} (free : ∀ part ∈ parts, separator ∉ part) :
    (rooted separator parts).splitOn separator = [] :: parts := by
  rw [splitOn_eq_iff]
  refine ⟨?_, List.cons_ne_nil _ _, ?_⟩
  · rw [intercalate_cons, List.nil_append]
    rfl
  · intro part member
    rcases List.mem_cons.mp member with rfl | member
    · exact List.not_mem_nil
    · exact free part member

/-- A path has one way to be read. -/
theorem rooted_inj {parts others : List (List α)} (free : ∀ part ∈ parts, separator ∉ part)
    (freeOthers : ∀ part ∈ others, separator ∉ part)
    (same : rooted separator parts = rooted separator others) : parts = others := by
  have split := congrArg (List.splitOn separator) same
  rw [splitOn_rooted free, splitOn_rooted freeOthers] at split
  exact List.tail_eq_of_cons_eq split

/-- A path that ends with the separator begins the paths of what is below it. -/
theorem rooted_prefix_iff {parts others : List (List α)}
    (free : ∀ part ∈ parts, separator ∉ part) (freeOthers : ∀ part ∈ others, separator ∉ part) :
    rooted separator (parts ++ [[]]) <+: rooted separator others ↔
      ∃ first rest, others = parts ++ first :: rest := by
  constructor
  · intro starts
    obtain ⟨below, joined⟩ := starts
    obtain ⟨first, rest, split⟩ := List.exists_cons_of_ne_nil (List.splitOn_ne_nil separator below)
    have read : below = first ++ rooted separator rest := by
      have parted : [separator].intercalate (below.splitOn separator) = below :=
        List.intercalate_splitOn separator
      rw [split, intercalate_cons] at parted
      exact parted.symm
    have path : rooted separator others = rooted separator (parts ++ first :: rest) := by
      rw [← joined, read, rooted_append, rooted_append, List.append_assoc]
      rfl
    refine ⟨first, rest, rooted_inj freeOthers ?_ path⟩
    intro part member
    rcases List.mem_append.mp member with above | member
    · exact free part above
    · exact not_mem_of_mem_splitOn (split ▸ member)
  · intro below
    obtain ⟨first, rest, rfl⟩ := below
    refine ⟨first ++ rooted separator rest, ?_⟩
    rw [rooted_append, rooted_append, List.append_assoc]
    rfl

end Rooted

/-! ## Words -/

section Words

variable {β : Type u} {keep : β → Bool} {item : β} {rest : List β}

/-- The parts between the items that are not kept. -/
def runs (keep : β → Bool) (list : List β) : List (List β) :=
  list.splitOnP fun item => !keep item

def words (keep : β → Bool) (list : List β) : List (List β) :=
  (runs keep list).filter fun part => !part.isEmpty

/-- There is a first run, which may be empty. -/
theorem runs_cases (keep : β → Bool) (list : List β) :
    ∃ first later, runs keep list = first :: later :=
  List.exists_cons_of_ne_nil (List.splitOnP_ne_nil _ _)

theorem runs_kept (kept : keep item = true) {first : List β} {later : List (List β)}
    (parts : runs keep rest = first :: later) :
    runs keep (item :: rest) = (item :: first) :: later := by
  rw [runs] at parts ⊢
  rw [List.splitOnP_cons_eq_if_modifyHead, kept, parts]
  rfl

theorem runs_dropped (dropped : keep item = false) :
    runs keep (item :: rest) = [] :: runs keep rest := by
  rw [runs, List.splitOnP_cons_eq_if_modifyHead, dropped]
  rfl

theorem words_dropped (dropped : keep item = false) :
    words keep (item :: rest) = words keep rest := by
  rw [words, runs_dropped dropped]
  rfl

theorem mem_runs {part list : List β} (member : part ∈ runs keep list) :
    ∀ item ∈ part, keep item = true := by
  induction list generalizing part with
  | nil =>
      rw [List.mem_singleton.mp member]
      intro item absent
      cases absent
  | cons head rest ih =>
      obtain ⟨first, later, parts⟩ := runs_cases keep rest
      cases kept : keep head with
      | true =>
          rw [runs_kept kept parts] at member
          rw [parts] at ih
          rcases List.mem_cons.mp member with here | there
          · intro item inside
            rw [here] at inside
            rcases List.mem_cons.mp inside with same | further
            · rw [same]
              exact kept
            · exact ih List.mem_cons_self item further
          · exact ih (List.mem_cons_of_mem _ there)
      | false =>
          rw [runs_dropped kept] at member
          rcases List.mem_cons.mp member with here | there
          · intro item inside
            rw [here] at inside
            cases inside
          · exact ih there

/-- A word has some items, which are all kept. -/
theorem mem_words {word list : List β} (member : word ∈ words keep list) :
    word ≠ [] ∧ ∀ item ∈ word, keep item = true := by
  obtain ⟨run, some_⟩ := List.mem_filter.mp member
  refine ⟨?_, mem_runs run⟩
  intro none_
  rw [none_] at some_
  cases some_

end Words

end RustZero.Lib
