import Mathlib
import RustZero.Lib.UnstableSort

/-!
# Arrangements without equal neighbours

Values that carry a name.  A list can be arranged so that no two neighbours have one name,
unless a name belongs to more than half of them.

When a list is in descending order of a key and the name determines the key, neighbours of
one name lie in the part of one key.  So a sort that may arrange equal keys as it likes can
keep equal names apart if each part can be arranged; a stable one keeps the parts as they are.
-/

namespace RustZero.Lib

universe u v

variable {α : Type u} {β : Type v} (name : α → β)

/-- No two neighbours have one name. -/
def Apart (values : List α) : Prop :=
  values.IsChain fun left right => name left ≠ name right

theorem Apart.of_nodup {values : List α} (distinct : (values.map name).Nodup) :
    Apart name values :=
  (List.pairwise_map.mp distinct).isChain

section Named

variable [DecidableEq β] {values : List α} {own : β}

/-- How many values have a name. -/
def named (own : β) (values : List α) : Nat := values.countP fun value => name value = own

theorem named_cons (first : α) (rest : List α) :
    named name own (first :: rest) = named name own rest + if name first = own then 1 else 0 := by
  simp [named, List.countP_cons]

/-- Every second value at most has the name. -/
theorem Apart.named_cons_le {first : α} {rest : List α} (apart : Apart name (first :: rest)) :
    2 * named name own (first :: rest) ≤
      rest.length + 1 + if name first = own then 1 else 0 := by
  induction rest generalizing first with
  | nil =>
      rw [named_cons]
      simp only [named, List.countP_nil, List.length_nil]
      split <;> omega
  | cons second rest ih =>
      obtain ⟨other, apart⟩ := List.isChain_cons_cons.mp apart
      have fewer := ih apart
      rw [named_cons, List.length_cons]
      by_cases here : name first = own
      · rw [if_neg fun same => other (here.trans same.symm)] at fewer
        rw [if_pos here]
        omega
      · rw [if_neg here]
        split at fewer <;> omega

theorem Apart.named_le (apart : Apart name values) :
    2 * named name own values ≤ values.length + 1 := by
  cases values with
  | nil => exact Nat.zero_le _
  | cons first rest =>
      have fewer : 2 * named name own (first :: rest) ≤ _ := apart.named_cons_le
      rw [List.length_cons]
      split at fewer <;> omega

theorem named_add_le {other : β} (differ : own ≠ other) :
    named name own values + named name other values ≤ values.length := by
  induction values with
  | nil => exact Nat.zero_le _
  | cons first rest ih =>
      rw [named_cons, named_cons, List.length_cons]
      by_cases mine : name first = own
      · rw [if_pos mine, if_neg fun same => differ (mine.symm.trans same)]
        omega
      · rw [if_neg mine]
        split <;> omega

theorem exists_name_ne {avoided : Option β} (some : values ≠ [])
    (half : ∀ own, avoided = .some own → 2 * named name own values ≤ values.length) :
    ∃ value ∈ values, .some (name value) ≠ avoided := by
  by_contra none
  push Not at none
  obtain ⟨first, member⟩ := List.exists_mem_of_ne_nil _ some
  have all : named name (name first) values = values.length := by
    rw [named, List.countP_eq_length]
    intro value held
    have same := (none value held).trans (none first member).symm
    simpa using same
  have fewer := half (name first) (none first member).symm
  have positive := List.length_pos_iff.mpr some
  omega

/-- A value to begin with: of the name that more than half of the values have, if there is
one. -/
theorem exists_next {values : List α} {avoided : Option β} (nonempty : values ≠ [])
    (half : ∀ own, avoided = some own → 2 * named name own values ≤ values.length) :
    ∃ first ∈ values, some (name first) ≠ avoided ∧
      ∀ own ≠ name first, 2 * named name own values ≤ values.length := by
  by_cases most : ∃ own, values.length < 2 * named name own values
  · obtain ⟨own, many⟩ := most
    have present : 0 < named name own values := by omega
    obtain ⟨first, member, here⟩ := List.countP_pos_iff.mp present
    have here : name first = own := by simpa using here
    refine ⟨first, member, ?_, ?_⟩
    · intro same
      rw [here] at same
      have fewer := half own same.symm
      omega
    · intro other differ
      rw [here] at differ
      have both : named name own values + named name other values ≤ values.length :=
        named_add_le name differ.symm
      omega
  · push Not at most
    obtain ⟨first, member, differs⟩ := exists_name_ne name nonempty half
    exact ⟨first, member, differs, fun own _ => most own⟩

/-- An arrangement that does not begin with the name to be avoided. -/
theorem exists_apart_avoiding (size : Nat) (values : List α) (length : values.length = size)
    (avoided : Option β) (fits : ∀ own, 2 * named name own values ≤ values.length + 1)
    (half : ∀ own, avoided = some own → 2 * named name own values ≤ values.length) :
    ∃ arranged, arranged.Perm values ∧ Apart name arranged ∧
      ∀ first ∈ arranged.head?, some (name first) ≠ avoided := by
  induction size generalizing values avoided with
  | zero =>
      have empty := List.length_eq_zero_iff.mp length
      subst empty
      exact ⟨[], .nil, .nil, by simp⟩
  | succ size ih =>
      obtain ⟨first, member, differs, others⟩ :=
        exists_next name (List.ne_nil_of_length_eq_add_one length) half
      obtain ⟨before, after, split⟩ := List.append_of_mem member
      have moved : (first :: (before ++ after)).Perm values := split ▸ List.perm_middle.symm
      have count (own : β) : named name own values =
          named name own (before ++ after) + if name first = own then 1 else 0 := by
        rw [← named_cons]
        exact (moved.countP_eq _).symm
      have total := moved.length_eq
      rw [List.length_cons] at total
      obtain ⟨arranged, perm, apart, begins⟩ := ih (before ++ after) (by omega) (some (name first))
        (by
          intro own
          have fewer := fits own
          have counted := count own
          by_cases here : name first = own
          · rw [if_pos here] at counted
            omega
          · have rest := others own (Ne.symm here)
            rw [if_neg here] at counted
            omega)
        (by
          intro own same
          have fewer := fits own
          have counted := count own
          rw [if_pos (Option.some.inj same)] at counted
          omega)
      refine ⟨first :: arranged, (perm.cons first).trans moved, ?_, ?_⟩
      · refine List.isChain_cons.mpr ⟨?_, apart⟩
        intro second here same
        exact begins second here (congrArg some same.symm)
      · intro value here
        cases here
        exact differs

theorem exists_apart (fits : ∀ own, 2 * named name own values ≤ values.length + 1) :
    ∃ arranged, arranged.Perm values ∧ Apart name arranged := by
  obtain ⟨arranged, perm, apart, _⟩ :=
    exists_apart_avoiding name _ values rfl none fits (by simp)
  exact ⟨arranged, perm, apart⟩

end Named

section Keyed

variable {key : α → Nat}

/-- The values of one key. -/
def keyed (key : α → Nat) (size : Nat) (values : List α) : List α :=
  values.filter fun value => key value = size

theorem keyed_append (size : Nat) (left right : List α) :
    keyed key size (left ++ right) = keyed key size left ++ keyed key size right :=
  List.filter_append ..

theorem keyed_orderedInsert (size : Nat) (value : α) (values : List α) :
    keyed key size
        (values.orderedInsert (fun first second => key second ≤ key first) value) =
      keyed key size (value :: values) := by
  induction values with
  | nil => rfl
  | cons first rest ih =>
      rw [List.orderedInsert_cons]
      split
      · rfl
      · rename_i above
        have swapped : keyed key size (first :: value :: rest) =
            keyed key size (value :: first :: rest) := by
          by_cases mine : key value = size
          · have other : key first ≠ size := by omega
            simp [keyed, mine, other]
          · have skipped (others : List α) :
                keyed key size (value :: others) = keyed key size others := by
              simp [keyed, mine]
            rw [skipped, ← List.singleton_append, keyed_append, skipped, ← keyed_append,
              List.singleton_append]
        rw [← List.singleton_append, keyed_append, ih, ← keyed_append, List.singleton_append,
          swapped]

/-- The stable sort does not reorder the values of a key. -/
theorem keyed_stable (size : Nat) (values : List α) :
    keyed key size ((UnstableSort.stable α key).sort values) = keyed key size values := by
  induction values with
  | nil => rfl
  | cons first rest ih =>
      refine (keyed_orderedInsert size first ((UnstableSort.stable α key).sort rest)).trans ?_
      rw [← List.singleton_append, keyed_append, ih, ← keyed_append, List.singleton_append]

variable {name} (determined : ∀ left right, name left = name right → key left = key right)

include determined

omit determined in
theorem keyed_of_none {size : Nat} {values : List α} (none : ∀ value ∈ values, key value ≠ size) :
    keyed key size values = [] := by
  rw [keyed, List.filter_eq_nil_iff]
  intro value member held
  exact none value member (by simpa using held)

omit determined in
theorem keyed_of_all {size : Nat} {values : List α} (all : ∀ value ∈ values, key value = size) :
    keyed key size values = values := by
  rw [keyed, List.filter_eq_self]
  intro value member
  simp [all value member]

/-- In descending order, neighbours of one name have one key. -/
theorem apart_iff_keyed {values : List α}
    (descends : values.Pairwise fun first second => key second ≤ key first) :
    Apart name values ↔ ∀ size, Apart name (keyed key size values) := by
  induction values with
  | nil => exact ⟨fun _ _ => .nil, fun _ => .nil⟩
  | cons first rest ih =>
      obtain ⟨lower, descends⟩ := List.pairwise_cons.mp descends
      have own : keyed key (key first) (first :: rest) = first :: keyed key (key first) rest := by
        simp [keyed]
      have other {size : Nat} (differ : key first ≠ size) :
          keyed key size (first :: rest) = keyed key size rest := by
        simp [keyed, differ]
      have heads : (∀ second ∈ rest.head?, name first ≠ name second) ↔
          ∀ second ∈ (keyed key (key first) rest).head?, name first ≠ name second := by
        cases rest with
        | nil => rfl
        | cons second rest =>
            by_cases same : key second = key first
            · simp [keyed, same]
            · have apart : name first ≠ name second := by
                intro equal
                exact same (determined _ _ equal).symm
              have none : keyed key (key first) (second :: rest) = [] := by
                refine keyed_of_none ?_
                intro value member here
                have below := lower second List.mem_cons_self
                rcases List.mem_cons.mp member with equal | later
                · exact same (equal ▸ here)
                · have further := (List.pairwise_cons.mp descends).1 value later
                  omega
              simp [none, apart]
      rw [Apart, List.isChain_cons, heads, ← Apart, ih descends]
      constructor
      · intro held size
        by_cases same : key first = size
        · subst same
          rw [own]
          exact List.isChain_cons.mpr ⟨held.1, held.2 _⟩
        · rw [other same]
          exact held.2 size
      · intro held
        have mine := held (key first)
        rw [own] at mine
        refine ⟨(List.isChain_cons.mp mine).1, ?_⟩
        intro size
        by_cases same : key first = size
        · subst same
          exact (List.isChain_cons.mp mine).2
        · rw [← other same]
          exact held size

omit determined in
/-- The parts can be arranged one by one. -/
theorem exists_keyed_apart (bound : Nat) (values : List α)
    (below : ∀ value ∈ values, key value < bound)
    (fits : ∀ size, ∃ arranged, arranged.Perm (keyed key size values) ∧ Apart name arranged) :
    ∃ arranged, arranged.Perm values ∧ ∀ size, Apart name (keyed key size arranged) := by
  induction bound generalizing values with
  | zero =>
      cases values with
      | nil => exact ⟨[], .nil, fun _ => .nil⟩
      | cons first rest => exact absurd (below first List.mem_cons_self) (Nat.not_lt_zero _)
  | succ bound ih =>
      let others := values.filter fun value => !decide (key value = bound)
      have parted : (keyed key bound values ++ others).Perm values :=
        List.filter_append_perm _ values
      have lower : ∀ value ∈ others, key value < bound := by
        intro value member
        obtain ⟨held, differs⟩ := List.mem_filter.mp member
        have most := below value held
        have differs : key value ≠ bound := by simpa using differs
        omega
      have part (size : Nat) (differ : size ≠ bound) :
          keyed key size others = keyed key size values := by
        rw [keyed, keyed, List.filter_filter]
        refine List.filter_congr ?_
        intro value _
        by_cases same : key value = size
        · simp [same, differ]
        · simp [same]
      obtain ⟨arranged, perm, apart⟩ := ih others lower (by
        intro size
        by_cases same : size = bound
        · subst same
          have none := keyed_of_none fun value member => Nat.ne_of_lt (lower value member)
          exact ⟨[], none ▸ .nil, .nil⟩
        · rw [part size same]
          exact fits size)
      obtain ⟨first, firstPerm, firstApart⟩ := fits bound
      refine ⟨first ++ arranged, (firstPerm.append perm).trans parted, ?_⟩
      intro size
      have mine : ∀ value ∈ first, key value = bound := by
        intro value member
        simpa using (List.mem_filter.mp (firstPerm.mem_iff.mp member)).2
      rw [keyed_append]
      by_cases same : size = bound
      · subst same
        have none : keyed key size arranged = [] := keyed_of_none fun value member =>
          Nat.ne_of_lt (lower value (perm.mem_iff.mp member))
        rw [none, keyed_of_all mine, List.append_nil]
        exact firstApart
      · have none : keyed key size first = [] := keyed_of_none fun value member here =>
          same (here.symm.trans (mine value member))
        rw [none, List.nil_append]
        exact apart size

/-- A sort can keep equal names apart when no name has more than half of the values of
its key. -/
theorem exists_sort_apart_iff [DecidableEq β] (values : List α) :
    (∃ sorting : UnstableSort α key, Apart name (sorting.sort values)) ↔
      ∀ size own, 2 * named name own (keyed key size values) ≤
        (keyed key size values).length + 1 := by
  constructor
  · intro held size own
    obtain ⟨sorting, apart⟩ := held
    have part := (sorting.perm values).filter fun value => key value = size
    have fewer : 2 * named name own (keyed key size (sorting.sort values)) ≤ _ :=
      ((apart_iff_keyed determined (sorting.descends values)).mp apart size).named_le
    rw [keyed, part.length_eq, named, part.countP_eq] at fewer
    exact fewer
  · intro fits
    obtain ⟨bound, most⟩ : ∃ bound, ∀ value ∈ values, key value < bound := by
      refine ⟨(values.map key).sum + 1, ?_⟩
      intro value member
      exact Nat.lt_succ_of_le (List.le_sum_of_mem (List.mem_map_of_mem member))
    obtain ⟨arranged, perm, apart⟩ :=
      exists_keyed_apart bound values most fun size => exists_apart name (fits size)
    obtain ⟨sorting, same⟩ := UnstableSort.exists_sort_eq
      (((UnstableSort.stable α key).perm arranged).trans perm)
      ((UnstableSort.stable α key).descends arranged)
    refine ⟨sorting, ?_⟩
    rw [same, apart_iff_keyed determined ((UnstableSort.stable α key).descends arranged)]
    intro size
    rw [keyed_stable]
    exact apart size

/-- A stable sort leaves the values of a key in their order. -/
theorem apart_stable_iff (values : List α) :
    Apart name ((UnstableSort.stable α key).sort values) ↔
      ∀ size, Apart name (keyed key size values) := by
  rw [apart_iff_keyed determined ((UnstableSort.stable α key).descends values)]
  refine forall_congr' ?_
  intro size
  rw [keyed_stable]

end Keyed

end RustZero.Lib
