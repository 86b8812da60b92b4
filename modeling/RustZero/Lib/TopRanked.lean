import Mathlib

/-!
# The best ranked members of a finite set

`topRanked rank limit members` keeps the members that fewer than `limit` others
outrank.  The choice is stable: taking a member away moves at most one other in,
adding one moves at most one out.  `toFinset_take_ranked` reads it off a list sorted
by descending rank.
-/

namespace RustZero.Lib

universe u v

variable {α : Type u} {β : Type v} [LinearOrder β] (rank : α → β)

/-- The members ranked above `candidate`. -/
def outranking (members : Finset α) (candidate : α) : Finset α :=
  members.filter fun other => rank candidate < rank other

def topRanked (limit : Nat) (members : Finset α) : Finset α :=
  members.filter fun candidate => (outranking rank members candidate).card < limit

variable {rank} {limit : Nat} {members : Finset α} {candidate : α}

theorem mem_topRanked :
    candidate ∈ topRanked rank limit members ↔
      candidate ∈ members ∧ (outranking rank members candidate).card < limit := by
  rw [topRanked, Finset.mem_filter]

theorem topRanked_subset : topRanked rank limit members ⊆ members :=
  Finset.filter_subset _ _

theorem topRanked_mono {larger : Nat} (grows : limit ≤ larger) :
    topRanked rank limit members ⊆ topRanked rank larger members := by
  intro candidate chosen
  rw [mem_topRanked] at chosen ⊢
  exact ⟨chosen.1, lt_of_lt_of_le chosen.2 grows⟩

theorem outranking_card_lt (member : candidate ∈ members) :
    (outranking rank members candidate).card < members.card := by
  apply Finset.card_lt_card
  refine ⟨Finset.filter_subset _ _, ?_⟩
  intro all
  have self := all member
  rw [outranking, Finset.mem_filter] at self
  exact lt_irrefl _ self.2

theorem topRanked_of_card_le (small : members.card ≤ limit) :
    topRanked rank limit members = members := by
  refine Finset.Subset.antisymm topRanked_subset ?_
  intro candidate member
  exact mem_topRanked.mpr ⟨member, lt_of_lt_of_le (outranking_card_lt member) small⟩

/-! ## Read off a sorted list -/

section Sorted

variable [DecidableEq α]

theorem outranking_head {first : α} {rest : List α}
    (sorted : (first :: rest).Pairwise fun left right => rank right < rank left) :
    outranking rank (first :: rest).toFinset first = ∅ := by
  refine Finset.filter_eq_empty_iff.mpr ?_
  intro other member
  rw [List.mem_toFinset, List.mem_cons] at member
  rcases member with same | later
  · rw [same]
    exact lt_irrefl _
  · exact not_lt_of_gt ((List.pairwise_cons.mp sorted).1 other later)

theorem card_outranking_tail {first : α} {rest : List α}
    (sorted : (first :: rest).Pairwise fun left right => rank right < rank left)
    (later : candidate ∈ rest) :
    (outranking rank (first :: rest).toFinset candidate).card =
      (outranking rank rest.toFinset candidate).card + 1 := by
  obtain ⟨above, restSorted⟩ := List.pairwise_cons.mp sorted
  have fresh : first ∉ outranking rank rest.toFinset candidate := by
    intro member
    rw [outranking, Finset.mem_filter, List.mem_toFinset] at member
    exact lt_irrefl _ (above first member.1)
  rw [← Finset.card_insert_of_notMem fresh]
  congr 1
  rw [outranking, List.toFinset_cons, Finset.filter_insert, if_pos (above candidate later)]
  rfl

/-- The first `limit` entries of a list in descending order are the best ranked. -/
theorem toFinset_take_ranked (ranked : List α)
    (sorted : ranked.Pairwise fun left right => rank right < rank left) :
    (ranked.take limit).toFinset = topRanked rank limit ranked.toFinset := by
  induction ranked generalizing limit with
  | nil =>
      rw [List.take_nil]
      rfl
  | cons first rest ih =>
      cases limit with
      | zero => simp [topRanked]
      | succ smaller =>
          ext candidate
          rw [List.take_succ_cons, List.toFinset_cons, Finset.mem_insert,
            ih (List.pairwise_cons.mp sorted).2, mem_topRanked, mem_topRanked, List.toFinset_cons,
            Finset.mem_insert, List.mem_toFinset, ← List.toFinset_cons]
          by_cases same : candidate = first
          · subst same
            rw [outranking_head sorted]
            simp
          · constructor
            · intro either
              rcases either with equal | ⟨later, few⟩
              · exact absurd equal same
              · rw [card_outranking_tail sorted later]
                exact ⟨Or.inr later, Nat.succ_lt_succ few⟩
            · intro ⟨member, few⟩
              rcases member with equal | later
              · exact absurd equal same
              · rw [card_outranking_tail sorted later] at few
                exact Or.inr ⟨later, Nat.lt_of_succ_lt_succ few⟩

theorem card_topRanked_of_sorted (ranked : List α)
    (sorted : ranked.Pairwise fun left right => rank right < rank left) :
    (topRanked rank limit ranked.toFinset).card = min limit ranked.toFinset.card := by
  have distinct : ranked.Nodup := by
    refine sorted.imp ?_
    intro left right below same
    rw [same] at below
    exact lt_irrefl _ below
  rw [← toFinset_take_ranked ranked sorted,
    List.toFinset_card_of_nodup (distinct.sublist (List.take_sublist limit ranked)),
    List.toFinset_card_of_nodup distinct, List.length_take]

omit [DecidableEq α] in
/-- Sorting by descending rank, ranks being distinct. -/
theorem sorted_mergeSort (injective : Function.Injective rank) {values : List α}
    (distinct : values.Nodup) :
    (values.mergeSort fun left right => decide (rank right ≤ rank left)).Pairwise
      fun left right => rank right < rank left := by
  have sorted : (values.mergeSort fun left right => decide (rank right ≤ rank left)).Pairwise
      fun left right => rank right ≤ rank left := by
    have trans : ∀ left middle right : α, decide (rank middle ≤ rank left) = true →
        decide (rank right ≤ rank middle) = true → decide (rank right ≤ rank left) = true := by
      intro left middle right first second
      rw [decide_eq_true_eq] at first second ⊢
      exact second.trans first
    have total : ∀ left right : α,
        (decide (rank right ≤ rank left) || decide (rank left ≤ rank right)) = true := by
      intro left right
      simp [le_total]
    simpa using List.pairwise_mergeSort trans total values
  have apart : (values.mergeSort fun left right => decide (rank right ≤ rank left)).Nodup :=
    (List.mergeSort_perm values _).nodup_iff.mpr distinct
  refine (sorted.and apart).imp ?_
  intro left right ⟨below, different⟩
  exact lt_of_le_of_ne below fun same => different (injective same).symm

theorem card_topRanked (injective : Function.Injective rank) :
    (topRanked rank limit members).card = min limit members.card := by
  have sorted := sorted_mergeSort injective members.nodup_toList
  have same : (members.toList.mergeSort
      fun left right => decide (rank right ≤ rank left)).toFinset = members := by
    ext candidate
    rw [List.mem_toFinset, List.mem_mergeSort, Finset.mem_toList]
  have counted : (topRanked rank limit (members.toList.mergeSort
      fun left right => decide (rank right ≤ rank left)).toFinset).card = min limit _ :=
    card_topRanked_of_sorted _ sorted
  rwa [same] at counted

end Sorted

/-! ## Changing the members -/

section Changes

variable [DecidableEq α] {gone : α}

theorem outranking_erase :
    outranking rank (members.erase gone) candidate =
      (outranking rank members candidate).erase gone := by
  rw [outranking, outranking, Finset.filter_erase]

/-- Who is chosen stays chosen when another member goes. -/
theorem erase_topRanked_subset :
    (topRanked rank limit members).erase gone ⊆ topRanked rank limit (members.erase gone) := by
  intro candidate kept
  rw [Finset.mem_erase, mem_topRanked] at kept
  rw [mem_topRanked, Finset.mem_erase, outranking_erase]
  refine ⟨⟨kept.1, kept.2.1⟩, lt_of_le_of_lt ?_ kept.2.2⟩
  exact Finset.card_le_card (Finset.erase_subset _ _)

/-- A member that was not chosen leaves no trace. -/
theorem topRanked_erase_of_not_chosen (injective : Function.Injective rank)
    (out : gone ∉ topRanked rank limit members) :
    topRanked rank limit (members.erase gone) = topRanked rank limit members := by
  have kept : (topRanked rank limit members).erase gone ⊆
      topRanked rank limit (members.erase gone) := erase_topRanked_subset
  rw [Finset.erase_eq_of_notMem out] at kept
  refine (Finset.eq_of_subset_of_card_le kept ?_).symm
  by_cases member : gone ∈ members
  · rw [card_topRanked injective, card_topRanked injective, Finset.card_erase_of_mem member]
    omega
  · rw [Finset.erase_eq_of_notMem member]

theorem card_topRanked_erase_sdiff (injective : Function.Injective rank) :
    (topRanked rank limit (members.erase gone) \ topRanked rank limit members).card ≤ 1 := by
  by_cases chosen : gone ∈ topRanked rank limit members
  · have member : gone ∈ members := topRanked_subset chosen
    have wider : topRanked rank limit (members.erase gone) \ topRanked rank limit members ⊆
        topRanked rank limit (members.erase gone) \ (topRanked rank limit members).erase gone :=
      Finset.sdiff_subset_sdiff subset_rfl (Finset.erase_subset _ _)
    refine (Finset.card_le_card wider).trans ?_
    rw [Finset.card_sdiff_of_subset erase_topRanked_subset, Finset.card_erase_of_mem chosen,
      card_topRanked injective, card_topRanked injective, Finset.card_erase_of_mem member]
    omega
  · rw [topRanked_erase_of_not_chosen injective chosen, sdiff_self]
    simp

/-- A newcomer is ignored, or enters and pushes out at most one member. -/
theorem topRanked_insert (injective : Function.Injective rank) {new : α} (fresh : new ∉ members) :
    topRanked rank limit (insert new members) = topRanked rank limit members ∨
      (new ∈ topRanked rank limit (insert new members) ∧
        topRanked rank limit (insert new members) ⊆ insert new (topRanked rank limit members) ∧
        (topRanked rank limit members \ topRanked rank limit (insert new members)).card ≤ 1) := by
  have back : (insert new members).erase new = members := Finset.erase_insert fresh
  by_cases chosen : new ∈ topRanked rank limit (insert new members)
  · right
    refine ⟨chosen, ?_, ?_⟩
    · have kept : (topRanked rank limit (insert new members)).erase new ⊆
          topRanked rank limit ((insert new members).erase new) := erase_topRanked_subset
      rw [back] at kept
      intro candidate member
      by_cases same : candidate = new
      · exact Finset.mem_insert.mpr (Or.inl same)
      · exact Finset.mem_insert_of_mem (kept (Finset.mem_erase.mpr ⟨same, member⟩))
    · have few : (topRanked rank limit ((insert new members).erase new) \
          topRanked rank limit (insert new members)).card ≤ 1 :=
        card_topRanked_erase_sdiff injective
      rwa [back] at few
  · left
    have same := topRanked_erase_of_not_chosen injective chosen
    rw [back] at same
    exact same.symm

end Changes

end RustZero.Lib
