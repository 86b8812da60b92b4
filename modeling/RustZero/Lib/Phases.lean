import Mathlib

/-!
# Parties and their phases

A system keeps one phase per party in a function `f : ι → β` over an arbitrary,
possibly infinite, type of parties; a step moves one party, which is a
`Function.update`.

* `phase_of_update` says where a phase of the updated function comes from, and
  `phase_keep` that the parties in another phase stay in it.
* `Census S f P` says that `S` is the finite set of exactly the parties whose
  phase satisfies `P`, so a counter of the modelled program can be compared with
  `S.card`.
* `Tickets f ticket lo hi` says that the numbers after `lo` and up to `hi` are
  held by one party each and no party holds another: the parties that wait at
  one stage of a pipeline, which a new number enters at `hi` and the oldest
  leaves at `lo`.
* A list of parties counts them by phase; `countP_set_add` and `sum_map_set_add` say how
  one party's step changes a count and a sum, `flatMap_set_append` what it adds to what all
  have produced, and `forall_set` and `forall_mem_set` what it keeps of all parties.
-/

namespace RustZero.Lib

universe u v

variable {ι : Type u} {β : Type v}

section Update

variable [DecidableEq ι] {f : ι → β} {c i : ι} {b x : β}

/-- A phase after a step is the moved party's new one or an old one. -/
theorem phase_of_update (after : Function.update f c b i = x) :
    i = c ∧ b = x ∨ i ≠ c ∧ f i = x := by
  by_cases h : i = c
  · subst h
    rw [Function.update_self] at after
    exact .inl ⟨rfl, after⟩
  · rw [Function.update_of_ne h] at after
    exact .inr ⟨h, after⟩

/-- A party in a phase the moved party was not in stays in it. -/
theorem phase_keep (before : f i = x) (other : f c ≠ x) : Function.update f c b i = x := by
  have h : i ≠ c := by
    rintro rfl
    exact other before
  rw [Function.update_of_ne h, before]

end Update

/-- `S` holds exactly the parties whose phase satisfies `P`. -/
def Census (S : Finset ι) (f : ι → β) (P : β → Prop) : Prop :=
  ∀ i, i ∈ S ↔ P (f i)

namespace Census

variable {S T : Finset ι} {f : ι → β} {P : β → Prop} {c : ι} {b : β}

theorem empty (none : ∀ i, ¬ P (f i)) : Census ∅ f P := by
  intro i
  simp [none i]

/-- Parties known to satisfy `P` are at most as many as the census counts. -/
theorem card_le (census : Census S f P) (all : ∀ i ∈ T, P (f i)) : T.card ≤ S.card :=
  Finset.card_le_card fun i member => (census i).mpr (all i member)

theorem pos (census : Census S f P) (holds : P (f c)) : 0 < S.card :=
  Finset.card_pos.mpr ⟨c, (census c).mpr holds⟩

variable [DecidableEq ι]

/-- A party whose membership the update does not change. -/
theorem keep (census : Census S f P) (same : P b ↔ P (f c)) :
    Census S (Function.update f c b) P := by
  intro i
  by_cases h : i = c
  · subst h
    rw [Function.update_self, same]
    exact census i
  · rw [Function.update_of_ne h]
    exact census i

theorem enter (census : Census S f P) (holds : P b) :
    Census (insert c S) (Function.update f c b) P := by
  intro i
  by_cases h : i = c
  · subst h
    simp [holds]
  · rw [Function.update_of_ne h, Finset.mem_insert]
    simp [h, census i]

theorem leave (census : Census S f P) (gone : ¬ P b) :
    Census (S.erase c) (Function.update f c b) P := by
  intro i
  by_cases h : i = c
  · subst h
    simp [gone]
  · rw [Function.update_of_ne h, Finset.mem_erase]
    simp [h, census i]

theorem card_enter (census : Census S f P) (before : ¬ P (f c)) :
    (insert c S).card = S.card + 1 :=
  Finset.card_insert_of_notMem fun member => before ((census c).mp member)

theorem card_leave (census : Census S f P) (before : P (f c)) :
    (S.erase c).card + 1 = S.card :=
  Finset.card_erase_add_one ((census c).mpr before)

end Census

/-- Each number after `lo` and up to `hi` is held by exactly one party, and no
party holds any other. -/
structure Tickets (f : ι → β) (ticket : β → Option Nat) (lo hi : Nat) : Prop where
  le : lo ≤ hi
  range : ∀ i n, ticket (f i) = some n → lo < n ∧ n ≤ hi
  held : ∀ n, lo < n → n ≤ hi → ∃ i, ticket (f i) = some n
  distinct : ∀ i j n, ticket (f i) = some n → ticket (f j) = some n → i = j

namespace Tickets

variable {f : ι → β} {ticket : β → Option Nat} {lo hi n : Nat} {c : ι} {b : β}

theorem empty (none : ∀ i, ticket (f i) = none) : Tickets f ticket lo lo where
  le := Nat.le_refl lo
  range := by
    intro i n holds
    rw [none i] at holds
    cases holds
  held := by
    intro n above below
    omega
  distinct := by
    intro i j n holds
    rw [none i] at holds
    cases holds

/-- The oldest holder has the number after `lo`. -/
theorem least (tickets : Tickets f ticket lo hi) (mine : ticket (f c) = some n)
    (oldest : ∀ i m, ticket (f i) = some m → n ≤ m) : n = lo + 1 := by
  have range := tickets.range c n mine
  obtain ⟨i, theirs⟩ := tickets.held (lo + 1) (Nat.lt_succ_self lo) (by omega)
  have := oldest i _ theirs
  omega

variable [DecidableEq ι]

theorem keep (tickets : Tickets f ticket lo hi) (same : ticket b = ticket (f c)) :
    Tickets (Function.update f c b) ticket lo hi := by
  have unchanged : ∀ i, ticket (Function.update f c b i) = ticket (f i) := by
    intro i
    by_cases h : i = c
    · rw [h, Function.update_self, same]
    · rw [Function.update_of_ne h]
  constructor
  · exact tickets.le
  · intro i n holds
    rw [unchanged i] at holds
    exact tickets.range i n holds
  · intro n above below
    obtain ⟨i, holds⟩ := tickets.held n above below
    exact ⟨i, by rw [unchanged i, holds]⟩
  · intro i j n left right
    rw [unchanged i] at left
    rw [unchanged j] at right
    exact tickets.distinct i j n left right

/-- A party without a number takes the next one. -/
theorem enter (tickets : Tickets f ticket lo hi) (before : ticket (f c) = none)
    (new : ticket b = some (hi + 1)) : Tickets (Function.update f c b) ticket lo (hi + 1) := by
  have origin : ∀ i n, ticket (Function.update f c b i) = some n →
      i = c ∧ n = hi + 1 ∨ i ≠ c ∧ ticket (f i) = some n := by
    intro i n holds
    by_cases h : i = c
    · rw [h, Function.update_self, new] at holds
      exact .inl ⟨h, (Option.some.inj holds).symm⟩
    · rw [Function.update_of_ne h] at holds
      exact .inr ⟨h, holds⟩
  constructor
  · exact Nat.le_succ_of_le tickets.le
  · intro i n holds
    rcases origin i n holds with ⟨_, number⟩ | ⟨_, old⟩
    · have := tickets.le
      omega
    · have := tickets.range i n old
      omega
  · intro n above below
    rcases Nat.lt_or_ge hi n with last | earlier
    · refine ⟨c, ?_⟩
      rw [Function.update_self, new]
      congr
      omega
    · obtain ⟨i, holds⟩ := tickets.held n above earlier
      have other : i ≠ c := by
        intro h
        rw [h, before] at holds
        cases holds
      exact ⟨i, by rw [Function.update_of_ne other, holds]⟩
  · intro i j n left right
    rcases origin i n left with ⟨mineLeft, number⟩ | ⟨_, oldLeft⟩ <;>
    rcases origin j n right with ⟨mineRight, number'⟩ | ⟨_, oldRight⟩
    · rw [mineLeft, mineRight]
    · have := tickets.range j n oldRight
      omega
    · have := tickets.range i n oldLeft
      omega
    · exact tickets.distinct i j n oldLeft oldRight

/-- The holder of the oldest number leaves. -/
theorem leave (tickets : Tickets f ticket lo hi) (mine : ticket (f c) = some (lo + 1))
    (gone : ticket b = none) : Tickets (Function.update f c b) ticket (lo + 1) hi := by
  have origin : ∀ i n, ticket (Function.update f c b i) = some n →
      i ≠ c ∧ ticket (f i) = some n := by
    intro i n holds
    by_cases h : i = c
    · rw [h, Function.update_self, gone] at holds
      cases holds
    · rw [Function.update_of_ne h] at holds
      exact ⟨h, holds⟩
  constructor
  · exact (tickets.range c _ mine).2
  · intro i n holds
    obtain ⟨other, old⟩ := origin i n holds
    have range := tickets.range i n old
    have different : n ≠ lo + 1 := by
      intro same
      rw [same] at old
      exact other (tickets.distinct i c _ old mine)
    omega
  · intro n above below
    obtain ⟨i, holds⟩ := tickets.held n (by omega) below
    have other : i ≠ c := by
      intro h
      rw [h, mine] at holds
      have := Option.some.inj holds
      omega
    exact ⟨i, by rw [Function.update_of_ne other, holds]⟩
  · intro i j n left right
    exact tickets.distinct i j n (origin i n left).2 (origin j n right).2

end Tickets

/-! ## Lists of parties -/

/-- The parties that satisfy `p`, before and after one of them moves. -/
theorem countP_set_add (p : β → Bool) {parties : List β} {index : Nat} {party : β}
    (found : parties[index]? = some party) (next : β) :
    (parties.set index next).countP p + (if p party then 1 else 0) =
      parties.countP p + if p next then 1 else 0 := by
  obtain ⟨within, same⟩ := List.getElem?_eq_some_iff.mp found
  have positive : (if p party then 1 else 0) ≤ parties.countP p := by
    split
    · rename_i holds
      exact List.countP_pos_iff.mpr ⟨party, List.mem_of_getElem? found, holds⟩
    · exact Nat.zero_le _
  rw [List.countP_set within, same]
  omega

/-- A sum over the parties, before and after one of them moves. -/
theorem sum_map_set_add (weight : β → Nat) {parties : List β} {index : Nat} {party : β}
    (found : parties[index]? = some party) (next : β) :
    ((parties.set index next).map weight).sum + weight party =
      (parties.map weight).sum + weight next := by
  induction parties generalizing index with
  | nil => cases found
  | cons first rest ih =>
      cases index with
      | zero =>
          cases found
          simp only [List.set_cons_zero, List.map_cons, List.sum_cons]
          omega
      | succ index =>
          have later := ih found
          simp only [List.set_cons_succ, List.map_cons, List.sum_cons]
          omega

/-- A party whose ticket stays the same keeps the tickets. -/
theorem filterMap_set_keep {γ : Type*} (ticket : β → Option γ) {parties : List β} {index : Nat}
    {party next : β} (found : parties[index]? = some party) (same : ticket next = ticket party) :
    ((parties.set index next).filterMap ticket).Perm (parties.filterMap ticket) := by
  obtain ⟨within, mine⟩ := List.getElem?_eq_some_iff.mp found
  have after := (List.set_perm_cons_eraseIdx within next).filterMap ticket
  have before := (List.getElem_cons_eraseIdx_perm within).filterMap ticket
  rw [mine, List.filterMap_cons, ← same, ← List.filterMap_cons] at before
  exact after.trans before

/-- A party that takes a ticket adds it. -/
theorem filterMap_set_enter {γ : Type*} {ticket : β → Option γ} {parties : List β} {index : Nat}
    {party next : β} {taken : γ} (found : parties[index]? = some party)
    (without : ticket party = none) (takes : ticket next = some taken) :
    ((parties.set index next).filterMap ticket).Perm (taken :: parties.filterMap ticket) := by
  obtain ⟨within, mine⟩ := List.getElem?_eq_some_iff.mp found
  have after := (List.set_perm_cons_eraseIdx within next).filterMap ticket
  have before := (List.getElem_cons_eraseIdx_perm within).filterMap ticket
  rw [mine, List.filterMap_cons_none without] at before
  rw [List.filterMap_cons_some takes] at after
  exact after.trans (before.cons taken)

/-- A party that produces more adds it to what all have produced. -/
theorem flatMap_set_append {γ : Type*} (output : β → List γ) {parties : List β} {index : Nat}
    {party next : β} {added : List γ} (found : parties[index]? = some party)
    (more : output next = output party ++ added) :
    ((parties.set index next).flatMap output).Perm (parties.flatMap output ++ added) := by
  obtain ⟨within, mine⟩ := List.getElem?_eq_some_iff.mp found
  have after := (List.set_perm_cons_eraseIdx within next).flatMap_right output
  have before := (List.getElem_cons_eraseIdx_perm within).flatMap_right output
  rw [mine, List.flatMap_cons] at before
  rw [List.flatMap_cons, more, List.append_assoc] at after
  refine after.trans (((List.perm_append_comm).append_left _).trans ?_)
  rw [← List.append_assoc]
  exact before.append_right added

/-- What holds of the moved party and of all others holds of the parties after the move. -/
theorem forall_set {P : Nat → β → Prop} {parties : List β} {index : Nat} {next : β}
    (mine : P index next)
    (others : ∀ i party, i ≠ index → parties[i]? = some party → P i party) (i : Nat) (party : β)
    (found : (parties.set index next)[i]? = some party) : P i party := by
  by_cases same : i = index
  · subst same
    obtain ⟨within, new⟩ := List.getElem?_eq_some_iff.mp found
    rw [List.getElem_set_self] at new
    rw [← new]
    exact mine
  · rw [List.getElem?_set_ne (Ne.symm same)] at found
    exact others i party same found

theorem forall_mem_set {P : β → Prop} {parties : List β} {index : Nat} {next : β} (mine : P next)
    (others : ∀ party ∈ parties, P party) (party : β) (member : party ∈ parties.set index next) :
    P party := by
  rcases List.mem_or_eq_of_mem_set member with old | new
  · exact others party old
  · rw [new]
    exact mine

end RustZero.Lib
