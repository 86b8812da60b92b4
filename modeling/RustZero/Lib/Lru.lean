import Mathlib

/-!
# Bounded least-recently-used maps with expiry

The specification of a bounded cache: an association list ordered from the least
to the most recently used key, each item with the time it expires at.

* `Lru.answer` is what each call does to the list and what it returns.
* `Lru.run` answers a whole sequence of calls, newest first.
* The lemmas say which items a call leaves in the list and how it reorders them:
  a call that uses a key moves it to the end, and every call otherwise only drops
  items.
-/

namespace RustZero.Lib.Lru

structure Item (K V : Type) where
  key : K
  value : V
  expiresAt : Nat

inductive Call (K V : Type) where
  | insert (key : K) (value : V) (ttl : Nat)
  | get (key : K)
  | remove (key : K)
  | removeWhere (predicate : K → V → Bool)
  | clear
  | len

/-- What a call returns; `refused` is an insertion without a lifetime. -/
inductive Outcome (V : Type) where
  | refused
  | done
  | found (value : Option V)
  | count (number : Nat)
  deriving DecidableEq

variable {K V : Type} [DecidableEq K]

def keys (items : List (Item K V)) : List K :=
  items.map Item.key

/-- The items of the other keys. -/
def without (items : List (Item K V)) (key : K) : List (Item K V) :=
  items.filter fun item => item.key ≠ key

def find (items : List (Item K V)) (key : K) : Option (Item K V) :=
  items.find? fun item => item.key = key

/-- The last `capacity` items. -/
def newest (capacity : Nat) (items : List (Item K V)) : List (Item K V) :=
  items.drop (items.length - capacity)

/-- One call at time `now`. -/
def answer (capacity now : Nat) (items : List (Item K V)) :
    Call K V → List (Item K V) × Outcome V
  | .insert key value ttl =>
      if ttl = 0 then (items, .refused)
      else (newest capacity (without items key ++ [⟨key, value, now + ttl⟩]), .done)
  | .get key =>
      match find items key with
      | some item =>
          if item.expiresAt ≤ now then (without items key, .found none)
          else (without items key ++ [item], .found (some item.value))
      | none => (items, .found none)
  | .remove key => (without items key, .found ((find items key).map Item.value))
  | .removeWhere predicate =>
      (items.filter fun item => !predicate item.key item.value,
        .count (items.countP fun item => predicate item.key item.value))
  | .clear => ([], .done)
  | .len =>
      let live := items.filter fun item => now < item.expiresAt
      (live, .count live.length)

/-- The items after a sequence of timed calls and what the calls returned, both
newest first. -/
def run (capacity : Nat) : List (Nat × Call K V) → List (Item K V) × List (Outcome V)
  | [] => ([], [])
  | (now, call) :: older =>
      let before := run capacity older
      let answered := answer capacity now before.1 call
      (answered.1, answered.2 :: before.2)

variable {capacity now : Nat} {items : List (Item K V)} {key : K}

omit [DecidableEq K] in
@[simp] theorem keys_append (left right : List (Item K V)) :
    keys (left ++ right) = keys left ++ keys right :=
  List.map_append

omit [DecidableEq K] in
theorem mem_keys {items : List (Item K V)} {key : K} :
    key ∈ keys items ↔ ∃ item ∈ items, item.key = key :=
  List.mem_map

@[simp] theorem mem_without {item : Item K V} :
    item ∈ without items key ↔ item ∈ items ∧ item.key ≠ key := by
  simp [without]

theorem without_cons_self {item : Item K V} :
    without (item :: items) item.key = without items item.key := by
  simp [without]

theorem without_cons_ne {item : Item K V} (ne : item.key ≠ key) :
    without (item :: items) key = item :: without items key := by
  simp [without, ne]

theorem without_eq_self (absent : key ∉ keys items) : without items key = items := by
  apply List.filter_eq_self.mpr
  intro item member
  have ne : item.key ≠ key := fun same => absent (mem_keys.mpr ⟨item, member, same⟩)
  simpa using ne

/-- Dropping a key from the items is erasing it from the distinct keys. -/
theorem keys_without (distinct : (keys items).Nodup) :
    keys (without items key) = (keys items).erase key := by
  rw [distinct.erase_eq_filter, keys, keys, without, List.filter_map]
  congr 1
  apply List.filter_congr
  intro item _
  by_cases same : item.key = key <;> simp [same]

/-- With distinct keys an item is the only one its key drops. -/
theorem perm_cons_without (distinct : (keys items).Nodup) {item : Item K V}
    (member : item ∈ items) : items.Perm (item :: without items item.key) := by
  induction items with
  | nil => cases member
  | cons first rest ih =>
      obtain ⟨fresh, distinct⟩ := List.nodup_cons.mp distinct
      rcases List.mem_cons.mp member with here | later
      · subst here
        rw [without_cons_self, without_eq_self fresh]
      · have ne : first.key ≠ item.key := fun same => fresh (mem_keys.mpr ⟨item, later, same.symm⟩)
        rw [without_cons_ne ne]
        exact ((ih distinct later).cons first).trans (List.Perm.swap _ _ _)

/-- With distinct keys there is at most one item of a key, and `find` returns it. -/
theorem find_eq_some_iff (distinct : (keys items).Nodup) {item : Item K V} :
    find items key = some item ↔ item ∈ items ∧ item.key = key := by
  unfold find
  induction items with
  | nil => simp
  | cons first rest ih =>
      obtain ⟨fresh, distinct⟩ := List.nodup_cons.mp distinct
      by_cases same : first.key = key
      · rw [List.find?_cons_of_pos (by simpa using same)]
        refine ⟨?_, ?_⟩
        · intro found
          cases found
          exact ⟨List.mem_cons_self, same⟩
        · intro given
          obtain ⟨member, keyed⟩ := given
          rcases List.mem_cons.mp member with here | later
          · rw [here]
          · have again : first.key ∈ keys rest :=
              mem_keys.mpr ⟨item, later, keyed.trans same.symm⟩
            exact absurd again fresh
      · rw [List.find?_cons_of_neg (by simpa using same), ih distinct]
        refine ⟨?_, ?_⟩
        · intro given
          exact ⟨List.mem_cons_of_mem _ given.1, given.2⟩
        · intro given
          obtain ⟨member, keyed⟩ := given
          rcases List.mem_cons.mp member with here | later
          · subst here
            exact absurd keyed same
          · exact ⟨later, keyed⟩

theorem find_eq_none_iff : find items key = none ↔ key ∉ keys items := by
  simp [find, keys]

/-! ## Keeping the newest items -/

omit [DecidableEq K] in
theorem newest_of_le (fits : items.length ≤ capacity) : newest capacity items = items := by
  simp [newest, Nat.sub_eq_zero_of_le fits]

omit [DecidableEq K] in
theorem newest_cons {item : Item K V} (full : items.length = capacity) :
    newest capacity (item :: items) = items := by
  simp [newest, full]

omit [DecidableEq K] in
theorem newest_sublist (capacity : Nat) (items : List (Item K V)) :
    (newest capacity items).Sublist items :=
  List.drop_sublist _ _

omit [DecidableEq K] in
theorem length_newest : (newest capacity items).length ≤ capacity := by
  rw [newest, List.length_drop]
  omega

omit [DecidableEq K] in
theorem mem_newest_last (positive : 0 < capacity) {last : Item K V} :
    last ∈ newest capacity (items ++ [last]) := by
  rw [newest, List.drop_append_of_le_length]
  · exact List.mem_append_right _ List.mem_cons_self
  · rw [List.length_append, List.length_singleton]
    omega

/-! ## What a call leaves -/

theorem answer_insert_zero (key : K) (value : V) :
    answer capacity now items (.insert key value 0) = (items, .refused) :=
  rfl

theorem answer_insert {ttl : Nat} (lifetime : ttl ≠ 0) (key : K) (value : V) :
    answer capacity now items (.insert key value ttl) =
      (newest capacity (without items key ++ [⟨key, value, now + ttl⟩]), .done) :=
  if_neg lifetime

theorem mem_of_mem_newest {item added : Item K V}
    (member : item ∈ newest capacity (without items key ++ [added])) :
    item = added ∨ item ∈ items ∧ item.key ≠ key := by
  rcases List.mem_append.mp ((newest_sublist _ _).subset member) with older | last
  · exact .inr (mem_without.mp older)
  · exact .inl (List.mem_singleton.mp last)

/-- A lookup invents no item, and loses only an expired one. -/
theorem mem_answer_get (distinct : (keys items).Nodup) (key : K) (item : Item K V) :
    (item ∈ (answer capacity now items (.get key)).1 → item ∈ items) ∧
      (item ∈ items → item ∈ (answer capacity now items (.get key)).1 ∨
        item.expiresAt ≤ now) := by
  simp only [answer]
  split
  · rename_i hit found
    obtain ⟨held, keyed⟩ := (find_eq_some_iff distinct).mp found
    have moved : item ∈ items ↔ item ∈ without items key ∨ item = hit := by
      subst keyed
      rw [(perm_cons_without distinct held).mem_iff, List.mem_cons, or_comm]
    split
    · rename_i expired
      rw [moved]
      refine ⟨Or.inl, ?_⟩
      intro held
      rcases held with held | same
      · exact .inl held
      · subst same
        exact .inr expired
    · rw [moved, List.mem_append, List.mem_singleton]
      exact ⟨id, Or.inl⟩
  · exact ⟨id, Or.inl⟩

/-- The key a call uses: the one it inserts, or the one it hits. -/
def used : Call K V → Outcome V → Option K
  | .insert key _ _, .done => some key
  | .get key, .found (some _) => some key
  | _, _ => none

/-- Move a used key to the end. -/
def refresh (order : List K) : Option K → List K
  | some key => order.erase key ++ [key]
  | none => order

omit [DecidableEq K] in
theorem keys_sublist {items items' : List (Item K V)} (kept : items'.Sublist items) :
    (keys items').Sublist (keys items) :=
  kept.map _

/-- No call reorders keys but by moving the one it uses to the end. -/
theorem keys_answer (distinct : (keys items).Nodup) (call : Call K V) :
    (keys (answer capacity now items call).1).Sublist
      (refresh (keys items) (used call (answer capacity now items call).2)) := by
  cases call with
  | insert key value ttl =>
      by_cases zero : ttl = 0
      · subst zero
        exact List.Sublist.refl _
      · rw [answer_insert zero, used, refresh, ← keys_without distinct]
        have kept := keys_sublist
          (newest_sublist capacity (without items key ++ [⟨key, value, now + ttl⟩]))
        rwa [keys_append] at kept
  | get key =>
      simp only [answer]
      split
      · rename_i item found
        split
        · exact keys_sublist List.filter_sublist
        · obtain ⟨-, keyed⟩ := (find_eq_some_iff distinct).mp found
          rw [used, refresh, ← keys_without distinct, keys_append]
          exact (List.Sublist.refl _).append (by simp [keys, keyed])
      · exact List.Sublist.refl _
  | remove key => exact keys_sublist List.filter_sublist
  | removeWhere predicate => exact keys_sublist List.filter_sublist
  | clear => exact List.nil_sublist _
  | len => exact keys_sublist List.filter_sublist

end RustZero.Lib.Lru
