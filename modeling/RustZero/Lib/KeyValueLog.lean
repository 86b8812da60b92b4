import Mathlib

/-!
# Key-value stores with a log

A store is replayed from a log of transactions; the number of transactions
replayed is its revision.

* `stateAt log n` is the store at revision `n` and `between log lo hi` what the
  revisions after `lo` and up to `hi` did; `stateAt_of_between` replays the one
  onto the other.
* `exists_mem_entries` reads the entries of a table through its lookups.
* `Mirrors keep decode entries store` says that a second table holds the decoded
  values of the kept keys of a store, and no others.  `Mirrors.put`,
  `Mirrors.delete` and `Mirrors.skip` follow a mutation, and `Mirrors.load` reads
  a listing of the store.
* `sortDedup` sorts a list and drops repetitions, which leaves the same members in
  strictly increasing order.
-/

namespace RustZero.Lib

universe u v w

variable {κ : Type u} {ν : Type v} {ω : Type w} [DecidableEq κ]

/-- A finite map. -/
abbrev Table (κ : Type u) (ν : Type v) := AList fun _ : κ => ν

inductive Mutation (κ : Type u) (ν : Type v) where
  | put (key : κ) (value : ν)
  | delete (key : κ)
  deriving DecidableEq, Repr

def Mutation.key {κ : Type u} {ν : Type v} : Mutation κ ν → κ
  | .put key _ => key
  | .delete key => key

def Mutation.apply (table : Table κ ν) : Mutation κ ν → Table κ ν
  | .put key value => table.insert key value
  | .delete key => table.erase key

def replay (mutations : List (Mutation κ ν)) (table : Table κ ν) : Table κ ν :=
  mutations.foldl Mutation.apply table

/-- The store at a revision. -/
def stateAt (log : List (List (Mutation κ ν))) (revision : Nat) : Table κ ν :=
  replay (log.take revision).flatten ∅

/-- The mutations of the revisions after `lo` and up to `hi`. -/
def between (log : List (List (Mutation κ ν))) (lo hi : Nat) : List (Mutation κ ν) :=
  ((log.take hi).drop lo).flatten

theorem replay_append (first second : List (Mutation κ ν)) (table : Table κ ν) :
    replay (first ++ second) table = replay second (replay first table) :=
  List.foldl_append

omit [DecidableEq κ] in
theorem between_self (log : List (List (Mutation κ ν))) (n : Nat) : between log n n = [] := by
  simp [between, List.drop_eq_nil_of_le]

theorem stateAt_of_between {log : List (List (Mutation κ ν))} {lo hi : Nat} (order : lo ≤ hi) :
    stateAt log hi = replay (between log lo hi) (stateAt log lo) := by
  have split : (log.take hi).flatten = (log.take lo).flatten ++ between log lo hi := by
    have first : log.take lo = (log.take hi).take lo := by
      rw [List.take_take, Nat.min_eq_left order]
    rw [first, between, ← List.flatten_append, List.take_append_drop]
  rw [stateAt, split, replay_append]
  rfl

theorem stateAt_append {log : List (List (Mutation κ ν))} {n : Nat} (known : n ≤ log.length)
    (later : List (List (Mutation κ ν))) : stateAt (log ++ later) n = stateAt log n := by
  rw [stateAt, stateAt, List.take_append_of_le_length known]

theorem exists_mem_entries (table : Table κ ν) (holds : ν → Prop) :
    (∃ entry ∈ table.entries, holds entry.2) ↔
      ∃ key value, table.lookup key = some value ∧ holds value := by
  constructor
  · intro inside
    obtain ⟨⟨key, value⟩, member, held⟩ := inside
    exact ⟨key, value, AList.mem_lookup_iff.mpr member, held⟩
  · intro stored
    obtain ⟨key, value, found, held⟩ := stored
    exact ⟨⟨key, value⟩, AList.mem_lookup_iff.mp found, held⟩

/-! ## Mirrors -/

/-- The table holds the decoded values of the kept keys of the store. -/
def Mirrors (keep : κ → Bool) (decode : ν → Option ω) (entries : Table κ ω)
    (store : Table κ ν) : Prop :=
  ∀ key, entries.lookup key = if keep key then (store.lookup key).bind decode else none

namespace Mirrors

variable {keep : κ → Bool} {decode : ν → Option ω} {entries : Table κ ω} {store : Table κ ν}
  {key : κ}

theorem put (mirrors : Mirrors keep decode entries store) (kept : keep key = true) {value : ν}
    {decoded : ω} (decodes : decode value = some decoded) :
    Mirrors keep decode (entries.insert key decoded) (store.insert key value) := by
  intro other
  by_cases same : other = key
  · subst same
    simp [kept, decodes]
  · rw [AList.lookup_insert_ne same, AList.lookup_insert_ne same]
    exact mirrors other

theorem delete (mirrors : Mirrors keep decode entries store) :
    Mirrors keep decode (entries.erase key) (store.erase key) := by
  intro other
  by_cases same : other = key
  · subst same
    simp
  · rw [AList.lookup_erase_ne same, AList.lookup_erase_ne same]
    exact mirrors other

/-- Keys that are not kept do not matter. -/
theorem skip (mirrors : Mirrors keep decode entries store) {mutation : Mutation κ ν}
    (dropped : keep mutation.key = false) :
    Mirrors keep decode entries (mutation.apply store) := by
  intro other
  rw [mirrors other]
  by_cases same : other = mutation.key
  · rw [same, dropped]
    rfl
  · cases mutation with
    | put key value =>
        have different : other ≠ key := same
        rw [Mutation.apply, AList.lookup_insert_ne different]
    | delete key =>
        have different : other ≠ key := same
        rw [Mutation.apply, AList.lookup_erase_ne different]

theorem skip_all (mirrors : Mirrors keep decode entries store) {mutations : List (Mutation κ ν)}
    (dropped : ∀ mutation ∈ mutations, keep mutation.key = false) :
    Mirrors keep decode entries (replay mutations store) := by
  induction mutations generalizing store with
  | nil => exact mirrors
  | cons first rest ih =>
      obtain ⟨head, tail⟩ := List.forall_mem_cons.mp dropped
      exact ih (mirrors.skip head) tail

end Mirrors

/-! ## Listings -/

/-- Insert the pairs of a listing that decode. -/
def load (decode : ν → Option ω) (listing : List (κ × ν)) (table : Table κ ω) : Table κ ω :=
  listing.foldl
    (fun table pair =>
      match decode pair.2 with
      | some decoded => table.insert pair.1 decoded
      | none => table)
    table

/-- The pairs of a table whose keys are kept. -/
def listing (keep : κ → Bool) (store : Table κ ν) : List (κ × ν) :=
  (store.entries.filter fun entry => keep entry.1).map fun entry => (entry.1, entry.2)

theorem lookup_load (decode : ν → Option ω) {pairs : List (κ × ν)}
    (distinct : (pairs.map Prod.fst).Nodup) (table : Table κ ω) (key : κ) :
    (load decode pairs table).lookup key =
      ((pairs.lookup key).bind decode).or (table.lookup key) := by
  induction pairs generalizing table with
  | nil => rfl
  | cons pair rest ih =>
      obtain ⟨first, value⟩ := pair
      obtain ⟨fresh, distinct'⟩ := List.nodup_cons.mp distinct
      rw [load, List.foldl_cons, ← load, ih distinct']
      by_cases same : key = first
      · subst same
        have absent : rest.lookup key = none := by
          refine List.lookup_eq_none_iff.mpr ?_
          intro pair member
          have different : pair.1 ≠ key := by
            intro clash
            exact fresh (List.mem_map.mpr ⟨pair, member, clash⟩)
          simpa using different.symm
        rw [absent, List.lookup_cons_self]
        cases decodes : decode value with
        | none => simp [decodes]
        | some decoded => simp [decodes]
      · have other : (key == first) = false := by simpa using same
        rw [List.lookup_cons, other]
        cases decodes : decode value with
        | none => simp
        | some decoded => simp [AList.lookup_insert_ne same]

theorem lookup_listing (keep : κ → Bool) (store : Table κ ν) (key : κ) :
    (listing keep store).lookup key = if keep key then store.lookup key else none := by
  rw [listing, AList.lookup]
  induction store.entries with
  | nil => simp
  | cons entry rest ih =>
      obtain ⟨first, value⟩ := entry
      by_cases kept : keep first = true
      · by_cases same : key = first
        · subst same
          simp [kept]
        · have other : (key == first) = false := by simpa using same
          have next : List.dlookup key (⟨first, value⟩ :: rest) = List.dlookup key rest :=
            List.dlookup_cons_ne rest ⟨first, value⟩ same
          simp [kept, List.lookup_cons, other, next, ih]
      · rw [Bool.not_eq_true] at kept
        by_cases same : key = first
        · subst same
          simp [kept, ih]
        · have next : List.dlookup key (⟨first, value⟩ :: rest) = List.dlookup key rest :=
            List.dlookup_cons_ne rest ⟨first, value⟩ same
          simp [kept, next, ih]

omit [DecidableEq κ] in
theorem nodup_listing (keep : κ → Bool) (store : Table κ ν) :
    ((listing keep store).map Prod.fst).Nodup := by
  have keys : (listing keep store).map Prod.fst =
      (store.entries.filter fun entry => keep entry.1).map Sigma.fst := by
    simp [listing, Function.comp_def]
  rw [keys]
  exact store.nodupKeys.sublist List.filter_sublist

/-- A listing read into an empty table. -/
theorem Mirrors.load (keep : κ → Bool) (decode : ν → Option ω) (store : Table κ ν) :
    Mirrors keep decode (Lib.load decode (listing keep store) ∅) store := by
  intro key
  rw [lookup_load decode (nodup_listing keep store), lookup_listing]
  split
  · simp
  · simp

/-! ## Values in order -/

section SortDedup

variable {α : Type u} [LinearOrder α]

/-- Sort a list and drop repetitions. -/
def sortDedup (values : List α) : List α :=
  (values.mergeSort (· ≤ ·)).destutter (· ≠ ·)

theorem mem_destutter_ne (values : List α) (first value : α) :
    value ∈ values.destutter' (· ≠ ·) first ↔ value = first ∨ value ∈ values := by
  induction values generalizing first with
  | nil => simp
  | cons next rest ih =>
      by_cases same : first = next
      · subst same
        rw [List.destutter'_cons_neg _ (by simp), ih]
        simp
      · rw [List.destutter'_cons_pos _ same, List.mem_cons, ih, List.mem_cons]

theorem destutter_ne_sorted (values : List α) (first : α)
    (sorted : (first :: values).Pairwise (· ≤ ·)) :
    (values.destutter' (· ≠ ·) first).Pairwise (· < ·) := by
  induction values generalizing first with
  | nil => simp
  | cons next rest ih =>
      obtain ⟨least, later⟩ := List.pairwise_cons.mp sorted
      by_cases same : first = next
      · subst same
        rw [List.destutter'_cons_neg _ (by simp)]
        exact ih first later
      · rw [List.destutter'_cons_pos _ same]
        refine List.pairwise_cons.mpr ⟨?_, ih next later⟩
        intro value member
        have below : first < next := lt_of_le_of_ne (least next List.mem_cons_self) same
        rcases (mem_destutter_ne rest next value).mp member with equal | further
        · rw [equal]
          exact below
        · exact lt_of_lt_of_le below ((List.pairwise_cons.mp later).1 value further)

@[simp] theorem mem_sortDedup {values : List α} {value : α} :
    value ∈ sortDedup values ↔ value ∈ values := by
  have members : value ∈ values.mergeSort (· ≤ ·) ↔ value ∈ values := List.mem_mergeSort
  rw [sortDedup, ← members]
  cases values.mergeSort (· ≤ ·) with
  | nil => simp
  | cons first rest => rw [List.destutter_cons', mem_destutter_ne, List.mem_cons]

theorem sortDedup_sorted (values : List α) : (sortDedup values).Pairwise (· < ·) := by
  have sorted := List.pairwise_mergeSort' (· ≤ ·) values
  rw [sortDedup]
  cases sorting : values.mergeSort (· ≤ ·) with
  | nil => simp
  | cons first rest =>
      rw [sorting] at sorted
      rw [List.destutter_cons']
      exact destutter_ne_sorted rest first sorted

end SortDedup

end RustZero.Lib
