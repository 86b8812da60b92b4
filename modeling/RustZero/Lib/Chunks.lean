import Mathlib

/-!
# A stream cut into chunks

Records of a stream are collected into chunks: a record goes into the newest
chunk, unless that chunk holds something and the record would take it over the
limit; then the record starts a chunk of its own.  The chunks of a stream are
listed newest first, with the records of each in the order they came.

* `flatten_chunked`: the chunks hold the stream, in order.
* `fits_of_mem_chunked`: a chunk is within the limit unless it holds a single
  record of any size.
* `chunked_filled`: every chunk but the newest was full, in that the next record
  would have taken it over the limit.
-/

namespace RustZero.Lib.Chunks

universe u

variable {R : Type u} (size : R → Nat) (limit : Nat)

def weight (chunk : List R) : Nat :=
  (chunk.map size).sum

/-- The record does not go into this chunk. -/
def Overflows (chunk : List R) (record : R) : Prop :=
  0 < weight size chunk ∧ limit < weight size chunk + size record

instance Overflows.decidable (chunk : List R) (record : R) :
    Decidable (Overflows size limit chunk record) :=
  inferInstanceAs (Decidable (_ ∧ _))

/-- Add a record to the chunks of a stream, the newest chunk being open. -/
def add : List (List R) → R → List (List R)
  | [], record => [[record]]
  | chunk :: older, record =>
      if Overflows size limit chunk record then [record] :: chunk :: older
      else (chunk ++ [record]) :: older

/-- The chunks of a stream, newest first. -/
def chunked (records : List R) : List (List R) :=
  records.foldl (add size limit) [[]]

/-- Within the limit, or one record that has a size. -/
def Fits (chunk : List R) : Prop :=
  weight size chunk ≤ limit ∨ ∃ record, chunk.filter (0 < size ·) = [record]

/-- The older chunk had no room for the record that starts the newer one. -/
def Filled (newer older : List R) : Prop :=
  ∃ record rest, newer = record :: rest ∧ Overflows size limit older record

variable {size limit}

/-! ## Weights -/

theorem weight_append (left right : List R) :
    weight size (left ++ right) = weight size left + weight size right := by
  rw [weight, weight, weight, List.map_append, List.sum_append]

theorem weight_singleton (record : R) : weight size [record] = size record := by
  rw [weight, List.map_singleton, List.sum_singleton]

theorem filter_eq_nil_of_weight {chunk : List R} (empty : weight size chunk = 0) :
    chunk.filter (0 < size ·) = [] := by
  rw [List.filter_eq_nil_iff]
  intro record member
  have none := List.sum_eq_zero_iff.mp empty (size record) (List.mem_map_of_mem member)
  simp [none]

/-! ## One record -/

theorem add_flatten (chunks : List (List R)) (record : R) :
    (add size limit chunks record).reverse.flatten = chunks.reverse.flatten ++ [record] := by
  cases chunks with
  | nil => rfl
  | cons chunk older =>
      rw [add]
      split
      · simp
      · simp

theorem fits_append {chunk : List R} {record : R}
    (room : ¬ Overflows size limit chunk record) : Fits size limit (chunk ++ [record]) := by
  by_cases empty : weight size chunk = 0
  · by_cases sized : 0 < size record
    · refine Or.inr ⟨record, ?_⟩
      rw [List.filter_append, filter_eq_nil_of_weight empty, List.nil_append,
        List.filter_singleton]
      simp [sized]
    · refine Or.inl ?_
      rw [weight_append, weight_singleton]
      omega
  · refine Or.inl ?_
    rw [weight_append, weight_singleton]
    rw [Overflows] at room
    omega

theorem fits_singleton (record : R) : Fits size limit [record] := by
  have alone : ¬ Overflows size limit [] record := by
    simp [Overflows, weight]
  simpa using fits_append alone

theorem add_fits {chunks : List (List R)} (fits : ∀ chunk ∈ chunks, Fits size limit chunk)
    (record : R) : ∀ chunk ∈ add size limit chunks record, Fits size limit chunk := by
  intro added member
  cases chunks with
  | nil =>
      rw [add, List.mem_singleton] at member
      exact member ▸ fits_singleton record
  | cons chunk older =>
      rw [add] at member
      split at member
      case isTrue =>
        rcases List.mem_cons.mp member with rfl | kept
        · exact fits_singleton record
        · exact fits added kept
      case isFalse room =>
        rcases List.mem_cons.mp member with rfl | kept
        · exact fits_append room
        · exact fits added (List.mem_cons_of_mem _ kept)

/-- A chunk that takes another record still starts with the record that the one
before it had no room for. -/
theorem Filled.append {newer older : List R} (filled : Filled size limit newer older)
    (record : R) : Filled size limit (newer ++ [record]) older := by
  obtain ⟨first, rest, rfl, overflows⟩ := filled
  exact ⟨first, rest ++ [record], rfl, overflows⟩

theorem add_filled {chunks : List (List R)} (filled : chunks.IsChain (Filled size limit))
    (record : R) : (add size limit chunks record).IsChain (Filled size limit) := by
  cases chunks with
  | nil => exact List.isChain_singleton _
  | cons chunk older =>
      rw [add]
      split
      case isTrue overflows =>
        exact List.isChain_cons_cons.mpr ⟨⟨record, [], rfl, overflows⟩, filled⟩
      case isFalse =>
        cases older with
        | nil => exact List.isChain_singleton _
        | cons next rest =>
            obtain ⟨first, others⟩ := List.isChain_cons_cons.mp filled
            exact List.isChain_cons_cons.mpr ⟨first.append record, others⟩

/-! ## Whole streams -/

theorem chunked_append (records : List R) (record : R) :
    chunked size limit (records ++ [record])
      = add size limit (chunked size limit records) record := by
  rw [chunked, List.foldl_append]
  rfl

theorem flatten_chunked (size : R → Nat) (limit : Nat) (records : List R) :
    (chunked size limit records).reverse.flatten = records := by
  induction records using List.reverseRecOn with
  | nil => rfl
  | append_singleton records record ih => rw [chunked_append, add_flatten, ih]

theorem fits_of_mem_chunked {records : List R} :
    ∀ chunk ∈ chunked size limit records, Fits size limit chunk := by
  induction records using List.reverseRecOn with
  | nil =>
      intro chunk member
      rw [chunked, List.foldl_nil, List.mem_singleton] at member
      exact Or.inl (member ▸ Nat.zero_le _)
  | append_singleton records record ih =>
      rw [chunked_append]
      exact add_fits ih record

theorem chunked_filled (size : R → Nat) (limit : Nat) (records : List R) :
    (chunked size limit records).IsChain (Filled size limit) := by
  induction records using List.reverseRecOn with
  | nil => exact List.isChain_singleton _
  | append_singleton records record ih =>
      rw [chunked_append]
      exact add_filled ih record

end RustZero.Lib.Chunks
