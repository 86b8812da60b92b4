import RustZero.Lib.Covers
import RustZero.Lib.WordSet

/-!
# Bloom filters

`BloomFilter` of `core/src/bloom.rs`, with bit counts of 64 bits and wrapping hashes.  The bits of
a filter are the positions that the items inserted since the last `clear` cover
(`Represents.positions`); what an insertion returns and what is counted follow from that.
-/

namespace RustZero.Bloom

open Lib WordSet

/-- The number of values of a `usize`. -/
def usizeCount : Nat := 2 ^ 64

abbrev Bytes := List UInt8

inductive BloomError
  | zeroBits
  | zeroHashFunctions
  deriving DecidableEq, Repr

/-! ## The filter -/

@[ext] structure BloomFilter where
  bits : List Word
  bitCount : Fin usizeCount
  hashFunctions : Fin (2 ^ 32)
  insertions : Nat
  bitCount_pos : 0 < bitCount.val
  hashFunctions_pos : 0 < hashFunctions.val
  bits_length : bits.length = (bitCount.val + 63) / 64

def offsetBasis : Word := 0xcbf29ce484222325#64

def prime : Word := 0x100000001b3#64

/-- A turn of the loops of `hashes`. -/
def hashByte (hash : Word) (byte : UInt8) : Word :=
  (hash ^^^ byte.toBitVec.setWidth 64) * prime

def hashes (bytes : Bytes) : Word × Word :=
  (bytes.foldl hashByte offsetBasis,
    bytes.reverse.foldl hashByte (offsetBasis ^^^ 0x9e3779b97f4a7c15#64) ||| 1#64)

namespace BloomFilter

def new (bitCount : Fin usizeCount) (hashFunctions : Fin (2 ^ 32)) :
    Except BloomError BloomFilter :=
  if bits : bitCount.val = 0 then .error .zeroBits
  else if functions : hashFunctions.val = 0 then .error .zeroHashFunctions
  else
    .ok {
      bits := List.replicate ((bitCount.val + 63) / 64) 0
      bitCount
      hashFunctions
      insertions := 0
      bitCount_pos := Nat.pos_of_ne_zero bits
      hashFunctions_pos := Nat.pos_of_ne_zero functions
      bits_length := List.length_replicate }

def indices (self : BloomFilter) (hashes : Word × Word) : List Nat :=
  (List.range self.hashFunctions).map fun iteration =>
    ((hashes.1 + BitVec.ofNat 64 iteration * hashes.2) % BitVec.ofNat 64 self.bitCount).toNat

/-- A turn of the loop of `insert`, over `bits` and `changed`. -/
def setIndex (state : List Word × Bool) (index : Nat) : List Word × Bool :=
  let (bits, changed) := state
  let word := index / 64
  let mask : Word := 1#64 <<< (index % 64)
  (bits.modify word (· ||| mask), changed || bits.getD word 0 &&& mask == 0)

def setIndices (self : BloomFilter) (value : Bytes) : List Word × Bool :=
  (self.indices (hashes value)).foldl setIndex (self.bits, false)

theorem setIndex_length (indices : List Nat) (state : List Word × Bool) :
    (indices.foldl setIndex state).1.length = state.1.length := by
  induction indices generalizing state with
  | nil => rfl
  | cons index indices ih =>
      rw [List.foldl_cons, ih]
      exact List.length_modify ..

/-- `insert`; the counter is atomic and wraps. -/
def insert (self : BloomFilter) (value : Bytes) : BloomFilter × Bool :=
  let changed := (self.setIndices value).2
  ({ self with
    bits := (self.setIndices value).1
    insertions := if changed then (self.insertions + 1) % usizeCount else self.insertions
    bits_length := (setIndex_length _ _).trans self.bits_length }, changed)

def contains (self : BloomFilter) (value : Bytes) : Bool :=
  (self.indices (hashes value)).all fun index =>
    let word := index / 64
    let mask : Word := 1#64 <<< (index % 64)
    self.bits.getD word 0 &&& mask != 0

def clear (self : BloomFilter) : BloomFilter :=
  { self with
    bits := self.bits.map fun _ => 0
    insertions := 0
    bits_length := (List.length_map ..).trans self.bits_length }

end BloomFilter

/-! ## Sequences of calls -/

inductive Call
  | insert (value : Bytes)
  | contains (value : Bytes)
  | clear
  deriving DecidableEq, Repr

def step (filter : BloomFilter) : Call → BloomFilter × Option Bool
  | .insert value => ((filter.insert value).1, some (filter.insert value).2)
  | .contains value => (filter, some (filter.contains value))
  | .clear => (filter.clear, none)

/-- The filter after the calls. -/
def after (filter : BloomFilter) (calls : List Call) : BloomFilter :=
  calls.foldl (fun filter call => (step filter call).1) filter

/-- The calls with what they returned. -/
def log (filter : BloomFilter) : List Call → List (Call × Option Bool)
  | [] => []
  | call :: calls => (call, (step filter call).2) :: log (step filter call).1 calls

/-- The entries behind the last `clear`. -/
def sinceClear (entries : List (Call × Option Bool)) : List (Call × Option Bool) :=
  entries.rtakeWhile fun entry => entry.1 ≠ .clear

/-- The items inserted since the last `clear`. -/
def inserted (entries : List (Call × Option Bool)) : List Bytes :=
  (sinceClear entries).filterMap fun entry =>
    match entry.1 with
    | .insert value => some value
    | _ => none

/-- The insertions since the last `clear` that returned `true`. -/
def changes (entries : List (Call × Option Bool)) : Nat :=
  (sinceClear entries).countP fun entry =>
    match entry with
    | (.insert _, some true) => true
    | _ => false

/-- The positions of an item. -/
def positionsOf (filter : BloomFilter) (value : Bytes) : Finset Nat :=
  (filter.indices (hashes value)).toFinset

/-- The filter is what its calls make it. -/
structure Exact (filter : BloomFilter) (entries : List (Call × Option Bool)) : Prop where
  inside : ∀ value, ∀ index ∈ filter.indices (hashes value), index / 64 < filter.bits.length
  present : ∀ value ∈ inserted entries, filter.contains value = true
  changed : ∀ value, (filter.insert value).2 = true ↔ filter.contains value = false
  idempotent : ∀ value,
    (filter.insert value).1.insert value = ((filter.insert value).1, false)
  counted : filter.insertions = changes entries

section Filter

variable {filter : BloomFilter} {value : Bytes} {index : Nat} {indices : List Nat}
  {bits : List Word} {entries : List (Call × Option Bool)}

theorem indices_lt (member : index ∈ filter.indices (hashes value)) :
    index < filter.bitCount.val := by
  obtain ⟨iteration, _, same⟩ := List.mem_map.mp member
  have word : (BitVec.ofNat 64 filter.bitCount.val).toNat = filter.bitCount.val := by
    rw [BitVec.toNat_ofNat]
    exact Nat.mod_eq_of_lt filter.bitCount.isLt
  rw [← same, BitVec.toNat_umod, word]
  exact Nat.mod_lt _ filter.bitCount_pos

/-- Every word that is used is there. -/
theorem indices_inside (member : index ∈ filter.indices (hashes value)) :
    index / 64 < filter.bits.length := by
  have less := indices_lt member
  rw [filter.bits_length]
  omega

theorem setIndex_eq (bits : List Word) (changed : Bool) (index : Nat) :
    BloomFilter.setIndex (bits, changed) index = (add bits index, changed || !has bits index) := by
  have read : (bits.getD (index / 64) 0 &&& mask index == 0) = !has bits index := by
    rw [Bool.eq_iff_iff, beq_iff_eq, and_mask_eq_zero, Bool.not_eq_true']
    rfl
  rw [← read]
  rfl

variable (bits indices) in
theorem setIndices_has (inside : ∀ index ∈ indices, index / 64 < bits.length) (changed : Bool)
    (other : Nat) : has (indices.foldl BloomFilter.setIndex (bits, changed)).1 other =
      (decide (other ∈ indices) || has bits other) := by
  induction indices generalizing bits changed with
  | nil => rfl
  | cons index indices ih =>
      have here := inside index List.mem_cons_self
      have later : ∀ other ∈ indices, other / 64 < (add bits index).length := by
        rw [length_add]
        exact fun other member => inside other (List.mem_cons_of_mem _ member)
      rw [List.foldl_cons, setIndex_eq, ih _ later, has_add here, Bool.eq_iff_iff]
      simp only [Bool.or_eq_true, decide_eq_true_eq, List.mem_cons]
      tauto

variable (bits indices) in
/-- An index that comes again is no change, and was none before. -/
theorem setIndices_changed (inside : ∀ index ∈ indices, index / 64 < bits.length)
    (changed : Bool) : (indices.foldl BloomFilter.setIndex (bits, changed)).2 =
      (changed || indices.any fun index => !has bits index) := by
  induction indices generalizing bits changed with
  | nil => exact (Bool.or_false _).symm
  | cons index indices ih =>
      have here := inside index List.mem_cons_self
      have later : ∀ other ∈ indices, other / 64 < (add bits index).length := by
        rw [length_add]
        exact fun other member => inside other (List.mem_cons_of_mem _ member)
      rw [List.foldl_cons, setIndex_eq, ih _ later, Bool.or_assoc, List.any_cons]
      refine congrArg (changed || ·) ?_
      cases set : has bits index with
      | false => rfl
      | true =>
          refine congrArg (!true || ·) (List.any_congr rfl fun other => ?_)
          rw [has_add here]
          by_cases same : other = index
          · rw [same, set, Bool.or_true]
          · rw [decide_eq_false same, Bool.false_or]

theorem contains_iff :
    filter.contains value = true ↔ positionsOf filter value ⊆ positions filter.bits := by
  have read (index : Nat) : (filter.bits.getD (index / 64) 0 &&& mask index != 0) =
      has filter.bits index := by
    rw [Bool.eq_iff_iff, bne_iff_ne, Ne, and_mask_eq_zero, Bool.not_eq_false]
    rfl
  have all : filter.contains value = (filter.indices (hashes value)).all (has filter.bits) :=
    congrArg (filter.indices (hashes value)).all (funext read)
  rw [all, List.all_eq_true]
  refine ⟨?_, ?_⟩
  · intro held index member
    exact mem_positions.mpr (held index (List.mem_toFinset.mp member))
  · intro within index member
    exact mem_positions.mp (within (List.mem_toFinset.mpr member))

/-- An insertion sets the positions of the item. -/
theorem insert_positions : positions (filter.insert value).1.bits =
    positions filter.bits ∪ positionsOf filter value := by
  ext index
  have set := setIndices_has (filter.indices (hashes value)) filter.bits
    (fun _ member => indices_inside member) false index
  rw [mem_positions, Finset.mem_union, mem_positions, positionsOf, List.mem_toFinset]
  refine (iff_of_eq (congrArg (· = true) set)).trans ?_
  rw [Bool.or_eq_true, decide_eq_true_eq, or_comm]

/-- It changes something exactly if the item was not contained. -/
theorem insert_changed : (filter.insert value).2 = !filter.contains value := by
  have changed := setIndices_changed (filter.indices (hashes value)) filter.bits
    (fun _ member => indices_inside member) false
  rw [Bool.false_or] at changed
  refine changed.trans ?_
  rw [Bool.eq_iff_iff, Bool.not_eq_true', ← Bool.not_eq_true, contains_iff, List.any_eq_true,
    Finset.not_subset]
  refine exists_congr fun index => and_congr List.mem_toFinset.symm ?_
  rw [mem_positions, Bool.not_eq_true, Bool.not_eq_true']

theorem insert_changed_iff : (filter.insert value).2 = true ↔
    ¬positionsOf filter value ⊆ positions filter.bits := by
  rw [insert_changed, Bool.not_eq_true', ← Bool.not_eq_true, contains_iff]

/-- An item that is contained is inserted without a trace. -/
theorem insert_contained (held : filter.contains value = true) :
    filter.insert value = (filter, false) := by
  have unchanged : (filter.insert value).2 = false := by
    rw [insert_changed, held]
    rfl
  have positions_eq : positions (filter.insert value).1.bits = positions filter.bits := by
    rw [insert_positions, Finset.union_eq_left, ← contains_iff]
    exact held
  have bits_eq := positions_injective (BloomFilter.setIndex_length _ _) positions_eq
  have insertions_eq : (filter.insert value).1.insertions = filter.insertions := by
    have kept : (filter.setIndices value).2 = false := unchanged
    rw [BloomFilter.insert, kept]
    rfl
  exact Prod.ext (BloomFilter.ext bits_eq rfl rfl insertions_eq) unchanged

theorem insert_contains (value : Bytes) : (filter.insert value).1.contains value = true := by
  rw [contains_iff, insert_positions]
  exact Finset.subset_union_right

theorem clear_positions (filter : BloomFilter) : positions filter.clear.bits = ∅ := by
  have zeros : filter.clear.bits = List.replicate filter.bits.length 0 :=
    List.map_const'
  ext index
  rw [mem_positions, zeros, has_replicate]
  exact iff_of_false Bool.false_ne_true (Finset.notMem_empty index)

variable (filter) in
/-- No filter has more positions than bits. -/
theorem card_positions_le {items : List Bytes}
    (held : positions filter.bits = covered (positionsOf filter) items) :
    (positions filter.bits).card ≤ filter.bitCount.val := by
  have within : positions filter.bits ⊆ Finset.range filter.bitCount.val := by
    rw [held]
    intro index member
    obtain ⟨value, _, inside⟩ := mem_covered.mp member
    exact Finset.mem_range.mpr (indices_lt (List.mem_toFinset.mp inside))
  have card := Finset.card_le_card within
  rw [Finset.card_range] at card
  exact card

end Filter

/-! ## Runs -/

section Runs

variable {filter : BloomFilter} {entries : List (Call × Option Bool)} {calls others : List Call}

theorem positionsOf_step (filter : BloomFilter) (call : Call) :
    positionsOf (step filter call).1 = positionsOf filter := by
  cases call with
  | insert value => rfl
  | contains value => rfl
  | clear => rfl

theorem after_concat (filter : BloomFilter) (calls : List Call) (call : Call) :
    after filter (calls ++ [call]) = (step (after filter calls) call).1 :=
  List.foldl_concat ..

theorem log_concat (filter : BloomFilter) (calls : List Call) (call : Call) :
    log filter (calls ++ [call]) =
      log filter calls ++ [(call, (step (after filter calls) call).2)] := by
  induction calls generalizing filter with
  | nil => rfl
  | cons first calls ih =>
      rw [List.cons_append, log, ih, log]
      rfl

/-- The bits of the filter are those of the items, and its counter is not beyond their number. -/
structure Represents (filter : BloomFilter) (entries : List (Call × Option Bool)) : Prop where
  positions : positions filter.bits = covered (positionsOf filter) (inserted entries)
  counted : filter.insertions = changes entries
  bounded : changes entries ≤ (WordSet.positions filter.bits).card

theorem sinceClear_clear (entries : List (Call × Option Bool)) (result : Option Bool) :
    sinceClear (entries ++ [(.clear, result)]) = [] := by
  rw [sinceClear, List.rtakeWhile_concat, if_neg (by simp)]

theorem sinceClear_kept {entry : Call × Option Bool} (kept : entry.1 ≠ .clear) :
    sinceClear (entries ++ [entry]) = sinceClear entries ++ [entry] := by
  rw [sinceClear, List.rtakeWhile_concat, if_pos (decide_eq_true kept), sinceClear]

theorem inserted_insert (entries : List (Call × Option Bool)) (value : Bytes)
    (result : Option Bool) :
    inserted (entries ++ [(.insert value, result)]) = inserted entries ++ [value] := by
  rw [inserted, sinceClear_kept (by simp), List.filterMap_append]
  rfl

theorem changes_insert (entries : List (Call × Option Bool)) (value : Bytes) (changed : Bool) :
    changes (entries ++ [(.insert value, some changed)]) =
      changes entries + if changed then 1 else 0 := by
  rw [changes, sinceClear_kept (by simp), List.countP_append, List.countP_singleton]
  cases changed with
  | false => rfl
  | true => rfl

theorem represents_insert (represents : Represents filter entries) (value : Bytes) :
    Represents (filter.insert value).1
      (entries ++ [(.insert value, some (filter.insert value).2)]) := by
  have positions_eq : positions (filter.insert value).1.bits =
      covered (positionsOf filter)
        (inserted (entries ++ [(.insert value, some (filter.insert value).2)])) := by
    rw [inserted_insert, covered_concat, insert_positions, represents.positions]
  have card := card_positions_le (filter.insert value).1 positions_eq
  have word := filter.bitCount.isLt
  have bounded := represents.bounded
  have counted := represents.counted
  cases changed : (filter.insert value).2 with
  | false =>
      have kept : (filter.insert value).1.insertions = filter.insertions := by
        have unchanged : (filter.setIndices value).2 = false := changed
        rw [BloomFilter.insert, unchanged]
        rfl
      rw [changed] at positions_eq
      refine ⟨positions_eq, ?_, ?_⟩
      · rw [kept, counted, changes_insert]
        rfl
      · rw [changes_insert, insert_positions]
        exact bounded.trans (Finset.card_le_card Finset.subset_union_left)
  | true =>
      have larger := card_lt_of_not_covered (insert_changed_iff.mp changed)
      rw [← insert_positions] at larger
      have within : filter.insertions + 1 < usizeCount := by
        have total : (filter.insert value).1.bitCount = filter.bitCount := rfl
        rw [total] at card
        omega
      have more : (filter.insert value).1.insertions = filter.insertions + 1 := by
        have set : (filter.setIndices value).2 = true := changed
        rw [BloomFilter.insert, set]
        exact Nat.mod_eq_of_lt within
      rw [changed] at positions_eq
      refine ⟨positions_eq, ?_, ?_⟩
      · rw [more, counted, changes_insert]
        rfl
      · rw [changes_insert]
        exact Nat.succ_le_of_lt (bounded.trans_lt larger)

theorem represents_step (represents : Represents filter entries) (call : Call) :
    Represents (step filter call).1 (entries ++ [(call, (step filter call).2)]) := by
  cases call with
  | insert value => exact represents_insert represents value
  | contains value =>
      have items : inserted (entries ++ [(.contains value, some (filter.contains value))]) =
          inserted entries := by
        rw [inserted, sinceClear_kept (by simp), List.filterMap_append]
        exact List.append_nil _
      have count : changes (entries ++ [(.contains value, some (filter.contains value))]) =
          changes entries := by
        rw [changes, sinceClear_kept (by simp), List.countP_append]
        rfl
      refine ⟨?_, ?_, ?_⟩
      · rw [step, items]
        exact represents.positions
      · rw [step, count]
        exact represents.counted
      · rw [step, count]
        exact represents.bounded
  | clear =>
      have items : inserted (entries ++ [(.clear, none)]) = [] := by
        rw [inserted, sinceClear_clear]
        rfl
      have count : changes (entries ++ [(.clear, none)]) = 0 := by
        rw [changes, sinceClear_clear]
        rfl
      refine ⟨?_, ?_, ?_⟩
      · rw [step, items]
        exact clear_positions filter
      · rw [step, count]
        rfl
      · rw [step, count]
        exact Nat.zero_le _

theorem represents_run (represents : Represents filter []) (calls : List Call) :
    Represents (after filter calls) (log filter calls) ∧
      positionsOf (after filter calls) = positionsOf filter := by
  induction calls using List.reverseRecOn with
  | nil => exact ⟨represents, rfl⟩
  | append_singleton calls call ih =>
      rw [after_concat, log_concat, positionsOf_step]
      exact ⟨represents_step ih.1 call, ih.2⟩

theorem represents_new {bitCount : Fin usizeCount} {hashFunctions : Fin (2 ^ 32)}
    (created : BloomFilter.new bitCount hashFunctions = .ok filter) : Represents filter [] := by
  rw [BloomFilter.new] at created
  split at created
  case isTrue => cases created
  case isFalse =>
    split at created
    case isTrue => cases created
    case isFalse =>
      cases created
      refine ⟨?_, rfl, Nat.zero_le _⟩
      ext index
      rw [mem_positions, has_replicate]
      exact iff_of_false Bool.false_ne_true (Finset.notMem_empty index)

theorem Represents.exact (represents : Represents filter entries) : Exact filter entries where
  inside value index member := indices_inside member
  present value member := by
    rw [contains_iff, represents.positions]
    exact covers_subset member
  changed value := by rw [insert_changed, Bool.not_eq_true']
  idempotent value := insert_contained (insert_contains value)
  counted := represents.counted

theorem after_length (filter : BloomFilter) (calls : List Call) :
    (after filter calls).bitCount = filter.bitCount := by
  induction calls using List.reverseRecOn with
  | nil => rfl
  | append_singleton calls call ih =>
      rw [after_concat]
      cases call with
      | insert value => exact ih
      | contains value => exact ih
      | clear => exact ih

/-- After any calls the filter contains what was inserted since the last `clear`, insertions say
exactly whether they changed it, and its bits depend only on which items were inserted. -/
theorem bloom_filter_exact (bitCount : Fin usizeCount) (hashFunctions : Fin (2 ^ 32))
    (filter : BloomFilter) (created : BloomFilter.new bitCount hashFunctions = .ok filter)
    (calls : List Call) :
    Exact (after filter calls) (log filter calls) ∧
      ∀ others, (∀ value, value ∈ inserted (log filter calls) ↔
          value ∈ inserted (log filter others)) →
        (after filter calls).bits = (after filter others).bits := by
  have starts := represents_new created
  obtain ⟨represents, same⟩ := represents_run starts calls
  refine ⟨represents.exact, ?_⟩
  intro others items
  obtain ⟨represents', same'⟩ := represents_run starts others
  refine positions_injective ?_ ?_
  · rw [BloomFilter.bits_length, BloomFilter.bits_length, after_length, after_length]
  · rw [represents.positions, represents'.positions, same, same', covered_congr items]

theorem kibibit_valid : 1024 < usizeCount := by
  decide

/-- A filter of 1024 bits and four functions. -/
def emptyFilter : BloomFilter where
  bits := List.replicate 16 0
  bitCount := ⟨1024, kibibit_valid⟩
  hashFunctions := 4
  insertions := 0
  bitCount_pos := Nat.zero_lt_succ _
  hashFunctions_pos := Nat.zero_lt_succ _
  bits_length := rfl

theorem bloom_filter_exact_known :
    Exact (after emptyFilter [.insert [107, 110, 111, 119, 110]])
      (log emptyFilter [.insert [107, 110, 111, 119, 110]]) :=
  (bloom_filter_exact ⟨1024, kibibit_valid⟩ 4 emptyFilter rfl _).1

end Runs

end RustZero.Bloom
