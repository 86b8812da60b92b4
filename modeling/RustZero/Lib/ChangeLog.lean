import Mathlib

/-!
# Logs of keyed insertions and removals

A reader that follows a log of insertions and removals has live keys: those
inserted more often than removed.  `Tracks log live` says that the log is orderly
(nothing is inserted while live or removed while not) and that `live` are its live
keys; `Tracks.insert` and `Tracks.remove` extend it by one entry.
-/

namespace RustZero.Lib

universe u v

inductive Change (κ : Type u) (ι : Type v) where
  | insert (key : κ) (item : ι)
  | remove (key : κ)
  deriving DecidableEq

variable {κ : Type u} {ι : Type v}

def Change.insertedKey : Change κ ι → Option κ
  | .insert key _ => some key
  | .remove _ => none

def Change.removedKey : Change κ ι → Option κ
  | .insert _ _ => none
  | .remove key => some key

def insertedKeys (log : List (Change κ ι)) : Multiset κ := log.filterMap Change.insertedKey

def removedKeys (log : List (Change κ ι)) : Multiset κ := log.filterMap Change.removedKey

variable [DecidableEq κ]

/-- The keys inserted, less those removed. -/
def liveKeys (log : List (Change κ ι)) : Multiset κ := insertedKeys log - removedKeys log

/-- No entry inserts a live key or removes another. -/
def Orderly (log : List (Change κ ι)) : Prop :=
  ∀ before entry after, log = before ++ entry :: after →
    match entry with
    | .insert key _ => key ∉ liveKeys before
    | .remove key => key ∈ liveKeys before

structure Tracks (log : List (Change κ ι)) (live : Finset κ) : Prop where
  balance : insertedKeys log = removedKeys log + live.val
  orderly : Orderly log

theorem Tracks.liveKeys_eq {log : List (Change κ ι)} {live : Finset κ} (tracks : Tracks log live) :
    liveKeys log = live.val := by
  rw [liveKeys, tracks.balance, add_tsub_cancel_left]

theorem tracks_nil : Tracks ([] : List (Change κ ι)) ∅ where
  balance := rfl
  orderly := by
    intro before entry after split
    cases before <;> cases split

theorem Orderly.append {log : List (Change κ ι)} (orderly : Orderly log) {entry : Change κ ι}
    (last : match entry with
      | .insert key _ => key ∉ liveKeys log
      | .remove key => key ∈ liveKeys log) :
    Orderly (log ++ [entry]) := by
  intro before middle after split
  rcases List.eq_nil_or_concat after with empty | ⟨rest, final, ends⟩
  · subst empty
    obtain ⟨same, heads⟩ := List.append_inj' split rfl
    cases heads
    subst same
    exact last
  · subst ends
    have split' : log ++ [entry] = (before ++ middle :: rest) ++ [final] := by
      rw [split]
      simp
    obtain ⟨same, _⟩ := List.append_inj' split' rfl
    exact orderly before middle rest same

theorem Tracks.insert {log : List (Change κ ι)} {live : Finset κ} (tracks : Tracks log live)
    {key : κ} (item : ι) (fresh : key ∉ live) :
    Tracks (log ++ [.insert key item]) (insert key live) where
  balance := by
    have inserted : insertedKeys (log ++ [.insert key item]) = insertedKeys log + {key} := by
      rw [insertedKeys, List.filterMap_append, ← Multiset.coe_add]
      rfl
    have removed : removedKeys (log ++ [Change.insert key item]) = removedKeys log := by
      rw [removedKeys, List.filterMap_append, ← Multiset.coe_add]
      exact add_zero _
    rw [inserted, removed, tracks.balance, Finset.insert_val_of_notMem fresh, add_assoc,
      ← Multiset.singleton_add, add_comm live.val]
  orderly := by
    apply tracks.orderly.append
    rw [tracks.liveKeys_eq]
    exact fresh

theorem Tracks.remove {log : List (Change κ ι)} {live : Finset κ} (tracks : Tracks log live)
    {key : κ} (member : key ∈ live) : Tracks (log ++ [.remove key]) (live.erase key) where
  balance := by
    have inserted : insertedKeys (log ++ [Change.remove key]) = insertedKeys log := by
      rw [insertedKeys, List.filterMap_append, ← Multiset.coe_add]
      exact add_zero _
    have removed : removedKeys (log ++ [Change.remove key]) = removedKeys log + {key} := by
      rw [removedKeys, List.filterMap_append, ← Multiset.coe_add]
      rfl
    rw [inserted, removed, tracks.balance, Finset.erase_val, add_assoc, Multiset.singleton_add,
      Multiset.cons_erase member]
  orderly := by
    apply tracks.orderly.append
    rw [tracks.liveKeys_eq]
    exact member

end RustZero.Lib
