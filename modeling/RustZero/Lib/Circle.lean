import Mathlib

/-!
# Ordered maps read as circles

An ordered map whose keys are points of a circle: going up from a start, the next
entry is the first one from there on, and past the largest key the circle closes
at the smallest.  `NextOnCircle` says which point that is for any set of points,
`entryFrom` reads it off a map.
-/

namespace RustZero.Lib

open Std (ExtTreeMap)

universe u v

instance uint64LinearOrder : LinearOrder UInt64 where
  le_refl := UInt64.le_refl
  le_trans _ _ _ := UInt64.le_trans
  lt_iff_le_not_ge first second := by
    rw [UInt64.not_le]
    exact ⟨fun below => ⟨UInt64.le_of_lt below, below⟩, And.right⟩
  le_antisymm _ _ := UInt64.le_antisymm
  le_total := UInt64.le_total
  toDecidableLE := inferInstance
  toDecidableEq := inferInstance
  toDecidableLT := inferInstance
  compare_eq_compareOfLessAndEq _ _ := rfl

section Circle

variable {κ : Type u} [LinearOrder κ]

/-- `point` is the first of `points` going up from `start`, around the top if
need be. -/
def NextOnCircle (points : κ → Prop) (start point : κ) : Prop :=
  points point ∧
    ((start ≤ point ∧ ∀ other, points other → start ≤ other → point ≤ other) ∨
      ∀ other, points other → other < start ∧ point ≤ other)

theorem NextOnCircle.unique {points : κ → Prop} {start first second : κ}
    (left : NextOnCircle points start first) (right : NextOnCircle points start second) :
    first = second := by
  rcases left with ⟨firstIn, ⟨firstUp, firstLeast⟩ | firstWraps⟩
  · rcases right with ⟨secondIn, ⟨secondUp, secondLeast⟩ | secondWraps⟩
    · exact le_antisymm (firstLeast second secondIn secondUp) (secondLeast first firstIn firstUp)
    · exact absurd firstUp (not_le_of_gt (secondWraps first firstIn).1)
  · rcases right with ⟨secondIn, ⟨secondUp, _⟩ | secondWraps⟩
    · exact absurd secondUp (not_le_of_gt (firstWraps second secondIn).1)
    · exact le_antisymm (firstWraps second secondIn).2 (secondWraps first firstIn).2

/-- Taking other points away does not move the next one. -/
theorem NextOnCircle.subset {points fewer : κ → Prop} {start point : κ}
    (next : NextOnCircle points start point) (fewerIn : ∀ other, fewer other → points other)
    (kept : fewer point) : NextOnCircle fewer start point := by
  refine ⟨kept, ?_⟩
  rcases next.2 with ⟨up, least⟩ | wraps
  · exact Or.inl ⟨up, fun other member => least other (fewerIn other member)⟩
  · exact Or.inr fun other member => wraps other (fewerIn other member)

variable {ν : Type v}

/-- `range(start..).next()`, else `first_key_value()`. -/
def entryFrom (map : ExtTreeMap κ ν) (start : κ) : Option (κ × ν) :=
  (map.toList.find? fun entry => decide (start ≤ entry.1)).or map.toList.head?

theorem toList_ascends (map : ExtTreeMap κ ν) :
    map.toList.Pairwise fun first second => first.1 < second.1 := by
  have ordered := ExtTreeMap.ordered_keys_toList (t := map)
  refine ordered.imp ?_
  intro first second below
  exact compare_lt_iff_lt.mp below

theorem mem_toList_of_mem {map : ExtTreeMap κ ν} {key : κ} (member : key ∈ map) :
    (key, map[key]) ∈ map.toList := by
  rw [ExtTreeMap.mem_toList_iff_getElem?_eq_some]
  exact getElem?_pos map key member

theorem head_toList_least {map : ExtTreeMap κ ν} {entry : κ × ν}
    (first : map.toList.head? = some entry) {other : κ} (member : other ∈ map) :
    entry.1 ≤ other := by
  have listed := mem_toList_of_mem member
  have ascends := toList_ascends map
  cases entries : map.toList with
  | nil =>
      rw [entries] at first
      cases first
  | cons head rest =>
      rw [entries, List.head?_cons, Option.some.injEq] at first
      subst first
      rw [entries] at ascends listed
      rcases List.mem_cons.mp listed with same | later
      · rw [← same]
      · exact le_of_lt ((List.pairwise_cons.mp ascends).1 _ later)

theorem mem_of_mem_toList {map : ExtTreeMap κ ν} {entry : κ × ν} (listed : entry ∈ map.toList) :
    entry.1 ∈ map ∧ map[entry.1]? = some entry.2 := by
  have found : map[entry.1]? = some entry.2 :=
    ExtTreeMap.mem_toList_iff_getElem?_eq_some.mp listed
  exact ⟨ExtTreeMap.mem_iff_isSome_getElem?.mpr (by rw [found]; rfl), found⟩

theorem nextOnCircle_of_entryFrom {map : ExtTreeMap κ ν} {start : κ} {entry : κ × ν}
    (found : entryFrom map start = some entry) :
    NextOnCircle (· ∈ map) start entry.1 ∧ map[entry.1]? = some entry.2 := by
  rw [entryFrom, Option.or_eq_some_iff] at found
  rcases found with up | ⟨noneUp, first⟩
  · have split := List.find?_eq_some_iff_append.mp up
    obtain ⟨above, before, after, entries, skipped⟩ := split
    have listed : entry ∈ map.toList := List.mem_of_find?_eq_some up
    refine ⟨⟨(mem_of_mem_toList listed).1, Or.inl ⟨by simpa using above, ?_⟩⟩,
      (mem_of_mem_toList listed).2⟩
    intro other member later
    have otherListed := mem_toList_of_mem member
    have ascends := toList_ascends map
    rw [entries] at ascends otherListed
    rcases List.mem_append.mp otherListed with passed | same
    · exact absurd later (by simpa using skipped _ passed)
    · rcases List.mem_cons.mp same with equal | further
      · rw [← equal]
      · exact le_of_lt ((List.pairwise_cons.mp (List.pairwise_append.mp ascends).2.1).1 _ further)
  · have listed : entry ∈ map.toList := List.mem_of_head? first
    refine ⟨⟨(mem_of_mem_toList listed).1, Or.inr ?_⟩, (mem_of_mem_toList listed).2⟩
    intro other member
    have otherListed := mem_toList_of_mem member
    have below := List.find?_eq_none.mp noneUp _ otherListed
    exact ⟨by simpa using below, head_toList_least first member⟩

theorem entryFrom_eq_none {map : ExtTreeMap κ ν} {start : κ} :
    entryFrom map start = none ↔ ∀ key, key ∉ map := by
  rw [entryFrom, Option.or_eq_none_iff, List.head?_eq_none_iff]
  constructor
  · intro empty key member
    have listed := mem_toList_of_mem member
    rw [empty.2] at listed
    cases listed
  · intro absent
    have empty : map.toList = [] := by
      refine List.eq_nil_iff_forall_not_mem.mpr ?_
      intro entry listed
      exact absent entry.1 (mem_of_mem_toList listed).1
    rw [empty]
    exact ⟨rfl, rfl⟩

/-- `entryFrom` finds the next point of the circle and what the map holds there. -/
theorem entryFrom_eq_some {map : ExtTreeMap κ ν} {start point : κ} {value : ν} :
    entryFrom map start = some (point, value) ↔
      NextOnCircle (· ∈ map) start point ∧ map[point]? = some value := by
  constructor
  · exact nextOnCircle_of_entryFrom
  · intro ⟨next, held⟩
    cases found : entryFrom map start with
    | none => exact absurd next.1 (entryFrom_eq_none.mp found point)
    | some entry =>
        obtain ⟨first, kept⟩ := entry
        obtain ⟨firstNext, firstHeld⟩ := nextOnCircle_of_entryFrom found
        have same : first = point := firstNext.unique next
        subst same
        have sameValue : kept = value := Option.some.inj (firstHeld.symm.trans held)
        rw [sameValue]

end Circle

end RustZero.Lib
