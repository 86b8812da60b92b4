import Mathlib

/-!
# Values that are maps of values

A value is a map of values or something else, a leaf.  A path of keys leads to a value inside
of another.  Inserting a value at a path makes the maps on the way to it where nothing is, and
fails where a leaf is.

* `insertAt_eq_none_iff`: an insertion fails exactly at a leaf on the way.
* `insertAll_eq_none_iff`: of several insertions of leaves one fails exactly where an earlier
  one, or the value they began with, has put a leaf on its way.
* `valueAt_insertAll`: what several insertions leave at a path is decided by the last of them
  that leads to it or through it.
-/

namespace RustZero.Lib

universe u v

/-- How a type of values nests maps. -/
structure NestedMap (κ : Type u) (ν : Type v) where
  members : ν → Option (List (κ × ν))
  node : List (κ × ν) → ν
  members_node : ∀ entries, members (node entries) = some entries

section Entries

variable {κ : Type u} {ν : Type v} [DecidableEq κ]

/-- Bind a key anew. -/
def setKey (entries : List (κ × ν)) (key : κ) (value : ν) : List (κ × ν) :=
  (key, value) :: entries.filter fun entry => entry.1 != key

theorem lookup_setKey_self (entries : List (κ × ν)) (key : κ) (value : ν) :
    (setKey entries key value).lookup key = some value := by
  simp [setKey]

theorem lookup_setKey_of_ne (entries : List (κ × ν)) {key other : κ} (value : ν)
    (differs : other ≠ key) : (setKey entries key value).lookup other = entries.lookup other := by
  have skipped : (other == key) = false := by simpa using differs
  rw [setKey, List.lookup_cons, skipped]
  induction entries with
  | nil => rfl
  | cons entry rest ih =>
      obtain ⟨mine, held⟩ := entry
      simp only at ih
      by_cases same : mine = key
      · subst same
        simp only [List.filter_cons, bne_self_eq_false, List.lookup_cons, skipped]
        exact ih
      · have kept : (mine != key) = true := by simpa using same
        simp only [List.filter_cons, kept, if_true, List.lookup_cons, ih]

end Entries

namespace NestedMap

variable {κ : Type u} {ν : Type v} [DecidableEq κ] (nested : NestedMap κ ν)

/-- A value that is no map. -/
def IsLeaf (value : ν) : Prop := nested.members value = none

def valueAt : List κ → ν → Option ν
  | [], value => some value
  | key :: rest, value =>
      ((nested.members value).bind fun entries => entries.lookup key).bind (valueAt rest)

def insertAt : List κ → ν → ν → Option ν
  | [], inserted, _ => some inserted
  | key :: rest, inserted, value =>
      (nested.members value).bind fun entries =>
        (insertAt rest inserted ((entries.lookup key).getD (nested.node []))).map fun child =>
          nested.node (setKey entries key child)

variable {nested} {path other : List κ} {value inserted result : ν}

theorem valueAt_cons (key : κ) (rest : List κ) (entries : List (κ × ν))
    (shape : nested.members value = some entries) :
    nested.valueAt (key :: rest) value = (entries.lookup key).bind (nested.valueAt rest) := by
  rw [valueAt, shape, Option.bind_some]

theorem valueAt_leaf (leaf : nested.IsLeaf value) {path : List κ} (some : path ≠ []) :
    nested.valueAt path value = none := by
  cases path with
  | nil => exact absurd rfl some
  | cons key rest => rw [valueAt, leaf, Option.bind_none, Option.bind_none]

theorem valueAt_empty {path : List κ} (some : path ≠ []) :
    nested.valueAt path (nested.node []) = none := by
  cases path with
  | nil => exact absurd rfl some
  | cons key rest =>
      rw [valueAt_cons key rest [] (nested.members_node []), List.lookup_nil, Option.bind_none]

theorem valueAt_append (path rest : List κ) (value : ν) :
    nested.valueAt (path ++ rest) value =
      (nested.valueAt path value).bind (nested.valueAt rest) := by
  induction path generalizing value with
  | nil => rfl
  | cons key path ih =>
      rw [List.cons_append, valueAt, valueAt]
      cases (nested.members value).bind fun entries => entries.lookup key with
      | none => rfl
      | some child => exact ih child

/-- Some leaf lies on the way to a path. -/
def Blocked (nested : NestedMap κ ν) (path : List κ) (value : ν) : Prop :=
  ∃ before key after leaf, path = before ++ key :: after ∧
    nested.valueAt before value = some leaf ∧ nested.IsLeaf leaf

theorem blocked_cons (key : κ) (rest : List κ) {entries : List (κ × ν)}
    (shape : nested.members value = some entries) :
    nested.Blocked (key :: rest) value ↔
      nested.Blocked rest ((entries.lookup key).getD (nested.node [])) := by
  constructor
  · intro blocked
    obtain ⟨before, next, after, leaf, split, here, isLeaf⟩ := blocked
    cases before with
    | nil =>
        cases here
        rw [IsLeaf, shape] at isLeaf
        cases isLeaf
    | cons first before =>
        obtain ⟨same, tail⟩ := List.cons.inj split
        subst same
        rw [valueAt_cons _ _ _ shape] at here
        obtain ⟨child, found, here⟩ := Option.bind_eq_some_iff.mp here
        exact ⟨before, next, after, leaf, tail, by rw [found]; exact here, isLeaf⟩
  · intro blocked
    obtain ⟨before, next, after, leaf, split, here, isLeaf⟩ := blocked
    refine ⟨key :: before, next, after, leaf, by rw [split]; rfl, ?_, isLeaf⟩
    rw [valueAt_cons _ _ _ shape]
    cases found : entries.lookup key with
    | some child =>
        rw [found] at here
        exact here
    | none =>
        rw [found, Option.getD_none] at here
        cases before with
        | nil =>
            cases here
            rw [IsLeaf, nested.members_node] at isLeaf
            cases isLeaf
        | cons first before =>
            rw [valueAt_empty (List.cons_ne_nil _ _)] at here
            cases here

theorem insertAt_eq_none_iff :
    nested.insertAt path inserted value = none ↔ nested.Blocked path value := by
  induction path generalizing value with
  | nil =>
      constructor
      · intro failed
        cases failed
      · intro blocked
        obtain ⟨before, key, after, _, split, _⟩ := blocked
        exact absurd split.symm (by simp)
  | cons key rest ih =>
      cases shape : nested.members value with
      | none =>
          refine iff_of_true (by rw [insertAt, shape, Option.bind_none]) ?_
          exact ⟨[], key, rest, value, rfl, rfl, shape⟩
      | some entries =>
          rw [insertAt, shape, Option.bind_some, Option.map_eq_none_iff, ih,
            blocked_cons key rest shape]

/-- What an insertion makes of a map. -/
theorem insertAt_cons {key : κ} {rest : List κ}
    (ok : nested.insertAt (key :: rest) inserted value = some result) :
    ∃ entries child, nested.members value = some entries ∧
      nested.insertAt rest inserted ((entries.lookup key).getD (nested.node [])) = some child ∧
      result = nested.node (setKey entries key child) := by
  rw [insertAt] at ok
  obtain ⟨entries, shape, ok⟩ := Option.bind_eq_some_iff.mp ok
  obtain ⟨child, inner, same⟩ := Option.map_eq_some_iff.mp ok
  exact ⟨entries, child, shape, inner, same.symm⟩

theorem valueAt_insertAt_below (rest : List κ)
    (ok : nested.insertAt path inserted value = some result) :
    nested.valueAt (path ++ rest) result = nested.valueAt rest inserted := by
  induction path generalizing value result with
  | nil =>
      cases ok
      rfl
  | cons key path ih =>
      obtain ⟨entries, child, _, inner, same⟩ := insertAt_cons ok
      subst same
      rw [List.cons_append, valueAt_cons _ _ _ (nested.members_node _), lookup_setKey_self,
        Option.bind_some]
      exact ih inner

/-- On the way to what was inserted there are maps. -/
theorem valueAt_insertAt_above {key : κ} {rest : List κ}
    (ok : nested.insertAt (other ++ key :: rest) inserted value = some result) :
    ∃ found, nested.valueAt other result = some found ∧ ¬nested.IsLeaf found := by
  induction other generalizing value result with
  | nil =>
      obtain ⟨entries, child, _, _, same⟩ := insertAt_cons ok
      refine ⟨result, rfl, ?_⟩
      rw [same, IsLeaf, nested.members_node]
      exact Option.some_ne_none _
  | cons first other ih =>
      obtain ⟨entries, child, _, inner, same⟩ := insertAt_cons ok
      obtain ⟨found, here, isMap⟩ := ih inner
      refine ⟨found, ?_, isMap⟩
      rw [same, valueAt_cons _ _ _ (nested.members_node _), lookup_setKey_self, Option.bind_some]
      exact here

/-- An insertion elsewhere changes nothing. -/
theorem valueAt_insertAt_apart (ok : nested.insertAt path inserted value = some result)
    (apart : ¬path <+: other) (aside : ¬other <+: path) :
    nested.valueAt other result = nested.valueAt other value := by
  induction path generalizing value result other with
  | nil => exact absurd List.nil_prefix apart
  | cons key path ih =>
      cases other with
      | nil => exact absurd List.nil_prefix aside
      | cons first other =>
          obtain ⟨entries, child, shape, inner, same⟩ := insertAt_cons ok
          rw [same, valueAt_cons _ _ _ (nested.members_node _), valueAt_cons _ _ _ shape]
          by_cases mine : first = key
          · subst mine
            rw [List.cons_prefix_cons] at apart aside
            have deeper := ih inner (fun leads => apart ⟨rfl, leads⟩)
              (fun leads => aside ⟨rfl, leads⟩)
            rw [lookup_setKey_self, Option.bind_some, deeper]
            cases entries.lookup first with
            | some child => rfl
            | none =>
                refine valueAt_empty ?_
                intro none
                exact aside ⟨rfl, none ▸ List.nil_prefix⟩
          · rw [lookup_setKey_of_ne _ _ mine]

/-! ## Several insertions -/

/-- Insert one after another. -/
def insertAll (nested : NestedMap κ ν) : List (List κ × ν) → ν → Option ν
  | [], value => some value
  | insertion :: rest, value =>
      (nested.insertAt insertion.1 insertion.2 value).bind (insertAll nested rest)

theorem insertAll_append (left right : List (List κ × ν)) (value : ν) :
    nested.insertAll (left ++ right) value =
      (nested.insertAll left value).bind (nested.insertAll right) := by
  induction left generalizing value with
  | nil => rfl
  | cons insertion left ih =>
      rw [List.cons_append, insertAll, insertAll]
      cases nested.insertAt insertion.1 insertion.2 value with
      | none => rfl
      | some next => exact ih next

/-- Insertions into a map leave a map. -/
theorem insertAll_map {insertions : List (List κ × ν)}
    (paths : ∀ insertion ∈ insertions, insertion.1 ≠ []) (isMap : ¬nested.IsLeaf value)
    (ok : nested.insertAll insertions value = some result) : ¬nested.IsLeaf result := by
  induction insertions generalizing value with
  | nil =>
      cases ok
      exact isMap
  | cons first rest ih =>
      obtain ⟨some, later⟩ := List.forall_mem_cons.mp paths
      obtain ⟨next, inserted, ok⟩ := Option.bind_eq_some_iff.mp ok
      refine ih later ?_ ok
      cases path : first.1 with
      | nil => exact absurd path some
      | cons key path =>
          rw [path] at inserted
          obtain ⟨entries, child, _, _, same⟩ := insertAt_cons inserted
          rw [same, IsLeaf, nested.members_node]
          exact Option.some_ne_none _

/-- A path with a leaf on the way, or itself one that a leaf was put at. -/
def Obstructed (nested : NestedMap κ ν) (earlier : List (List κ)) (value : ν) (path : List κ) :
    Prop :=
  ∃ before key after, path = before ++ key :: after ∧
    (before ∈ earlier ∨ ∃ leaf, nested.valueAt before value = some leaf ∧ nested.IsLeaf leaf)

theorem obstructed_nil : nested.Obstructed [] value path ↔ nested.Blocked path value := by
  constructor
  · intro held
    obtain ⟨before, key, after, split, none | ⟨leaf, here, isLeaf⟩⟩ := held
    · cases none
    · exact ⟨before, key, after, leaf, split, here, isLeaf⟩
  · intro held
    obtain ⟨before, key, after, leaf, split, here, isLeaf⟩ := held
    exact ⟨before, key, after, split, .inr ⟨leaf, here, isLeaf⟩⟩

omit [DecidableEq κ] in
theorem exists_cons_of_prefix {before path : List κ} (leads : before <+: path)
    (differs : before ≠ path) : ∃ key after, path = before ++ key :: after := by
  obtain ⟨rest, split⟩ := leads
  cases rest with
  | nil => exact absurd (by simpa using split) differs
  | cons key after => exact ⟨key, after, split.symm⟩

omit [DecidableEq κ] in
theorem exists_cons_of_through {before after : List κ} {key : κ} (through : path <+: before)
    (split : other = before ++ key :: after) : ∃ next rest, other = path ++ next :: rest := by
  obtain ⟨more, same⟩ := through
  rw [← same, List.append_assoc] at split
  cases more with
  | nil => exact ⟨key, after, split⟩
  | cons next more => exact ⟨next, more ++ key :: after, split⟩

/-- An insertion leaves the leaves as they are that it does not lead to. -/
theorem leafAt_insertAt {found : ν} (ok : nested.insertAt path inserted value = some result)
    (through : ¬path <+: other) (leaf : nested.IsLeaf found) :
    nested.valueAt other result = some found ↔ nested.valueAt other value = some found := by
  by_cases above : other <+: path
  · have differs : other ≠ path := fun same => through (same ▸ List.prefix_rfl)
    obtain ⟨key, rest, whole⟩ := exists_cons_of_prefix above differs
    have clear : ¬nested.Blocked path value := by
      rw [← insertAt_eq_none_iff, ok]
      exact Option.some_ne_none _
    refine iff_of_false ?_ ?_
    · intro here
      subst whole
      obtain ⟨map, here', isMap⟩ := valueAt_insertAt_above ok
      rw [here, Option.some.injEq] at here'
      exact isMap (here' ▸ leaf)
    · intro here
      exact clear ⟨other, key, rest, found, whole, here, leaf⟩
  · rw [valueAt_insertAt_apart ok through above]

/-- After a leaf is inserted, the paths through it are obstructed, and those that were before. -/
theorem obstructed_insertAt (leaf : nested.IsLeaf inserted)
    (ok : nested.insertAt path inserted value = some result) (earlier : List (List κ)) :
    nested.Obstructed earlier result other ↔ nested.Obstructed (path :: earlier) value other := by
  have there : nested.valueAt path result = some inserted := by
    have below := valueAt_insertAt_below [] ok
    rwa [List.append_nil] at below
  constructor
  · intro held
    obtain ⟨before, key, after, split, listed | ⟨found, here, isLeaf⟩⟩ := held
    · exact ⟨before, key, after, split, .inl (List.mem_cons_of_mem _ listed)⟩
    · by_cases through : path <+: before
      · obtain ⟨next, rest, same⟩ := exists_cons_of_through through split
        exact ⟨path, next, rest, same, .inl List.mem_cons_self⟩
      · have here := (leafAt_insertAt ok through isLeaf).mp here
        exact ⟨before, key, after, split, .inr ⟨found, here, isLeaf⟩⟩
  · intro held
    obtain ⟨before, key, after, split, listed | ⟨found, here, isLeaf⟩⟩ := held
    · rcases List.mem_cons.mp listed with same | listed
      · exact ⟨before, key, after, split, .inr ⟨inserted, same ▸ there, leaf⟩⟩
      · exact ⟨before, key, after, split, .inl listed⟩
    · by_cases through : path <+: before
      · obtain ⟨next, rest, same⟩ := exists_cons_of_through through split
        exact ⟨path, next, rest, same, .inr ⟨inserted, there, leaf⟩⟩
      · have here := (leafAt_insertAt ok through isLeaf).mpr here
        exact ⟨before, key, after, split, .inr ⟨found, here, isLeaf⟩⟩

/-- Insertions of leaves fail exactly where one of them is obstructed. -/
theorem insertAll_eq_none_iff {insertions : List (List κ × ν)}
    (leaves : ∀ insertion ∈ insertions, nested.IsLeaf insertion.2) :
    nested.insertAll insertions value = none ↔
      ∃ earlier insertion later, insertions = earlier ++ insertion :: later ∧
        nested.Obstructed (earlier.map Prod.fst) value insertion.1 := by
  induction insertions generalizing value with
  | nil =>
      constructor
      · intro failed
        cases failed
      · intro held
        obtain ⟨earlier, _, _, split, _⟩ := held
        exact absurd split.symm (by simp)
  | cons first rest ih =>
      obtain ⟨leaf, later⟩ := List.forall_mem_cons.mp leaves
      rw [insertAll]
      cases next : nested.insertAt first.1 first.2 value with
      | none =>
          refine iff_of_true rfl ⟨[], first, rest, rfl, ?_⟩
          exact obstructed_nil.mpr (insertAt_eq_none_iff.mp next)
      | some result =>
          have clear : ¬nested.Blocked first.1 value := by
            rw [← insertAt_eq_none_iff, next]
            exact Option.some_ne_none _
          rw [Option.bind_some, ih later]
          constructor
          · intro held
            obtain ⟨earlier, insertion, after, split, obstructed⟩ := held
            refine ⟨first :: earlier, insertion, after, by rw [split]; rfl, ?_⟩
            exact (obstructed_insertAt leaf next _).mp obstructed
          · intro held
            obtain ⟨earlier, insertion, after, split, obstructed⟩ := held
            cases earlier with
            | nil =>
                obtain ⟨same, _⟩ := List.cons.inj split
                exact absurd (obstructed_nil.mp (same ▸ obstructed)) clear
            | cons head earlier =>
                obtain ⟨same, tail⟩ := List.cons.inj split
                subst same
                refine ⟨earlier, insertion, after, tail, ?_⟩
                exact (obstructed_insertAt leaf next _).mpr obstructed

/-- What insertions leave at a path: nothing, a value as it was given, or a map that some of
them have made or gone through. -/
inductive Left (ν : Type v) where
  | absent
  | given (value : ν)
  | built

/-- A path that leads to the other or goes through it. -/
def Meets (path other : List κ) : Prop := path <+: other ∨ other <+: path

instance (path other : List κ) : Decidable (Meets path other) :=
  inferInstanceAs (Decidable (_ ∨ _))

/-- The last insertion that meets the path decides. -/
def leftAt (nested : NestedMap κ ν) (insertions : List (List κ × ν)) (start : ν)
    (path : List κ) : Left ν :=
  match insertions.reverse.find? fun insertion => Meets insertion.1 path with
  | none =>
      match nested.valueAt path start with
      | none => .absent
      | some value => .given value
  | some insertion =>
      if insertion.1 = path then .given insertion.2
      else if path <+: insertion.1 then .built
      else .absent

def Left.Fits (nested : NestedMap κ ν) : Left ν → Option ν → Prop
  | .absent, found => found = none
  | .given value, found => found = some value
  | .built, found => ∃ value, found = some value ∧ ¬nested.IsLeaf value

theorem leftAt_append_of_meets (insertions : List (List κ × ν)) (start : ν)
    {last : List κ × ν} (meets : Meets last.1 path) :
    nested.leftAt (insertions ++ [last]) start path =
      if last.1 = path then .given last.2
      else if path <+: last.1 then .built else .absent := by
  simp only [leftAt, List.reverse_append, List.reverse_singleton, List.singleton_append,
    List.find?_cons, meets, decide_true]

theorem leftAt_append_of_apart (insertions : List (List κ × ν)) (start : ν)
    {last : List κ × ν} (apart : ¬Meets last.1 path) :
    nested.leftAt (insertions ++ [last]) start path = nested.leftAt insertions start path := by
  simp only [leftAt, List.reverse_append, List.reverse_singleton, List.singleton_append,
    List.find?_cons, apart, decide_false]

theorem valueAt_insertAll {insertions : List (List κ × ν)}
    (leaves : ∀ insertion ∈ insertions, nested.IsLeaf insertion.2)
    (ok : nested.insertAll insertions value = some result) (path : List κ) :
    (nested.leftAt insertions value path).Fits nested (nested.valueAt path result) := by
  induction insertions using List.reverseRecOn generalizing result with
  | nil =>
      cases ok
      rw [leftAt, List.reverse_nil, List.find?_nil]
      cases nested.valueAt path value with
      | none => rfl
      | some found => rfl
  | append_singleton insertions last ih =>
      rw [insertAll_append] at ok
      obtain ⟨before, earlier, ok⟩ := Option.bind_eq_some_iff.mp ok
      obtain ⟨after, inserted, same⟩ := Option.bind_eq_some_iff.mp ok
      cases same
      have leaf : nested.IsLeaf last.2 := leaves last (by simp)
      by_cases meets : Meets last.1 path
      · rw [leftAt_append_of_meets insertions value meets]
        by_cases here : last.1 = path
        · rw [if_pos here, ← here]
          have below := valueAt_insertAt_below [] inserted
          rwa [List.append_nil] at below
        · rw [if_neg here]
          by_cases through : path <+: last.1
          · rw [if_pos through]
            obtain ⟨key, rest, split⟩ := exists_cons_of_prefix through (Ne.symm here)
            rw [split] at inserted
            exact valueAt_insertAt_above inserted
          · -- the leaf is on the way to the path
            rw [if_neg through]
            obtain ⟨key, rest, split⟩ :=
              exists_cons_of_prefix (meets.resolve_right through) here
            rw [split, valueAt_insertAt_below _ inserted]
            exact valueAt_leaf leaf (List.cons_ne_nil _ _)
      · rw [leftAt_append_of_apart insertions value meets]
        have unchanged := valueAt_insertAt_apart inserted (fun leads => meets (.inl leads))
          (fun leads => meets (.inr leads))
        rw [unchanged]
        exact ih (fun insertion member => leaves insertion (List.mem_append_left _ member)) earlier

end NestedMap

end RustZero.Lib
