import Mathlib

/-!
# Directory trees with symbolic links

A tree says what is at a location, given by the names that lead there from its top.  `Resolves`
walks a path from a directory and follows every link; what it comes to is a real path, on which
there are no links (`Resolves.isReal`), and a real path resolves to itself (`Real.resolves`).
`walk` is the walk with a bound on its steps.
-/

namespace RustZero.Lib

universe u v

/-- The parts of a path. -/
inductive PathPart (ν : Type u)
  | current
  | parent
  | name (name : ν)
  deriving DecidableEq

/-- Where a link leads to: from the top, or from the directory that it is in. -/
structure LinkTarget (ν : Type u) where
  absolute : Bool
  parts : List (PathPart ν)
  deriving DecidableEq

inductive Node (ν : Type u) (κ : Type v)
  | file (content : κ)
  | directory
  | link (target : LinkTarget ν)
  | special

/-- What is at the locations below the top. -/
abbrev LinkTree (ν : Type u) (κ : Type v) :=
  List ν → Option (Node ν κ)

namespace LinkTree

variable {ν : Type u} {κ : Type v} (tree : LinkTree ν κ)

/-- Something other than a link is there. -/
def Present (location : List ν) : Prop :=
  ∃ node, tree location = some node ∧ ∀ target, node ≠ .link target

inductive Resolves : List ν → List (PathPart ν) → List ν → Prop
  | done (directory : List ν) : Resolves directory [] directory
  | current {directory real : List ν} {parts : List (PathPart ν)}
      (rest : Resolves directory parts real) : Resolves directory (.current :: parts) real
  | parent {directory real : List ν} {parts : List (PathPart ν)}
      (rest : Resolves directory.dropLast parts real) : Resolves directory (.parent :: parts) real
  | name {directory real : List ν} {parts : List (PathPart ν)} {name : ν}
      (present : tree.Present (directory ++ [name]))
      (rest : Resolves (directory ++ [name]) parts real) :
      Resolves directory (.name name :: parts) real
  | link {directory real : List ν} {parts : List (PathPart ν)} {name : ν}
      {target : LinkTarget ν} (there : tree (directory ++ [name]) = some (.link target))
      (rest : Resolves (if target.absolute then [] else directory) (target.parts ++ parts) real) :
      Resolves directory (.name name :: parts) real

/-- There is something at every location on the way, and no link. -/
def Real (location : List ν) : Prop :=
  ∀ before, before ≠ [] → before <+: location → tree.Present before

variable {tree} {directory real other : List ν} {parts : List (PathPart ν)} {name : ν}

theorem Present.not_link (present : tree.Present directory) (target : LinkTarget ν) :
    tree directory ≠ some (.link target) := by
  obtain ⟨node, there, unlinked⟩ := present
  intro link
  rw [there] at link
  exact unlinked target (Option.some.inj link)

/-- A path leads to one location. -/
theorem Resolves.unique (resolves : tree.Resolves directory parts real)
    (resolves' : tree.Resolves directory parts other) : real = other := by
  induction resolves with
  | done directory =>
      cases resolves'
      rfl
  | current rest ih =>
      cases resolves' with
      | current rest' => exact ih rest'
  | parent rest ih =>
      cases resolves' with
      | parent rest' => exact ih rest'
  | name present rest ih =>
      cases resolves' with
      | name present' rest' => exact ih rest'
      | link there rest' => exact absurd there (present.not_link _)
  | link there rest ih =>
      cases resolves' with
      | name present' rest' => exact absurd there (present'.not_link _)
      | link there' rest' =>
          cases there.symm.trans there'
          exact ih rest'

theorem real_nil : tree.Real [] := by
  intro before some_ within
  exact absurd (List.prefix_nil.mp within) some_

theorem Real.concat (isReal : tree.Real directory) (present : tree.Present (directory ++ [name])) :
    tree.Real (directory ++ [name]) := by
  intro before some_ within
  rcases List.prefix_concat_iff.mp within with rfl | earlier
  · exact present
  · exact isReal before some_ earlier

theorem Real.of_prefix (isReal : tree.Real directory) (within : other <+: directory) :
    tree.Real other := by
  intro before some_ earlier
  exact isReal before some_ (earlier.trans within)

/-- What a path leads to is a real path. -/
theorem Resolves.isReal (resolves : tree.Resolves directory parts real)
    (isReal : tree.Real directory) : tree.Real real := by
  induction resolves with
  | done directory => exact isReal
  | current rest ih => exact ih isReal
  | parent rest ih => exact ih (isReal.of_prefix (List.dropLast_prefix _))
  | name present rest ih => exact ih (isReal.concat present)
  | @link directory real parts name target there rest ih =>
      refine ih ?_
      cases target.absolute with
      | true => exact real_nil
      | false => exact isReal

variable (directory) in
theorem Real.resolves_from (later : List ν) (isReal : tree.Real (directory ++ later)) :
    tree.Resolves directory (later.map .name) (directory ++ later) := by
  induction later generalizing directory with
  | nil =>
      rw [List.append_nil]
      exact .done directory
  | cons name later ih =>
      have moved : directory ++ name :: later = directory ++ [name] ++ later := by
        rw [List.append_assoc, List.singleton_append]
      rw [moved] at isReal ⊢
      refine .name (isReal _ (by simp) (List.prefix_append _ _)) (ih _ isReal)

/-- A real path leads to itself. -/
theorem Real.resolves (isReal : tree.Real real) : tree.Resolves [] (real.map .name) real :=
  resolves_from [] real isReal

variable (tree) in
/-- A walk of so many steps at most. -/
def walk : Nat → List ν → List (PathPart ν) → Option (List ν)
  | _, directory, [] => some directory
  | 0, _, _ :: _ => none
  | steps + 1, directory, .current :: parts => walk steps directory parts
  | steps + 1, directory, .parent :: parts => walk steps directory.dropLast parts
  | steps + 1, directory, .name name :: parts =>
      match tree (directory ++ [name]) with
      | none => none
      | some (.link target) =>
          walk steps (if target.absolute then [] else directory) (target.parts ++ parts)
      | some _ => walk steps (directory ++ [name]) parts

theorem walk_resolves {steps : Nat} (walked : tree.walk steps directory parts = some real) :
    tree.Resolves directory parts real := by
  induction steps generalizing directory parts with
  | zero =>
      cases parts with
      | nil =>
          cases walked
          exact .done _
      | cons part parts => cases walked
  | succ steps ih =>
      cases parts with
      | nil =>
          cases walked
          exact .done _
      | cons part parts =>
          cases part with
          | current => exact .current (ih walked)
          | parent => exact .parent (ih walked)
          | name name =>
              rw [walk] at walked
              cases there : tree (directory ++ [name]) with
              | none =>
                  rw [there] at walked
                  cases walked
              | some node =>
                  rw [there] at walked
                  cases node with
                  | link target => exact .link there (ih walked)
                  | file content => exact .name ⟨_, there, by simp⟩ (ih walked)
                  | directory => exact .name ⟨_, there, by simp⟩ (ih walked)
                  | special => exact .name ⟨_, there, by simp⟩ (ih walked)

end LinkTree

end RustZero.Lib
