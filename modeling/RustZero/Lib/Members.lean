import Mathlib

/-!
# Formats of several members

A file is a series of members, one after another, and stands for what they expand to, one after
another.  A reader that knows where a member ends reads the first one, or all of them.

* `expand`: all members of a file, up to a limit.
* `takeFirst`: the first member only, up to a limit.
* `expand_eq_complete_iff`: the first member is all that there is exactly if those after it
  expand to nothing.
-/

namespace RustZero.Lib

universe u

structure MemberFormat (α : Type u) where
  /-- What reading the first member yields, and what follows it if it can be read to its end. -/
  first : List α → List α × Option (List α)
  shorter : ∀ {file rest : List α}, (first file).2 = some rest → rest.length < file.length

/-- What a file expands to. -/
inductive Expansion (α : Type u) where
  | complete (output : List α)
  /-- It is more than the limit allows, whether or not it can be read to its end. -/
  | larger
  | invalid

namespace MemberFormat

variable {α : Type u} (format : MemberFormat α) (limit : Nat)

/-- Expand the members of a file behind what is there already. -/
def expandFrom (output file : List α) : Expansion α :=
  if limit < output.length + (format.first file).1.length then .larger
  else
    match _ : (format.first file).2 with
    | none => .invalid
    | some [] => .complete (output ++ (format.first file).1)
    | some (next :: rest) => expandFrom (output ++ (format.first file).1) (next :: rest)
termination_by file.length
decreasing_by exact format.shorter ‹_›

def expand (file : List α) : Expansion α := format.expandFrom limit [] file

/-- Read so much of the first member; it is checked only where it is read to its end. -/
def takeFirst (file : List α) : Option (List α) :=
  if limit ≤ (format.first file).1.length then some ((format.first file).1.take limit)
  else if (format.first file).2.isSome then some (format.first file).1
  else none

/-- Members that expand to nothing. -/
inductive Silent : List α → Prop
  | nil : Silent []
  | cons {file rest : List α} (nothing : (format.first file).1 = [])
      (follows : (format.first file).2 = some rest) (later : Silent rest) : Silent file

variable {format limit} {output file rest : List α}

theorem expandFrom_of_larger (larger : limit < output.length + (format.first file).1.length) :
    format.expandFrom limit output file = .larger := by
  rw [expandFrom, if_pos larger]

theorem expandFrom_of_invalid (fits : output.length + (format.first file).1.length ≤ limit)
    (defect : (format.first file).2 = none) :
    format.expandFrom limit output file = .invalid := by
  rw [expandFrom, if_neg (Nat.not_lt.mpr fits)]
  split
  · rfl
  · next follows => cases defect.symm.trans follows
  · next follows => cases defect.symm.trans follows

theorem expandFrom_of_last (fits : output.length + (format.first file).1.length ≤ limit)
    (last : (format.first file).2 = some []) :
    format.expandFrom limit output file = .complete (output ++ (format.first file).1) := by
  rw [expandFrom, if_neg (Nat.not_lt.mpr fits)]
  split
  · next follows => cases last.symm.trans follows
  · rfl
  · next follows => cases last.symm.trans follows

theorem expandFrom_of_follows (fits : output.length + (format.first file).1.length ≤ limit)
    (follows : (format.first file).2 = some rest) (some : rest ≠ []) :
    format.expandFrom limit output file =
      format.expandFrom limit (output ++ (format.first file).1) rest := by
  rw [expandFrom, if_neg (Nat.not_lt.mpr fits)]
  split
  · next follows' => cases follows.symm.trans follows'
  · next follows' =>
      cases follows.symm.trans follows'
      exact absurd rfl some
  · next follows' =>
      cases follows.symm.trans follows'
      rfl

/-- What was there stays in front. -/
theorem expandFrom_complete {whole : List α}
    (complete : format.expandFrom limit output file = .complete whole) :
    ∃ more, whole = output ++ (format.first file).1 ++ more := by
  induction length : file.length using Nat.strongRecOn generalizing output file with
  | ind _ ih =>
      subst length
      by_cases fits : output.length + (format.first file).1.length ≤ limit
      · cases follows : (format.first file).2 with
        | none =>
            rw [expandFrom_of_invalid fits follows] at complete
            cases complete
        | some rest =>
            by_cases last : rest = []
            · rw [expandFrom_of_last fits (last ▸ follows)] at complete
              cases complete
              exact ⟨[], (List.append_nil _).symm⟩
            · rw [expandFrom_of_follows fits follows last] at complete
              obtain ⟨more, same⟩ := ih _ (format.shorter follows) complete rfl
              exact ⟨(format.first rest).1 ++ more, by rw [same, List.append_assoc]⟩
      · rw [expandFrom_of_larger (Nat.lt_of_not_le fits)] at complete
        cases complete

theorem expandFrom_of_silent (silent : format.Silent file) (some : file ≠ [])
    (fits : output.length ≤ limit) :
    format.expandFrom limit output file = .complete output := by
  induction silent with
  | nil => exact absurd rfl some
  | @cons file rest nothing follows later ih =>
      have none : output.length + (format.first file).1.length ≤ limit := by
        rw [nothing]
        exact fits
      by_cases last : rest = []
      · rw [expandFrom_of_last none (last ▸ follows), nothing, List.append_nil]
      · rw [expandFrom_of_follows none follows last, nothing, List.append_nil]
        exact ih last

theorem silent_of_expandFrom (complete : format.expandFrom limit output file = .complete output) :
    format.Silent file := by
  induction length : file.length using Nat.strongRecOn generalizing output file with
  | ind _ ih =>
      subst length
      obtain ⟨more, same⟩ := expandFrom_complete complete
      have nothing : (format.first file).1 = [] := by
        have lengths := congrArg List.length same
        simp only [List.length_append] at lengths
        exact List.eq_nil_of_length_eq_zero (by omega)
      by_cases fits : output.length + (format.first file).1.length ≤ limit
      · cases follows : (format.first file).2 with
        | none =>
            rw [expandFrom_of_invalid fits follows] at complete
            cases complete
        | some rest =>
            by_cases last : rest = []
            · exact .cons nothing (last ▸ follows) .nil
            · rw [expandFrom_of_follows fits follows last, nothing, List.append_nil] at complete
              exact .cons nothing follows (ih _ (format.shorter follows) complete rfl)
      · rw [expandFrom_of_larger (Nat.lt_of_not_le fits)] at complete
        cases complete

theorem expand_of_larger (larger : limit < (format.first file).1.length) :
    format.expand limit file = .larger :=
  expandFrom_of_larger (by simpa using larger)

theorem expand_of_invalid (fits : (format.first file).1.length ≤ limit)
    (defect : (format.first file).2 = none) : format.expand limit file = .invalid :=
  expandFrom_of_invalid (by simpa using fits) defect

theorem expand_eq_complete_iff (fits : (format.first file).1.length ≤ limit)
    (follows : (format.first file).2 = some rest) :
    format.expand limit file = .complete (format.first file).1 ↔ format.Silent rest := by
  have within : ([] : List α).length + (format.first file).1.length ≤ limit := by simpa using fits
  unfold expand
  by_cases last : rest = []
  · rw [expandFrom_of_last within (last ▸ follows), last]
    exact iff_of_true rfl .nil
  · rw [expandFrom_of_follows within follows last, List.nil_append]
    constructor
    · exact silent_of_expandFrom
    · intro silent
      exact expandFrom_of_silent silent last fits

end MemberFormat

end RustZero.Lib
