import Mathlib

/-!
# Reports on a sequence

Reports are made about the items of a sequence, in the order of the items: each says
something about the next few of them.  `Reported Tells reports items rest` holds where
the reports cover all items but the last ones, `rest`.

* `Reported.arrive` and `Reported.report` are the two ways the sequence and the reports
  grow.
* `Reported.split` finds the items that one of the reports is about.
* `Reported.length_eq` and `Reported.flatMap_eq` count and collect the items from what
  every report says about its own.
-/

namespace RustZero.Lib

universe u v

variable {ε : Type u} {μ : Type v}

/-- The reports are about all items but `rest`, in order. -/
def Reported (Tells : ε → List μ → Prop) (reports : List ε) (items rest : List μ) : Prop :=
  ∃ told, List.Forall₂ Tells reports told ∧ items = told.flatten ++ rest

namespace Reported

variable {Tells : ε → List μ → Prop} {reports : List ε} {items rest : List μ}

theorem start : Reported Tells [] [] [] :=
  ⟨[], .nil, rfl⟩

theorem arrive (reported : Reported Tells reports items rest) (item : μ) :
    Reported Tells reports (items ++ [item]) (rest ++ [item]) := by
  obtain ⟨told, tells, same⟩ := reported
  exact ⟨told, tells, by rw [same, List.append_assoc]⟩

/-- A report on the first of the items that are left. -/
theorem report (told : List μ) (reported : Reported Tells reports items (told ++ rest))
    {event : ε} (tells : Tells event told) :
    Reported Tells (reports ++ [event]) items rest := by
  obtain ⟨earlier, before, same⟩ := reported
  refine ⟨earlier ++ [told], List.rel_append before (.cons tells .nil), ?_⟩
  rw [same, List.flatten_append, List.flatten_singleton, List.append_assoc]

/-- The items one report is about stand between those of the reports before it and
those of the reports after it. -/
theorem split {before after : List ε} {event : ε}
    (reported : Reported Tells (before ++ event :: after) items rest) :
    ∃ earlier told later, items = earlier ++ told ++ later ∧ Tells event told ∧
      Reported Tells before earlier [] ∧ Reported Tells after later rest := by
  obtain ⟨told, tells, same⟩ := reported
  have left := List.forall₂_take_append _ _ _ tells.flip
  have right := List.forall₂_drop_append _ _ _ tells.flip
  obtain ⟨mine, later, own, others, drops⟩ := List.forall₂_cons_right_iff.mp right
  refine ⟨(told.take before.length).flatten, mine, later.flatten ++ rest, ?_, own,
    ⟨_, left.flip, by rw [List.append_nil]⟩, ⟨later, others.flip, rfl⟩⟩
  have whole := List.take_append_drop before.length told
  rw [drops] at whole
  rw [same, ← whole, List.flatten_append, List.flatten_cons, whole]
  simp only [List.append_assoc]

theorem flatMap_eq {β : Type*} (reported : Reported Tells reports items rest)
    {f : μ → List β} {g : ε → List β}
    (each : ∀ event told, Tells event told → told.flatMap f = g event) :
    items.flatMap f = reports.flatMap g ++ rest.flatMap f := by
  obtain ⟨told, tells, same⟩ := reported
  subst same
  induction tells with
  | nil => rfl
  | cons own _ ih =>
      rw [List.flatten_cons, List.append_assoc, List.flatMap_append, each _ _ own, ih,
        List.flatMap_cons, List.append_assoc]

theorem length_eq (reported : Reported Tells reports items rest) {size : ε → Nat}
    (each : ∀ event told, Tells event told → told.length = size event) :
    items.length = (reports.map size).sum + rest.length := by
  obtain ⟨told, tells, same⟩ := reported
  subst same
  induction tells with
  | nil => simp
  | cons own _ ih =>
      rw [List.flatten_cons, List.append_assoc, List.length_append, each _ _ own, ih,
        List.map_cons, List.sum_cons, Nat.add_assoc]

end Reported

end RustZero.Lib
