import Mathlib

/-!
# Settled by the first event that decides

Events come one after another, and the first of them that decides anything settles the
matter.  A latch holds a resource until then and gives it out with what was decided.

* `settled`: what a sequence of events settles.
* `fire` is a latch under one event; `Latched` ties the latch to the events it has seen,
  and `Latched.fire` is its step.
-/

namespace RustZero.Lib

universe u v w

variable {ε : Type u} {ω : Type v} {κ : Type w}

/-- What the first of the events that decides anything decides. -/
def settled (decide : ε → Option ω) (events : List ε) : Option ω :=
  events.findSome? decide

section Settled

variable {decide : ε → Option ω} {events : List ε}

@[simp] theorem settled_nil : settled decide [] = none :=
  rfl

/-- A later event decides only what is not settled. -/
@[simp] theorem settled_concat (event : ε) :
    settled decide (events ++ [event]) = (settled decide events <|> decide event) := by
  rw [settled, List.findSome?_append, settled]
  simp [List.findSome?_singleton]

@[simp] theorem settled_singleton (event : ε) : settled decide [event] = decide event :=
  List.findSome?_singleton

end Settled

/-! ## Latches -/

/-- A latch under an event: what it still holds, and what it gives out. -/
def fire (decide : ε → Option ω) (latch : Option κ) (event : ε) : Option κ × Option (κ × ω) :=
  match latch, decide event with
  | some held, some outcome => (none, some (held, outcome))
  | latch, _ => (latch, none)

/-- The latch holds its resource until the events are settled. -/
def Latched (decide : ε → Option ω) (resource latch : Option κ) (events : List ε) : Prop :=
  latch = if (settled decide events).isSome then none else resource

section Latches

variable {decide : ε → Option ω} {events : List ε} {resource latch : Option κ}

theorem Latched.start : Latched decide resource resource [] :=
  rfl

/-- The event that settles takes the resource out, and no other gives out anything. -/
theorem Latched.fire (latched : Latched decide resource latch events) (event : ε) :
    Latched decide resource (fire decide latch event).1 (events ++ [event]) ∧
      (Lib.fire decide latch event).2 =
        if (settled decide events).isSome then none
        else resource.bind fun held => (decide event).map (held, ·) := by
  subst latched
  rw [Latched, settled_concat]
  cases settled decide events with
  | some outcome => simp [Lib.fire]
  | none =>
      cases resource with
      | none => simp [Lib.fire]
      | some held =>
          cases decided : decide event with
          | none => simp [Lib.fire, decided]
          | some outcome => simp [Lib.fire, decided]

end Latches

end RustZero.Lib
