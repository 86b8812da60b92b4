import Mathlib

/-!
# Bounded broadcast channels

A broadcast channel keeps the last `size` messages sent on it.  The channel is
the log of everything sent; a receiver is a position in that log, the number of
messages sent before the next one it will read.  A receiver that has fallen more
than `size` messages behind is told so once (`Recv.lagged`) and moved to the
oldest message kept.  The sender outlives its receivers here, so a receiver that
has read everything is pending and never finds the channel closed.
-/

namespace RustZero.Lib

structure Channel (μ : Type) where
  size : Nat
  log : List μ

/-- What a receiver is answered. -/
inductive Recv (μ : Type) where
  | pending
  | message (m : μ)
  | lagged
  deriving DecidableEq, Repr

namespace Channel

variable {μ : Type}

/-- A channel for at least `capacity` messages: buffers are powers of two. -/
def new (μ : Type) (capacity : Nat) : Channel μ where
  size := 2 ^ Nat.clog 2 capacity
  log := []

def send (channel : Channel μ) (m : μ) : Channel μ :=
  { channel with log := channel.log ++ [m] }

/-- The position of a receiver that subscribes now. -/
def subscribe (channel : Channel μ) : Nat :=
  channel.log.length

/-- The answer to a receiver and its position afterwards. -/
def recv (channel : Channel μ) (next : Nat) : Recv μ × Nat :=
  if next + channel.size < channel.log.length then (.lagged, channel.log.length - channel.size)
  else
    match channel.log[next]? with
    | none => (.pending, next)
    | some m => (.message m, next + 1)

variable {channel : Channel μ} {next : Nat} {m : μ}

@[simp]
theorem send_size : (channel.send m).size = channel.size :=
  rfl

@[simp]
theorem send_log : (channel.send m).log = channel.log ++ [m] :=
  rfl

theorem size_pos (μ : Type) (capacity : Nat) : 0 < (new μ capacity).size :=
  Nat.two_pow_pos _

/-- What `recv` can answer, and when. -/
theorem recv_cases (channel : Channel μ) (next : Nat) :
    (next + channel.size < channel.log.length ∧
      channel.recv next = (.lagged, channel.log.length - channel.size)) ∨
    (channel.log.length ≤ next ∧ channel.recv next = (.pending, next)) ∨
    (∃ m, channel.log[next]? = some m ∧ channel.log.length ≤ next + channel.size ∧
      channel.recv next = (.message m, next + 1)) := by
  unfold recv
  by_cases behind : next + channel.size < channel.log.length
  · exact .inl ⟨behind, if_pos behind⟩
  · rw [if_neg behind]
    cases read : channel.log[next]? with
    | none => exact .inr (.inl ⟨List.getElem?_eq_none_iff.mp read, rfl⟩)
    | some m => exact .inr (.inr ⟨m, rfl, Nat.not_lt.mp behind, rfl⟩)

end Channel

end RustZero.Lib
