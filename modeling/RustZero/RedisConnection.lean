import RustZero.Lib.Lts
import RustZero.Lib.Phases
import RustZero.Redis

/-!
# The shared connection of a Redis store

`RedisStore::connection` of `core/src/stores_redis.rs` and the operations on it.
All clones of a store share one `OnceCell`.  The first operation to get the cell's
permit opens a standalone multiplexed connection and stores it; every operation
sends its command on a clone of the stored one, under the operation timeout.  A
failed or abandoned initialization gives the permit back, and nothing ever empties
the cell.

Redis may become unreachable at any time, closing any of its sockets, and reachable
again.  A command on a closed socket fails; a new socket can be opened whenever Redis
is reachable.

* `Recoverable` says that some further operations, with Redis as it is, end with one
  that succeeds.
* `recoverable_iff`: with Redis reachable, that is when the cell is empty or its
  connection's socket is open.
* `store_recovers`: so a store recovers along the runs whose outages spare that
  socket; `outage_breaks_store`: along others it never does.
-/

namespace RustZero.RedisConnection

open Lib Redis

/-- How far an operation has come: `run` or `query`, with `connection` and
`instrument` inside. -/
inductive Operation where
  | idle
  /-- In `get_or_try_init`, waiting for the connection or for the permit. -/
  | waiting
  /-- The operation holds the permit and opens a connection. -/
  | connecting
  /-- The connection is open and not stored yet. -/
  | opened (socket : Nat)
  /-- The command is sent on a clone of the stored connection. -/
  | sent (socket : Nat)
  | succeeded
  | failed (error : RedisStoreError)
  deriving DecidableEq

def Operation.inFlight : Operation → Bool
  | .waiting => true
  | .connecting => true
  | .opened _ => true
  | .sent _ => true
  | _ => false

/-- The operation initializes the cell. -/
def Operation.initializes : Operation → Bool
  | .connecting => true
  | .opened _ => true
  | _ => false

theorem Operation.inFlight_of_initializes {operation : Operation}
    (initializes : operation.initializes = true) : operation.inFlight = true := by
  cases operation with
  | connecting => rfl
  | opened socket => rfl
  | _ => cases initializes

/-- A store, its clones' operations and the sockets they have opened; `opened` many
so far. -/
structure Store (C : Type) where
  reachable : Bool
  opened : Nat
  closed : Nat → Bool
  cell : Option Nat
  permit : Option C
  operations : C → Operation

/-- `RedisStore::new`. -/
def Store.new (C : Type) : Store C := ⟨true, 0, fun _ => false, none, none, fun _ => .idle⟩

inductive Action (C : Type) where
  | start (call : C)
  /-- The cell gives the connection, or the permit to initialize it. -/
  | acquire (call : C)
  | connect (call : C)
  | refuse (call : C)
  | store (call : C)
  /-- The command's reply arrives. -/
  | reply (call : C)
  | fail (call : C)
  | timeout (call : C)
  | outage (closes : Nat → Bool)
  | recover

section Step

variable {C : Type} [DecidableEq C]

/-- An operation moves on, without the permit. -/
def Store.finish (s : Store C) (call : C) (operation : Operation) : Store C :=
  { s with
    permit := if s.permit = some call then none else s.permit
    operations := Function.update s.operations call operation }

def Store.advance (s : Store C) (call : C) (operation : Operation) : Store C :=
  { s with operations := Function.update s.operations call operation }

/-- One step. -/
def step (s : Store C) : Action C → Option (Store C)
  | .start call =>
      if (s.operations call).inFlight then none else some (s.advance call .waiting)
  | .acquire call =>
      match s.operations call, s.cell, s.permit with
      | .waiting, some socket, _ => some (s.advance call (.sent socket))
      | .waiting, none, none => some { s.advance call .connecting with permit := some call }
      | _, _, _ => none
  | .connect call =>
      match s.operations call, s.reachable with
      | .connecting, true =>
          some { s.advance call (.opened s.opened) with
            opened := s.opened + 1
            closed := Function.update s.closed s.opened false }
      | _, _ => none
  | .refuse call =>
      match s.operations call, s.reachable with
      | .connecting, false => some (s.finish call (.failed .redis))
      | _, _ => none
  | .store call =>
      match s.operations call with
      | .opened socket => some { s.finish call (.sent socket) with cell := some socket }
      | _ => none
  | .reply call =>
      match s.operations call with
      | .sent socket =>
          if s.reachable = true ∧ s.closed socket = false then
            some (s.advance call .succeeded)
          else none
      | _ => none
  | .fail call =>
      match s.operations call with
      | .sent _ => some (s.advance call (.failed .redis))
      | _ => none
  | .timeout call =>
      if (s.operations call).inFlight then some (s.finish call (.failed .timeout)) else none
  | .outage closes =>
      some { s with
        reachable := false
        closed := fun socket => s.closed socket || closes socket }
  | .recover => some { s with reachable := true }

/-- Every interleaving of operations on clones of one store, outages and
recoveries. -/
def lts (C : Type) [DecidableEq C] : Lts (Store C) (Action C) where
  init := .new C
  step := step

end Step

/-- A step of an operation on the store. -/
def Operates {C : Type} (_ : Store C) : Action C → Prop
  | .outage _ => False
  | .recover => False
  | _ => True

/-- Some finite sequence of further operations ends with one that succeeds. -/
def Recoverable {C : Type} [DecidableEq C] (s : Store C) : Prop :=
  ∃ s' call s'', (lts C).Steps Operates s s' ∧ step s' (.reply call) = some s''

/-- The stored connection can be used, if there is one. -/
def Usable {C : Type} (s : Store C) : Prop :=
  ∀ socket, s.cell = some socket → s.closed socket = false

/-! ## Who holds what -/

section Invariant

variable {C : Type} [DecidableEq C] {s s' : Store C} {a : Action C}

/-- Commands are sent on the stored connection; the permit is held by the one
operation that initializes the cell, while it is empty. -/
structure Inv (s : Store C) : Prop where
  sent : ∀ call socket, s.operations call = .sent socket → s.cell = some socket
  initializes : ∀ call, (s.operations call).initializes = true →
    s.permit = some call ∧ s.cell = none
  permit : ∀ call, s.permit = some call → (s.operations call).initializes = true

omit [DecidableEq C] in
theorem Inv.init : Inv (Store.new C) where
  sent := nofun
  initializes := nofun
  permit := nofun

/-- What a step of one operation has to show. -/
theorem Inv.next (inv : Inv s) {call : C} {operation : Operation}
    (moves : s'.operations = Function.update s.operations call operation)
    (sends : ∀ socket, operation = .sent socket → s'.cell = some socket)
    (initializes : operation.initializes = true → s'.permit = some call ∧ s'.cell = none)
    (cell : s'.cell = s.cell ∨ s.cell = none ∧ s.permit = some call)
    (others : ∀ other, other ≠ call → (s'.permit = some other ↔ s.permit = some other))
    (holds : s'.permit = some call → operation.initializes = true) : Inv s' where
  sent := by
    intro call' socket eq
    rw [moves] at eq
    rcases phase_of_update eq with ⟨_, new⟩ | ⟨_, old⟩
    · exact sends socket new
    · have stored := inv.sent call' socket old
      rcases cell with same | ⟨empty, _⟩
      · rw [same, stored]
      · rw [empty] at stored
        cases stored
  initializes := by
    intro call' eq
    rw [moves, Function.update_apply] at eq
    split at eq
    · subst call'
      exact initializes eq
    · rename_i ne
      obtain ⟨held, empty⟩ := inv.initializes call' eq
      refine ⟨(others call' ne).mpr held, ?_⟩
      rcases cell with same | ⟨_, mine⟩
      · rw [same, empty]
      · rw [mine] at held
        cases held
        exact absurd rfl ne
  permit := by
    intro call' held
    rw [moves, Function.update_apply]
    split
    · subst call'
      exact holds held
    · rename_i ne
      exact inv.permit call' ((others call' ne).mp held)

theorem finish_permit (s : Store C) (call : C) (operation : Operation) :
    (s.finish call operation).permit ≠ some call ∧ ∀ other, other ≠ call →
      ((s.finish call operation).permit = some other ↔ s.permit = some other) := by
  dsimp only [Store.finish]
  split
  · rename_i held
    refine ⟨nofun, fun other ne => ⟨nofun, fun eq => ?_⟩⟩
    rw [held] at eq
    cases eq
    exact absurd rfl ne
  · rename_i free
    exact ⟨free, fun _ _ => Iff.rfl⟩

/-- An operation that ends gives the permit back if it has it. -/
theorem Inv.finish (inv : Inv s) (call : C) (error : RedisStoreError) :
    Inv (s.finish call (.failed error)) := by
  obtain ⟨gone, others⟩ := finish_permit s call (.failed error)
  exact inv.next rfl nofun nofun (.inl rfl) others fun held => absurd held gone

/-- An operation that does not initialize the cell has no permit. -/
theorem Inv.advance (inv : Inv s) {call : C} {operation : Operation}
    (before : (s.operations call).initializes = false)
    (after : operation.initializes = false)
    (sends : ∀ socket, operation = .sent socket → s.cell = some socket) :
    Inv (s.advance call operation) := by
  refine inv.next rfl sends (fun yes => ?_) (.inl rfl) (fun _ _ => Iff.rfl) fun held => ?_
  · rw [after] at yes
    cases yes
  · have yes := inv.permit call held
    rw [before] at yes
    cases yes

theorem Inv.step (inv : Inv s) (step : RedisConnection.step s a = some s') : Inv s' := by
  cases a with
  | start call =>
      simp only [RedisConnection.step] at step
      split at step
      · cases step
      · cases step
        rename_i quiet
        refine inv.advance ?_ rfl nofun
        cases yes : (s.operations call).initializes with
        | false => rfl
        | true => exact absurd (Operation.inFlight_of_initializes yes) quiet
  | acquire call =>
      simp only [RedisConnection.step] at step
      split at step
      · rename_i waiting stored
        cases step
        refine inv.advance (by rw [waiting]; rfl) rfl fun socket eq => ?_
        cases eq
        exact stored
      · rename_i waiting empty free
        cases step
        refine inv.next rfl nofun (fun _ => ⟨rfl, empty⟩) (.inl rfl) (fun other ne => ?_)
          fun _ => rfl
        rw [free]
        exact ⟨fun eq => absurd (Option.some.inj eq).symm ne, nofun⟩
      · cases step
  | connect call =>
      simp only [RedisConnection.step] at step
      split at step
      · rename_i connecting up
        cases step
        have mine := inv.initializes call (by rw [connecting]; rfl)
        exact inv.next rfl nofun (fun _ => mine) (.inl rfl) (fun _ _ => Iff.rfl) fun _ => rfl
      · cases step
  | refuse call =>
      simp only [RedisConnection.step] at step
      split at step
      · cases step
        exact inv.finish call .redis
      · cases step
  | store call =>
      simp only [RedisConnection.step] at step
      split at step
      · rename_i socket opened
        cases step
        obtain ⟨held, empty⟩ := inv.initializes call (by rw [opened]; rfl)
        obtain ⟨gone, others⟩ := finish_permit s call (.sent socket)
        refine inv.next rfl (fun socket' eq => ?_) nofun (.inr ⟨empty, held⟩) others
          fun held => absurd held gone
        cases eq
        rfl
      · cases step
  | reply call =>
      simp only [RedisConnection.step] at step
      split at step
      · split at step <;> cases step
        exact inv.advance (by simp only [*]; rfl) rfl nofun
      · cases step
  | fail call =>
      simp only [RedisConnection.step] at step
      split at step <;> cases step
      exact inv.advance (by simp only [*]; rfl) rfl nofun
  | timeout call =>
      simp only [RedisConnection.step] at step
      split at step <;> cases step
      exact inv.finish call .timeout
  | outage closes =>
      cases step
      exact ⟨inv.sent, inv.initializes, inv.permit⟩
  | recover =>
      cases step
      exact ⟨inv.sent, inv.initializes, inv.permit⟩

theorem Inv.reach {P : Store C → Action C → Prop} (reach : (lts C).Reach P s) : Inv s :=
  reach.invariant Inv.init fun _ _ _ inv _ step => inv.step step

/-! ## A closed connection stays -/

/-- Operations replace neither a stored connection nor its socket. -/
theorem Inv.keeps_stored (inv : Inv s) {socket : Nat} (stored : s.cell = some socket)
    (operates : Operates s a) (step : RedisConnection.step s a = some s') :
    s'.cell = s.cell ∧ s'.closed = s.closed := by
  have settled : ∀ call, (s.operations call).initializes = false := by
    intro call
    cases yes : (s.operations call).initializes with
    | false => rfl
    | true =>
        have empty := (inv.initializes call yes).2
        rw [stored] at empty
        cases empty
  cases a with
  | connect call =>
      simp only [RedisConnection.step] at step
      split at step
      · rename_i connecting _
        have := settled call
        rw [connecting] at this
        cases this
      · cases step
  | store call =>
      simp only [RedisConnection.step] at step
      split at step
      · rename_i opened
        have := settled call
        rw [opened] at this
        cases this
      · cases step
  | outage closes => exact operates.elim
  | recover => exact operates.elim
  | reply call =>
      simp only [RedisConnection.step] at step
      split at step
      · split at step <;> cases step
        exact ⟨rfl, rfl⟩
      · cases step
  | _ =>
      simp only [RedisConnection.step] at step
      split at step <;> cases step <;> exact ⟨rfl, rfl⟩

/-- While the stored connection is closed no operation succeeds, now or later. -/
theorem Inv.not_recoverable (inv : Inv s) {socket : Nat} (stored : s.cell = some socket)
    (closed : s.closed socket = true) : ¬ Recoverable s := by
  rintro ⟨s', call, s'', run, reply⟩
  obtain ⟨inv', stored', closed'⟩ : Inv s' ∧ s'.cell = some socket ∧ s'.closed socket = true := by
    refine run.preserved (I := fun t => Inv t ∧ t.cell = some socket ∧ t.closed socket = true)
      (fun t a t' held operates step => ?_) ⟨inv, stored, closed⟩
    obtain ⟨inv, stored, closed⟩ := held
    obtain ⟨sameCell, sameClosed⟩ := inv.keeps_stored stored operates step
    rw [sameCell, sameClosed]
    exact ⟨inv.step step, stored, closed⟩
  simp only [RedisConnection.step] at reply
  split at reply
  · rename_i socket' sent
    have same := inv'.sent call socket' sent
    rw [stored'] at same
    cases same
    rw [closed'] at reply
    simp at reply
  · cases reply

/-! ## Recovering -/

/-- The operations may have moved on; the connection is as it was. -/
def SameConnection (s s' : Store C) : Prop :=
  s'.reachable = s.reachable ∧ s'.cell = s.cell ∧ s'.closed = s.closed

theorem timeout_steps {call : C} (inFlight : (s.operations call).inFlight = true) :
    (lts C).Steps Operates s (s.finish call (.failed .timeout)) := by
  refine Lts.Steps.single (a := .timeout call) trivial ?_
  exact if_pos inFlight

/-- The permit can be got back from an operation that holds it. -/
theorem Inv.release (inv : Inv s) :
    ∃ s', (lts C).Steps Operates s s' ∧ SameConnection s s' ∧ s'.permit = none ∧ Inv s' := by
  cases held : s.permit with
  | none => exact ⟨s, .refl s, ⟨rfl, rfl, rfl⟩, held, inv⟩
  | some call =>
      have inFlight := Operation.inFlight_of_initializes (inv.permit call held)
      refine ⟨_, timeout_steps inFlight, ⟨rfl, rfl, rfl⟩, ?_, inv.finish call .timeout⟩
      exact if_pos held

/-- A call can be made to wait for the connection with the permit free. -/
theorem Inv.restart (inv : Inv s) (call : C) :
    ∃ s', (lts C).Steps Operates s s' ∧ SameConnection s s' ∧ s'.permit = none ∧
      s'.operations call = .waiting := by
  obtain ⟨t, run, same, free, _⟩ := inv.release
  have begins : ∀ u : Store C, (u.operations call).inFlight = false →
      (lts C).Steps Operates u (u.advance call .waiting) := by
    intro u quiet
    refine Lts.Steps.single (a := .start call) trivial ?_
    exact if_neg (by rw [quiet]; exact nofun)
  cases quiet : (t.operations call).inFlight with
  | false =>
      exact ⟨_, run.trans (begins t quiet), same, free, Function.update_self _ _ _⟩
  | true =>
      have ended : ((t.finish call (.failed .timeout)).operations call).inFlight = false := by
        dsimp only [Store.finish]
        rw [Function.update_self]
        rfl
      refine ⟨_, (run.trans (timeout_steps quiet)).trans (begins _ ended), same, ?_,
        Function.update_self _ _ _⟩
      dsimp only [Store.finish, Store.advance]
      rw [free]
      exact if_neg nofun

theorem reply_succeeds {call : C} {socket : Nat} (up : s.reachable = true)
    (sent : s.operations call = .sent socket) (isOpen : s.closed socket = false) :
    RedisConnection.step s (.reply call) = some (s.advance call .succeeded) := by
  simp only [RedisConnection.step, sent]
  exact if_pos ⟨up, isOpen⟩

/-- A call that waits for an open connection gets it and succeeds. -/
theorem recoverable_of_open {call : C} {socket : Nat} (up : s.reachable = true)
    (waiting : s.operations call = .waiting) (stored : s.cell = some socket)
    (isOpen : s.closed socket = false) : Recoverable s := by
  have acquires :
      RedisConnection.step s (.acquire call) = some (s.advance call (.sent socket)) := by
    simp only [RedisConnection.step, waiting, stored]
  have sent : (s.advance call (.sent socket)).operations call = .sent socket :=
    Function.update_self _ _ _
  exact ⟨_, call, _, Lts.Steps.single (a := .acquire call) trivial acquires,
    reply_succeeds up sent isOpen⟩

/-- A call that waits for an empty cell opens a connection and succeeds. -/
theorem recoverable_of_empty {call : C} (up : s.reachable = true)
    (waiting : s.operations call = .waiting) (free : s.permit = none) (empty : s.cell = none) :
    Recoverable s := by
  have run : ∃ s', (lts C).exec s [.acquire call, .connect call, .store call] = some s' ∧
      s'.reachable = true ∧ s'.operations call = .sent s.opened ∧
      s'.closed s.opened = false := by
    simp [Lts.exec, lts, RedisConnection.step, waiting, free, empty, up, Store.advance,
      Store.finish]
  obtain ⟨s', run, up', sent, isOpen⟩ := run
  refine ⟨s', call, _, Lts.steps_of_exec _ ?_ run, reply_succeeds up' sent isOpen⟩
  simp [Lts.Meets, Operates, lts, RedisConnection.step, waiting, free, empty, up, Store.advance]

theorem Inv.recoverable [Nonempty C] (inv : Inv s) (up : s.reachable = true)
    (usable : Usable s) : Recoverable s := by
  obtain ⟨call⟩ := ‹Nonempty C›
  obtain ⟨t, run, ⟨sameUp, sameCell, sameClosed⟩, free, waiting⟩ := inv.restart call
  have there : Recoverable t := by
    cases stored : t.cell with
    | none => exact recoverable_of_empty (sameUp.trans up) waiting free stored
    | some socket =>
        refine recoverable_of_open (sameUp.trans up) waiting stored ?_
        rw [sameClosed]
        exact usable socket (sameCell.symm.trans stored)
  obtain ⟨s', call', s'', run', reply⟩ := there
  exact ⟨s', call', s'', run.trans run', reply⟩

theorem Inv.recoverable_iff [Nonempty C] (inv : Inv s) (up : s.reachable = true) :
    Recoverable s ↔ Usable s := by
  refine ⟨fun recoverable socket stored => ?_, inv.recoverable up⟩
  cases closed : s.closed socket with
  | false => rfl
  | true => exact absurd recoverable (inv.not_recoverable stored closed)

/-! ## Outages that spare the connection -/

/-- An outage does not close the socket of the stored connection, or of one that is
about to be stored. -/
def Spares (s : Store C) : Action C → Prop
  | .outage closes => ∀ socket,
      s.cell = some socket ∨ (∃ call, s.operations call = .opened socket) →
      closes socket = false
  | _ => True

/-- The sockets that are stored or about to be are open. -/
def Spared (s : Store C) : Prop :=
  ∀ socket, s.cell = some socket ∨ (∃ call, s.operations call = .opened socket) →
    s.closed socket = false

theorem Spared.step (spared : Spared s) (spares : Spares s a)
    (step : RedisConnection.step s a = some s') : Spared s' := by
  -- an operation that does not open a socket leaves the same ones to be stored
  have moves : ∀ {call operation} socket,
      (∃ other, Function.update s.operations call operation other = .opened socket) →
      (∀ socket, operation ≠ .opened socket) → s.closed socket = false := by
    rintro call operation socket ⟨other, eq⟩ closed
    rcases phase_of_update eq with ⟨_, new⟩ | ⟨_, old⟩
    · exact absurd new (closed socket)
    · exact spared socket (.inr ⟨other, old⟩)
  cases a with
  | connect call =>
      simp only [RedisConnection.step] at step
      split at step
      · cases step
        intro socket holds
        dsimp only [Store.advance]
        rw [Function.update_apply]
        split
        · rfl
        · rename_i other
          rcases holds with stored | ⟨call', eq⟩
          · exact spared socket (.inl stored)
          · rcases phase_of_update eq with ⟨_, new⟩ | ⟨_, old⟩
            · cases new
              exact absurd rfl other
            · exact spared socket (.inr ⟨call', old⟩)
      · cases step
  | store call =>
      simp only [RedisConnection.step] at step
      split at step
      · rename_i socket' opened
        cases step
        rintro socket (stored | opening)
        · cases stored
          exact spared socket' (.inr ⟨call, opened⟩)
        · exact moves socket opening nofun
      · cases step
  | outage closes =>
      cases step
      intro socket holds
      simp only [Bool.or_eq_false_iff]
      exact ⟨spared socket holds, spares socket holds⟩
  | recover =>
      cases step
      exact spared
  | reply call =>
      simp only [RedisConnection.step] at step
      split at step
      · split at step <;> cases step
        rintro socket (stored | opening)
        · exact spared socket (.inl stored)
        · exact moves socket opening nofun
      · cases step
  | _ =>
      simp only [RedisConnection.step] at step
      split at step <;> cases step <;>
        (rintro socket (stored | opening)
         · exact spared socket (.inl stored)
         · exact moves socket opening nofun)

theorem Spared.reach (reach : (lts C).Reach Spares s) : Spared s := by
  refine reach.invariant ?_ fun _ _ _ spared spares step => spared.step spares step
  exact fun _ _ => rfl

end Invariant

/-- In every run whose outages spare the stored connection, a store with Redis
reachable can recover; and in every reachable state with Redis reachable it can
exactly when the stored connection, if there is one, has an open socket. -/
theorem store_recovers {C : Type} [DecidableEq C] [Nonempty C] :
    (∀ s, (lts C).Reach Spares s → s.reachable = true → Recoverable s) ∧
    ∀ s, (lts C).Reachable s → s.reachable = true → (Recoverable s ↔ Usable s) := by
  constructor
  · intro s reach up
    have spared := Spared.reach reach
    exact (Inv.reach reach).recoverable up fun socket stored => spared socket (.inl stored)
  · intro s reach up
    exact (Inv.reach reach).recoverable_iff up

/-- An operation stores the connection and succeeds; Redis goes away and comes back,
closing these sockets. -/
def outageRun (closes : Nat → Bool) : List (Action Nat) :=
  [.start 0, .acquire 0, .connect 0, .store 0, .reply 0, .outage closes, .start 1, .acquire 1,
    .timeout 1, .recover]

theorem store_recovers_after_outage :
    ∃ s : Store Nat, (lts Nat).Reach Spares s ∧ s.reachable = true ∧
      s.operations 1 = .failed .timeout ∧ Recoverable s := by
  have meets : (lts Nat).Meets Spares (Store.new Nat) (outageRun fun _ => false) :=
    ⟨trivial, trivial, trivial, trivial, trivial, fun _ _ => rfl, trivial, trivial, trivial,
      trivial, trivial⟩
  have reach := Lts.reach_of_exec (outageRun fun _ => false) meets rfl
  exact ⟨_, reach, rfl, rfl, store_recovers.1 _ reach rfl⟩

/-- When the outage closes the connection's socket, the store is broken for good:
Redis is reachable again and no sequence of operations ends with a success. -/
theorem outage_breaks_store :
    ∃ s : Store Nat, (lts Nat).Reachable s ∧ s.reachable = true ∧ ¬ Recoverable s := by
  have reach := Lts.reachable_of_exec (L := lts Nat) (outageRun fun _ => true) rfl
  exact ⟨_, reach, rfl, (Inv.reach reach).not_recoverable rfl rfl⟩

end RustZero.RedisConnection
