import Mathlib
import RustZero.Lib.Lts

/-!
# Servers that register themselves

`RpcServer::serve_with_shutdown` of `rpc/src/lib.rs` with a registration: `EtcdClient::publish`
grants a lease and puts the endpoint under it, a task renews the lease every third of its time,
and `EtcdServiceLease` has the task revoke it.

* The server, the task and etcd take their steps in any order; requests and replies may be lost,
  and the process may end at any point.  Etcd ends a lease, with the key under it, no earlier than
  its time after the last renewal.
* `Bounded`: what etcd has while the server runs and after it.
* `Timely` is an environment in which every renewal gets to etcd soon after its tick, and
  `registration_kept` says how soon is enough.

Times are nanoseconds.
-/

namespace RustZero.Registration

open Lib

structure Config where
  leaseTtl : Nat
  shutdownTimeout : Nat

namespace Config

def ttlSeconds (config : Config) : Nat :=
  min (max (config.leaseTtl / 10 ^ 9) 1) (2 ^ 63 - 1)

/-- How long etcd keeps a lease. -/
def lease (config : Config) : Nat :=
  config.ttlSeconds * 10 ^ 9

/-- The interval of the task. -/
def period (config : Config) : Nat :=
  max (config.ttlSeconds / 3) 1 * 10 ^ 9

end Config

inductive RpcServerError where
  | transport
  | registration
  | shutdownTimeout
  deriving DecidableEq

/-- Where `serve_with_shutdown` is. -/
inductive Server where
  | granting
  | putting
  | serving
  | draining (since : Nat)
  /-- In `EtcdServiceLease::revoke`. -/
  | revoking (served : Except RpcServerError Unit)
  | returned (result : Except RpcServerError Unit)
  | crashed

/-- Where the task of the lease is; ticks are counted from the first. -/
inductive Task where
  | absent
  | opening
  | ticking (start ticks : Nat)
  | renewing (start ticks : Nat)
  | revoking
  | ended (result : Except Unit Unit)

inductive Request where
  | grant
  | put
  | keepAlive
  | revoke
  deriving DecidableEq

structure State where
  now : Nat
  server : Server
  task : Task
  /-- The sender of the shutdown is used or dropped. -/
  stopped : Bool
  /-- What is on its way to etcd. -/
  inFlight : Option Request
  /-- Etcd answers the last request with success. -/
  answered : Bool
  /-- When the lease ends, while it is there. -/
  lease : Option Nat
  registered : Bool
  /-- When the lease was granted or renewed last. -/
  renewed : Nat

inductive Action where
  | tick (elapsed : Nat)
  /-- Etcd gets the request. -/
  | process
  | lose
  | expire
  /-- A reply gets to who waits for it, or a failure in its place. -/
  | reply (success : Bool)
  | beat
  /-- The task sees the shutdown. -/
  | observe
  | finish (served : Except RpcServerError Unit)
  | signal
  | drained (served : Except Unit Unit)
  | timeout
  | join
  | crash

section System

variable (config : Config)

def State.send (s : State) (request : Request) : State :=
  { s with inFlight := some request, answered := false }

/-- What etcd does with a request. -/
def State.process (s : State) : Request → State
  | .grant => { s with
      inFlight := none, answered := true, lease := some (s.now + config.lease), renewed := s.now }
  | .put =>
      if s.lease.isSome then { s with inFlight := none, answered := true, registered := true }
      else { s with inFlight := none }
  | .keepAlive =>
      -- for a lease that is gone, etcd replies with a time of zero, which the task does not read
      if s.lease.isSome then { s with
        inFlight := none, answered := true, lease := some (s.now + config.lease), renewed := s.now }
      else { s with inFlight := none, answered := true }
  | .revoke =>
      if s.lease.isSome then
        { s with inFlight := none, answered := true, lease := none, registered := false }
      else { s with inFlight := none }

/-- A reply to `publish`. -/
def State.replyServer (s : State) (success : Bool) : Option State :=
  match s.server with
  | .granting =>
      if success then
        if s.answered then some ({ s with server := .putting }.send .put) else none
      else some { s with server := .returned (.error .registration) }
  | .putting =>
      if success then
        -- the client opens a stream with a renewal and reads the reply to it
        if s.answered then
          some ({ s with server := .serving, task := .opening }.send .keepAlive)
        else none
      else some { s with server := .returned (.error .registration) }
  | _ => none

/-- A reply to the task. -/
def State.replyTask (s : State) (success : Bool) : Option State :=
  match s.task with
  | .opening =>
      if success then if s.answered then some { s with task := .ticking s.now 0 } else none
      else some { s with task := .ended (.error ()) }
  | .renewing start ticks =>
      if success then
        if s.answered then some { s with task := .ticking start (ticks + 1) } else none
      else some { s with task := .ended (.error ()) }
  | .revoking =>
      if success then if s.answered then some { s with task := .ended (.ok ()) } else none
      else some { s with task := .ended (.error ()) }
  | _ => none

/-- `serving_result.and(revoke_result)`. -/
def outcome (served : Except RpcServerError Unit) (revoked : Except Unit Unit) :
    Except RpcServerError Unit :=
  match served, revoked with
  | .error error, _ => .error error
  | .ok (), .error () => .error .registration
  | .ok (), .ok () => .ok ()

def advance (s : State) : Action → Option State
  | .tick elapsed => some { s with now := s.now + elapsed }
  | .process => s.inFlight.map (s.process config)
  | .lose => if s.inFlight.isSome then some { s with inFlight := none } else none
  | .expire =>
      match s.lease with
      | some ends =>
          if ends ≤ s.now then some { s with lease := none, registered := false } else none
      | none => none
  | .reply success => (s.replyServer success).or (s.replyTask success)
  | .beat =>
      match s.task with
      | .ticking start ticks =>
          if start + ticks * config.period ≤ s.now then
            some ({ s with task := .renewing start ticks }.send .keepAlive)
          else none
      | _ => none
  | .observe =>
      match s.task with
      | .ticking _ _ =>
          if s.stopped then some ({ s with task := .revoking }.send .revoke) else none
      | _ => none
  | .finish served =>
      match s.server with
      | .serving => some { s with server := .revoking served, stopped := true }
      | _ => none
  | .signal =>
      match s.server with
      | .serving => some { s with server := .draining s.now }
      | _ => none
  | .drained served =>
      match s.server, served with
      | .draining _, .ok () => some { s with server := .revoking (.ok ()), stopped := true }
      -- the lease is dropped
      | .draining _, .error () =>
          some { s with server := .returned (.error .transport), stopped := true }
      | _, _ => none
  | .timeout =>
      match s.server with
      | .draining since =>
          if since + config.shutdownTimeout ≤ s.now then
            some { s with server := .returned (.error .shutdownTimeout), stopped := true }
          else none
      | _ => none
  | .join =>
      match s.server, s.task with
      | .revoking served, .ended revoked =>
          some { s with server := .returned (outcome served revoked) }
      | _, _ => none
  | .crash => some { s with server := .crashed, task := .absent }

def system (start : Nat) : Lts State Action where
  init := ⟨start, .granting, .absent, false, some .grant, false, none, false, start⟩
  step := advance config

end System

/-! ## What a step can do -/

section Steps

variable {config : Config} {P : State → Action → Prop} {s s' : State}

/-- The steps, by what they change; the environment may restrict time and losses. -/
inductive Step (config : Config) (P : State → Action → Prop) (s : State) : State → Prop
  | ticked (elapsed : Nat) (allowed : P s (.tick elapsed)) :
      Step config P s { s with now := s.now + elapsed }
  | processed (request : Request) (sent : s.inFlight = some request) :
      Step config P s (s.process config request)
  | lost (request : Request) (sent : s.inFlight = some request) (allowed : P s .lose) :
      Step config P s { s with inFlight := none }
  | expired (ends : Nat) (held : s.lease = some ends) (past : ends ≤ s.now) :
      Step config P s { s with lease := none, registered := false }
  | granted (here : s.server = .granting) (answered : s.answered = true) :
      Step config P s ({ s with server := .putting }.send .put)
  | put (here : s.server = .putting) (answered : s.answered = true) :
      Step config P s ({ s with server := .serving, task := .opening }.send .keepAlive)
  | refused (here : s.server = .granting ∨ s.server = .putting) :
      Step config P s { s with server := .returned (.error .registration) }
  | opened (here : s.task = .opening) (answered : s.answered = true) :
      Step config P s { s with task := .ticking s.now 0 }
  | renewed (start ticks : Nat) (here : s.task = .renewing start ticks)
      (answered : s.answered = true) :
      Step config P s { s with task := .ticking start (ticks + 1) }
  | revoked (here : s.task = .revoking) (answered : s.answered = true) :
      Step config P s { s with task := .ended (.ok ()) }
  | failed (here : s.task ≠ .absent ∧ ∀ result, s.task ≠ .ended result) :
      Step config P s { s with task := .ended (.error ()) }
  | beaten (start ticks : Nat) (here : s.task = .ticking start ticks)
      (due : start + ticks * config.period ≤ s.now) :
      Step config P s ({ s with task := .renewing start ticks }.send .keepAlive)
  | observed (start ticks : Nat) (here : s.task = .ticking start ticks) :
      Step config P s ({ s with task := .revoking }.send .revoke)
  | moved (server : Server) (stopped : Bool)
      (before : s.server = .serving ∨ ∃ since, s.server = .draining since)
      (after : (∃ since, server = .draining since) ∨ (∃ served, server = .revoking served) ∨
        ∃ error, server = .returned (.error error)) :
      Step config P s { s with server := server, stopped := stopped }
  | joined (served : Except RpcServerError Unit) (result : Except Unit Unit)
      (here : s.server = .revoking served) (ended : s.task = .ended result) :
      Step config P s { s with server := .returned (outcome served result) }
  | crashed : Step config P s { s with server := .crashed, task := .absent }

theorem step_of_replyServer {success : Bool} (taken : s.replyServer success = some s') :
    Step config P s s' := by
  unfold State.replyServer at taken
  split at taken
  case h_1 here =>
    split at taken
    · split at taken
      case isTrue answered =>
        cases taken
        exact .granted here answered
      case isFalse => cases taken
    · cases taken
      exact .refused (.inl here)
  case h_2 here =>
    split at taken
    · split at taken
      case isTrue answered =>
        cases taken
        exact .put here answered
      case isFalse => cases taken
    · cases taken
      exact .refused (.inr here)
  case h_3 => cases taken

theorem step_of_replyTask {success : Bool} (taken : s.replyTask success = some s') :
    Step config P s s' := by
  unfold State.replyTask at taken
  split at taken
  case h_1 here =>
    split at taken
    · split at taken
      case isTrue answered =>
        cases taken
        exact .opened here answered
      case isFalse => cases taken
    · cases taken
      exact .failed (by simp [here])
  case h_2 start ticks here =>
    split at taken
    · split at taken
      case isTrue answered =>
        cases taken
        exact .renewed start ticks here answered
      case isFalse => cases taken
    · cases taken
      exact .failed (by simp [here])
  case h_3 here =>
    split at taken
    · split at taken
      case isTrue answered =>
        cases taken
        exact .revoked here answered
      case isFalse => cases taken
    · cases taken
      exact .failed (by simp [here])
  case h_4 => cases taken

theorem step_of_advance {action : Action} (allowed : P s action)
    (taken : advance config s action = some s') :
    Step config P s s' := by
  cases action with
  | tick elapsed =>
      cases taken
      exact .ticked elapsed allowed
  | process =>
      obtain ⟨request, sent, rfl⟩ := Option.map_eq_some_iff.mp taken
      exact .processed request sent
  | lose =>
      unfold advance at taken
      simp only at taken
      split at taken
      case isTrue some =>
        obtain ⟨request, sent⟩ := Option.isSome_iff_exists.mp some
        cases taken
        exact .lost request sent allowed
      case isFalse => cases taken
  | expire =>
      unfold advance at taken
      simp only at taken
      split at taken
      case h_1 ends held =>
        split at taken
        case isTrue past =>
          cases taken
          exact .expired ends held past
        case isFalse => cases taken
      case h_2 => cases taken
  | reply success =>
      rcases Option.or_eq_some_iff.mp taken with server | ⟨_, task⟩
      · exact step_of_replyServer server
      · exact step_of_replyTask task
  | beat =>
      unfold advance at taken
      simp only at taken
      split at taken
      case h_1 start ticks here =>
        split at taken
        case isTrue due =>
          cases taken
          exact .beaten start ticks here due
        case isFalse => cases taken
      case h_2 => cases taken
  | observe =>
      unfold advance at taken
      simp only at taken
      split at taken
      case h_1 start ticks here =>
        split at taken
        case isTrue =>
          cases taken
          exact .observed start ticks here
        case isFalse => cases taken
      case h_2 => cases taken
  | finish served =>
      unfold advance at taken
      simp only at taken
      split at taken
      case h_1 here =>
        cases taken
        exact .moved _ _ (.inl here) (.inr (.inl ⟨served, rfl⟩))
      case h_2 => cases taken
  | signal =>
      unfold advance at taken
      simp only at taken
      split at taken
      case h_1 here =>
        cases taken
        exact .moved _ _ (.inl here) (.inl ⟨s.now, rfl⟩)
      case h_2 => cases taken
  | drained served =>
      unfold advance at taken
      simp only at taken
      split at taken
      case h_1 since here =>
        cases taken
        exact .moved _ _ (.inr ⟨since, here⟩) (.inr (.inl ⟨_, rfl⟩))
      case h_2 since here =>
        cases taken
        exact .moved _ _ (.inr ⟨since, here⟩) (.inr (.inr ⟨_, rfl⟩))
      case h_3 => cases taken
  | timeout =>
      unfold advance at taken
      simp only at taken
      split at taken
      case h_1 since here =>
        split at taken
        case isTrue =>
          cases taken
          exact .moved _ _ (.inr ⟨since, here⟩) (.inr (.inr ⟨_, rfl⟩))
        case isFalse => cases taken
      case h_2 => cases taken
  | join =>
      unfold advance at taken
      simp only at taken
      split at taken
      case h_1 served result here ended =>
        cases taken
        exact .joined served result here ended
      case h_2 => cases taken
  | crash =>
      cases taken
      exact .crashed

end Steps

/-! ## What etcd has -/

structure Inv (config : Config) (s : State) : Prop where
  clean : s.answered = true → s.inFlight = none
  ends : ∀ ends, s.lease = some ends → ends = s.renewed + config.lease
  under : s.registered = true → s.lease.isSome = true
  first : s.inFlight = some .grant → s.task = .absent
  begun : s.server = .granting ∨ s.server = .putting → s.task = .absent
  revoking : s.task = .revoking → (s.inFlight = some .revoke ∨ s.inFlight = none) ∧
    (s.answered = true → s.lease = none)
  done : s.task = .ended (.ok ()) → s.lease = none ∧ s.inFlight = none
  success : s.server = .returned (.ok ()) → s.task = .ended (.ok ())

section Invariant

variable {config : Config} {P : State → Action → Prop} {s s' : State}

theorem Inv.process (inv : Inv config s) {request : Request} (sent : s.inFlight = some request) :
    Inv config (s.process config request) := by
  have unanswered : s.answered = false := by
    cases answered : s.answered with
    | false => rfl
    | true =>
        rw [inv.clean answered] at sent
        cases sent
  have undone : s.task ≠ .ended (.ok ()) := by
    intro done
    rw [(inv.done done).2] at sent
    cases sent
  cases request with
  | grant =>
      have absent := inv.first sent
      refine ⟨fun _ => rfl, ?_, fun _ => rfl, ?_, inv.begun, ?_, fun done => (undone done).elim,
        inv.success⟩
      · rintro _ ⟨⟩
        rfl
      · intro none
        cases none
      · intro revoking
        have task : s.task = .revoking := revoking
        rw [absent] at task
        cases task
  | put =>
      unfold State.process
      dsimp only
      split
      case isTrue held =>
        refine ⟨fun _ => rfl, inv.ends, fun _ => held, ?_, inv.begun, ?_,
          fun done => (undone done).elim, inv.success⟩
        · intro none
          cases none
        · intro revoking
          rcases (inv.revoking revoking).1 with other | other <;> cases sent.symm.trans other
      case isFalse =>
        refine ⟨fun _ => rfl, inv.ends, inv.under, ?_, inv.begun, ?_,
          fun done => (undone done).elim, inv.success⟩
        · intro none
          cases none
        · exact fun revoking => ⟨.inr rfl, (inv.revoking revoking).2⟩
  | keepAlive =>
      unfold State.process
      dsimp only
      have apart (revoking : s.task = .revoking) : False := by
        rcases (inv.revoking revoking).1 with other | other <;> cases sent.symm.trans other
      split
      case isTrue held =>
        refine ⟨fun _ => rfl, ?_, fun _ => rfl, ?_, inv.begun,
          fun revoking => (apart revoking).elim, fun done => (undone done).elim, inv.success⟩
        · rintro _ ⟨⟩
          rfl
        · intro none
          cases none
      case isFalse =>
        refine ⟨fun _ => rfl, inv.ends, inv.under, ?_, inv.begun,
          fun revoking => (apart revoking).elim, fun done => (undone done).elim, inv.success⟩
        intro none
        cases none
  | revoke =>
      unfold State.process
      dsimp only
      split
      case isTrue held =>
        refine ⟨fun _ => rfl, ?_, ?_, ?_, inv.begun, fun _ => ⟨.inr rfl, fun _ => rfl⟩,
          fun done => (undone done).elim, inv.success⟩
        · intro _ none
          cases none
        · intro none
          cases none
        · intro none
          cases none
      case isFalse =>
        refine ⟨fun _ => rfl, inv.ends, inv.under, ?_, inv.begun, ?_,
          fun done => (undone done).elim, inv.success⟩
        · intro none
          cases none
        · exact fun revoking => ⟨.inr rfl, (inv.revoking revoking).2⟩

theorem outcome_ok {served : Except RpcServerError Unit} {result : Except Unit Unit}
    (same : outcome served result = .ok ()) : result = .ok () := by
  cases served with
  | error => cases same
  | ok =>
      cases result with
      | error => cases same
      | ok => rfl

theorem Inv.step (inv : Inv config s) (step : Step config P s s') : Inv config s' := by
  obtain ⟨clean, ends, under, first, begun, revoking, done, success⟩ := inv
  have inv : Inv config s := ⟨clean, ends, under, first, begun, revoking, done, success⟩
  cases step with
  | ticked => exact ⟨clean, ends, under, first, begun, revoking, done, success⟩
  | processed request sent => exact inv.process sent
  | lost request sent =>
      exact ⟨fun _ => rfl, ends, under, nofun, begun, fun now => ⟨.inr rfl, (revoking now).2⟩,
        fun now => ⟨(done now).1, rfl⟩, success⟩
  | expired =>
      exact ⟨clean, nofun, nofun, first, begun, fun now => ⟨(revoking now).1, fun _ => rfl⟩,
        fun now => ⟨rfl, (done now).2⟩, success⟩
  | granted here answered =>
      have absent := begun (.inl here)
      exact ⟨nofun, ends, under, nofun, fun _ => absent,
        fun now => by simp [State.send, absent] at now,
        fun now => by simp [State.send, absent] at now, nofun⟩
  | put here answered =>
      exact ⟨nofun, ends, under, nofun, by simp [State.send], nofun, nofun, nofun⟩
  | refused here =>
      have absent := begun here
      exact ⟨clean, ends, under, first, fun _ => absent, revoking, done, nofun⟩
  | opened here answered =>
      exact ⟨clean, ends, under, fun sent => by simp [first sent] at here,
        fun early => by simp [begun early] at here, nofun, nofun,
        fun ok => by simp [success ok] at here⟩
  | renewed start ticks here answered =>
      exact ⟨clean, ends, under, fun sent => by simp [first sent] at here,
        fun early => by simp [begun early] at here, nofun, nofun,
        fun ok => by simp [success ok] at here⟩
  | revoked here answered =>
      exact ⟨clean, ends, under, fun sent => by simp [first sent] at here,
        fun early => by simp [begun early] at here, nofun,
        fun _ => ⟨(revoking here).2 answered, clean answered⟩, fun _ => rfl⟩
  | failed here =>
      exact ⟨clean, ends, under, fun sent => (here.1 (first sent)).elim,
        fun early => (here.1 (begun early)).elim, nofun, nofun,
        fun ok => (here.2 _ (success ok)).elim⟩
  | beaten start ticks here due =>
      exact ⟨nofun, ends, under, nofun, fun early => by simp [begun early] at here, nofun,
        nofun, fun ok => by simp [success ok] at here⟩
  | observed start ticks here =>
      exact ⟨nofun, ends, under, nofun, fun early => by simp [begun early] at here,
        fun _ => ⟨.inl rfl, nofun⟩, nofun, fun ok => by simp [success ok] at here⟩
  | moved server stopped before after =>
      have later : server ≠ .granting ∧ server ≠ .putting ∧ server ≠ .returned (.ok ()) := by
        rcases after with ⟨_, rfl⟩ | ⟨_, rfl⟩ | ⟨_, rfl⟩ <;> simp
      exact ⟨clean, ends, under, first, fun early => by simp [later] at early, revoking, done,
        fun ok => (later.2.2 ok).elim⟩
  | joined served result here ended =>
      refine ⟨clean, ends, under, first, by simp, revoking, done, ?_⟩
      intro ok
      rw [outcome_ok (Server.returned.inj ok)] at ended
      exact ended
  | crashed => exact ⟨clean, ends, under, fun _ => rfl, fun _ => rfl, nofun, nofun, nofun⟩

theorem Step.current (step : Step config P s s') (current : s.renewed ≤ s.now) :
    s'.renewed ≤ s'.now := by
  cases step with
  | ticked elapsed => exact Nat.le_add_right_of_le current
  | processed request =>
      cases request <;> unfold State.process <;> dsimp only
      case grant => exact Nat.le_refl _
      case put => split <;> exact current
      case keepAlive =>
        split
        · exact Nat.le_refl _
        · exact current
      case revoke => split <;> exact current
  | lost | expired | granted | put | refused | opened | renewed | revoked | failed | beaten
  | observed | moved | joined | crashed => exact current

/-- Etcd has no lease, and no grant is on its way. -/
def State.gone (s : State) : Prop :=
  s.lease = none ∧ s.registered = false ∧ s.inFlight ≠ some .grant

theorem Step.gone (step : Step config P s s') (gone : s.gone) : s'.gone := by
  obtain ⟨lease, down, grant⟩ := gone
  cases step with
  | processed request sent =>
      cases request <;> unfold State.process <;> dsimp only
      case grant => exact (grant sent).elim
      all_goals
        simp only [lease, Option.isSome_none, Bool.false_eq_true, if_false]
        exact ⟨rfl, down, nofun⟩
  | expired ends held =>
      rw [lease] at held
      cases held
  | lost => exact ⟨lease, down, nofun⟩
  | granted | put | beaten | observed => exact ⟨lease, down, nofun⟩
  | ticked | refused | opened | renewed | revoked | failed | moved | joined | crashed =>
      exact ⟨lease, down, grant⟩

/-- Nothing is left of the server but what etcd has. -/
def State.over (s : State) : Prop :=
  (s.server = .crashed ∨ ∃ result, s.server = .returned result) ∧
    (s.task = .absent ∨ ∃ result, s.task = .ended result) ∧ s.inFlight = none

theorem Step.over (step : Step config P s s') (closed : s.over) :
    s'.over ∧ s'.renewed = s.renewed ∧ (s'.lease = s.lease ∨ s'.lease = none) := by
  obtain ⟨server, task, flight⟩ := id closed
  have left : s.server ≠ .granting ∧ s.server ≠ .putting ∧ s.server ≠ .serving ∧
      (∀ since, s.server ≠ .draining since) ∧ ∀ served, s.server ≠ .revoking served := by
    rcases server with same | ⟨result, same⟩ <;> simp [same]
  have idle : s.task ≠ .opening ∧ (∀ start ticks, s.task ≠ .ticking start ticks) ∧
      (∀ start ticks, s.task ≠ .renewing start ticks) ∧ s.task ≠ .revoking := by
    rcases task with same | ⟨result, same⟩ <;> simp [same]
  cases step with
  | ticked => exact ⟨closed, rfl, .inl rfl⟩
  | processed request sent | lost request sent => simp [flight] at sent
  | expired => exact ⟨closed, rfl, .inr rfl⟩
  | granted here => exact (left.1 here).elim
  | put here => exact (left.2.1 here).elim
  | refused here => exact (here.elim left.1 left.2.1).elim
  | opened here => exact (idle.1 here).elim
  | renewed start ticks here => exact (idle.2.2.1 start ticks here).elim
  | revoked here => exact (idle.2.2.2 here).elim
  | failed here =>
      rcases task with same | ⟨result, same⟩
      · exact (here.1 same).elim
      · exact (here.2 result same).elim
  | beaten start ticks here | observed start ticks here => exact (idle.2.1 start ticks here).elim
  | moved _ _ before =>
      rcases before with same | ⟨since, same⟩
      · exact (left.2.2.1 same).elim
      · exact (left.2.2.2.1 since same).elim
  | joined served result here => exact (left.2.2.2.2 served here).elim
  | crashed => exact ⟨⟨.inl rfl, .inl rfl, flight⟩, rfl, .inl rfl⟩

end Invariant

section Runs

variable {config : Config} {start : Nat} {s s' : State}

theorem inv_of_reach {P : State → Action → Prop} (reach : (system config start).Reach P s) :
    Inv config s ∧ s.renewed ≤ s.now := by
  refine reach.invariant (I := fun s => Inv config s ∧ s.renewed ≤ s.now) ⟨?_, Nat.le_refl _⟩ ?_
  · exact ⟨nofun, nofun, nofun, fun _ => rfl, fun _ => rfl, nofun, nofun, nofun⟩
  · intro s action s' held allowed taken
    have step := step_of_advance allowed taken
    exact ⟨held.1.step step, step.current held.2⟩

theorem gone_of_steps (run : (system config start).Steps Lts.Always s s') (gone : s.gone) :
    s'.gone :=
  run.preserved (fun _ _ _ gone allowed taken => (step_of_advance allowed taken).gone gone) gone

theorem over_of_steps (run : (system config start).Steps Lts.Always s s') (closed : s.over) :
    s'.over ∧ s'.renewed = s.renewed ∧ (s'.lease = s.lease ∨ s'.lease = none) := by
  refine run.preserved
    (I := fun t => t.over ∧ t.renewed = s.renewed ∧ (t.lease = s.lease ∨ t.lease = none)) ?_
    ⟨closed, rfl, .inl rfl⟩
  intro t action t' held allowed taken
  obtain ⟨closed, renewed, lease⟩ := held
  obtain ⟨closed', renewed', lease'⟩ := (step_of_advance allowed taken).over closed
  refine ⟨closed', renewed'.trans renewed, ?_⟩
  rcases lease' with same | none
  · exact lease.imp same.trans same.trans
  · exact .inr none

/-- What etcd has of a server: a registration is under a lease, which ends one time after it was
renewed last; none of it is left when the server returns with success.  A registration that is
gone never comes back, also when the server goes on and its renewals are answered, and nothing
renews the one a server leaves behind. -/
theorem registration_bounded (reach : (system config start).Reachable s)
    (run : (system config start).Steps Lts.Always s s') :
    (s.registered = true → s.lease.isSome = true) ∧
      (∀ ends, s.lease = some ends → ends = s.renewed + config.lease ∧ s.renewed ≤ s.now) ∧
      (s.server = .returned (.ok ()) →
        s.lease = none ∧ s.registered = false ∧ s.inFlight = none) ∧
      (s.lease = none → s.inFlight ≠ some .grant → s'.lease = none ∧ s'.registered = false) ∧
      (s.over →
        s'.over ∧ s'.renewed = s.renewed ∧ (s'.lease = s.lease ∨ s'.lease = none)) := by
  obtain ⟨inv, current⟩ := inv_of_reach reach
  have down (lease : s.lease = none) : s.registered = false := by
    cases up : s.registered with
    | false => rfl
    | true =>
        have held := inv.under up
        rw [lease] at held
        cases held
  refine ⟨inv.under, fun ends held => ⟨inv.ends ends held, current⟩, ?_, ?_, over_of_steps run⟩
  · intro returned
    obtain ⟨lease, flight⟩ := inv.done (inv.success returned)
    exact ⟨lease, down lease, flight⟩
  · intro lease grant
    obtain ⟨lease', down', _⟩ := gone_of_steps run ⟨lease, down lease, grant⟩
    exact ⟨lease', down'⟩

theorem registration_bounded_returned :
    ∃ s, (system ⟨30 * 10 ^ 9, 10 ^ 10⟩ 0).Reachable s ∧ s.server = .returned (.ok ()) ∧
      s.lease = none ∧ s.registered = false ∧ s.inFlight = none := by
  have reach := (system ⟨30 * 10 ^ 9, 10 ^ 10⟩ 0).reachable_of_exec [.process, .reply true,
    .process, .reply true, .process, .reply true, .beat, .process, .finish (.ok ()), .reply true,
    .observe, .process, .reply true, .join] rfl
  exact ⟨_, reach, rfl, (registration_bounded reach (Lts.Steps.refl _)).2.2.1 rfl⟩

end Runs

/-! ## Registrations that are kept -/

section Schedule

variable (config : Config) (delay : Nat)

def Task.renews : Task → Bool
  | .opening | .ticking _ _ | .renewing _ _ => true
  | .absent | .revoking | .ended _ => false

/-- When the renewal before a tick was due, or came if it was none of the task's. -/
def State.before (s : State) (start : Nat) : Nat → Nat
  | 0 => s.renewed
  | ticks + 1 => start + ticks * config.period

/-- The time from which the next renewal is one period away, while one is to come. -/
def State.since (s : State) : Option Nat :=
  match s.task with
  | .absent =>
      match s.server with
      | .granting => if s.answered then some s.renewed else none
      | .putting => some s.renewed
      | _ => none
  | .opening => some s.renewed
  | .ticking start ticks => some (s.before config start ticks)
  | .renewing start ticks =>
      some (if s.answered then start + ticks * config.period else s.before config start ticks)
  | .revoking | .ended _ => none

/-- Nothing is lost, and every renewal gets to etcd no more than `delay` after it is due. -/
def Timely (s : State) : Action → Prop
  | .tick elapsed =>
      ∀ since, s.since config = some since → s.now + elapsed ≤ since + config.period + delay
  | .lose => False
  | _ => True

/-- The request of the server or the task that waits for a reply. -/
def State.asks (s : State) : Option Request :=
  match s.task with
  | .absent =>
      match s.server with
      | .granting => some .grant
      | .putting => some .put
      | _ => none
  | .opening | .renewing _ _ => some .keepAlive
  | .revoking => some .revoke
  | .ticking _ _ | .ended _ => none

structure Kept (s : State) : Prop where
  soon : ∀ since, s.since config = some since →
    since ≤ s.renewed ∧ s.now ≤ since + config.period + delay
  held : s.since config ≠ none → s.lease = some (s.renewed + config.lease)
  put : s.server = .putting → s.answered = true → s.registered = true
  renews : s.task.renews = true → s.registered = true
  sent : ∀ request, s.asks = some request → s.inFlight = none ∨ s.inFlight = some request
  ticking : ∀ start ticks, s.task = .ticking start ticks →
    s.inFlight = none ∧ (ticks = 0 → s.renewed ≤ start)
  renewing : ∀ start ticks, s.task = .renewing start ticks →
    start + ticks * config.period ≤ s.now ∧ (ticks = 0 → s.answered = false → s.renewed ≤ start)

end Schedule

section Kept

variable {config : Config} {delay : Nat} {s s' : State}

/-- No renewal is to come. -/
def State.quiet (s : State) : Prop :=
  s.server ≠ .granting ∧ s.server ≠ .putting ∧
    (s.task = .absent ∨ s.task = .revoking ∨ ∃ result, s.task = .ended result)

theorem Kept.of_quiet (sent : s.task = .revoking → s.inFlight = none ∨ s.inFlight = some .revoke)
    (quiet : s.quiet) : Kept config delay s := by
  obtain ⟨granting, putting, task⟩ := quiet
  have since : s.since config = none := by
    unfold State.since
    rcases task with task | task | ⟨result, task⟩ <;> rw [task]
    dsimp only
    split
    case h_1 here => exact (granting here).elim
    case h_2 here => exact (putting here).elim
    case h_3 => rfl
  refine ⟨?_, fun due => (due since).elim, fun here => (putting here).elim, ?_, ?_, ?_, ?_⟩
  · intro due same
    rw [since] at same
    cases same
  · intro renews
    rcases task with task | task | ⟨result, task⟩ <;> rw [task] at renews <;> cases renews
  · intro request asks
    unfold State.asks at asks
    rcases task with task | task | ⟨result, task⟩ <;> rw [task] at asks
    · dsimp only at asks
      split at asks
      case h_1 here => exact (granting here).elim
      case h_2 here => exact (putting here).elim
      case h_3 => cases asks
    · cases asks
      exact sent task
    · cases asks
  · intro start ticks here
    rcases task with task | task | ⟨result, task⟩ <;> cases task.symm.trans here
  · intro start ticks here
    rcases task with task | task | ⟨result, task⟩ <;> cases task.symm.trans here

/-- Etcd has the lease as long as a renewal is to come. -/
theorem Kept.live (kept : Kept config delay s) (slack : config.period + delay < config.lease)
    (due : s.since config ≠ none) :
    ∃ ends, s.lease = some ends ∧ s.now < ends := by
  obtain ⟨since, same⟩ := Option.ne_none_iff_exists'.mp due
  have soon := kept.soon since same
  exact ⟨_, kept.held due, by omega⟩

theorem since_of_renews (renews : s.task.renews = true) : s.since config ≠ none := by
  unfold State.since
  cases task : s.task with
  | opening | ticking | renewing => exact nofun
  | absent | revoking | ended =>
      rw [task] at renews
      cases renews

theorem quiet_of_since (inv : Inv config s) (none : s.since config = none)
    (granting : s.server ≠ .granting) : s.quiet := by
  have putting (absent : s.task = .absent) : s.server ≠ .putting := by
    intro here
    simp [State.since, absent, here] at none
  unfold State.since at none
  cases task : s.task with
  | absent => exact ⟨granting, putting task, .inl task⟩
  | revoking =>
      refine ⟨granting, ?_, .inr (.inl task)⟩
      intro here
      simp [inv.begun (.inr here)] at task
  | ended result =>
      refine ⟨granting, ?_, .inr (.inr ⟨result, task⟩)⟩
      intro here
      simp [inv.begun (.inr here)] at task
  | opening | ticking | renewing =>
      rw [task] at none
      cases none

/-- A request that etcd gets is the one that is waited for, or no renewal is to come. -/
theorem Kept.asking (kept : Kept config delay s) (inv : Inv config s) {request : Request}
    (sent : s.inFlight = some request) :
    (s.task = .absent ∧ s.server = .granting ∧ request = .grant) ∨
      (s.task = .absent ∧ s.server = .putting ∧ request = .put) ∨
      (s.task = .opening ∧ request = .keepAlive) ∨
      (∃ start ticks, s.task = .renewing start ticks ∧ request = .keepAlive) ∨ s.quiet := by
  have waits (asked : Request) (asks : s.asks = some asked) : request = asked := by
    rcases kept.sent asked asks with none | same
    · rw [sent] at none
      cases none
    · exact Option.some.inj (sent.symm.trans same)
  have absent (server : s.server = .granting ∨ s.server = .putting) := inv.begun server
  cases task : s.task with
  | absent =>
      cases server : s.server with
      | granting => exact .inl ⟨rfl, rfl, waits _ (by simp [State.asks, task, server])⟩
      | putting => exact .inr (.inl ⟨rfl, rfl, waits _ (by simp [State.asks, task, server])⟩)
      | serving | draining | revoking | returned | crashed =>
          exact .inr (.inr (.inr (.inr ⟨by simp [server], by simp [server], .inl task⟩)))
  | opening => exact .inr (.inr (.inl ⟨rfl, waits _ (by simp [State.asks, task])⟩))
  | ticking start ticks =>
      have idle := (kept.ticking start ticks task).1
      rw [sent] at idle
      cases idle
  | renewing start ticks =>
      exact .inr (.inr (.inr (.inl ⟨start, ticks, rfl, waits _ (by simp [State.asks, task])⟩)))
  | revoking =>
      refine .inr (.inr (.inr (.inr ⟨?_, ?_, .inr (.inl task)⟩))) <;> intro here
      · simp [absent (.inl here)] at task
      · simp [absent (.inr here)] at task
  | ended result =>
      refine .inr (.inr (.inr (.inr ⟨?_, ?_, .inr (.inr ⟨result, task⟩)⟩))) <;> intro here
      · simp [absent (.inl here)] at task
      · simp [absent (.inr here)] at task

theorem Kept.process (kept : Kept config delay s) (inv : Inv config s) {request : Request}
    (sent : s.inFlight = some request) : Kept config delay (s.process config request) := by
  have unanswered : s.answered = false := by
    cases answered : s.answered with
    | false => rfl
    | true =>
        rw [inv.clean answered] at sent
        cases sent
  have shape (request : Request) : (s.process config request).server = s.server ∧
      (s.process config request).task = s.task ∧ (s.process config request).inFlight = none := by
    cases request <;> unfold State.process <;> dsimp only
    case grant => exact ⟨rfl, rfl, rfl⟩
    all_goals split <;> exact ⟨rfl, rfl, rfl⟩
  rcases kept.asking inv sent with ⟨task, server, rfl⟩ | ⟨task, server, rfl⟩ | ⟨task, rfl⟩ |
    ⟨start, ticks, task, rfl⟩ | quiet
  · refine ⟨?_, fun _ => rfl, ?_, ?_, fun _ _ => .inl rfl, ?_, ?_⟩ <;>
      simp [State.process, State.since, task, server, Task.renews]
    omega
  · have live := kept.held (by simp [State.since, task, server])
    have soon := kept.soon s.renewed (by simp [State.since, task, server])
    refine ⟨?_, ?_, ?_, ?_, fun _ _ => .inl ?_, ?_, ?_⟩ <;>
      simp [State.process, State.since, task, server, live, Task.renews]
    exact soon.2
  · have live := kept.held (by simp [State.since, task])
    refine ⟨?_, ?_, ?_, ?_, fun _ _ => .inl ?_, ?_, ?_⟩ <;>
      simp [State.process, State.since, task, live, Task.renews]
    · omega
    · intro here
      simp [inv.begun (.inr here)] at task
    · exact kept.renews (by simp [task, Task.renews])
  · have live := kept.held (by simp [State.since, task])
    have soon := kept.soon (s.before config start ticks) (by simp [State.since, task, unanswered])
    obtain ⟨due, first⟩ := kept.renewing start ticks task
    refine ⟨?_, ?_, ?_, ?_, fun _ _ => .inl ?_, ?_, ?_⟩ <;>
      simp [State.process, State.since, task, live, Task.renews]
    · refine ⟨due, ?_⟩
      cases ticks with
      | zero =>
          have early := first rfl unanswered
          simp only [State.before] at soon
          omega
      | succ ticks =>
          simp only [State.before] at soon
          have later : start + ticks * config.period ≤ start + (ticks + 1) * config.period :=
            Nat.add_le_add_left (Nat.mul_le_mul_right _ ticks.le_succ) _
          omega
    · intro here
      simp [inv.begun (.inr here)] at task
    · exact kept.renews (by simp [task, Task.renews])
    · exact due
  · obtain ⟨server', task', flight⟩ := shape request
    refine Kept.of_quiet (fun _ => .inl flight) ?_
    unfold State.quiet
    rw [server', task']
    exact quiet

theorem Kept.step (kept : Kept config delay s) (inv : Inv config s)
    (current : s.renewed ≤ s.now) (slack : config.period + delay < config.lease)
    (step : Step config (Timely config delay) s s') : Kept config delay s' := by
  have absent (server : s.server = .granting ∨ s.server = .putting) := inv.begun server
  have past (task : s.task ≠ .absent) : s.server ≠ .granting ∧ s.server ≠ .putting :=
    ⟨fun here => task (absent (.inl here)), fun here => task (absent (.inr here))⟩
  cases step with
  | ticked elapsed allowed =>
      obtain ⟨soon, held, put, renews, sent, ticking, renewing⟩ := kept
      exact ⟨fun since same => ⟨(soon since same).1, allowed since same⟩, held, put, renews, sent,
        ticking, fun start ticks here =>
          ⟨Nat.le_add_right_of_le (renewing start ticks here).1, (renewing start ticks here).2⟩⟩
  | processed request sent => exact kept.process inv sent
  | lost request sent allowed => exact allowed.elim
  | expired ends held ended =>
      have none : s.since config = none := by
        by_contra due
        obtain ⟨ends', same, before⟩ := kept.live slack due
        rw [held] at same
        cases same
        omega
      by_cases granting : s.server = .granting
      · have task := absent (.inl granting)
        refine ⟨?_, ?_, ?_, ?_, kept.sent, kept.ticking, kept.renewing⟩
        · intro since same
          cases none.symm.trans same
        · exact fun due => (due none).elim
        · simp [granting]
        · simp [task, Task.renews]
      · have quiet : s.quiet := quiet_of_since inv none granting
        exact Kept.of_quiet (fun task => (inv.revoking task).1.symm) quiet
  | granted here answered =>
      have task := absent (.inl here)
      have same : s.since config = some s.renewed := by simp [State.since, task, here, answered]
      have live := kept.held (by simp [same])
      refine ⟨?_, fun _ => live, nofun, ?_, ?_, ?_, ?_⟩ <;>
        simp [State.send, State.since, State.asks, task, Task.renews]
      exact (kept.soon _ same).2
  | put here answered =>
      have task := absent (.inr here)
      have same : s.since config = some s.renewed := by simp [State.since, task, here]
      have live := kept.held (by simp [same])
      refine ⟨?_, fun _ => live, nofun, fun _ => kept.put here answered, ?_, ?_, ?_⟩ <;>
        simp [State.send, State.since, State.asks]
      exact (kept.soon _ same).2
  | refused here =>
      refine Kept.of_quiet (fun task => (inv.revoking task).1.symm)
        ⟨nofun, nofun, .inl (absent here)⟩
  | opened here answered =>
      have same : s.since config = some s.renewed := by simp [State.since, here]
      have live := kept.held (by simp [same])
      have up := kept.renews (by simp [here, Task.renews])
      refine ⟨?_, fun _ => live, fun _ _ => up, fun _ => up, ?_, ?_, ?_⟩ <;>
        simp [State.since, State.before, State.asks, inv.clean answered]
      · exact (kept.soon _ same).2
      · omega
  | renewed start ticks here answered =>
      have same : s.since config = some (start + ticks * config.period) := by
        simp [State.since, here, answered]
      have live := kept.held (by simp [same])
      have up := kept.renews (by simp [here, Task.renews])
      refine ⟨?_, fun _ => live, fun _ _ => up, fun _ => up, ?_, ?_, ?_⟩ <;>
        simp [State.since, State.before, State.asks, inv.clean answered]
      exact kept.soon _ same
  | revoked here answered =>
      have early := past (by simp [here])
      exact Kept.of_quiet nofun ⟨early.1, early.2, .inr (.inr ⟨_, rfl⟩)⟩
  | failed here =>
      have early := past here.1
      exact Kept.of_quiet nofun ⟨early.1, early.2, .inr (.inr ⟨_, rfl⟩)⟩
  | beaten start ticks here due =>
      have same : s.since config = some (s.before config start ticks) := by simp [State.since, here]
      have live := kept.held (by simp [same])
      have up := kept.renews (by simp [here, Task.renews])
      have first := (kept.ticking start ticks here).2
      refine ⟨?_, fun _ => live, fun _ _ => up, fun _ => up, ?_, ?_, ?_⟩ <;>
        simp [State.send, State.since, State.asks]
      · exact kept.soon _ same
      · exact ⟨due, first⟩
  | observed start ticks here =>
      have early := past (by simp [here])
      exact Kept.of_quiet (fun _ => .inr rfl) ⟨early.1, early.2, .inr (.inl rfl)⟩
  | moved server stopped before after =>
      have early : s.server ≠ .granting ∧ s.server ≠ .putting := by
        rcases before with here | ⟨_, here⟩ <;> simp [here]
      have later : server ≠ .granting ∧ server ≠ .putting := by
        rcases after with ⟨_, rfl⟩ | ⟨_, rfl⟩ | ⟨_, rfl⟩ <;> simp
      by_cases due : s.since config = none
      · have quiet : s.quiet := quiet_of_since inv due early.1
        exact Kept.of_quiet (fun task => (inv.revoking task).1.symm) ⟨later.1, later.2, quiet.2.2⟩
      · have same : ({ s with server := server, stopped := stopped } : State).since config =
            s.since config ∧
            ({ s with server := server, stopped := stopped } : State).asks = s.asks := by
          unfold State.since at due
          unfold State.since State.asks
          cases task : s.task with
          | absent => simp [task, early] at due
          | opening | ticking | renewing | revoking | ended => exact ⟨rfl, rfl⟩
        obtain ⟨since, asks⟩ := same
        exact ⟨by rw [since]; exact kept.soon, by rw [since]; exact kept.held,
          fun here => (later.2 here).elim, kept.renews, by rw [asks]; exact kept.sent, kept.ticking,
          kept.renewing⟩
  | joined served result here ended =>
      exact Kept.of_quiet (fun task => (inv.revoking task).1.symm)
        ⟨nofun, nofun, .inr (.inr ⟨result, ended⟩)⟩
  | crashed => exact Kept.of_quiet nofun ⟨nofun, nofun, .inl rfl⟩

theorem kept_of_reach {start : Nat} (slack : config.period + delay < config.lease)
    (reach : (system config start).Reach (Timely config delay) s) :
    Kept config delay s ∧ Inv config s ∧ s.renewed ≤ s.now := by
  refine reach.invariant (I := fun s => Kept config delay s ∧ Inv config s ∧ s.renewed ≤ s.now)
    ⟨?_, inv_of_reach (Lts.Reach.init (P := Lts.Always))⟩ ?_
  · exact ⟨nofun, fun due => (due rfl).elim, nofun, nofun, fun _ same => .inr same, nofun, nofun⟩
  · intro s action s' held allowed taken
    obtain ⟨kept, inv, current⟩ := held
    have step := step_of_advance allowed taken
    exact ⟨kept.step inv current slack step, inv.step step, step.current current⟩

/-- Without the slack, a lease ends before its second renewal. -/
theorem exists_lapse (start : Nat) (slack : config.lease ≤ config.period + delay) :
    ∃ s, (system config start).Reach (Timely config delay) s ∧ s.task.renews = true ∧
      s.registered = false := by
  have opened : (system config start).Reach (Timely config delay) ⟨start, .serving,
      .ticking start 0, false, none, true, some (start + config.lease), true, start⟩ := by
    apply Lts.reach_of_exec [.process, .reply true, .process, .reply true, .process, .reply true]
    · exact ⟨trivial, trivial, trivial, trivial, trivial, trivial, trivial⟩
    · rfl
  have due : start + 0 * config.period ≤ start := by omega
  have beaten := opened.tail (a := Action.beat) trivial (if_pos due)
  have answered := beaten.tail (a := Action.process) trivial rfl
  have renewed : (system config start).Reach (Timely config delay) ⟨start, .serving,
      .ticking start 1, false, none, true, some (start + config.lease), true, start⟩ :=
    answered.tail (a := Action.reply true) trivial rfl
  have allowed : ∀ since, some (start + 0 * config.period) = some since →
      start + (config.period + delay) ≤ since + config.period + delay := by
    rintro _ ⟨⟩
    omega
  have waited := renewed.tail (a := Action.tick (config.period + delay)) allowed rfl
  have past : start + config.lease ≤ start + (config.period + delay) := by omega
  exact ⟨_, waited.tail (a := Action.expire) trivial (if_pos past), rfl, rfl⟩

/-- As long as the task renews, the endpoint is registered, in every run with timely renewals,
exactly when a lease is longer than two of them may be apart. -/
theorem registration_kept (config : Config) (delay start : Nat) :
    (∀ s, (system config start).Reach (Timely config delay) s → s.task.renews = true →
        s.registered = true ∧ ∃ ends, s.lease = some ends ∧ s.now < ends) ↔
      config.period + delay < config.lease := by
  constructor
  · intro all
    by_contra slack
    have short : config.lease ≤ config.period + delay := Nat.le_of_not_lt slack
    obtain ⟨s, reach, renews, down⟩ := exists_lapse start short
    have up := (all s reach renews).1
    rw [down] at up
    cases up
  · intro slack s reach renews
    have kept := (kept_of_reach slack reach).1
    exact ⟨kept.renews renews, kept.live slack (since_of_renews renews)⟩

/-- A lease of a second is as short as the interval of its renewals. -/
theorem period_lt_lease_iff (config : Config) :
    config.period < config.lease ↔ 2 * 10 ^ 9 ≤ config.leaseTtl := by
  unfold Config.period Config.lease Config.ttlSeconds
  omega

end Kept

end RustZero.Registration
