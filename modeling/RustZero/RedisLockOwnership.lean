import RustZero.RedisLock

/-!
# Who owns a Redis lock

Ownership lives in the value under the key, in its expiry and in the `held` flag of
each lock.  `Leases` of `RustZero.RedisLock` ties the first two together in every
run; the flag is another matter, since `acquire` overwrites it with the answer of a
`SET NX` that fails for the owner too.

* `Faithful` says that a lock's flag agrees with its lease, or will once its call has
  taken the answer it got; `Quiet` what the steps of a lock without Redis keep.
* `step_cases` says once what a step can do.
* `lock_protocol` is the protocol: safety in every run, and the flag in the runs in
  which no lock is acquired again while it owns the key (`AcquiresFree`).
* `reacquired_lock_is_disowned`: in other runs a lock loses the flag and can neither
  be extended nor released, although it owns the key.
-/

namespace RustZero.RedisLock

open Lib Redis

/-! ## The flag of a lock -/

section Flag

variable {C : Type} {l : Lock C} {clock : Nat}

/-- A flag that is set belongs to a lease, and a lease that runs has its flag
set. -/
def Agrees (held : Bool) (clock : Nat) (lease : Option Nat) : Prop :=
  (held = true → lease ≠ none) ∧
    ∀ expiresAt, lease = some expiresAt → clock < expiresAt → held = true

/-- A command that borrows the lock mutably is on its way, or answered. -/
def Lock.Mutates (l : Lock C) (call : C) (command : Command) : Prop :=
  command.mutates = true ∧ (l.calls call = .sent command ∨
    ∃ found answer, l.calls call = .answered command found answer)

/-- The flag of a lock agrees with its lease, or will when its call takes the answer
it has got. -/
structure Faithful (clock : Nat) (l : Lock C) : Prop where
  queued : ∀ call command, (call, command) ∈ l.queue → l.calls call = .sent command
  nodup : (l.queue.map Prod.fst).Nodup
  borrowed : ∀ call command, l.Mutates call command → l.mutator = some call
  settled : ∀ call command found answer, command.mutates = true →
    l.calls call = .answered command found (some answer) →
    Agrees (heldAfter l.held answer command) clock l.lease
  agrees : (∀ call command found answer, command.mutates = true →
    l.calls call ≠ .answered command found answer) → Agrees l.held clock l.lease

theorem Faithful.init : Faithful clock ({} : Lock C) where
  queued := nofun
  nodup := List.nodup_nil
  borrowed := by
    rintro call command ⟨_, sent | ⟨_, _, answered⟩⟩
    · cases sent
    · cases answered
  settled := nofun
  agrees _ := ⟨nofun, nofun⟩

theorem Agrees.later {held : Bool} {lease : Option Nat} (agrees : Agrees held clock lease)
    (millis : Nat) : Agrees held (clock + millis) lease :=
  ⟨agrees.1, fun expiresAt leased runs => agrees.2 expiresAt leased (by omega)⟩

theorem Faithful.later (faithful : Faithful clock l) (millis : Nat) :
    Faithful (clock + millis) l where
  queued := faithful.queued
  nodup := faithful.nodup
  borrowed := faithful.borrowed
  settled call command found answer mutates eq :=
    (faithful.settled call command found answer mutates eq).later millis
  agrees quiet := (faithful.agrees quiet).later millis

/-- With no mutable borrow the flag agrees with the lease. -/
theorem Faithful.agrees_of_free (faithful : Faithful clock l) (free : l.mutator = none) :
    Agrees l.held clock l.lease := by
  refine faithful.agrees fun call command found answer mutates eq => ?_
  have held := faithful.borrowed call command ⟨mutates, .inr ⟨found, answer, eq⟩⟩
  rw [free] at held
  cases held

/-- A mutable borrow excludes every other. -/
theorem Faithful.only (faithful : Faithful clock l) {call call' : C} {command command' : Command}
    (mine : l.Mutates call command) (theirs : l.Mutates call' command') : call' = call := by
  have held := faithful.borrowed call command mine
  rw [faithful.borrowed call' command' theirs] at held
  exact Option.some.inj held

theorem Faithful.lose (faithful : Faithful clock l) {first : C × Command}
    {rest : List (C × Command)} (queue : l.queue = first :: rest) :
    Faithful clock { l with queue := rest } where
  queued call command member := by
    refine faithful.queued call command ?_
    rw [queue]
    exact .tail _ member
  nodup := by
    have nodup := faithful.nodup
    rw [queue] at nodup
    exact (List.nodup_cons.mp nodup).2
  borrowed := faithful.borrowed
  settled := faithful.settled
  agrees := faithful.agrees

theorem ready_iff {call : C} :
    l.ready call = true ↔ l.calls call = .idle ∧ l.mutator = none := by
  unfold Lock.ready
  split
  · simp [*]
  · rename_i other
    refine ⟨nofun, fun both => absurd both.2 fun free => other both.1 free⟩

variable [DecidableEq C]

/-- A new call that is answered at once. -/
theorem Faithful.refuse (faithful : Faithful clock l) {call : C} (ready : l.ready call = true) :
    Faithful clock (l.finish call .refused) := by
  obtain ⟨idle, free⟩ := ready_iff.mp ready
  have other : ∀ {call' phase}, Function.update l.calls call .refused call' = phase →
      phase ≠ .refused → l.calls call' = phase := by
    intro call' phase eq ne
    rcases phase_of_update eq with ⟨_, new⟩ | ⟨_, old⟩
    · exact absurd new.symm ne
    · exact old
  constructor
  · intro call' command member
    have sent := faithful.queued call' command member
    exact phase_keep sent (by rw [idle]; exact nofun)
  · exact faithful.nodup
  · rintro call' command ⟨mutates, sent | ⟨found, answer, answered⟩⟩
    · have held := faithful.borrowed call' command ⟨mutates, .inl (other sent nofun)⟩
      rw [free] at held
      cases held
    · have held := faithful.borrowed call' command
        ⟨mutates, .inr ⟨found, answer, other answered nofun⟩⟩
      rw [free] at held
      cases held
  · intro call' command found answer mutates answered
    exact faithful.settled call' command found answer mutates (other answered nofun)
  · exact fun _ => faithful.agrees_of_free free

/-- A new call that sends its command. -/
theorem Faithful.send (faithful : Faithful clock l) {call : C} (ready : l.ready call = true)
    (command : Command) : Faithful clock (l.send call command) := by
  obtain ⟨idle, free⟩ := ready_iff.mp ready
  have absent : ∀ command', (call, command') ∉ l.queue := by
    intro command' member
    have sent := faithful.queued call command' member
    rw [idle] at sent
    cases sent
  have nobody : ∀ call' command', ¬ l.Mutates call' command' := by
    intro call' command' mutates
    have held := faithful.borrowed call' command' mutates
    rw [free] at held
    cases held
  constructor
  · intro call' command' member
    rcases List.mem_append.mp member with old | new
    · have sent := faithful.queued call' command' old
      exact phase_keep sent (by rw [idle]; exact nofun)
    · cases List.mem_singleton.mp new
      exact Function.update_self _ _ _
  · dsimp only [Lock.send]
    rw [List.map_append, List.nodup_append]
    refine ⟨faithful.nodup, List.nodup_singleton _, fun a member b single => ?_⟩
    rw [List.map_singleton, List.mem_singleton] at single
    subst single
    obtain ⟨⟨call', command'⟩, queued, rfl⟩ := List.mem_map.mp member
    rintro rfl
    exact absent command' queued
  · rintro call' command' ⟨mutates, sent | ⟨found, answer, answered⟩⟩
    · rcases phase_of_update sent with ⟨rfl, new⟩ | ⟨_, old⟩
      · cases new
        exact if_pos mutates
      · exact absurd ⟨mutates, .inl old⟩ (nobody call' command')
    · rcases phase_of_update answered with ⟨_, new⟩ | ⟨_, old⟩
      · cases new
      · exact absurd ⟨mutates, .inr ⟨found, answer, old⟩⟩ (nobody call' command')
  · intro call' command' found answer mutates answered
    rcases phase_of_update answered with ⟨_, new⟩ | ⟨_, old⟩
    · cases new
    · exact absurd ⟨mutates, .inr ⟨found, some answer, old⟩⟩ (nobody call' command')
  · exact fun _ => faithful.agrees_of_free free

/-- What an answer makes of a lock whose call waits for it. -/
theorem Faithful.serve (faithful : Faithful clock l) {call : C} {command : Command}
    {rest : List (C × Command)} {found : Option String} {answer : Option Bool}
    (queue : l.queue = (call, command) :: rest)
    (mutating : command.mutates = true → ∀ result, answer = some result →
      Agrees (heldAfter l.held result command) clock (leaseAfter clock l.lease command answer))
    (shared : command.mutates = false → ∀ held, Agrees held clock l.lease →
      Agrees held clock (leaseAfter clock l.lease command answer)) :
    Faithful clock (l.serve clock call command rest found answer) := by
  have sent : l.calls call = .sent command := by
    refine faithful.queued call command ?_
    rw [queue]
    exact .head _
  have calls : (l.serve clock call command rest found answer).calls =
      Function.update l.calls call (.answered command found answer) := by
    simp only [Lock.serve, sent]
  have nodup : (call :: rest.map Prod.fst).Nodup := by
    have nodup := faithful.nodup
    rw [queue] at nodup
    exact nodup
  obtain ⟨first, nodup⟩ := List.nodup_cons.mp nodup
  constructor
  · intro call' command' member
    have ne : call' ≠ call := by
      rintro rfl
      exact first (List.mem_map.mpr ⟨_, member, rfl⟩)
    rw [calls, Function.update_of_ne ne]
    refine faithful.queued call' command' ?_
    rw [queue]
    exact .tail _ member
  · exact nodup
  · rintro call' command' ⟨mutates, holds⟩
    refine faithful.borrowed call' command' ⟨mutates, ?_⟩
    rw [calls] at holds
    rcases holds with waits | ⟨found', answer', answered⟩
    · rcases phase_of_update waits with ⟨_, new⟩ | ⟨_, old⟩
      · cases new
      · exact .inl old
    · rcases phase_of_update answered with ⟨rfl, new⟩ | ⟨_, old⟩
      · cases new
        exact .inl sent
      · exact .inr ⟨found', answer', old⟩
  · intro call' command' found' answer' mutates answered
    rw [calls] at answered
    rcases phase_of_update answered with ⟨_, new⟩ | ⟨ne, old⟩
    · cases new
      exact mutating mutates answer' rfl
    · cases isMutating : command.mutates with
      | true =>
          have mine : l.Mutates call command := ⟨isMutating, .inl sent⟩
          exact absurd (faithful.only mine ⟨mutates, .inr ⟨found', _, old⟩⟩) ne
      | false =>
          exact shared isMutating _ (faithful.settled call' command' found' answer' mutates old)
  · intro quiet
    rw [calls] at quiet
    cases isMutating : command.mutates with
    | true =>
        exact absurd (Function.update_self _ _ _) (quiet call command found answer isMutating)
    | false =>
        refine shared isMutating _ (faithful.agrees fun call' command' found' answer' mutates old =>
          quiet call' command' found' answer' mutates ?_)
        exact phase_keep old (by rw [sent]; exact nofun)

/-- A call that takes its answer. -/
theorem Faithful.receive (faithful : Faithful clock l) {call : C} {command : Command}
    {found : Option String} {result : Bool}
    (answered : l.calls call = .answered command found (some result)) :
    Faithful clock (l.receive call command found result) := by
  have other : ∀ {call' phase},
      Function.update l.calls call (.returned command found result) call' = phase →
      phase ≠ .returned command found result → call' ≠ call ∧ l.calls call' = phase := by
    intro call' phase eq ne
    rcases phase_of_update eq with ⟨_, new⟩ | ⟨apart, old⟩
    · exact absurd new.symm ne
    · exact ⟨apart, old⟩
  have held : command.mutates = false → heldAfter l.held result command = l.held := by
    intro shared
    cases command with
    | acquire millis => cases shared
    | extend millis => rfl
    | release => cases shared
  constructor
  · intro call' command' member
    exact phase_keep (faithful.queued call' command' member) (by rw [answered]; exact nofun)
  · exact faithful.nodup
  · rintro call' command' ⟨mutates, holds⟩
    obtain ⟨apart, theirs⟩ : call' ≠ call ∧ l.Mutates call' command' := by
      rcases holds with sent | ⟨found', answer', answered'⟩
      · exact ⟨(other sent nofun).1, mutates, .inl (other sent nofun).2⟩
      · exact ⟨(other answered' nofun).1, mutates,
          .inr ⟨found', answer', (other answered' nofun).2⟩⟩
    have borrowed := faithful.borrowed call' command' theirs
    dsimp only [Lock.receive, Lock.finish]
    rw [borrowed]
    exact if_neg fun same => apart (Option.some.inj same)
  · intro call' command' found' answer' mutates answered'
    obtain ⟨apart, old⟩ := other answered' nofun
    cases isMutating : command.mutates with
    | true =>
        have mine : l.Mutates call command := ⟨isMutating, .inr ⟨_, _, answered⟩⟩
        exact absurd (faithful.only mine ⟨mutates, .inr ⟨found', _, old⟩⟩) apart
    | false =>
        dsimp only [Lock.receive]
        rw [held isMutating]
        exact faithful.settled call' command' found' answer' mutates old
  · intro quiet
    cases isMutating : command.mutates with
    | true => exact faithful.settled call command found result isMutating answered
    | false =>
        dsimp only [Lock.receive]
        rw [held isMutating]
        refine faithful.agrees fun call' command' found' answer' mutates old => ?_
        have apart : call' ≠ call := by
          rintro rfl
          rw [answered] at old
          cases old
          rw [isMutating] at mutates
          cases mutates
        refine quiet call' command' found' answer' mutates ?_
        exact (Function.update_of_ne apart _ _).trans old

end Flag

/-! ## Steps of a lock -/

section Steps

variable {I C : Type} {l l' : Lock C}

/-- The call is an `acquire` that got `true`, with the token it found. -/
def Call.Acquired (call : Call) (found : Option String) : Prop :=
  ∃ millis, call = .answered (.acquire millis) found (some true) ∨
    call = .returned (.acquire millis) found true

/-- A step of a lock without Redis: its lease stays, no `acquire` gets `true`, and
its flag stays faithful unless the step is an error. -/
structure Quiet (l l' : Lock C) : Prop where
  lease : l'.lease = l.lease
  acquired : ∀ call found, (l'.calls call).Acquired found → (l.calls call).Acquired found
  errored : l'.errored = false → l.errored = false
  faithful : ∀ clock, l'.errored = false → Faithful clock l → Faithful clock l'

theorem Quiet.lose {first : C × Command} {rest : List (C × Command)}
    (queue : l.queue = first :: rest) : Quiet l { l with queue := rest } where
  lease := rfl
  acquired _ _ acquired := acquired
  errored eq := eq
  faithful _ _ faithful := faithful.lose queue

variable [DecidableEq C]

theorem Call.Acquired.of_update {calls : C → Call} {call call' : C} {phase : Call}
    {found : Option String} (acquired : (Function.update calls call phase call').Acquired found)
    (new : phase.Acquired found → (calls call).Acquired found) :
    (calls call').Acquired found := by
  rw [Function.update_apply] at acquired
  split at acquired
  · subst call'
    exact new acquired
  · exact acquired

theorem Quiet.fail (l : Lock C) (call : C) (error : RedisStoreError) :
    Quiet l (l.fail call error) where
  lease := rfl
  acquired _ _ acquired := acquired.of_update (by rintro ⟨_, eq | eq⟩ <;> cases eq)
  errored := nofun
  faithful := nofun

theorem Quiet.refuse {call : C} (ready : l.ready call = true) :
    Quiet l (l.finish call .refused) where
  lease := rfl
  acquired _ _ acquired := acquired.of_update (by rintro ⟨_, eq | eq⟩ <;> cases eq)
  errored eq := eq
  faithful _ _ faithful := faithful.refuse ready

theorem Quiet.send {call : C} (ready : l.ready call = true) (command : Command) :
    Quiet l (l.send call command) where
  lease := rfl
  acquired _ _ acquired := acquired.of_update (by rintro ⟨_, eq | eq⟩ <;> cases eq)
  errored eq := eq
  faithful _ _ faithful := faithful.send ready command

theorem Quiet.request {call : C} (ready : l.ready call = true)
    (failure : Option RedisStoreError) (command : Except RedisStoreError Command) :
    Quiet l (l.request call failure command) := by
  unfold Lock.request
  split
  · exact .fail l call _
  · exact .fail l call _
  · exact .send ready _

theorem Quiet.extend {call : C} (ready : l.ready call = true) (ttl : Nat)
    (failure : Option RedisStoreError) : Quiet l (l.extend call ttl failure) := by
  unfold Lock.extend
  split
  · exact .refuse ready
  · exact .request ready _ _

theorem Quiet.release {call : C} (ready : l.ready call = true)
    (failure : Option RedisStoreError) : Quiet l (l.release call failure) := by
  unfold Lock.release
  split
  · exact .refuse ready
  · exact .request ready _ _

theorem Quiet.receive {call : C} {command : Command} {found : Option String} {result : Bool}
    (answered : l.calls call = .answered command found (some result)) :
    Quiet l (l.receive call command found result) where
  lease := rfl
  acquired call' found' acquired := by
    refine acquired.of_update fun ⟨millis, new⟩ => ?_
    rcases new with eq | eq
    · cases eq
    · cases eq
      exact ⟨millis, .inl answered⟩
  errored eq := eq
  faithful _ _ faithful := faithful.receive answered

variable [DecidableEq I] {setup : Setup I} {s s' : System I C} {a : Action I C}

/-- Redis serves a command of the lock. -/
def Serves (setup : Setup I) (s : System I C) (lock : I) (call : C) (command : Command)
    (rest : List (C × Command)) : System I C :=
  { s.set lock ((s.locks lock).serve s.server.clock call command rest
      (s.server.get setup.key) (execute setup s.server lock command).2) with
    server := (execute setup s.server lock command).1 }

/-- A step is one of a lock without Redis, a command that Redis serves, or time
passing. -/
theorem step_cases (step : RedisLock.step setup s a = some s') :
    (∃ lock l', Quiet (s.locks lock) l' ∧ s' = s.set lock l') ∨
    (∃ lock call command rest, a = .serve lock ∧
      (s.locks lock).queue = (call, command) :: rest ∧
      s' = Serves setup s lock call command rest) ∨
    ∃ millis, s' = { s with server := s.server.elapse millis } := by
  cases a with
  | acquire lock call failure =>
      simp only [RedisLock.step] at step
      split at step <;> cases step
      exact .inl ⟨lock, _, .request ‹_› _ _, rfl⟩
  | extend lock call ttl failure =>
      simp only [RedisLock.step] at step
      split at step <;> cases step
      exact .inl ⟨lock, _, .extend ‹_› _ _, rfl⟩
  | release lock call failure =>
      simp only [RedisLock.step] at step
      split at step <;> cases step
      exact .inl ⟨lock, _, .release ‹_› _, rfl⟩
  | serve lock =>
      simp only [RedisLock.step] at step
      split at step <;> cases step
      exact .inr (.inl ⟨lock, _, _, _, rfl, ‹_›, rfl⟩)
  | lose lock =>
      simp only [RedisLock.step] at step
      split at step <;> cases step
      exact .inl ⟨lock, _, .lose ‹_›, rfl⟩
  | receive lock call =>
      simp only [RedisLock.step] at step
      split at step <;> cases step
      · exact .inl ⟨lock, _, .receive ‹_›, rfl⟩
      · exact .inl ⟨lock, _, .fail _ call _, rfl⟩
  | abort lock call error =>
      simp only [RedisLock.step] at step
      split at step <;> cases step
      · exact .inl ⟨lock, _, .fail _ call _, rfl⟩
      · exact .inl ⟨lock, _, .fail _ call _, rfl⟩
  | elapse millis =>
      cases step
      exact .inr (.inr ⟨millis, rfl⟩)

end Steps

/-! ## Runs -/

section Runs

variable {I C : Type} {setup : Setup I} {s s' : System I C} {a : Action I C}

/-- What holds in every run: leases are in step with the stored token, and an
`acquire` that got `true` found no token. -/
structure Inv (setup : Setup I) (s : System I C) : Prop where
  leases : Leases setup s.server fun lock => (s.locks lock).lease
  vacant : ∀ lock call found, ((s.locks lock).calls call).Acquired found → found = none

/-- Redis does not serve an `acquire` of a lock while the key holds its own token. -/
def AcquiresFree (setup : Setup I) (s : System I C) : Action I C → Prop
  | .serve lock => ∀ call millis rest, (s.locks lock).errored = false →
      (s.locks lock).queue = (call, .acquire millis) :: rest →
      s.server.get setup.key ≠ some (setup.token lock)
  | _ => True

/-- The flags of the locks whose calls all completed without error. -/
def Flags (s : System I C) : Prop :=
  ∀ lock, (s.locks lock).errored = false → Faithful s.server.clock (s.locks lock)

theorem Inv.init : Inv setup (System.new I C) where
  leases := Leases.init
  vacant := by
    rintro lock call found ⟨millis, eq | eq⟩ <;> cases eq

theorem execute_clock (setup : Setup I) (server : Server String) (lock : I)
    (command : Command) : (execute setup server lock command).1.clock = server.clock := by
  have effect := execute_effect setup server lock command
  generalize (execute setup server lock command).1 = server' at effect ⊢
  generalize (execute setup server lock command).2 = answer at effect
  cases effect <;> rfl

/-- An `acquire` succeeds only on a key without a token. -/
theorem execute_acquired {server : Server String} {lock : I} {millis : Nat}
    (acquired : (execute setup server lock (.acquire millis)).2 = some true) :
    server.get setup.key = none := by
  have effect := execute_effect setup server lock (.acquire millis)
  rw [acquired] at effect
  generalize (execute setup server lock (.acquire millis)).1 = server' at effect
  cases effect with
  | acquired vacant => exact vacant
  | unchanged fails foreign => exact absurd rfl fails

/-- A `release` or `extend` of a lock whose token is not stored changes nothing. -/
theorem execute_foreign {server : Server String} {lock : I} {command : Command}
    (foreign : server.get setup.key ≠ some (setup.token lock))
    (notAcquire : ∀ millis, command ≠ .acquire millis) :
    (execute setup server lock command).1 = server ∧
      (execute setup server lock command).2 ≠ some true := by
  have effect := execute_effect setup server lock command
  generalize (execute setup server lock command).1 = server' at effect ⊢
  generalize (execute setup server lock command).2 = answer at effect ⊢
  cases effect with
  | acquired vacant => exact absurd rfl (notAcquire _)
  | extended mine => exact absurd mine foreign
  | released mine => exact absurd mine foreign
  | unchanged fails _ => exact ⟨rfl, fails⟩

variable [DecidableEq I] [DecidableEq C]

omit [DecidableEq C] in
theorem set_lease {lock : I} (l : Lock C) : (fun other => ((s.set lock l).locks other).lease) =
    Function.update (fun other => (s.locks other).lease) lock l.lease := by
  funext other
  dsimp only [System.set]
  rw [Function.update_apply, Function.update_apply]
  split <;> rfl

omit [DecidableEq I] in
/-- Serving a command changes at most the call that sent it, which gets the
answer. -/
theorem serve_calls (l : Lock C) (clock : Nat) (call : C) (command : Command)
    (rest : List (C × Command)) (found : Option String) (answer : Option Bool) (other : C) :
    (l.serve clock call command rest found answer).calls other = l.calls other ∨
      (l.serve clock call command rest found answer).calls other =
        .answered command found answer := by
  cases phase : l.calls call with
  | sent sending =>
      simp only [Lock.serve, phase, Function.update_apply]
      split
      · exact .inr rfl
      · exact .inl rfl
  | _ =>
      simp only [Lock.serve, phase]
      exact .inl trivial

theorem Inv.step (inv : Inv setup s) (step : RedisLock.step setup s a = some s') :
    Inv setup s' := by
  rcases step_cases step with ⟨lock, l', quiet, rfl⟩ | ⟨lock, call, command, rest, _, queue, rfl⟩ |
    ⟨millis, rfl⟩
  · constructor
    · rw [set_lease, quiet.lease, Function.update_eq_self]
      exact inv.leases
    · intro other call found
      dsimp only [System.set]
      rw [Function.update_apply]
      split
      · exact fun acquired => inv.vacant lock call found (quiet.acquired call found acquired)
      · exact inv.vacant other call found
  · constructor
    · have leases := inv.leases.execute lock command
      rw [Serves, set_lease]
      exact leases
    · intro other call' found
      dsimp only [Serves, System.set]
      rw [Function.update_apply]
      split
      · subst other
        rintro ⟨millis, after⟩
        rcases serve_calls (s.locks lock) s.server.clock call command rest
          (s.server.get setup.key) (execute setup s.server lock command).2 call' with same | served
        · rw [same] at after
          exact inv.vacant lock call' found ⟨millis, after⟩
        · rw [served] at after
          rcases after with eq | eq
          · simp only [Call.answered.injEq] at eq
            obtain ⟨rfl, rfl, answer⟩ := eq
            exact execute_acquired answer
          · cases eq
      · exact inv.vacant other call' found
  · exact ⟨inv.leases.elapse millis, inv.vacant⟩

theorem Inv.reach {P : System I C → Action I C → Prop} (reach : (lts C setup).Reach P s) :
    Inv setup s :=
  reach.invariant Inv.init fun _ _ _ inv _ step => inv.step step

omit [DecidableEq I] [DecidableEq C] in
/-- A lease that runs is that of the stored token. -/
theorem Inv.runs (inv : Inv setup s) {lock : I}
    (foreign : s.server.get setup.key ≠ some (setup.token lock)) {expiresAt : Nat}
    (leased : (s.locks lock).lease = some expiresAt) : ¬ s.server.clock < expiresAt :=
  fun running => foreign ((inv.leases.get_iff lock).mpr ⟨expiresAt, leased, running⟩)

omit [DecidableEq I] in
/-- What Redis makes of the lease of the lock whose command it serves. -/
theorem Inv.serve (inv : Inv setup s) {lock : I} {call : C} {command : Command}
    {rest : List (C × Command)} (faithful : Faithful s.server.clock (s.locks lock))
    (queue : (s.locks lock).queue = (call, command) :: rest)
    (free : ∀ millis, command = .acquire millis →
      s.server.get setup.key ≠ some (setup.token lock)) :
    Faithful s.server.clock ((s.locks lock).serve s.server.clock call command rest
      (s.server.get setup.key) (execute setup s.server lock command).2) := by
  have effect := execute_effect setup s.server lock command
  generalize (execute setup s.server lock command).1 = server' at effect
  generalize (execute setup s.server lock command).2 = answer at effect ⊢
  refine faithful.serve queue (fun mutates result eq => ?_) fun shared held agrees => ?_
  · cases effect with
    | acquired vacant =>
        cases eq
        exact ⟨nofun, fun _ _ _ => rfl⟩
    | extended mine => cases mutates
    | released mine =>
        cases eq
        exact ⟨nofun, nofun⟩
    | unchanged fails foreign =>
        subst eq
        have refused : result = false := by
          cases result with
          | false => rfl
          | true => exact absurd rfl fails
        subst refused
        cases command with
        | acquire millis =>
            exact ⟨nofun, fun expiresAt leased running =>
              absurd running (inv.runs (free millis rfl) leased)⟩
        | extend millis => cases mutates
        | release =>
            exact ⟨nofun, fun expiresAt leased running =>
              absurd running (inv.runs (foreign rfl) leased)⟩
  · cases effect with
    | acquired vacant => cases shared
    | extended mine =>
        obtain ⟨expiresAt, leased, running⟩ := (inv.leases.get_iff lock).mp mine
        exact ⟨fun _ => nofun, fun _ _ _ => agrees.2 expiresAt leased running⟩
    | released mine => cases shared
    | unchanged fails foreign =>
        cases command with
        | acquire millis => cases shared
        | extend millis =>
            have same : leaseAfter s.server.clock (s.locks lock).lease (.extend millis) answer =
                (s.locks lock).lease := by
              unfold leaseAfter
              split <;> first | rfl | exact absurd rfl fails
            rw [same]
            exact agrees
        | release => cases shared

theorem Flags.step (flags : Flags s) (inv : Inv setup s) (free : AcquiresFree setup s a)
    (step : RedisLock.step setup s a = some s') : Flags s' := by
  rcases step_cases step with ⟨lock, l', quiet, rfl⟩ |
    ⟨lock, call, command, rest, rfl, queue, rfl⟩ | ⟨millis, rfl⟩
  · intro other
    dsimp only [System.set]
    rw [Function.update_apply]
    split
    · exact fun sound => quiet.faithful _ sound (flags lock (quiet.errored sound))
    · exact flags other
  · intro other
    dsimp only [Serves, System.set]
    rw [Function.update_apply, execute_clock]
    split
    · intro sound
      refine inv.serve (flags lock sound) queue fun millis eq => ?_
      subst eq
      exact free call millis rest sound queue
    · exact flags other
  · exact fun other sound => (flags other sound).later millis

theorem Flags.reach (reach : (lts C setup).Reach (AcquiresFree setup) s) : Flags s := by
  have both : Inv setup s ∧ Flags s := by
    refine reach.invariant (I := fun t => Inv setup t ∧ Flags t)
      ⟨Inv.init, fun _ _ => Faithful.init⟩ fun t a t' held free step => ?_
    exact ⟨held.1.step step, held.2.step held.1 free step⟩
  exact both.2

end Runs

/-- The lock protocol.  In every run: an `acquire` that returned `true` found no
token; a `release` or `extend` of a lock whose token is not stored changes nothing;
and while the lease of a lock runs, from the `acquire` that got it until its own
`release` or its expiry, no `acquire` of another succeeds.  In every run in which no
lock's `acquire` is served while its own token is stored: the flag of a lock whose
calls all completed without error is set exactly when its token is stored, as long
as its lease has not expired, and a lock whose token is stored can be released. -/
theorem lock_protocol {I C : Type} [DecidableEq I] [DecidableEq C] (setup : Setup I) :
    (∀ s : System I C, (lts C setup).Reachable s →
      (∀ lock call millis found,
        (s.locks lock).calls call = .returned (.acquire millis) found true → found = none) ∧
      (∀ lock call command rest s', (s.locks lock).queue = (call, command) :: rest →
        (command = .release ∨ ∃ millis, command = .extend millis) →
        s.server.get setup.key ≠ some (setup.token lock) →
        step setup s (.serve lock) = some s' → s'.server = s.server) ∧
      (∀ lock other expiresAt millis, (s.locks lock).lease = some expiresAt →
        s.server.clock < expiresAt → other ≠ lock →
        (execute setup s.server other (.acquire millis)).2 ≠ some true)) ∧
    (∀ s : System I C, (lts C setup).Reach (AcquiresFree setup) s →
      ∀ lock, (s.locks lock).errored = false → (s.locks lock).mutator = none →
        ((∀ expiresAt, (s.locks lock).lease = some expiresAt → s.server.clock < expiresAt) →
          ((s.locks lock).held = true ↔ s.server.get setup.key = some (setup.token lock))) ∧
        (s.server.get setup.key = some (setup.token lock) →
          (execute setup s.server lock .release).2 = some true ∧
          ∀ call, (s.locks lock).release call none = (s.locks lock).send call .release)) := by
  constructor
  · intro s reach
    have inv := Inv.reach reach
    refine ⟨fun lock call millis found returned => ?_, ?_, ?_⟩
    · exact inv.vacant lock call found ⟨millis, .inr returned⟩
    · intro lock call command rest s' queue kind foreign step
      have notAcquire : ∀ millis, command ≠ .acquire millis := by
        rcases kind with rfl | ⟨millis, rfl⟩ <;> exact nofun
      simp only [RedisLock.step, queue] at step
      cases step
      exact (execute_foreign foreign notAcquire).1
    · intro lock other expiresAt millis leased running _ acquired
      have stored := (inv.leases.get_iff lock).mpr ⟨expiresAt, leased, running⟩
      rw [execute_acquired acquired] at stored
      cases stored
  · intro s reach lock sound free
    have inv := Inv.reach reach
    have agrees := (Flags.reach reach lock sound).agrees_of_free free
    have flagged : s.server.get setup.key = some (setup.token lock) →
        (s.locks lock).held = true := by
      intro stored
      obtain ⟨expiresAt, leased, running⟩ := (inv.leases.get_iff lock).mp stored
      exact agrees.2 expiresAt leased running
    refine ⟨fun unexpired => ⟨fun held => ?_, flagged⟩, fun stored => ⟨?_, fun call => ?_⟩⟩
    · obtain ⟨expiresAt, leased⟩ := Option.ne_none_iff_exists'.mp (agrees.1 held)
      exact (inv.leases.get_iff lock).mpr ⟨expiresAt, leased, unexpired expiresAt leased⟩
    · simp only [execute, releaseLock, Server.del, stored, Option.isSome_some, if_true]
      rfl
    · have held := flagged stored
      simp only [Lock.release, held, Bool.true_eq_false, if_false]
      rfl

/-- Two locks on one key for five seconds. -/
def pairSetup : Setup Bool where
  key := "app:lock"
  token lock := if lock then "1-1700000000-1" else "1-1700000000-0"
  ttl _ := 5000000000
  distinct lock other := by
    revert lock other
    decide
  positive _ := by decide

/-- One lock is acquired, extended and released while the other contends for it. -/
def contendedRun : List (Action Bool Nat) :=
  [.acquire false 0 none, .serve false, .receive false 0, .acquire true 0 none, .serve true,
    .receive true 0, .extend false 1 10000000000 none, .serve false, .receive false 1,
    .elapse 6000]

theorem lock_protocol_contended :
    ∃ s : System Bool Nat, (lts Nat pairSetup).Reach (AcquiresFree pairSetup) s ∧
      (s.locks false).held = true ∧ (s.locks true).held = false ∧
      s.server.get pairSetup.key = some (pairSetup.token false) ∧
      (execute pairSetup s.server true (.acquire 5000)).2 ≠ some true := by
  have meets : (lts Nat pairSetup).Meets (AcquiresFree pairSetup) (System.new Bool Nat)
      contendedRun := by
    refine ⟨trivial, ?_, trivial, trivial, ?_, trivial, trivial, ?_, trivial, trivial, trivial⟩
    · intro call millis rest _ _
      decide
    · intro call millis rest _ _
      decide
    · intro call millis rest _ queue
      cases queue
  have reach := Lts.reach_of_exec contendedRun meets rfl
  obtain ⟨always, free⟩ := lock_protocol (C := Nat) pairSetup
  have held := (free _ reach false rfl rfl).1 (fun expiresAt leased => by cases leased; decide)
  exact ⟨_, reach, rfl, rfl, held.mp rfl,
    (always _ reach.reachable).2.2 false true 10000 5000 rfl (by decide) (by decide)⟩

/-- An owner that acquires its lock again is told `false` and believes it: its token
is stored, its lease runs, no call failed, and `release` refuses. -/
theorem reacquired_lock_is_disowned :
    ∃ s : System Bool Nat, (lts Nat pairSetup).Reachable s ∧
      (s.locks false).errored = false ∧ (s.locks false).mutator = none ∧
      (∃ expiresAt, (s.locks false).lease = some expiresAt ∧ s.server.clock < expiresAt) ∧
      s.server.get pairSetup.key = some (pairSetup.token false) ∧ (s.locks false).held = false ∧
      (s.locks false).calls 2 = .refused :=
  ⟨_, Lts.reachable_of_exec [.acquire false 0 none, .serve false, .receive false 0,
      .acquire false 1 none, .serve false, .receive false 1, .release false 2 none] rfl,
    rfl, rfl, ⟨5000, rfl, by decide⟩, by decide, rfl, rfl⟩

end RustZero.RedisLock
