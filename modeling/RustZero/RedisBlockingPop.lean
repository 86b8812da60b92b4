import RustZero.Lib.Lts
import RustZero.Lib.Phases
import RustZero.Redis

/-!
# Blocking list pops

`list_blocking_pop` of `core/src/stores_redis.rs` sends `BLPOP` or `BRPOP` with the
caller's timeout and waits at most the operation timeout for the reply.  Redis pops
an element as soon as a list of the command has one, within the command's timeout,
and serves the commands that wait for a list in the order they arrived in.  The two
deadlines are independent: a call that has timed out leaves its command with Redis.

Times are nanoseconds.  A command is served, and a reply taken, up to the very
instant its deadline falls on.  Replies arrive at once, so a reply is taken in the
step it is sent in; the empty reply to a command that expires is sent when it
expires.  `removed` is the element that the command of a call took from a list,
which nothing in the code keeps.

* `step` is one push, one call or a passing of time.
* `Inv` says where removed elements go: to the call, unless that has given up.
* `blocking_pop_keeps_elements`: none is lost exactly when the timeout is at most the
  operation timeout; `abandoned_pop_loses_element` is a run that loses one.
-/

namespace RustZero.RedisBlockingPop

open Lib Redis

structure RedisStoreConfig where
  keyPrefix : String
  operationTimeout : Nat

/-- `BLPOP` or `BRPOP`, and likewise for pushes. -/
inductive Side where
  | left
  | right
  deriving DecidableEq

/-- The arguments of a call. -/
structure Request where
  side : Side
  keys : List String
  timeout : Nat

inductive Call (B : Type) where
  | idle
  | waiting (request : Request) (sentAt : Nat)
  | returned (request : Request) (result : Except RedisStoreError (Option (String × B)))

/-- A command that Redis has not answered yet, with the keys as they were sent. -/
structure Blocked (C : Type) where
  call : C
  side : Side
  keys : List String
  sentAt : Nat
  timeout : Nat

structure System (C B : Type) where
  now : Nat
  lists : String → List B
  /-- In the order of their arrival. -/
  blocked : List (Blocked C)
  calls : C → Call B
  removed : C → Option (String × B)

def System.new (C : Type) {B : Type} (lists : String → List B) : System C B :=
  ⟨0, lists, [], fun _ => .idle, fun _ => none⟩

inductive Action (C B : Type) where
  /-- The connection fails with `failure`, if there is one. -/
  | pop (call : C) (request : Request) (failure : Option RedisStoreError)
  | push (side : Side) (key : String) (values : List B)
  | elapse (nanos : Nat)

section Step

variable {C B : Type}

def Side.pop : Side → List B → Option (B × List B)
  | _, [] => none
  | .left, value :: rest => some (value, rest)
  | .right, value :: rest => some ((value :: rest).getLast (by simp), (value :: rest).dropLast)

def Side.push : Side → List B → List B → List B
  | .left, values, items => values.reverse ++ items
  | .right, values, items => items ++ values

/-- The first of the keys whose list has an element, and that element popped. -/
def popFirst (side : Side) (lists : String → List B) :
    List String → Option (String × B × List B)
  | [] => none
  | key :: rest =>
      match side.pop (lists key) with
      | some (value, items) => some (key, value, items)
      | none => popFirst side lists rest

/-- Serve the commands that wait for a list, in their order, while it has elements:
what is left of the list, who still waits, and who got what. -/
def serve (key : String) : List B → List (Blocked C) → List B × List (Blocked C) × List (C × B)
  | items, [] => (items, [], [])
  | items, first :: rest =>
      if key ∈ first.keys then
        match first.side.pop items with
        | some (value, items) =>
            let (items, waiting, served) := serve key items rest
            (items, waiting, (first.call, value) :: served)
        | none => (items, first :: rest, [])
      else
        let (items, waiting, served) := serve key items rest
        (items, first :: waiting, served)

/-- `str::strip_prefix`, and the key itself without the namespace. -/
def stripPrefix (keyPrefix key : String) : String :=
  if keyPrefix.toList.isPrefixOf key.toList then
    String.ofList (key.toList.drop keyPrefix.toList.length)
  else key

/-- A reply that arrives now: a call that still waits for it returns it. -/
def Call.reply (keyPrefix : String) (popped : Option (String × B)) : Call B → Call B
  | .waiting request _ =>
      .returned request (.ok (popped.map fun (key, value) => (stripPrefix keyPrefix key, value)))
  | call => call

/-- The call when it has become `now`: the empty reply of a command that expired
before the operation timeout has arrived, or the operation timed out. -/
def Call.elapse (operationTimeout now : Nat) : Call B → Call B
  | .waiting request sentAt =>
      if request.timeout ≤ operationTimeout ∧ sentAt + request.timeout < now then
        .returned request (.ok none)
      else if sentAt + operationTimeout < now then .returned request (.error .timeout)
      else .waiting request sentAt
  | call => call

def invalidPop : RedisStoreError :=
  .invalidArgument "Redis blocking list pop requires keys and a positive timeout"

variable [DecidableEq C]

/-- The commands of these calls have taken these elements from the list. -/
def System.deliver (keyPrefix : String) (s : System C B) (key : String)
    (served : List (C × B)) : System C B :=
  { s with
    calls := fun call => match served.lookup call with
      | some value => (s.calls call).reply keyPrefix (some (key, value))
      | none => s.calls call
    removed := fun call => match served.lookup call with
      | some value => some (key, value)
      | none => s.removed call }

/-- One step. -/
def step (config : RedisStoreConfig) (s : System C B) : Action C B → Option (System C B)
  | .pop call request failure =>
      match s.calls call with
      | .idle =>
          if request.keys = [] ∨ request.timeout = 0 then
            some { s with
              calls := Function.update s.calls call (.returned request (.error invalidPop)) }
          else
            match failure with
            | some error =>
                some { s with
                  calls := Function.update s.calls call (.returned request (.error error)) }
            | none =>
                let keys := request.keys.map (storeKey config.keyPrefix)
                let sent := { s with
                  calls := Function.update s.calls call (.waiting request s.now) }
                match popFirst request.side s.lists keys with
                | some (key, value, items) =>
                    some (({ sent with lists := Function.update s.lists key items }).deliver
                      config.keyPrefix key [(call, value)])
                | none =>
                    some { sent with
                      blocked := s.blocked ++
                        [⟨call, request.side, keys, s.now, request.timeout⟩] }
      | _ => none
  | .push side key values =>
      let (items, waiting, served) := serve key (side.push values (s.lists key)) s.blocked
      some (({ s with
        lists := Function.update s.lists key items
        blocked := waiting }).deliver config.keyPrefix key served)
  | .elapse nanos =>
      let now := s.now + nanos
      some { s with
        now := now
        blocked := s.blocked.filter fun command => now ≤ command.sentAt + command.timeout
        calls := fun call => (s.calls call).elapse config.operationTimeout now }

/-- Every order of pushes and calls on a store, from any state of the lists. -/
def lts (C : Type) [DecidableEq C] (config : RedisStoreConfig) (lists : String → List B) :
    Lts (System C B) (Action C B) where
  init := .new C lists
  step := step config

end Step

/-! ## What is served -/

section Served

variable {C B : Type}

theorem stripPrefix_storeKey (keyPrefix key : String) :
    stripPrefix keyPrefix (storeKey keyPrefix key) = key := by
  unfold stripPrefix storeKey
  rw [String.toList_append, if_pos, List.drop_left, String.ofList_toList]
  exact List.isPrefixOf_iff_prefix.mpr (List.prefix_append _ _)

theorem popFirst_mem {side : Side} {lists : String → List B} {keys : List String}
    {key : String} {value : B} {items : List B}
    (popped : popFirst side lists keys = some (key, value, items)) : key ∈ keys := by
  induction keys with
  | nil => cases popped
  | cons first rest ih =>
      unfold popFirst at popped
      split at popped
      · cases popped
        exact .head _
      · exact .tail _ (ih popped)

/-- Every command that was waiting is served or still waits. -/
theorem serve_perm (key : String) (items : List B) (blocked : List (Blocked C)) :
    (blocked.map Blocked.call).Perm ((serve key items blocked).2.2.map Prod.fst ++
      (serve key items blocked).2.1.map Blocked.call) := by
  induction blocked generalizing items with
  | nil => exact .refl _
  | cons first rest ih =>
      unfold serve
      split
      · split
        · exact (ih _).cons first.call
        · exact .refl _
      · exact ((ih items).cons first.call).trans List.perm_middle.symm

/-- Who still waits was waiting. -/
theorem serve_waiting {key : String} {items : List B} {blocked : List (Blocked C)}
    {command : Blocked C} (waits : command ∈ (serve key items blocked).2.1) :
    command ∈ blocked := by
  induction blocked generalizing items with
  | nil => exact waits
  | cons first rest ih =>
      unfold serve at waits
      split at waits
      · split at waits
        · exact .tail _ (ih waits)
        · exact waits
      · rcases List.mem_cons.mp waits with rfl | later
        · exact .head _
        · exact .tail _ (ih later)

/-- Who is served was waiting for the key. -/
theorem serve_served {key : String} {items : List B} {blocked : List (Blocked C)} {call : C}
    {value : B} (served : (call, value) ∈ (serve key items blocked).2.2) :
    ∃ command ∈ blocked, command.call = call ∧ key ∈ command.keys := by
  induction blocked generalizing items with
  | nil => cases served
  | cons first rest ih =>
      unfold serve at served
      split at served
      · split at served
        · rcases List.mem_cons.mp served with eq | later
          · cases eq
            exact ⟨first, .head _, rfl, ‹_›⟩
          · obtain ⟨command, member, holds⟩ := ih later
            exact ⟨command, .tail _ member, holds⟩
        · cases served
      · obtain ⟨command, member, holds⟩ := ih served
        exact ⟨command, .tail _ member, holds⟩

theorem mem_of_lookup [DecidableEq C] {served : List (C × B)} {call : C} {value : B}
    (found : served.lookup call = some value) : (call, value) ∈ served := by
  obtain ⟨before, after, eq, _⟩ := List.lookup_eq_some_iff.mp found
  rw [eq]
  exact List.mem_append_right _ (.head _)

end Served

/-! ## Where removed elements go -/

section Invariant

variable {C B : Type} {config : RedisStoreConfig} {s s' : System C B} {a : Action C B}

/-- The command is that of the request. -/
def Sends (config : RedisStoreConfig) (command : Blocked C) (request : Request) : Prop :=
  command.keys = request.keys.map (storeKey config.keyPrefix) ∧
    command.timeout = request.timeout

/-- The call has timed out before its command could expire. -/
def GaveUp (config : RedisStoreConfig) (call : Call B) (request : Request) : Prop :=
  call = .returned request (.error .timeout) ∧ config.operationTimeout < request.timeout

/-- The call has returned the element, under the caller's name for the key. -/
def Got (config : RedisStoreConfig) (call : Call B) (request : Request) (key : String)
    (value : B) : Prop :=
  ∃ name ∈ request.keys, storeKey config.keyPrefix name = key ∧
    call = .returned request (.ok (some (name, value)))

/-- A command that Redis has belongs to a call that waits for it or has given up on
it, and what a command removed was returned by such a call or lost. -/
structure Inv (config : RedisStoreConfig) (s : System C B) : Prop where
  nodup : (s.blocked.map Blocked.call).Nodup
  blocked : ∀ command ∈ s.blocked, s.now ≤ command.sentAt + command.timeout ∧
    ∃ request, Sends config command request ∧
      (s.calls command.call = .waiting request command.sentAt ∨
        GaveUp config (s.calls command.call) request)
  removed : ∀ call key value, s.removed call = some (key, value) →
    ∃ request, Got config (s.calls call) request key value ∨
      GaveUp config (s.calls call) request

theorem Inv.init (lists : String → List B) : Inv config (System.new C lists) where
  nodup := List.nodup_nil
  blocked := nofun
  removed := nofun

/-- A call that waits for a key gets what is popped from it. -/
theorem reply_got {request : Request} {sentAt : Nat} {key : String} {value : B}
    (member : key ∈ request.keys.map (storeKey config.keyPrefix)) :
    Got config ((Call.waiting request sentAt).reply config.keyPrefix (some (key, value))) request
      key value := by
  obtain ⟨name, named, rfl⟩ := List.mem_map.mp member
  refine ⟨name, named, rfl, ?_⟩
  simp only [Call.reply, Option.map_some, stripPrefix_storeKey]

/-- When time passes a call that waits gives up only if its command can outlast
it. -/
theorem elapse_waiting {operationTimeout now : Nat} {request : Request} {sentAt : Nat}
    (alive : now ≤ sentAt + request.timeout) :
    (Call.waiting (B := B) request sentAt).elapse operationTimeout now = .waiting request sentAt ∨
      (Call.waiting (B := B) request sentAt).elapse operationTimeout now =
        .returned request (.error .timeout) ∧ operationTimeout < request.timeout := by
  simp only [Call.elapse]
  rw [if_neg (by omega)]
  split
  · exact .inr ⟨rfl, by omega⟩
  · exact .inl rfl

theorem Inv.elapse (inv : Inv config s) (nanos : Nat) :
    Inv config { s with
      now := s.now + nanos
      blocked := s.blocked.filter fun command =>
        s.now + nanos ≤ command.sentAt + command.timeout
      calls := fun call => (s.calls call).elapse config.operationTimeout (s.now + nanos) } where
  nodup := inv.nodup.sublist (List.filter_sublist.map _)
  blocked := by
    intro command member
    obtain ⟨member, alive⟩ := List.mem_filter.mp member
    have alive := of_decide_eq_true alive
    obtain ⟨_, request, sends, holds⟩ := inv.blocked command member
    refine ⟨alive, request, sends, ?_⟩
    dsimp only
    rcases holds with waiting | ⟨timedOut, longer⟩
    · rw [waiting]
      rw [sends.2] at alive
      rcases elapse_waiting alive with still | gaveUp
      · exact .inl still
      · exact .inr gaveUp
    · rw [timedOut]
      exact .inr ⟨rfl, longer⟩
  removed := by
    intro call key value removed
    obtain ⟨request, ⟨name, named, same, got⟩ | ⟨timedOut, longer⟩⟩ :=
      inv.removed call key value removed
    · refine ⟨request, .inl ⟨name, named, same, ?_⟩⟩
      dsimp only
      rw [got]
      rfl
    · refine ⟨request, .inr ⟨?_, longer⟩⟩
      dsimp only
      rw [timedOut]
      rfl

variable [DecidableEq C]

/-- Elements are delivered to calls that wait for the key, or have given up on it. -/
theorem Inv.deliver (inv : Inv config s) {key : String} {served : List (C × B)}
    {lists : String → List B} {waiting : List (Blocked C)}
    (perm : (s.blocked.map Blocked.call).Perm
      (served.map Prod.fst ++ waiting.map Blocked.call))
    (waits : ∀ command ∈ waiting, command ∈ s.blocked)
    (serves : ∀ call value, (call, value) ∈ served →
      ∃ command ∈ s.blocked, command.call = call ∧ key ∈ command.keys) :
    Inv config (({ s with lists := lists, blocked := waiting }).deliver config.keyPrefix key
      served) := by
  have nodup := perm.nodup_iff.mp inv.nodup
  obtain ⟨_, kept, apart⟩ := List.nodup_append.mp nodup
  constructor
  · exact kept
  · intro command member
    have old := inv.blocked command (waits command member)
    have unserved : served.lookup command.call = none := by
      cases found : served.lookup command.call with
      | none => rfl
      | some value =>
          have mine : command.call ∈ served.map Prod.fst :=
            List.mem_map.mpr ⟨_, mem_of_lookup found, rfl⟩
          exact absurd rfl (apart _ mine _ (List.mem_map.mpr ⟨command, member, rfl⟩))
    simp only [System.deliver, unserved]
    exact old
  · intro call key' value removed
    simp only [System.deliver] at removed ⊢
    cases found : served.lookup call with
    | none =>
        rw [found] at removed
        exact inv.removed call key' value removed
    | some popped =>
        rw [found] at removed
        cases removed
        obtain ⟨command, member, rfl, key⟩ := serves call value (mem_of_lookup found)
        obtain ⟨_, request, sends, holds⟩ := inv.blocked command member
        refine ⟨request, ?_⟩
        dsimp only
        rcases holds with waiting | ⟨timedOut, longer⟩
        · rw [waiting]
          rw [sends.1] at key
          exact .inl (reply_got key)
        · rw [timedOut]
          exact .inr ⟨rfl, longer⟩

/-- A new call has no command and has removed nothing. -/
theorem Inv.start (inv : Inv config s) {call : C} (idle : s.calls call = .idle)
    (phase : Call B) : Inv config { s with calls := Function.update s.calls call phase } where
  nodup := inv.nodup
  blocked := by
    intro command member
    obtain ⟨alive, request, sends, holds⟩ := inv.blocked command member
    have ne : command.call ≠ call := by
      rintro rfl
      rw [idle] at holds
      rcases holds with eq | ⟨eq, _⟩ <;> cases eq
    dsimp only
    rw [Function.update_of_ne ne]
    exact ⟨alive, request, sends, holds⟩
  removed := by
    intro call' key value removed
    obtain ⟨request, holds⟩ := inv.removed call' key value removed
    have ne : call' ≠ call := by
      rintro rfl
      rw [idle] at holds
      rcases holds with ⟨_, _, _, eq⟩ | ⟨eq, _⟩ <;> cases eq
    dsimp only
    rw [Function.update_of_ne ne]
    exact ⟨request, holds⟩

/-- A new call whose command Redis has. -/
theorem Inv.send (inv : Inv config s) {call : C} (idle : s.calls call = .idle)
    (request : Request) :
    Inv config { s with
      calls := Function.update s.calls call (.waiting request s.now)
      blocked := s.blocked ++ [⟨call, request.side, request.keys.map (storeKey config.keyPrefix),
        s.now, request.timeout⟩] } := by
  have started := inv.start idle (.waiting request s.now)
  have absent : call ∉ s.blocked.map Blocked.call := by
    intro member
    obtain ⟨command, waits, rfl⟩ := List.mem_map.mp member
    obtain ⟨_, _, _, holds⟩ := inv.blocked command waits
    rw [idle] at holds
    rcases holds with eq | ⟨eq, _⟩ <;> cases eq
  constructor
  · rw [List.map_append, List.nodup_append]
    refine ⟨inv.nodup, List.nodup_singleton _, fun a member b single => ?_⟩
    rw [List.map_singleton, List.mem_singleton] at single
    subst single
    rintro rfl
    exact absent member
  · intro command member
    rcases List.mem_append.mp member with old | new
    · exact started.blocked command old
    · rw [List.mem_singleton] at new
      subst new
      exact ⟨Nat.le_add_right _ _, request, ⟨rfl, rfl⟩, .inl (Function.update_self _ _ _)⟩
  · exact started.removed

theorem Inv.step (inv : Inv config s) (step : RedisBlockingPop.step config s a = some s') :
    Inv config s' := by
  cases a with
  | pop call request failure =>
      simp only [RedisBlockingPop.step] at step
      split at step
      · rename_i idle
        split at step
        · cases step
          exact inv.start idle _
        · split at step
          · cases step
            exact inv.start idle _
          · split at step
            · rename_i key value items popped
              cases step
              -- a command that finds an element is one that is served at once
              refine (inv.send idle request).deliver ?_
                (fun command member => List.mem_append_left _ member) fun call' value' served => ?_
              · rw [List.map_append]
                exact List.perm_append_comm
              · cases List.mem_singleton.mp served
                exact ⟨_, List.mem_append_right _ (.head _), rfl, popFirst_mem popped⟩
            · cases step
              exact inv.send idle request
      · cases step
  | push side key values =>
      cases step
      exact inv.deliver (serve_perm _ _ _) (fun _ waits => serve_waiting waits)
        fun _ _ served => serve_served served
  | elapse nanos =>
      cases step
      exact inv.elapse nanos

theorem Inv.reach {P : System C B → Action C B → Prop} {lists : String → List B}
    (reach : (lts C config lists).Reach P s) : Inv config s :=
  reach.invariant (Inv.init lists) fun _ _ _ inv _ step => inv.step step

end Invariant

/-- The timeout a call was made with. -/
def Call.timeout {B : Type} : Call B → Option Nat
  | .idle => none
  | .waiting request _ => some request.timeout
  | .returned request _ => some request.timeout

/-- What the command of the call removed from a list is what the call returned. -/
def Keeps {C B : Type} (config : RedisStoreConfig) (s : System C B) (call : C) : Prop :=
  ∀ key value, s.removed call = some (key, value) →
    ∃ request, Got config (s.calls call) request key value

/-- A call gives up, and an element comes while its command still waits. -/
def abandonedRun {C B : Type} (config : RedisStoreConfig) (call : C) (timeout : Nat) (value : B) :
    List (Action C B) :=
  [.pop call ⟨.left, ["jobs"], timeout⟩ none, .elapse (config.operationTimeout + 1),
    .push .right (storeKey config.keyPrefix "jobs") [value]]

theorem abandonedRun_loses {C B : Type} [DecidableEq C] (config : RedisStoreConfig) (call : C)
    {timeout : Nat} (value : B) (longer : config.operationTimeout < timeout) :
    ∃ s : System C B, (lts C config fun _ => []).exec (System.new C fun _ => [])
        (abandonedRun config call timeout value) = some s ∧
      s.removed call = some (storeKey config.keyPrefix "jobs", value) ∧
      s.calls call = .returned ⟨.left, ["jobs"], timeout⟩ (.error .timeout) := by
  have accepted : ¬ (["jobs"] = [] ∨ timeout = 0) := by
    rintro (empty | zero)
    · cases empty
    · omega
  obtain ⟨sent, pops, now, blocked, waiting, empty⟩ : ∃ sent : System C B,
      step config (System.new C fun _ => []) (.pop call ⟨.left, ["jobs"], timeout⟩ none) =
        some sent ∧ sent.now = 0 ∧
      sent.blocked = [⟨call, .left, [storeKey config.keyPrefix "jobs"], 0, timeout⟩] ∧
      sent.calls call = .waiting ⟨.left, ["jobs"], timeout⟩ 0 ∧
      sent.lists (storeKey config.keyPrefix "jobs") = [] := by
    simp only [step, System.new, if_neg accepted]
    refine ⟨_, rfl, rfl, rfl, ?_, rfl⟩
    dsimp only
    rw [Function.update_self]
  obtain ⟨late, elapses, blocked, timedOut, empty⟩ : ∃ late : System C B,
      step config sent (.elapse (config.operationTimeout + 1)) = some late ∧
      late.blocked = [⟨call, .left, [storeKey config.keyPrefix "jobs"], 0, timeout⟩] ∧
      late.calls call = .returned ⟨.left, ["jobs"], timeout⟩ (.error .timeout) ∧
      late.lists (storeKey config.keyPrefix "jobs") = [] := by
    refine ⟨_, rfl, ?_, ?_, empty⟩
    · dsimp only
      rw [blocked, now]
      rw [List.filter_cons, if_pos, List.filter_nil]
      exact decide_eq_true (by dsimp only; omega)
    · dsimp only
      rw [waiting, now]
      simp only [Call.elapse]
      rw [if_neg (by omega), if_pos (by omega)]
  refine ⟨(step config late (.push .right (storeKey config.keyPrefix "jobs") [value])).get rfl,
    ?_, ?_, ?_⟩
  · simp only [Lts.exec, lts, abandonedRun, pops, elapses, Option.bind_some]
    rfl
  · simp only [step, Option.get_some, System.deliver, blocked, empty, Side.push, List.nil_append,
      serve, List.mem_singleton, if_true, Side.pop, List.lookup_cons_self]
  · simp only [step, Option.get_some, System.deliver, timedOut, Call.reply]
    split <;> rfl

/-- For every positive timeout and every operation timeout: the calls with that
timeout return every element their commands remove, in every run from every state of
the lists, with any pushes and other calls in between, if and only if the timeout is
at most the operation timeout. -/
theorem blocking_pop_keeps_elements {C B : Type} [DecidableEq C] [Inhabited C] [Inhabited B]
    (config : RedisStoreConfig) (timeout : Nat) (positive : 0 < timeout) :
    (∀ (lists : String → List B) (s : System C B), (lts C config lists).Reachable s →
      ∀ call, (s.calls call).timeout = some timeout → Keeps config s call) ↔
    timeout ≤ config.operationTimeout := by
  constructor
  · intro keeps
    by_contra notShorter
    have longer : config.operationTimeout < timeout := Nat.lt_of_not_le notShorter
    have run := abandonedRun_loses (C := C) (B := B) config default default longer
    obtain ⟨s, run, removed, timedOut⟩ := run
    have reach := Lts.reachable_of_exec _ run
    obtain ⟨request, name, _, _, got⟩ :=
      keeps _ s reach default (by rw [timedOut]; rfl) _ _ removed
    rw [timedOut] at got
    cases got
  · intro shorter lists s reach call made key value removed
    obtain ⟨request, got | ⟨timedOut, longer⟩⟩ := (Inv.reach reach).removed call key value removed
    · exact ⟨request, got⟩
    · rw [timedOut] at made
      cases made
      omega

/-- The default operation timeout of three seconds. -/
def defaultConfig : RedisStoreConfig := ⟨"app:", 3000000000⟩

/-- A call with a timeout of two seconds gets an element that comes after one. -/
theorem blocking_pop_keeps_elements_in_time :
    ∃ s : System Nat Nat, (lts Nat defaultConfig fun _ => []).Reachable s ∧
      s.removed 0 = some (storeKey "app:" "jobs", 7) ∧ Keeps defaultConfig s 0 := by
  have reach := Lts.reachable_of_exec (L := lts Nat defaultConfig fun _ => ([] : List Nat))
    [.pop 0 ⟨.left, ["jobs"], 2000000000⟩ none, .elapse 1000000000,
      .push .right (storeKey "app:" "jobs") [7]] rfl
  exact ⟨_, reach, rfl, (blocking_pop_keeps_elements defaultConfig 2000000000 (by decide)).mpr
    (by decide) _ _ reach 0 rfl⟩

/-- A call with a timeout of five seconds gives up after three, and its command takes
an element that comes after that. -/
theorem abandoned_pop_loses_element :
    ∃ s : System Nat Nat, (lts Nat defaultConfig fun _ => []).Reachable s ∧
      s.removed 0 = some (storeKey "app:" "jobs", 7) ∧
      s.calls 0 = .returned ⟨.left, ["jobs"], 5000000000⟩ (.error .timeout) := by
  obtain ⟨s, run, removed, timedOut⟩ :=
    abandonedRun_loses defaultConfig 0 7 (by decide : 3000000000 < 5000000000)
  exact ⟨s, Lts.reachable_of_exec _ run, removed, timedOut⟩

end RustZero.RedisBlockingPop
