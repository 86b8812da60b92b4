import RustZero.Lib.Lts
import RustZero.Lib.Phases
import RustZero.Mcp

/-!
# Requests in flight on an MCP session

`http_post` and `legacy_message_post` of `mcp/src/lib.rs` keep an abort handle
for each request they execute in the session's `requests` map: they insert it
under the key of the client's request id, await the dispatch under a timeout, and
remove the key afterwards.  `cancel` and `terminate` abort through the map, and
`is_expired` takes an empty map for an idle session.

A request is *running* from its insertion to its removal.  Nothing guards the
entry of a request in between, so the map is exactly the running requests as long
as no running request has the key of a new one, no handler of `http_post` is
dropped while it executes, and no request registers after the abort loop of a
termination (`Regular`).  Every step that breaks the condition breaks the table
at once (`request_table_exact`).

The legacy transport executes requests on a spawned task, which outlives its
handler; only `http_post` handlers can be dropped.  Ids are an arbitrary type `V`
with their JSON text as `requestKey`.
-/

namespace RustZero.McpRequests

open Lib Mcp

/-! ## Requests -/

inductive Transport where
  | httpPost
  | legacyMessagePost
  deriving DecidableEq, Repr

/-- How a dispatch ends under the timeout and the abort handle. -/
inductive Outcome where
  | result
  | error
  | cancelled
  | timedOut
  deriving DecidableEq, Repr

inductive Request (V : Type) where
  | idle
  | executing (id : V) (transport : Transport) (aborted : Bool)
  /-- The dispatch is over, the entry is not yet removed. -/
  | finished (id : V) (outcome : Outcome)
  | answered (outcome : Outcome)
  /-- The handler was dropped. -/
  | abandoned
  deriving DecidableEq, Repr

/-- The id of a request between its insertion and its removal. -/
def Request.running {V : Type} : Request V → Option V
  | .executing id _ _ => some id
  | .finished id _ => some id
  | _ => none

/-- `AbortHandle::abort`. -/
def Request.abort {V : Type} : Request V → Request V
  | .executing id transport _ => .executing id transport true
  | request => request

inductive Terminator where
  | idle
  /-- The flag is swapped and this call was the first. -/
  | aborting
  | finished
  deriving DecidableEq, Repr

section System

variable {ι κ τ V α : Type}

def insertRequest (session : Session ι α) (key : String) (request : ι) : Session ι α :=
  { session with
    requests := (key, request) :: session.requests.filter fun entry => entry.1 ≠ key }

def removeRequest (session : Session ι α) (key : String) : Session ι α :=
  { session with requests := session.requests.filter fun entry => entry.1 ≠ key }

structure System (ι κ τ V α : Type) where
  session : Session ι α
  now : Nat
  requests : ι → Request V
  /-- Whether an event stream is open. -/
  streams : κ → Bool
  terminators : τ → Terminator
  /-- Ghost: the abort loop of a termination has run. -/
  swept : Bool

inductive Action (ι κ τ V : Type) where
  | register (request : ι) (id : V) (transport : Transport)
  | complete (request : ι) (outcome : Outcome)
  | remove (request : ι)
  | dropHandler (request : ι)
  | cancel (id : V)
  | openStream (stream : κ)
  | closeStream (stream : κ)
  | touch
  | swapTerminated (call : τ)
  | abortRequests (call : τ)
  | advance (elapsed : Nat)

variable [DecidableEq ι] [DecidableEq κ] [DecidableEq τ]

/-- `cancel` on the map of handles. -/
def cancel (s : System ι κ τ V α) (key : String) : System ι κ τ V α :=
  match s.session.requests.lookup key with
  | none => s
  | some request =>
      { s with requests := Function.update s.requests request (s.requests request).abort }

/-- The abort loop of `terminate`. -/
def abortRequests (s : System ι κ τ V α) : ι → Request V := fun request =>
  if request ∈ s.session.requests.map Prod.snd then (s.requests request).abort
  else s.requests request

def step (requestKey : V → String) (s : System ι κ τ V α) :
    Action ι κ τ V → Option (System ι κ τ V α)
  | .register request id transport =>
      match s.requests request with
      | .idle =>
          some { s with
            session := insertRequest s.session (requestKey id) request
            requests := Function.update s.requests request (.executing id transport false) }
      | _ => none
  | .complete request outcome =>
      match s.requests request with
      | .executing id _ aborted =>
          if outcome = .cancelled ∧ aborted = false then none
          else some { s with
            requests := Function.update s.requests request (.finished id outcome) }
      | _ => none
  | .remove request =>
      match s.requests request with
      | .finished id outcome =>
          some { s with
            session := (removeRequest s.session (requestKey id)).touch s.now
            requests := Function.update s.requests request (.answered outcome) }
      | _ => none
  | .dropHandler request =>
      match s.requests request with
      | .executing _ .httpPost _ =>
          some { s with requests := Function.update s.requests request .abandoned }
      | _ => none
  | .cancel id => some (cancel s (requestKey id))
  | .openStream stream =>
      if s.streams stream then none
      else some { s with
        session := { s.session with activeStreams := s.session.activeStreams + 1 }
        streams := Function.update s.streams stream true }
  | .closeStream stream =>
      if s.streams stream then
        some { s with
          session := { s.session with activeStreams := s.session.activeStreams - 1 }.touch s.now
          streams := Function.update s.streams stream false }
      else none
  | .touch => some { s with session := s.session.touch s.now }
  | .swapTerminated call =>
      match s.terminators call with
      | .idle =>
          some { s with
            session := { s.session with terminated := true }
            terminators := Function.update s.terminators call
              (if s.session.terminated then .finished else .aborting) }
      | _ => none
  | .abortRequests call =>
      match s.terminators call with
      | .aborting =>
          some { s with
            requests := abortRequests s
            terminators := Function.update s.terminators call .finished
            swept := true }
      | _ => none
  | .advance elapsed => some { s with now := s.now + elapsed }

/-- Every interleaving on a new session. -/
def lts (ι κ τ V α : Type) [DecidableEq ι] [DecidableEq κ] [DecidableEq τ]
    (requestKey : V → String) (replayCapacity : Nat) :
    Lts (System ι κ τ V α) (Action ι κ τ V) where
  init := {
    session := Session.new ι α "" 0 replayCapacity
    now := 0
    requests := fun _ => .idle
    streams := fun _ => false
    terminators := fun _ => .idle
    swept := false }
  step := step requestKey

/-! ## The table -/

/-- The map holds the handles of exactly the running requests, each under the key
of its id. -/
def TableExact (requestKey : V → String) (session : Session ι α) (requests : ι → Request V) :
    Prop :=
  ∀ key request, (key, request) ∈ session.requests ↔
    ∃ id, (requests request).running = some id ∧ key = requestKey id

/-- No un-aborted request is executing. -/
def AllAborted (requests : ι → Request V) : Prop :=
  ∀ request id transport aborted, requests request = .executing id transport aborted →
    aborted = true

/-- What the table is for: it is exact, `cancel` aborts every executing request of
an id, a termination that has swept the table leaves none un-aborted, and a
session at rest expires. -/
structure Exact (requestKey : V → String) (s : System ι κ τ V α) : Prop where
  table : TableExact requestKey s.session s.requests
  cancels : ∀ id request transport aborted,
    (cancel s (requestKey id)).requests request = .executing id transport aborted →
      aborted = true
  swept : s.swept = true → AllAborted s.requests
  expires : ∀ idleTimeout, (∀ request, (s.requests request).running = none) →
    (∀ stream, s.streams stream = false) → idleTimeout ≤ s.now - s.session.lastAccess →
      s.session.isExpired s.now idleTimeout = true

/-- No request registers under the key of a running one or after the abort loop
of a termination, and no executing handler is dropped. -/
def Regular (requestKey : V → String) (s : System ι κ τ V α) : Action ι κ τ V → Prop
  | .register _ id _ => s.swept = false ∧ ∀ other otherId,
      (s.requests other).running = some otherId → requestKey otherId ≠ requestKey id
  | .dropHandler _ => False
  | _ => True

/-! ## What a step does -/

variable {requestKey : V → String} {s s' : System ι κ τ V α} {a : Action ι κ τ V}

/-- The enabled actions with their guards and what they change. -/
inductive Takes (requestKey : V → String) (s : System ι κ τ V α) :
    Action ι κ τ V → System ι κ τ V α → Prop where
  | register (request : ι) (id : V) (transport : Transport)
      (idle : s.requests request = .idle) :
      Takes requestKey s (.register request id transport) { s with
        session := insertRequest s.session (requestKey id) request
        requests := Function.update s.requests request (.executing id transport false) }
  | complete (request : ι) (id : V) (transport : Transport) (aborted : Bool) (outcome : Outcome)
      (executing : s.requests request = .executing id transport aborted) :
      Takes requestKey s (.complete request outcome) { s with
        requests := Function.update s.requests request (.finished id outcome) }
  | remove (request : ι) (id : V) (outcome : Outcome)
      (finished : s.requests request = .finished id outcome) :
      Takes requestKey s (.remove request) { s with
        session := (removeRequest s.session (requestKey id)).touch s.now
        requests := Function.update s.requests request (.answered outcome) }
  | dropHandler (request : ι) (id : V) (aborted : Bool)
      (executing : s.requests request = .executing id .httpPost aborted) :
      Takes requestKey s (.dropHandler request) { s with
        requests := Function.update s.requests request .abandoned }
  | cancel (id : V) : Takes requestKey s (.cancel id) (cancel s (requestKey id))
  | openStream (stream : κ) (closed : s.streams stream = false) :
      Takes requestKey s (.openStream stream) { s with
        session := { s.session with activeStreams := s.session.activeStreams + 1 }
        streams := Function.update s.streams stream true }
  | closeStream (stream : κ) (opened : s.streams stream = true) :
      Takes requestKey s (.closeStream stream) { s with
        session := { s.session with activeStreams := s.session.activeStreams - 1 }.touch s.now
        streams := Function.update s.streams stream false }
  | touch : Takes requestKey s .touch { s with session := s.session.touch s.now }
  | swapTerminated (call : τ) (next : Terminator) :
      Takes requestKey s (.swapTerminated call) { s with
        session := { s.session with terminated := true }
        terminators := Function.update s.terminators call next }
  | abortRequests (call : τ) :
      Takes requestKey s (.abortRequests call) { s with
        requests := abortRequests s
        terminators := Function.update s.terminators call .finished
        swept := true }
  | advance (elapsed : Nat) :
      Takes requestKey s (.advance elapsed) { s with now := s.now + elapsed }

theorem step_takes (taken : step requestKey s a = some s') : Takes requestKey s a s' := by
  cases a with
  | register request id transport =>
      simp only [step] at taken
      split at taken
      · rename_i idle
        cases taken
        exact .register request id transport idle
      · cases taken
  | complete request outcome =>
      simp only [step] at taken
      split at taken
      · rename_i id transport aborted executing
        split at taken
        · cases taken
        · cases taken
          exact .complete request id transport aborted outcome executing
      · cases taken
  | remove request =>
      simp only [step] at taken
      split at taken
      · rename_i id outcome finished
        cases taken
        exact .remove request id outcome finished
      · cases taken
  | dropHandler request =>
      simp only [step] at taken
      split at taken
      · rename_i id aborted executing
        cases taken
        exact .dropHandler request id aborted executing
      · cases taken
  | cancel id =>
      cases taken
      exact .cancel id
  | openStream stream =>
      simp only [step] at taken
      split at taken
      · cases taken
      · rename_i closed
        cases taken
        exact .openStream stream (Bool.eq_false_iff.mpr closed)
  | closeStream stream =>
      simp only [step] at taken
      split at taken
      · rename_i opened
        cases taken
        exact .closeStream stream opened
      · cases taken
  | touch =>
      cases taken
      exact .touch
  | swapTerminated call =>
      simp only [step] at taken
      split at taken
      · cases taken
        exact .swapTerminated call _
      · cases taken
  | abortRequests call =>
      simp only [step] at taken
      split at taken
      · cases taken
        exact .abortRequests call
      · cases taken
  | advance elapsed =>
      cases taken
      exact .advance elapsed

/-! ## Insertion and removal -/

section Table

variable {session session' : Session ι α} {requests requests' : ι → Request V}
  {request : ι} {next : Request V} {id : V}

/-- No two running requests have one key. -/
def Separate (requestKey : V → String) (requests : ι → Request V) : Prop :=
  ∀ left right idLeft idRight, (requests left).running = some idLeft →
    (requests right).running = some idRight → requestKey idLeft = requestKey idRight →
      left = right

@[simp] theorem Request.running_abort (phase : Request V) :
    phase.abort.running = phase.running := by
  cases phase with
  | idle => rfl
  | executing id transport aborted => rfl
  | finished id outcome => rfl
  | answered outcome => rfl
  | abandoned => rfl

omit [DecidableEq ι] in
theorem mem_removeRequest {key other : String} :
    (other, request) ∈ (removeRequest session key).requests ↔
      (other, request) ∈ session.requests ∧ other ≠ key := by
  simp [removeRequest]

omit [DecidableEq ι] in
theorem mem_insertRequest {key other : String} {inserted : ι} :
    (other, request) ∈ (insertRequest session key inserted).requests ↔
      other = key ∧ request = inserted ∨ (other, request) ∈ session.requests ∧ other ≠ key := by
  simp [insertRequest]

omit [DecidableEq ι] in
theorem TableExact.mem (table : TableExact requestKey session requests)
    (running : (requests request).running = some id) :
    (requestKey id, request) ∈ session.requests :=
  (table _ _).mpr ⟨id, running, rfl⟩

omit [DecidableEq ι] in
/-- A step that neither starts nor ends a request. -/
theorem TableExact.keep (table : TableExact requestKey session requests)
    (same : session'.requests = session.requests)
    (running : ∀ request, (requests' request).running = (requests request).running) :
    TableExact requestKey session' requests' := by
  intro key request
  rw [same, running request]
  exact table key request

theorem TableExact.register (table : TableExact requestKey session requests)
    (idle : (requests request).running = none) (running : next.running = some id)
    (fresh : ∀ other otherId, (requests other).running = some otherId →
      requestKey otherId ≠ requestKey id) :
    TableExact requestKey (insertRequest session (requestKey id) request)
      (Function.update requests request next) := by
  intro key other
  rw [mem_insertRequest]
  by_cases mine : other = request
  · subst mine
    rw [Function.update_self, running]
    constructor
    · intro listed
      rcases listed with ⟨same, _⟩ | ⟨old, _⟩
      · exact ⟨id, rfl, same⟩
      · obtain ⟨_, before, _⟩ := (table key other).mp old
        rw [idle] at before
        cases before
    · intro mine
      obtain ⟨_, this, key⟩ := mine
      cases this
      exact .inl ⟨key, rfl⟩
  · rw [Function.update_of_ne mine, table key other]
    constructor
    · intro listed
      rcases listed with ⟨_, clash⟩ | ⟨old, _⟩
      · exact (mine clash).elim
      · exact old
    · intro runs
      obtain ⟨otherId, before, same⟩ := runs
      refine .inr ⟨⟨otherId, before, same⟩, ?_⟩
      rw [same]
      exact fresh other otherId before

theorem TableExact.remove (table : TableExact requestKey session requests)
    (separate : Separate requestKey requests) (running : (requests request).running = some id)
    (ended : next.running = none) :
    TableExact requestKey (removeRequest session (requestKey id))
      (Function.update requests request next) := by
  intro key other
  rw [mem_removeRequest, table key other]
  by_cases mine : other = request
  · subst mine
    rw [Function.update_self, ended, running]
    constructor
    · intro left
      obtain ⟨⟨_, this, same⟩, different⟩ := left
      cases this
      exact (different same).elim
    · intro runs
      obtain ⟨_, impossible, _⟩ := runs
      cases impossible
  · rw [Function.update_of_ne mine]
    constructor
    · exact fun held => held.1
    · intro runs
      obtain ⟨otherId, before, same⟩ := runs
      refine ⟨⟨otherId, before, same⟩, ?_⟩
      intro clash
      rw [same] at clash
      exact mine (separate other request otherId id before running clash)

omit [DecidableEq ι] in
theorem Separate.keep (separate : Separate requestKey requests)
    (running : ∀ request, (requests' request).running = (requests request).running) :
    Separate requestKey requests' := by
  intro left right idLeft idRight first second
  rw [running left] at first
  rw [running right] at second
  exact separate left right idLeft idRight first second

/-- The running requests after one of them, or a new one, moved. -/
theorem Separate.update (separate : Separate requestKey requests)
    (fresh : ∀ other otherId id, next.running = some id → other ≠ request →
      (requests other).running = some otherId → requestKey otherId ≠ requestKey id) :
    Separate requestKey (Function.update requests request next) := by
  intro left right idLeft idRight first second same
  by_cases mineLeft : left = request <;> by_cases mineRight : right = request
  · rw [mineLeft, mineRight]
  · rw [mineLeft, Function.update_self] at first
    rw [Function.update_of_ne mineRight] at second
    exact (fresh right idRight idLeft first mineRight second same.symm).elim
  · rw [Function.update_of_ne mineLeft] at first
    rw [mineRight, Function.update_self] at second
    exact (fresh left idLeft idRight second mineLeft first same).elim
  · rw [Function.update_of_ne mineLeft] at first
    rw [Function.update_of_ne mineRight] at second
    exact separate left right idLeft idRight first second same

theorem AllAborted.update (all : AllAborted requests)
    (safe : ∀ id transport, next ≠ .executing id transport false) :
    AllAborted (Function.update requests request next) := by
  intro other id transport aborted after
  rcases phase_of_update after with ⟨_, mine⟩ | ⟨_, old⟩
  · cases aborted with
    | true => rfl
    | false => exact (safe id transport mine).elim
  · exact all other id transport aborted old

omit [DecidableEq ι] in
/-- An executing request is aborted once it is. -/
theorem aborted_of_abort {phase : Request V} {transport : Transport} {aborted : Bool}
    (after : phase.abort = .executing id transport aborted) : aborted = true := by
  cases phase with
  | executing _ _ _ =>
      cases after
      rfl
  | idle => cases after
  | finished _ _ => cases after
  | answered _ => cases after
  | abandoned => cases after

omit [DecidableEq ι] in
/-- The handle found under a key is the one request that has it. -/
theorem lookup_eq (table : TableExact requestKey session requests)
    (separate : Separate requestKey requests) (running : (requests request).running = some id) :
    session.requests.lookup (requestKey id) = some request := by
  cases found : session.requests.lookup (requestKey id) with
  | none =>
      have absent := List.lookup_eq_none_iff.mp found _ (table.mem running)
      simp at absent
  | some other =>
      obtain ⟨before, after, split, _⟩ := List.lookup_eq_some_iff.mp found
      have member : (requestKey id, other) ∈ session.requests := by
        rw [split]
        exact List.mem_append_right _ (List.mem_cons_self)
      obtain ⟨otherId, theirs, same⟩ := (table _ _).mp member
      rw [separate other request otherId id theirs running same.symm]

end Table

/-! ## Regular runs -/

structure Inv (requestKey : V → String) (s : System ι κ τ V α) : Prop where
  table : TableExact requestKey s.session s.requests
  separate : Separate requestKey s.requests
  swept : s.swept = true → AllAborted s.requests
  streams : ∃ opened, Census opened s.streams (· = true) ∧
    s.session.activeStreams = opened.card

omit [DecidableEq κ] [DecidableEq τ] in
/-- A cancellation touches the requests only. -/
theorem cancel_eq (s : System ι κ τ V α) (key : String) :
    cancel s key = { s with requests := (cancel s key).requests } := by
  unfold cancel
  split
  · rfl
  · rfl

omit [DecidableEq κ] [DecidableEq τ] in
theorem cancel_request (s : System ι κ τ V α) (key : String) (request : ι) :
    (cancel s key).requests request =
      if s.session.requests.lookup key = some request then (s.requests request).abort
      else s.requests request := by
  unfold cancel
  split
  · rename_i none
    rw [none, if_neg (by simp)]
  · rename_i found lookup
    simp only [lookup]
    by_cases mine : request = found
    · rw [mine, Function.update_self, if_pos rfl]
    · rw [Function.update_of_ne mine, if_neg]
      intro same
      exact mine (Option.some.inj same).symm

omit [DecidableEq κ] [DecidableEq τ] in
theorem running_cancel (s : System ι κ τ V α) (key : String) (request : ι) :
    ((cancel s key).requests request).running = (s.requests request).running := by
  rw [cancel_request]
  split
  · exact Request.running_abort _
  · rfl

omit [DecidableEq κ] [DecidableEq τ] in
theorem running_abortRequests (s : System ι κ τ V α) (request : ι) :
    (abortRequests s request).running = (s.requests request).running := by
  unfold abortRequests
  split
  · exact Request.running_abort _
  · rfl

omit [DecidableEq κ] [DecidableEq τ] in
theorem Inv.exact (inv : Inv requestKey s) : Exact requestKey s where
  table := inv.table
  cancels := by
    intro id request transport aborted after
    have running : (s.requests request).running = some id := by
      rw [← running_cancel s (requestKey id) request, after]
      rfl
    rw [cancel_request, if_pos (lookup_eq inv.table inv.separate running)] at after
    exact aborted_of_abort after
  swept := inv.swept
  expires := by
    intro idleTimeout quiet closed elapsed
    have empty : s.session.requests = [] := by
      refine List.eq_nil_iff_forall_not_mem.mpr ?_
      intro entry member
      obtain ⟨key, request⟩ := entry
      obtain ⟨_, running, _⟩ := (inv.table key request).mp member
      rw [quiet request] at running
      cases running
    obtain ⟨opened, census, count⟩ := inv.streams
    have none : opened = ∅ := by
      refine Finset.eq_empty_of_forall_notMem ?_
      intro stream member
      have live := (census stream).mp member
      rw [closed stream] at live
      cases live
    rw [none, Finset.card_empty] at count
    simp [Session.isExpired, count, empty, elapsed]

theorem init_inv (requestKey : V → String) (replayCapacity : Nat) :
    Inv requestKey (lts ι κ τ V α requestKey replayCapacity).init where
  table := by
    intro key request
    constructor
    · exact nofun
    · intro runs
      obtain ⟨_, impossible, _⟩ := runs
      cases impossible
  separate := nofun
  swept := nofun
  streams := ⟨∅, Census.empty (fun _ => nofun), rfl⟩

omit [DecidableEq ι] in
theorem abort_keeps_allAborted {requests requests' : ι → Request V} (all : AllAborted requests)
    (same : ∀ request, requests' request = requests request ∨
      requests' request = (requests request).abort) : AllAborted requests' := by
  intro request id transport aborted after
  rcases same request with kept | aborted'
  · rw [kept] at after
    exact all request id transport aborted after
  · rw [aborted'] at after
    exact aborted_of_abort after

/-- A regular step preserves the invariant. -/
theorem Inv.step (inv : Inv requestKey s) (regular : Regular requestKey s a)
    (taken : step requestKey s a = some s') : Inv requestKey s' := by
  cases step_takes taken with
  | register request id transport idle =>
      obtain ⟨unswept, fresh⟩ := regular
      have before : (s.requests request).running = none := by
        rw [idle]
        rfl
      refine ⟨inv.table.register before rfl fresh, inv.separate.update ?_, ?_, inv.streams⟩
      · intro other otherId _ this _ running
        cases this
        exact fresh other otherId running
      · intro swept
        rw [unswept] at swept
        cases swept
  | complete request id transport aborted outcome executing =>
      have running : ∀ other,
          (Function.update s.requests request (.finished id outcome) other).running =
            (s.requests other).running := by
        intro other
        by_cases mine : other = request
        · rw [mine, Function.update_self, executing]
          rfl
        · rw [Function.update_of_ne mine]
      exact ⟨inv.table.keep rfl running, inv.separate.keep running,
        fun swept => (inv.swept swept).update (fun _ _ => nofun), inv.streams⟩
  | remove request id outcome finished =>
      have running : (s.requests request).running = some id := by
        rw [finished]
        rfl
      refine ⟨inv.table.remove inv.separate running rfl, inv.separate.update (fun _ _ _ => nofun),
        fun swept => (inv.swept swept).update (fun _ _ => nofun), inv.streams⟩
  | dropHandler request id aborted executing => exact regular.elim
  | cancel id =>
      have running := running_cancel s (requestKey id)
      rw [cancel_eq]
      refine ⟨inv.table.keep rfl running, inv.separate.keep running, ?_, inv.streams⟩
      intro swept
      refine abort_keeps_allAborted (inv.swept swept) ?_
      intro request
      rw [cancel_request]
      split
      · exact .inr rfl
      · exact .inl rfl
  | openStream stream closed =>
      obtain ⟨opened, census, count⟩ := inv.streams
      have before : ¬ s.streams stream = true := by
        rw [closed]
        exact nofun
      refine ⟨inv.table, inv.separate, inv.swept, insert stream opened, census.enter rfl, ?_⟩
      simp only [count, census.card_enter before]
  | closeStream stream live =>
      obtain ⟨opened, census, count⟩ := inv.streams
      have card := census.card_leave live
      refine ⟨inv.table, inv.separate, inv.swept, opened.erase stream, census.leave nofun, ?_⟩
      simp only [Session.touch]
      omega
  | touch => exact ⟨inv.table, inv.separate, inv.swept, inv.streams⟩
  | swapTerminated call next => exact ⟨inv.table, inv.separate, inv.swept, inv.streams⟩
  | abortRequests call =>
      have running := running_abortRequests s
      refine ⟨inv.table.keep rfl running, inv.separate.keep running, ?_, inv.streams⟩
      -- Every executing request is in the table the loop goes through.
      intro _ request id transport aborted after
      dsimp only at after
      have mine : (s.requests request).running = some id := by
        rw [← running request, after]
        rfl
      have listed : request ∈ s.session.requests.map Prod.snd :=
        List.mem_map.mpr ⟨_, inv.table.mem mine, rfl⟩
      simp only [abortRequests, if_pos listed] at after
      exact aborted_of_abort after
  | advance elapsed => exact ⟨inv.table, inv.separate, inv.swept, inv.streams⟩

theorem inv_of_reach {replayCapacity : Nat}
    (reach : (lts ι κ τ V α requestKey replayCapacity).Reach (Regular requestKey) s) :
    Inv requestKey s :=
  reach.invariant (init_inv requestKey replayCapacity)
    fun _ _ _ inv regular taken => inv.step regular taken

/-! ## Irregular steps -/

/-- A step that keeps the table exact is regular. -/
theorem regular_of_exact (inv : Inv requestKey s) (taken : step requestKey s a = some s')
    (exact' : Exact requestKey s') : Regular requestKey s a := by
  cases step_takes taken with
  | register request id transport idle =>
      constructor
      · -- The new request would run un-aborted beside the sweep.
        by_contra swept
        rw [Bool.not_eq_false] at swept
        have aborted := exact'.swept swept request id transport false
          (Function.update_self request _ s.requests)
        cases aborted
      · -- The insertion would drop the handle of the other request.
        intro other otherId running clash
        have different : other ≠ request := by
          intro same
          rw [same, idle] at running
          cases running
        have still : (Function.update s.requests request (.executing id transport false)
            other).running = some otherId := by
          rw [Function.update_of_ne different]
          exact running
        have listed := (exact'.table (requestKey otherId) other).mpr ⟨otherId, still, rfl⟩
        rcases mem_insertRequest.mp listed with ⟨_, same⟩ | ⟨_, distinct⟩
        · exact different same
        · exact distinct clash
  | dropHandler request id aborted executing =>
      -- The entry stays behind.
      have running : (s.requests request).running = some id := by
        rw [executing]
        rfl
      obtain ⟨_, left, _⟩ := (exact'.table _ _).mp (inv.table.mem running)
      simp only [Function.update_self] at left
      cases left
  | complete request id transport aborted outcome executing => trivial
  | remove request id outcome finished => trivial
  | cancel id => trivial
  | openStream stream closed => trivial
  | closeStream stream live => trivial
  | touch => trivial
  | swapTerminated call next => trivial
  | abortRequests call => trivial
  | advance elapsed => trivial

/-- In every regular run the table is exact in every state, and a further step
keeps it exact if and only if that step is regular. -/
theorem request_table_exact (requestKey : V → String) (replayCapacity : Nat)
    (s : System ι κ τ V α)
    (reach : (lts ι κ τ V α requestKey replayCapacity).Reach (Regular requestKey) s) :
    Exact requestKey s ∧ ∀ a s', step requestKey s a = some s' →
      (Exact requestKey s' ↔ Regular requestKey s a) := by
  have inv := inv_of_reach reach
  refine ⟨inv.exact, ?_⟩
  intro a s' taken
  constructor
  · exact regular_of_exact inv taken
  · intro regular
    exact (inv.step regular taken).exact

end System

/-- Two requests with different ids on one session, the second of which is
cancelled and answered. -/
theorem request_table_exact_cancelled :
    ∃ s : System Bool Unit Unit Nat Unit,
      s.requests false = .executing 1 .httpPost false ∧
      s.requests true = .answered .cancelled ∧ s.session.requests = [("1", false)] ∧
      Exact toString s := by
  have meets : (lts Bool Unit Unit Nat Unit toString 256).Meets (Regular toString)
      (lts _ _ _ _ _ toString 256).init
      [.register false 1 .httpPost, .register true 2 .legacyMessagePost, .cancel 2,
        .complete true .cancelled, .remove true] := by
    refine ⟨⟨rfl, nofun⟩, ⟨rfl, ?_⟩, trivial, trivial, trivial, trivial⟩
    intro other otherId running
    cases other with
    | false =>
        cases running
        decide
    | true => cases running
  have cancelled : ∃ s : System Bool Unit Unit Nat Unit,
      (lts Bool Unit Unit Nat Unit toString 256).Reach (Regular toString) s ∧
      s.requests false = .executing 1 .httpPost false ∧
      s.requests true = .answered .cancelled ∧ s.session.requests = [("1", false)] :=
    ⟨_, Lts.reach_of_exec _ meets rfl, by decide, by decide, by decide⟩
  obtain ⟨s, reach, first, second, table⟩ := cancelled
  exact ⟨s, first, second, table, (request_table_exact toString 256 s reach).1⟩

/-- The three ways out of the table: with a second request of the same id a
cancellation leaves the first executing, a dropped handler keeps an idle session
from expiring, and a request registered after the abort loop executes on a
terminated session. -/
theorem request_table_inexact :
    (∃ s : System Bool Unit Unit Nat Unit,
      (lts Bool Unit Unit Nat Unit toString 256).Reachable s ∧
      s.requests false = .executing 1 .httpPost false ∧
      (cancel s (toString 1)).requests false = .executing 1 .httpPost false) ∧
    (∃ s : System Unit Unit Unit Nat Unit,
      (lts Unit Unit Unit Nat Unit toString 256).Reachable s ∧
      (∀ request, (s.requests request).running = none) ∧
      (∀ stream, s.streams stream = false) ∧ 1800000 ≤ s.now - s.session.lastAccess ∧
      s.session.isExpired s.now 1800000 = false) ∧
    (∃ s : System Unit Unit Unit Nat Unit,
      (lts Unit Unit Unit Nat Unit toString 256).Reachable s ∧
      s.terminators () = .finished ∧ s.requests () = .executing 1 .httpPost false) := by
  refine ⟨?_, ?_, ?_⟩
  · exact ⟨_, Lts.reachable_of_exec
      [.register false 1 .httpPost, .register true 1 .httpPost] rfl, by decide, by decide⟩
  · exact ⟨_, Lts.reachable_of_exec
      [.register () 1 .httpPost, .dropHandler (), .advance 1800000] rfl, by decide, by decide,
      by decide, by decide⟩
  · exact ⟨_, Lts.reachable_of_exec
      [.swapTerminated (), .abortRequests (), .register () 1 .httpPost] rfl, by decide, by decide⟩

end RustZero.McpRequests
