import RustZero.Lib.KeyValueLog
import RustZero.Etcd

/-!
# Etcd service discovery

`EtcdClient::subscribe` of `core/src/etcd.rs`: the task that keeps the entries
under a service prefix up to date from watch responses, relists after a broken
stream, and publishes the sorted endpoints.

Etcd is its log of transactions, with the number of transactions as revision.  A
watch stream delivers the mutations under the prefix after its cursor in order,
any number of revisions at a time; the header of a response carries a revision
that may be ahead of what has been delivered (a delayed or a cancelled watch).  A
`get` lists the store at its header revision.  `System.processed` is a ghost: the
revision up to which the task has seen the log.

The three places that decode values differ.  `subscribe` fails on a value that is
not UTF-8, a relist skips it, and a watch response with one ends the task.  And
since a relist that fails is not repeated, the next watch starts from the header
revision, past the mutations that were never delivered.  `endpoints_mirrored` says
that there is nothing else: the task goes on, and what it publishes is the
endpoints at the last processed revision, in every run that delivers UTF-8 values
and opens no watch past undelivered mutations (`Regular`).  The latter takes a
header that is ahead (`regular_of_synced`).
-/

namespace RustZero.EtcdDiscovery

open Lib Etcd

/-! ## Etcd -/

abbrev Key := List UInt8

abbrev Log := List (List (Mutation Key ByteArray))

/-- The largest `i64`, the type of revisions. -/
def maxRevision : Nat := 2 ^ 63 - 1

def eventOf : Mutation Key ByteArray → Event
  | .put key value => ⟨.put, some ⟨key, value⟩⟩
  | .delete key => ⟨.delete, some ⟨key, ByteArray.empty⟩⟩

/-- Whether a key is under a service prefix. -/
def under (servicePrefix key : Key) : Bool :=
  servicePrefix.isPrefixOf key

/-- The mutations under the prefix in the revisions after `lo` and up to `hi`. -/
def delivered (servicePrefix : Key) (log : Log) (lo hi : Nat) : List (Mutation Key ByteArray) :=
  (between log lo hi).filter fun mutation => under servicePrefix mutation.key

def watchResponse (servicePrefix : Key) (log : Log) (lo hi header : Nat) : WatchResponse where
  header := some header
  events := (delivered servicePrefix log lo hi).map eventOf

def getResponse (servicePrefix : Key) (log : Log) (revision : Nat) : GetResponse where
  header := some revision
  kvs := (listing (under servicePrefix) (stateAt log revision)).map fun pair => ⟨pair.1, pair.2⟩

/-! ## The task -/

abbrev Entries := Table Key String

/-- `sorted_endpoints`. -/
def sortedEndpoints (entries : Entries) : List String :=
  sortDedup (entries.entries.map Sigma.snd)

/-- The variables of the task, with the value of the watch channel. -/
structure Locals where
  revision : Nat
  entries : Entries
  published : List String

/-- The loop over the entries of the first response. -/
def collect : List KeyValue → Entries → Except (EtcdError Unit) Entries
  | [], entries => .ok entries
  | kv :: rest, entries =>
      match kv.valueStr with
      | .error error => .error error
      | .ok endpoint => collect rest (entries.insert kv.key endpoint)

/-- `subscribe` up to the spawn of the task. -/
def subscribe (response : GetResponse) : Except (EtcdError Unit) Locals :=
  match collect response.kvs ∅ with
  | .error error => .error error
  | .ok entries => .ok ⟨response.header.getD 0, entries, sortedEndpoints entries⟩

/-- The loop over the events of a response, with `changed`. -/
def applyEvents : List Event → Entries → Bool → Except (EtcdError Unit) (Entries × Bool)
  | [], entries, changed => .ok (entries, changed)
  | event :: rest, entries, changed =>
      match event.kv with
      | none => applyEvents rest entries changed
      | some kv =>
          match event.eventType with
          | .put =>
              match kv.valueStr with
              | .error error => .error error
              | .ok endpoint => applyEvents rest (entries.insert kv.key endpoint) true
          | .delete => applyEvents rest (entries.erase kv.key) true

/-- The task on a message of the stream. -/
def handleMessage (locals : Locals) (response : WatchResponse) : Except (EtcdError Unit) Locals :=
  match applyEvents response.events locals.entries false with
  | .error error => .error error
  | .ok (entries, changed) => .ok {
      revision := response.header.elim locals.revision (max locals.revision)
      entries := entries
      published := if changed then sortedEndpoints entries else locals.published }

/-- The task on a relist that succeeded. -/
def relist (locals : Locals) (response : GetResponse) : Locals :=
  let entries := response.kvs.foldl
    (fun entries kv =>
      match kv.valueStr (ε := Unit) with
      | .ok endpoint => entries.insert kv.key endpoint
      | .error _ => entries)
    (∅ : Entries)
  { revision := response.header.getD locals.revision
    entries := entries
    published := sortedEndpoints entries }

/-- `revision.saturating_add(1)`. -/
def startRevision (locals : Locals) : Nat :=
  min (locals.revision + 1) maxRevision

/-! ## The system -/

inductive Task where
  /-- `subscribe` has not returned. -/
  | absent
  /-- At the head of the loop, before the watch is opened. -/
  | opening
  /-- The stream has delivered everything up to the cursor. -/
  | streaming (cursor : Nat)
  /-- After a broken stream, before the relist. -/
  | relisting
  | terminated (error : EtcdError Unit)
  deriving DecidableEq, Repr

structure System where
  log : Log
  task : Task
  locals : Locals
  /-- Ghost: the revision up to which the log is processed. -/
  processed : Nat

inductive Action where
  | commit (transaction : List (Mutation Key ByteArray))
  | subscribe (revision : Nat)
  | openWatch
  | watchError
  /-- A response with the mutations up to `upto` and the header revision
  `header`. -/
  | message (upto header : Nat)
  | breakStream
  | relist (revision : Nat)
  | relistError

def step (servicePrefix : Key) (s : System) : Action → Option System
  | .commit transaction =>
      if s.log.length + 1 < maxRevision then some { s with log := s.log ++ [transaction] } else none
  | .subscribe revision =>
      match s.task with
      | .absent =>
          if revision ≤ s.log.length then
            match subscribe (getResponse servicePrefix s.log revision) with
            | .error _ => none
            | .ok locals =>
                some { s with task := .opening, locals := locals, processed := revision }
          else none
      | _ => none
  | .openWatch =>
      match s.task with
      | .opening => some { s with task := .streaming (startRevision s.locals - 1) }
      | _ => none
  | .watchError =>
      match s.task with
      | .opening => some { s with task := .relisting }
      | _ => none
  | .message upto header =>
      match s.task with
      | .streaming cursor =>
          if cursor ≤ upto ∧ upto ≤ header ∧ header ≤ s.log.length then
            match handleMessage s.locals
                (watchResponse servicePrefix s.log cursor upto header) with
            | .error error => some { s with task := .terminated error }
            | .ok locals =>
                some { s with task := .streaming upto, locals := locals, processed := upto }
          else none
      | _ => none
  | .breakStream =>
      match s.task with
      | .streaming _ => some { s with task := .relisting }
      | _ => none
  | .relist revision =>
      match s.task with
      | .relisting =>
          if revision ≤ s.log.length then
            some { s with
              task := .opening
              locals := relist s.locals (getResponse servicePrefix s.log revision)
              processed := revision }
          else none
      | _ => none
  | .relistError =>
      match s.task with
      | .relisting => some { s with task := .opening }
      | _ => none

/-- Every interleaving of transactions, responses and failures. -/
def lts (servicePrefix : Key) : Lts System Action where
  init := {
    log := []
    task := .absent
    locals := ⟨0, ∅, []⟩
    processed := 0 }
  step := step servicePrefix

/-! ## What is published -/

/-- The list is strictly increasing and holds exactly the endpoints under the
prefix in the store. -/
def EndpointsOf (servicePrefix : Key) (store : Table Key ByteArray) (published : List String) :
    Prop :=
  published.Pairwise (· < ·) ∧ ∀ endpoint, endpoint ∈ published ↔
    ∃ key value, store.lookup key = some value ∧ under servicePrefix key = true ∧
      String.fromUTF8? value = some endpoint

/-- Every value that the mutations put is UTF-8. -/
def Utf8 (mutations : List (Mutation Key ByteArray)) : Prop :=
  ∀ key value, .put key value ∈ mutations → (String.fromUTF8? value).isSome

/-- A watch is opened only if no mutation under the prefix is after the processed
revision and before its start, and its responses deliver UTF-8 values. -/
def Regular (servicePrefix : Key) (s : System) : Action → Prop
  | .openWatch => delivered servicePrefix s.log s.processed s.locals.revision = []
  | .message upto _ => ∀ cursor, s.task = .streaming cursor →
      Utf8 (delivered servicePrefix s.log cursor upto)
  | _ => True

/-! ## What a step does -/

variable {servicePrefix : Key} {s s' : System} {a : Action}

/-- The enabled actions with their guards and what they change. -/
inductive Takes (servicePrefix : Key) (s : System) : Action → System → Prop where
  | commit (transaction : List (Mutation Key ByteArray)) (room : s.log.length + 1 < maxRevision) :
      Takes servicePrefix s (.commit transaction) { s with log := s.log ++ [transaction] }
  | subscribe (revision : Nat) (locals : Locals) (known : revision ≤ s.log.length)
      (subscribed : subscribe (getResponse servicePrefix s.log revision) = .ok locals) :
      Takes servicePrefix s (.subscribe revision)
        { s with task := .opening, locals := locals, processed := revision }
  | openWatch (opening : s.task = .opening) :
      Takes servicePrefix s .openWatch
        { s with task := .streaming (startRevision s.locals - 1) }
  | watchError (opening : s.task = .opening) :
      Takes servicePrefix s .watchError { s with task := .relisting }
  | message (cursor upto header : Nat) (locals : Locals) (streaming : s.task = .streaming cursor)
      (order : cursor ≤ upto ∧ upto ≤ header) (known : header ≤ s.log.length)
      (handled : handleMessage s.locals (watchResponse servicePrefix s.log cursor upto header) =
        .ok locals) :
      Takes servicePrefix s (.message upto header)
        { s with task := .streaming upto, locals := locals, processed := upto }
  | fail (cursor upto header : Nat) (error : EtcdError Unit)
      (streaming : s.task = .streaming cursor)
      (order : cursor ≤ upto ∧ upto ≤ header) (known : header ≤ s.log.length)
      (handled : handleMessage s.locals (watchResponse servicePrefix s.log cursor upto header) =
        .error error) :
      Takes servicePrefix s (.message upto header) { s with task := .terminated error }
  | breakStream (cursor : Nat) (streaming : s.task = .streaming cursor) :
      Takes servicePrefix s .breakStream { s with task := .relisting }
  | relist (revision : Nat) (known : revision ≤ s.log.length) :
      Takes servicePrefix s (.relist revision) { s with
        task := .opening
        locals := relist s.locals (getResponse servicePrefix s.log revision)
        processed := revision }
  | relistError (relisting : s.task = .relisting) :
      Takes servicePrefix s .relistError { s with task := .opening }

theorem step_takes (taken : step servicePrefix s a = some s') : Takes servicePrefix s a s' := by
  cases a with
  | commit transaction =>
      simp only [step] at taken
      split at taken
      · rename_i room
        cases taken
        exact .commit transaction room
      · cases taken
  | subscribe revision =>
      simp only [step] at taken
      split at taken
      · split at taken
        · rename_i known
          split at taken
          · cases taken
          · rename_i locals subscribed
            cases taken
            exact .subscribe revision locals known subscribed
        · cases taken
      · cases taken
  | openWatch =>
      simp only [step] at taken
      split at taken
      · rename_i opening
        cases taken
        exact .openWatch opening
      · cases taken
  | watchError =>
      simp only [step] at taken
      split at taken
      · rename_i opening
        cases taken
        exact .watchError opening
      · cases taken
  | message upto header =>
      simp only [step] at taken
      split at taken
      · rename_i cursor streaming
        split at taken
        · rename_i range
          obtain ⟨first, second, known⟩ := range
          split at taken
          · rename_i error handled
            cases taken
            exact .fail cursor upto header error streaming ⟨first, second⟩ known handled
          · rename_i locals handled
            cases taken
            exact .message cursor upto header locals streaming ⟨first, second⟩ known handled
        · cases taken
      · cases taken
  | breakStream =>
      simp only [step] at taken
      split at taken
      · rename_i cursor streaming
        cases taken
        exact .breakStream cursor streaming
      · cases taken
  | relist revision =>
      simp only [step] at taken
      split at taken
      · split at taken
        · rename_i known
          cases taken
          exact .relist revision known
        · cases taken
      · cases taken
  | relistError =>
      simp only [step] at taken
      split at taken
      · rename_i relisting
        cases taken
        exact .relistError relisting
      · cases taken

/-! ## Reading responses -/

variable {entries : Entries} {store : Table Key ByteArray}

/-- The entries are the endpoints under the prefix in the store. -/
abbrev Holds (servicePrefix : Key) (entries : Entries) (store : Table Key ByteArray) : Prop :=
  Mirrors (under servicePrefix) String.fromUTF8? entries store

theorem valueStr_ok (key : Key) {value : ByteArray} {endpoint : String}
    (decoded : String.fromUTF8? value = some endpoint) :
    (KeyValue.mk key value).valueStr (ε := Unit) = .ok endpoint := by
  rw [KeyValue.valueStr, decoded]

theorem valueStr_error (key : Key) {value : ByteArray}
    (undecodable : String.fromUTF8? value = none) :
    (KeyValue.mk key value).valueStr (ε := Unit) = .error .clientUtf8 := by
  rw [KeyValue.valueStr, undecodable]

/-- The first listing is read like any other when it is read at all. -/
theorem collect_eq_load {pairs : List (Key × ByteArray)} {result : Entries}
    (collected : collect (pairs.map fun pair => ⟨pair.1, pair.2⟩) entries = .ok result) :
    result = load String.fromUTF8? pairs entries := by
  induction pairs generalizing entries with
  | nil =>
      cases collected
      rfl
  | cons pair rest ih =>
      rw [List.map_cons, collect] at collected
      cases decoded : String.fromUTF8? pair.2 with
      | none =>
          rw [valueStr_error pair.1 decoded] at collected
          cases collected
      | some endpoint =>
          rw [valueStr_ok pair.1 decoded] at collected
          rw [ih collected, load, load, List.foldl_cons, decoded]

theorem relist_entries (locals : Locals) (log : Log) (revision : Nat) :
    (relist locals (getResponse servicePrefix log revision)).entries =
      load String.fromUTF8? (listing (under servicePrefix) (stateAt log revision)) ∅ := by
  simp only [relist, getResponse, List.foldl_map, load]
  congr 1
  funext entries pair
  cases decoded : String.fromUTF8? pair.2 with
  | none => simp only [valueStr_error pair.1 decoded]
  | some endpoint => simp only [valueStr_ok pair.1 decoded]

/-- Delivered mutations whose values are UTF-8 are applied, and the rest of the
transactions does not matter to the entries. -/
theorem applyEvents_holds (mutations : List (Mutation Key ByteArray)) (changed : Bool)
    (holds : Holds servicePrefix entries store)
    (text : Utf8 (mutations.filter fun mutation => under servicePrefix mutation.key)) :
    ∃ entries' changed',
      applyEvents ((mutations.filter fun mutation => under servicePrefix mutation.key).map eventOf)
        entries changed = .ok (entries', changed') ∧
      Holds servicePrefix entries' (replay mutations store) ∧
      (changed' = false → changed = false ∧ entries' = entries) := by
  induction mutations generalizing entries store changed with
  | nil => exact ⟨entries, changed, rfl, holds, fun same => ⟨same, rfl⟩⟩
  | cons mutation rest ih =>
      cases kept : under servicePrefix mutation.key with
      | false =>
          rw [List.filter_cons_of_neg (by simp [kept])] at text ⊢
          exact ih changed (holds.skip kept) text
      | true =>
          rw [List.filter_cons_of_pos (by simp [kept])] at text ⊢
          have later : Utf8 (rest.filter fun mutation => under servicePrefix mutation.key) :=
            fun key value member => text key value (List.mem_cons_of_mem _ member)
          cases mutation with
          | put key value =>
              rcases Option.isSome_iff_exists.mp (text key value List.mem_cons_self) with
                ⟨endpoint, decoded⟩
              obtain ⟨entries', changed', applied, rest⟩ := ih true (holds.put kept decoded) later
              refine ⟨entries', changed', ?_, rest.1, ?_⟩
              · simp only [List.map_cons, eventOf, applyEvents]
                rw [valueStr_ok key decoded]
                exact applied
              · intro same
                exact absurd (rest.2 same).1 nofun
          | delete key =>
              obtain ⟨entries', changed', applied, rest⟩ := ih true holds.delete later
              refine ⟨entries', changed', ?_, rest.1, ?_⟩
              · simp only [List.map_cons, eventOf, applyEvents]
                exact applied
              · intro same
                exact absurd (rest.2 same).1 nofun

/-- A value that is not UTF-8 fails the response. -/
theorem utf8_of_applyEvents {mutations : List (Mutation Key ByteArray)} {changed : Bool}
    {result : Entries × Bool}
    (applied : applyEvents (mutations.map eventOf) entries changed = .ok result) :
    Utf8 mutations := by
  induction mutations generalizing entries changed with
  | nil => exact nofun
  | cons mutation rest ih =>
      cases mutation with
      | put key value =>
          simp only [List.map_cons, eventOf, applyEvents] at applied
          cases decoded : String.fromUTF8? value with
          | none =>
              rw [valueStr_error key decoded] at applied
              cases applied
          | some endpoint =>
              rw [valueStr_ok key decoded] at applied
              intro other text member
              rcases List.mem_cons.mp member with same | later
              · cases same
                rw [decoded]
                rfl
              · exact ih applied other text later
      | delete key =>
          simp only [List.map_cons, eventOf, applyEvents] at applied
          intro other text member
          rcases List.mem_cons.mp member with same | later
          · cases same
          · exact ih applied other text later

/-- The published list of entries that hold the endpoints of a store. -/
theorem endpointsOf_sortedEndpoints (holds : Holds servicePrefix entries store) :
    EndpointsOf servicePrefix store (sortedEndpoints entries) := by
  refine ⟨sortDedup_sorted _, ?_⟩
  intro endpoint
  have stored : endpoint ∈ sortedEndpoints entries ↔
      ∃ key, entries.lookup key = some endpoint := by
    rw [sortedEndpoints, mem_sortDedup, List.mem_map, exists_mem_entries entries (· = endpoint)]
    simp
  rw [stored]
  constructor
  · intro held
    obtain ⟨key, found⟩ := held
    rw [holds key] at found
    split at found
    · rename_i kept
      obtain ⟨value, present, decoded⟩ := Option.bind_eq_some_iff.mp found
      exact ⟨key, value, present, kept, decoded⟩
    · cases found
  · intro stored
    obtain ⟨key, value, present, kept, decoded⟩ := stored
    refine ⟨key, ?_⟩
    rw [holds key, if_pos kept, present]
    exact decoded

/-! ## Regular runs -/

/-- The task has processed the log up to `processed`, which is no later than the
revision it would watch from. -/
structure Processed (servicePrefix : Key) (s : System) : Prop where
  order : s.processed ≤ s.locals.revision
  known : s.locals.revision ≤ s.log.length
  holds : Holds servicePrefix s.locals.entries (stateAt s.log s.processed)
  published : s.locals.published = sortedEndpoints s.locals.entries

/-- A stream goes on where the entries stand. -/
structure Follows (servicePrefix : Key) (s : System) (cursor : Nat) : Prop where
  ahead : cursor ≤ s.locals.revision
  holds : Holds servicePrefix s.locals.entries (stateAt s.log cursor)

structure Inv (servicePrefix : Key) (s : System) : Prop where
  bounded : s.log.length < maxRevision
  alive : ∀ error, s.task ≠ .terminated error
  processed : s.task ≠ .absent → Processed servicePrefix s
  follows : ∀ cursor, s.task = .streaming cursor → Follows servicePrefix s cursor

theorem init_inv (servicePrefix : Key) : Inv servicePrefix (lts servicePrefix).init where
  bounded := by simp [lts, maxRevision]
  alive := nofun
  processed := fun spawned => (spawned rfl).elim
  follows := nofun

theorem Processed.append (processed : Processed servicePrefix s)
    (transaction : List (Mutation Key ByteArray)) :
    Processed servicePrefix { s with log := s.log ++ [transaction] } where
  order := processed.order
  known := by
    have := processed.known
    simp only [List.length_append]
    omega
  holds := by
    have earlier : s.processed ≤ s.log.length := Nat.le_trans processed.order processed.known
    simp only [stateAt_append earlier]
    exact processed.holds
  published := processed.published

theorem Follows.append {cursor : Nat} (follows : Follows servicePrefix s cursor)
    (known : s.locals.revision ≤ s.log.length) (transaction : List (Mutation Key ByteArray)) :
    Follows servicePrefix { s with log := s.log ++ [transaction] } cursor where
  ahead := follows.ahead
  holds := by
    simp only [stateAt_append (Nat.le_trans follows.ahead known)]
    exact follows.holds

/-- A listing, the first or a later one, is processed at its revision. -/
theorem Processed.of_listing {locals : Locals} {revision : Nat} {task : Task}
    (known : revision ≤ s.log.length) (header : locals.revision = revision)
    (loaded : locals.entries =
      load String.fromUTF8? (listing (under servicePrefix) (stateAt s.log revision)) ∅)
    (published : locals.published = sortedEndpoints locals.entries) :
    Processed servicePrefix { s with task := task, locals := locals, processed := revision } where
  order := Nat.le_of_eq header.symm
  known := by
    rw [← header] at known
    exact known
  holds := by
    simp only [loaded]
    exact Mirrors.load _ _ _
  published := published

theorem Inv.subscribe (inv : Inv servicePrefix s) {revision : Nat} {locals : Locals}
    (known : revision ≤ s.log.length)
    (subscribed : subscribe (getResponse servicePrefix s.log revision) = .ok locals) :
    Inv servicePrefix { s with task := .opening, locals := locals, processed := revision } := by
  refine ⟨inv.bounded, nofun, fun _ => ?_, nofun⟩
  unfold EtcdDiscovery.subscribe at subscribed
  split at subscribed
  · cases subscribed
  · rename_i entries collected
    cases subscribed
    exact Processed.of_listing known rfl (collect_eq_load collected) rfl

theorem Inv.relist (inv : Inv servicePrefix s) {revision : Nat} (known : revision ≤ s.log.length) :
    Inv servicePrefix { s with
      task := .opening
      locals := relist s.locals (getResponse servicePrefix s.log revision)
      processed := revision } :=
  ⟨inv.bounded, nofun, fun _ => Processed.of_listing known rfl (relist_entries _ _ _) rfl, nofun⟩

/-- Between states of the loop that leave the variables alone. -/
theorem Inv.move (inv : Inv servicePrefix s) (spawned : s.task ≠ .absent) {task : Task}
    (next : task = .opening ∨ task = .relisting) :
    Inv servicePrefix { s with task := task } := by
  have processed := inv.processed spawned
  rcases next with opening | relisting
  · rw [opening]
    exact ⟨inv.bounded, nofun, fun _ => ⟨processed.order, processed.known, processed.holds,
      processed.published⟩, nofun⟩
  · rw [relisting]
    exact ⟨inv.bounded, nofun, fun _ => ⟨processed.order, processed.known, processed.holds,
      processed.published⟩, nofun⟩

theorem Inv.startRevision_eq (inv : Inv servicePrefix s) (spawned : s.task ≠ .absent) :
    startRevision s.locals - 1 = s.locals.revision := by
  have := inv.bounded
  have := (inv.processed spawned).known
  unfold startRevision
  omega

/-- A watch that starts past no mutation under the prefix. -/
theorem Inv.openWatch (inv : Inv servicePrefix s) (opening : s.task = .opening)
    (gapless : delivered servicePrefix s.log s.processed s.locals.revision = []) :
    Inv servicePrefix { s with task := .streaming (startRevision s.locals - 1) } := by
  have spawned : s.task ≠ .absent := by
    rw [opening]
    exact nofun
  have processed := inv.processed spawned
  have skipped : ∀ mutation ∈ between s.log s.processed s.locals.revision,
      under servicePrefix mutation.key = false := by
    intro mutation member
    have outside := List.filter_eq_nil_iff.mp gapless mutation member
    simpa using outside
  rw [inv.startRevision_eq spawned]
  refine ⟨inv.bounded, nofun, fun _ => ⟨processed.order, processed.known, processed.holds,
    processed.published⟩, ?_⟩
  intro cursor same
  cases same
  refine ⟨Nat.le_refl _, ?_⟩
  simp only [stateAt_of_between processed.order]
  exact processed.holds.skip_all skipped

/-- A message whose values are UTF-8. -/
theorem Inv.message (inv : Inv servicePrefix s) {cursor upto header : Nat}
    (streaming : s.task = .streaming cursor) (order : cursor ≤ upto ∧ upto ≤ header)
    (known : header ≤ s.log.length) (text : Utf8 (delivered servicePrefix s.log cursor upto)) :
    ∃ locals, handleMessage s.locals (watchResponse servicePrefix s.log cursor upto header) =
        .ok locals ∧
      Inv servicePrefix { s with
        task := .streaming upto
        locals := locals
        processed := upto } := by
  have processed := inv.processed (by rw [streaming]; exact nofun)
  have follows := inv.follows cursor streaming
  rcases applyEvents_holds (between s.log cursor upto) false follows.holds text with
    ⟨entries, changed, applied, holds, unchanged⟩
  rw [← stateAt_of_between order.1] at holds
  refine ⟨_, by
    simp only [handleMessage, watchResponse, delivered]
    rw [applied], inv.bounded, nofun, fun _ => ?_, ?_⟩
  · refine ⟨?_, ?_, holds, ?_⟩
    · simp only [Option.elim_some]
      omega
    · have := processed.known
      simp only [Option.elim_some]
      omega
    · cases changed with
      | true => rfl
      | false =>
          rw [(unchanged rfl).2]
          exact processed.published
  · intro cursor same
    cases same
    refine ⟨?_, holds⟩
    simp only [Option.elim_some]
    omega

theorem Inv.step (inv : Inv servicePrefix s) (regular : Regular servicePrefix s a)
    (taken : step servicePrefix s a = some s') : Inv servicePrefix s' := by
  cases step_takes taken with
  | commit transaction room =>
      refine ⟨?_, inv.alive, fun spawned => (inv.processed spawned).append transaction, ?_⟩
      · simpa using room
      · intro cursor streaming
        have processed := inv.processed (by rw [streaming]; exact nofun)
        exact (inv.follows cursor streaming).append processed.known transaction
  | subscribe revision locals known subscribed => exact inv.subscribe known subscribed
  | openWatch opening => exact inv.openWatch opening regular
  | watchError opening => exact inv.move (by rw [opening]; exact nofun) (.inr rfl)
  | message cursor upto header locals streaming order known handled =>
      rcases inv.message streaming order known (regular cursor streaming) with
        ⟨locals', handled', next⟩
      rw [handled] at handled'
      cases handled'
      exact next
  | fail cursor upto header error streaming order known handled =>
      rcases inv.message streaming order known (regular cursor streaming) with
        ⟨locals, handled', _⟩
      rw [handled] at handled'
      cases handled'
  | breakStream cursor streaming => exact inv.move (by rw [streaming]; exact nofun) (.inr rfl)
  | relist revision known => exact inv.relist known
  | relistError relisting => exact inv.move (by rw [relisting]; exact nofun) (.inl rfl)

theorem inv_of_reach (reach : (lts servicePrefix).Reach (Regular servicePrefix) s) :
    Inv servicePrefix s :=
  reach.invariant (init_inv servicePrefix) fun _ _ _ inv regular taken => inv.step regular taken

/-! ## Headers that are not ahead -/

/-- A response carries the last revision it delivers, and UTF-8 values. -/
def Synced (servicePrefix : Key) (s : System) : Action → Prop
  | .message upto header => upto = header ∧ Regular servicePrefix s (.message upto header)
  | _ => True

/-- The task would watch from the processed revision. -/
structure Level (s : System) : Prop where
  revision : s.locals.revision = s.processed
  cursor : ∀ cursor, s.task = .streaming cursor → cursor = s.locals.revision

theorem Level.regular (level : Level s) (synced : Synced servicePrefix s a) :
    Regular servicePrefix s a := by
  cases a with
  | openWatch =>
      simp only [Regular, delivered, level.revision, between_self]
      rfl
  | message upto header => exact synced.2
  | commit transaction => trivial
  | subscribe revision => trivial
  | watchError => trivial
  | breakStream => trivial
  | relist revision => trivial
  | relistError => trivial

theorem Level.step (level : Level s) (inv : Inv servicePrefix s)
    (synced : Synced servicePrefix s a) (taken : step servicePrefix s a = some s') : Level s' := by
  cases step_takes taken with
  | commit transaction room => exact ⟨level.revision, level.cursor⟩
  | subscribe revision locals known subscribed =>
      unfold EtcdDiscovery.subscribe at subscribed
      split at subscribed
      · cases subscribed
      · cases subscribed
        exact ⟨rfl, nofun⟩
  | openWatch opening =>
      refine ⟨level.revision, ?_⟩
      intro cursor same
      cases same
      exact inv.startRevision_eq (by rw [opening]; exact nofun)
  | watchError opening => exact ⟨level.revision, nofun⟩
  | message cursor upto header locals streaming order known handled =>
      have here := level.cursor cursor streaming
      have exactHeader : upto = header := synced.1
      have next : locals.revision = upto := by
        simp only [handleMessage, watchResponse] at handled
        split at handled
        · cases handled
        · cases handled
          simp only [Option.elim_some]
          omega
      refine ⟨next, ?_⟩
      intro cursor same
      cases same
      exact next.symm
  | fail cursor upto header error streaming order known handled =>
      exact ⟨level.revision, nofun⟩
  | breakStream cursor streaming => exact ⟨level.revision, nofun⟩
  | relist revision known => exact ⟨rfl, nofun⟩
  | relistError relisting => exact ⟨level.revision, nofun⟩

/-- While headers are not ahead, no watch starts past undelivered mutations. -/
theorem regular_of_synced (reach : (lts servicePrefix).Reach (Synced servicePrefix) s) :
    (lts servicePrefix).Reach (Regular servicePrefix) s := by
  have both : (lts servicePrefix).Reach (Regular servicePrefix) s ∧ Level s := by
    refine reach.invariant (I := fun s => (lts servicePrefix).Reach (Regular servicePrefix) s ∧
      Level s) ⟨Lts.Reach.init, rfl, nofun⟩ ?_
    intro s a s' both synced taken
    obtain ⟨run, level⟩ := both
    exact ⟨Lts.Steps.tail run (level.regular synced) taken,
      level.step (inv_of_reach run) synced taken⟩
  exact both.1

/-! ## The mirror -/

/-- A message that the task survives has delivered UTF-8 values. -/
theorem regular_of_alive {upto header : Nat}
    (taken : step servicePrefix s (.message upto header) = some s')
    (alive : ∀ error, s'.task ≠ .terminated error) :
    Regular servicePrefix s (.message upto header) := by
  cases step_takes taken with
  | message cursor _ _ locals streaming order known handled =>
      intro other same
      rw [streaming] at same
      cases same
      simp only [handleMessage, watchResponse] at handled
      split at handled
      · cases handled
      · rename_i applied
        exact utf8_of_applyEvents applied
  | fail cursor _ _ error streaming order known handled => exact (alive error rfl).elim

/-- In every regular run the task, once spawned, has not terminated, and it
publishes the sorted endpoints under the prefix at the last processed revision.  A
further message ends the task if and only if it delivers a value that is not
UTF-8. -/
theorem endpoints_mirrored (servicePrefix : Key) (s : System)
    (reach : (lts servicePrefix).Reach (Regular servicePrefix) s) (spawned : s.task ≠ .absent) :
    (∀ error, s.task ≠ .terminated error) ∧
    EndpointsOf servicePrefix (stateAt s.log s.processed) s.locals.published ∧
    ∀ upto header s', step servicePrefix s (.message upto header) = some s' →
      ((∀ error, s'.task ≠ .terminated error) ↔
        Regular servicePrefix s (.message upto header)) := by
  have inv := inv_of_reach reach
  have processed := inv.processed spawned
  refine ⟨inv.alive, ?_, ?_⟩
  · rw [processed.published]
    exact endpointsOf_sortedEndpoints processed.holds
  · intro upto header s' taken
    constructor
    · exact regular_of_alive taken
    · intro regular
      exact (inv.step regular taken).alive

/-- An endpoint is listed by `subscribe` and another one is delivered by the
watch. -/
theorem endpoints_mirrored_watched :
    ∃ s : System, s.task = .streaming 2 ∧ s.processed = 2 ∧
      EndpointsOf [47] (stateAt s.log 2) s.locals.published ∧
      "a" ∈ s.locals.published ∧ "b" ∈ s.locals.published := by
  have meets : (lts [47]).Meets (Regular [47]) (lts [47]).init
      [.commit [.put [47, 1] ⟨#[98]⟩], .subscribe 1, .openWatch,
        .commit [.put [47, 2] ⟨#[97]⟩], .message 2 2] := by
    refine ⟨trivial, trivial, rfl, trivial, ?_, trivial⟩
    intro cursor streaming key value member
    cases streaming
    have only : Mutation.put key value = .put [47, 2] ⟨#[97]⟩ := List.mem_singleton.mp member
    cases only
    decide
  have watched : ∃ s : System, (lts [47]).Reach (Regular [47]) s ∧ s.task = .streaming 2 ∧
      s.processed = 2 ∧
      s.log = [[.put [47, 1] ⟨#[98]⟩], [.put [47, 2] ⟨#[97]⟩]] :=
    ⟨_, Lts.reach_of_exec _ meets rfl, rfl, rfl, rfl⟩
  obtain ⟨s, reach, task, processed, log⟩ := watched
  have mirrored := (endpoints_mirrored [47] s reach (by rw [task]; exact nofun)).2.1
  rw [processed] at mirrored
  refine ⟨s, task, processed, mirrored, (mirrored.2 "a").mpr ?_, (mirrored.2 "b").mpr ?_⟩
  · exact ⟨[47, 2], ⟨#[97]⟩, by rw [log]; decide, by decide, by decide⟩
  · exact ⟨[47, 1], ⟨#[98]⟩, by rw [log]; decide, by decide, by decide⟩

/-- A value that is not UTF-8 ends the task; and after a response whose header is
ahead, a broken stream and a failed relist, the next watch starts past an endpoint
that is never published. -/
theorem endpoints_not_mirrored :
    (∃ s : System, (lts [47]).Reachable s ∧ s.task = .terminated .clientUtf8) ∧
    ∃ s : System, (lts [47]).Reachable s ∧ s.task = .streaming 1 ∧ s.processed = 1 ∧
      ¬ EndpointsOf [47] (stateAt s.log 1) s.locals.published := by
  refine ⟨⟨_, Lts.reachable_of_exec [.subscribe 0, .openWatch,
    .commit [.put [47, 1] ⟨#[255]⟩], .message 1 1] rfl, rfl⟩, ?_⟩
  have missed : ∃ s : System, (lts [47]).Reachable s ∧ s.task = .streaming 1 ∧
      s.processed = 1 ∧ s.log = [[.put [47, 1] ⟨#[97]⟩]] ∧
      s.locals.published = sortedEndpoints ∅ :=
    ⟨_, Lts.reachable_of_exec [.subscribe 0, .openWatch, .commit [.put [47, 1] ⟨#[97]⟩],
      .message 0 1, .breakStream, .relistError, .openWatch, .message 1 1] rfl, rfl, rfl, rfl, rfl⟩
  obtain ⟨s, reach, task, processed, log, published⟩ := missed
  refine ⟨s, reach, task, processed, ?_⟩
  intro mirrored
  have present : "a" ∈ s.locals.published :=
    (mirrored.2 "a").mpr ⟨[47, 1], ⟨#[97]⟩, by rw [log]; decide, by decide, by decide⟩
  rw [published, sortedEndpoints, mem_sortDedup] at present
  cases present

end RustZero.EtcdDiscovery
