import Mathlib
import RustZero.Lib.Lts
import RustZero.Lib.Phases

/-!
# The local service registry

`core/src/discov.rs`.  `ServiceRegistry` keeps the published endpoints of every
service behind one mutex and announces changes of the endpoint set on a
broadcast channel.  Publishing and releasing update the map under the mutex and
send their event afterwards, outside it; `subscribe` opens its receiver first and
copies the endpoint set under the mutex afterwards.

The channel is a log of every event sent, and a receiver is a position in it:
sends reach all receivers in one order and no receiver lags.  Registries that
outlive their subscriptions never close the channel, so the two error arms of
`ServiceSubscription::recv` do not arise.
-/

namespace RustZero.Discov

open Lib

/-! ## Validation -/

/-- `char::is_whitespace`: the Unicode `White_Space` property. -/
def isWhitespace (c : Char) : Bool :=
  let n := c.toNat
  (9 ≤ n && n ≤ 13) || n == 0x20 || n == 0x85 || n == 0xa0 || n == 0x1680 ||
    (0x2000 ≤ n && n ≤ 0x200a) || n == 0x2028 || n == 0x2029 || n == 0x202f || n == 0x205f ||
    n == 0x3000

/-- `text.trim().is_empty()`. -/
def isBlank (text : String) : Bool :=
  text.toList.all isWhitespace

inductive DiscoveryError where
  | emptyService
  | emptyEndpoint
  | invalidEndpointWeight (weight : Nat)
  | conflictingEndpointMetadata (endpoint : String)
  deriving DecidableEq, Repr

def maxEndpointWeight : Nat := 1000

def validateService (service : String) : Except DiscoveryError String :=
  if isBlank service then .error .emptyService else .ok service

/-! ## Endpoints -/

/-- A described endpoint; only `weighted` builds one, so the two checks it makes
are fields.  `metadata`, which `with_metadata` replaces, lists the source's
`BTreeMap` in key order. -/
structure DiscoveredEndpoint where
  uri : String
  weight : Nat
  metadata : List (String × String)
  uri_valid : isBlank uri = false
  weight_valid : 1 ≤ weight ∧ weight ≤ maxEndpointWeight
  deriving DecidableEq

def DiscoveredEndpoint.weighted (uri : String) (weight : Nat) :
    Except DiscoveryError DiscoveredEndpoint :=
  if blank : isBlank uri = true then .error .emptyEndpoint
  else if valid : 1 ≤ weight ∧ weight ≤ maxEndpointWeight then
    .ok ⟨uri, weight, [], eq_false_of_ne_true blank, valid⟩
  else .error (.invalidEndpointWeight weight)

def DiscoveredEndpoint.new (uri : String) : Except DiscoveryError DiscoveredEndpoint :=
  DiscoveredEndpoint.weighted uri 1

structure RegistryEndpoint where
  endpoint : DiscoveredEndpoint
  references : Nat
  deriving DecidableEq

/-! ## The endpoint map -/

/-- The endpoints of one service, by URI. -/
abbrev Endpoints := Finmap fun _ : String => RegistryEndpoint

abbrev Services := String → Option Endpoints

def Services.lookup (services : Services) (service uri : String) : Option RegistryEndpoint :=
  (services service).bind fun endpoints => endpoints.lookup uri

/-- `ServiceRegistry::endpoints`, and the snapshot `subscribe` takes. -/
def Services.endpoints (services : Services) (service : String) : Finset String :=
  (services service).elim ∅ Finmap.keys

/-- The locked part of `publish_endpoint`; the flag is `added`. -/
def publishUpdate (services : Services) (service : String) (endpoint : DiscoveredEndpoint) :
    Except DiscoveryError (Services × Bool) :=
  let endpoints := (services service).getD ∅
  match endpoints.lookup endpoint.uri with
  | some entry =>
      if entry.endpoint ≠ endpoint then .error (.conflictingEndpointMetadata endpoint.uri)
      else
        .ok (Function.update services service
          (some (endpoints.insert endpoint.uri
            { entry with references := entry.references + 1 })), false)
  | none =>
      .ok (Function.update services service
        (some (endpoints.insert endpoint.uri ⟨endpoint, 1⟩)), true)

/-- The locked part of `release`; the flag is `removed`. -/
def releaseUpdate (services : Services) (service uri : String) : Services × Bool :=
  match services service with
  | none => (services, false)
  | some endpoints =>
      match endpoints.lookup uri with
      | none => (services, false)
      | some entry =>
          if 0 < entry.references - 1 then
            (Function.update services service
              (some (endpoints.insert uri { entry with references := entry.references - 1 })),
              false)
          else
            let rest := endpoints.erase uri
            (Function.update services service (if rest.keys = ∅ then none else some rest), true)

/-- How often a pair is referenced; `0` when it is not published. -/
def Services.references (services : Services) (service uri : String) : Nat :=
  (services.lookup service uri).elim 0 RegistryEndpoint.references

/-- Every published endpoint is referenced. -/
def Services.Counted (services : Services) : Prop :=
  ∀ service uri entry, services.lookup service uri = some entry → 0 < entry.references

theorem Services.Counted.mem_endpoints {services : Services} (counted : services.Counted)
    {service uri : String} :
    uri ∈ services.endpoints service ↔ 0 < services.references service uri := by
  have member : uri ∈ services.endpoints service ↔ (services.lookup service uri).isSome := by
    unfold Services.endpoints Services.lookup
    cases services service with
    | none => simp
    | some endpoints => simp [Finmap.mem_keys, Finmap.lookup_isSome]
  rw [member]
  unfold Services.references
  cases entryEq : services.lookup service uri with
  | none => simp
  | some entry => simpa using counted service uri entry entryEq

/-- `after` differs from `before` at one pair, where it holds `entry`. -/
def Services.Sets (before after : Services) (service uri : String)
    (entry : Option RegistryEndpoint) : Prop :=
  after.lookup service uri = entry ∧
    ∀ service' uri', service' ≠ service ∨ uri' ≠ uri →
      after.lookup service' uri' = before.lookup service' uri'

theorem Services.Sets.counted {before after : Services} {service uri : String}
    {entry : Option RegistryEndpoint} (sets : before.Sets after service uri entry)
    (counted : before.Counted) (new : ∀ e, entry = some e → 0 < e.references) :
    after.Counted := by
  intro service' uri' e found
  by_cases here : service' ≠ service ∨ uri' ≠ uri
  · rw [sets.2 service' uri' here] at found
    exact counted service' uri' e found
  · rw [not_or, not_not, not_not] at here
    obtain ⟨rfl, rfl⟩ := here
    rw [sets.1] at found
    exact new e found

theorem Services.Sets.references_other {before after : Services} {service uri : String}
    {entry : Option RegistryEndpoint} (sets : before.Sets after service uri entry)
    {service' uri' : String} (other : service' ≠ service ∨ uri' ≠ uri) :
    after.references service' uri' = before.references service' uri' := by
  unfold Services.references
  rw [sets.2 service' uri' other]

theorem Services.Sets.references_here {before after : Services} {service uri : String}
    {entry : Option RegistryEndpoint} (sets : before.Sets after service uri entry) :
    after.references service uri = entry.elim 0 RegistryEndpoint.references := by
  unfold Services.references
  rw [sets.1]

theorem Services.Sets.mem_other {before after : Services} {service uri : String}
    {entry : Option RegistryEndpoint} (sets : before.Sets after service uri entry)
    (counted : before.Counted) (counted' : after.Counted) {service' uri' : String}
    (other : service' ≠ service ∨ uri' ≠ uri) :
    uri' ∈ after.endpoints service' ↔ uri' ∈ before.endpoints service' := by
  rw [counted'.mem_endpoints, counted.mem_endpoints, sets.references_other other]

/-- Replacing the endpoints of one service by a map that differs at one URI. -/
theorem Services.sets_of_update {services : Services} {service uri : String}
    {value : Option Endpoints} {entry : Option RegistryEndpoint}
    (here : (value.bind fun endpoints => endpoints.lookup uri) = entry)
    (others : ∀ uri', uri' ≠ uri → (value.bind fun endpoints => endpoints.lookup uri') =
      services.lookup service uri') :
    services.Sets (Function.update services service value) service uri entry := by
  refine ⟨?_, fun service' uri' other => ?_⟩
  · unfold Services.lookup
    rw [Function.update_self]
    exact here
  · by_cases same : service' = service
    · subst same
      rcases other with ne | ne
      · exact absurd rfl ne
      · unfold Services.lookup
        rw [Function.update_self]
        exact others uri' ne
    · unfold Services.lookup
      rw [Function.update_of_ne same]

theorem publishUpdate_sets {services services' : Services} {service : String}
    {endpoint : DiscoveredEndpoint} {added : Bool}
    (update : publishUpdate services service endpoint = .ok (services', added)) :
    ∃ entry, services.Sets services' service endpoint.uri (some entry) ∧
      entry.references = services.references service endpoint.uri + 1 ∧
      (added = true ↔ services.lookup service endpoint.uri = none) := by
  have found : ((services service).getD ∅).lookup endpoint.uri =
      services.lookup service endpoint.uri := by
    unfold Services.lookup
    cases services service with
    | none => exact Finmap.lookup_empty _
    | some endpoints => rfl
  have sets : ∀ entry, services.Sets (Function.update services service
      (some (((services service).getD ∅).insert endpoint.uri entry))) service endpoint.uri
      (some entry) := by
    intro entry
    apply Services.sets_of_update
    · exact Finmap.lookup_insert _
    · intro uri' ne
      show Finmap.lookup uri' _ = _
      rw [Finmap.lookup_insert_of_ne _ ne]
      unfold Services.lookup
      cases services service with
      | none => exact Finmap.lookup_empty _
      | some endpoints => rfl
  unfold publishUpdate at update
  dsimp only at update
  split at update
  · rename_i entry lookup
    rw [found] at lookup
    split at update
    · cases update
    · cases update
      refine ⟨_, sets _, ?_, ?_⟩
      · unfold Services.references
        rw [lookup]
        rfl
      · rw [lookup]
        simp
  · rename_i lookup
    rw [found] at lookup
    cases update
    refine ⟨_, sets _, ?_, ?_⟩
    · unfold Services.references
      rw [lookup]
      rfl
    · simp [lookup]

theorem releaseUpdate_sets {services : Services} {service uri : String} {entry : RegistryEndpoint}
    (found : services.lookup service uri = some entry) :
    (releaseUpdate services service uri).2 = decide (entry.references ≤ 1) ∧
    services.Sets (releaseUpdate services service uri).1 service uri
      (if entry.references ≤ 1 then none
        else some { entry with references := entry.references - 1 }) := by
  cases inService : services service with
  | none =>
      unfold Services.lookup at found
      rw [inService] at found
      cases found
  | some endpoints =>
      have lookup : endpoints.lookup uri = some entry := by
        unfold Services.lookup at found
        rw [inService] at found
        exact found
      have others : ∀ uri', services.lookup service uri' = endpoints.lookup uri' := by
        intro uri'
        unfold Services.lookup
        rw [inService]
        rfl
      unfold releaseUpdate
      simp only [inService, lookup]
      by_cases last : entry.references ≤ 1
      · have none : ¬ 0 < entry.references - 1 := by omega
        simp only [none, last, ↓reduceIte, decide_true, true_and]
        apply Services.sets_of_update
        · split
          · rfl
          · exact Finmap.lookup_erase _ _
        · intro uri' ne
          rw [others uri', ← Finmap.lookup_erase_ne ne]
          split
          · rename_i empty
            have absent : uri' ∉ endpoints.erase uri := by
              intro member
              have := Finmap.mem_keys.mpr member
              rw [empty] at this
              simp at this
            exact (Finmap.lookup_eq_none.mpr absent).symm
          · rfl
      · have more : 0 < entry.references - 1 := by omega
        simp only [more, last, ↓reduceIte, decide_false, true_and]
        apply Services.sets_of_update
        · exact Finmap.lookup_insert _
        · intro uri' ne
          rw [others uri']
          exact Finmap.lookup_insert_of_ne _ ne

/-! ## The registry and its parties -/

inductive ServiceEvent where
  | added (service endpoint : String)
  | removed (service endpoint : String)
  deriving DecidableEq, Repr

def ServiceEvent.service : ServiceEvent → String
  | .added service _ => service
  | .removed service _ => service

/-- How far one publisher, and the lease it got, has come. -/
inductive Lease where
  | unused
  | rejected (error : DiscoveryError)
  /-- `publish_endpoint` has inserted the endpoint and still has to announce it. -/
  | adding (service endpoint : String)
  | active (service endpoint : String)
  /-- `release` has removed the endpoint and still has to announce it. -/
  | removing (service endpoint : String)
  | released
  deriving DecidableEq

/-- How far one subscriber has come; a receiver is a position in the log. -/
inductive Subscription where
  | unused
  | rejected (error : DiscoveryError)
  /-- `subscribe` has its receiver and not yet its snapshot. -/
  | receiving (service : String) (cursor : Nat)
  | live (service : String) (endpoints : Finset String) (cursor : Nat)
  deriving DecidableEq

/-- `RegistryState` with the leases and subscriptions on it. -/
structure System (ι κ : Type) where
  services : Services
  changes : List ServiceEvent
  leases : ι → Lease
  subscriptions : κ → Subscription

inductive Action (ι κ : Type) where
  | publish (lease : ι) (service : String) (endpoint : DiscoveredEndpoint)
  | sendAdded (lease : ι)
  | release (lease : ι)
  | sendRemoved (lease : ι)
  | subscribe (subscription : κ) (service : String)
  | snapshot (subscription : κ)
  | recv (subscription : κ)
  | resync (subscription : κ)

/-- What `recv` does with one received event: the new endpoint set and whether
it changed.  An event that changes nothing makes `recv` wait for the next. -/
def applyEvent (service : String) (endpoints : Finset String) (event : ServiceEvent) :
    Finset String × Bool :=
  if event.service = service then
    match event with
    | .added _ endpoint => (insert endpoint endpoints, endpoint ∉ endpoints)
    | .removed _ endpoint => (endpoints.erase endpoint, endpoint ∈ endpoints)
  else (endpoints, false)

section Step

variable {ι κ : Type} [DecidableEq ι] [DecidableEq κ]

/-- One step of a publisher, a lease or a subscriber. -/
def step (s : System ι κ) : Action ι κ → Option (System ι κ)
  | .publish lease service endpoint =>
      match s.leases lease with
      | .unused =>
          match validateService service with
          | .error error =>
              some { s with leases := Function.update s.leases lease (.rejected error) }
          | .ok service =>
              match publishUpdate s.services service endpoint with
              | .error error =>
                  some { s with leases := Function.update s.leases lease (.rejected error) }
              | .ok (services, added) =>
                  some { s with
                    services := services
                    leases := Function.update s.leases lease
                      (if added then .adding service endpoint.uri
                        else .active service endpoint.uri) }
      | _ => none
  | .sendAdded lease =>
      match s.leases lease with
      | .adding service endpoint =>
          some { s with
            changes := s.changes ++ [.added service endpoint]
            leases := Function.update s.leases lease (.active service endpoint) }
      | _ => none
  | .release lease =>
      match s.leases lease with
      | .active service endpoint =>
          let (services, removed) := releaseUpdate s.services service endpoint
          some { s with
            services := services
            leases := Function.update s.leases lease
              (if removed then .removing service endpoint else .released) }
      | _ => none
  | .sendRemoved lease =>
      match s.leases lease with
      | .removing service endpoint =>
          some { s with
            changes := s.changes ++ [.removed service endpoint]
            leases := Function.update s.leases lease .released }
      | _ => none
  | .subscribe subscription service =>
      match s.subscriptions subscription with
      | .unused =>
          match validateService service with
          | .error error =>
              some { s with
                subscriptions := Function.update s.subscriptions subscription (.rejected error) }
          | .ok service =>
              some { s with
                subscriptions := Function.update s.subscriptions subscription
                  (.receiving service s.changes.length) }
      | _ => none
  | .snapshot subscription =>
      match s.subscriptions subscription with
      | .receiving service cursor =>
          some { s with
            subscriptions := Function.update s.subscriptions subscription
              (.live service (s.services.endpoints service) cursor) }
      | _ => none
  | .recv subscription =>
      match s.subscriptions subscription with
      | .live service endpoints cursor =>
          (s.changes[cursor]?).map fun event =>
            { s with
              subscriptions := Function.update s.subscriptions subscription
                (.live service (applyEvent service endpoints event).1 (cursor + 1)) }
      | _ => none
  | .resync subscription =>
      match s.subscriptions subscription with
      | .live service _ cursor =>
          some { s with
            subscriptions := Function.update s.subscriptions subscription
              (.live service (s.services.endpoints service) cursor) }
      | _ => none

/-- Every interleaving of publishers `ι` and subscribers `κ` on a new registry. -/
def lts (ι κ : Type) [DecidableEq ι] [DecidableEq κ] : Lts (System ι κ) (Action ι κ) where
  init := ⟨fun _ => none, [], fun _ => .unused, fun _ => .unused⟩
  step := step

variable {s s' : System ι κ} {a : Action ι κ}

/-- How a subscription may move while the registry stays as it is. -/
def Subscription.Follows (s : System ι κ) (before after : Subscription) : Prop :=
  (∃ error, after = .rejected error) ∨
  (∃ service, after = .receiving service s.changes.length) ∨
  (∃ service cursor, (before = .receiving service cursor ∨
      ∃ endpoints, before = .live service endpoints cursor) ∧
    after = .live service (s.services.endpoints service) cursor) ∨
  (∃ service endpoints cursor event, before = .live service endpoints cursor ∧
    s.changes[cursor]? = some event ∧
    after = .live service (applyEvent service endpoints event).1 (cursor + 1))

/-- What a step can be: a publisher that is refused or let in, an announced
insertion, a release, an announced removal, or a move of one subscription. -/
theorem step_cases (h : step s a = some s') :
    (∃ lease error, s.leases lease = .unused ∧
      s' = { s with leases := Function.update s.leases lease (.rejected error) }) ∨
    (∃ lease service endpoint services added, s.leases lease = .unused ∧
      publishUpdate s.services service endpoint = .ok (services, added) ∧
      s' = { s with
        services := services
        leases := Function.update s.leases lease
          (if added then .adding service endpoint.uri else .active service endpoint.uri) }) ∨
    (∃ lease service uri, s.leases lease = .adding service uri ∧
      s' = { s with
        changes := s.changes ++ [.added service uri]
        leases := Function.update s.leases lease (.active service uri) }) ∨
    (∃ lease service uri, s.leases lease = .active service uri ∧
      s' = { s with
        services := (releaseUpdate s.services service uri).1
        leases := Function.update s.leases lease
          (if (releaseUpdate s.services service uri).2 then .removing service uri
            else .released) }) ∨
    (∃ lease service uri, a = .sendRemoved lease ∧ s.leases lease = .removing service uri ∧
      s' = { s with
        changes := s.changes ++ [.removed service uri]
        leases := Function.update s.leases lease .released }) ∨
    (∃ subscription after, Subscription.Follows s (s.subscriptions subscription) after ∧
      s' = { s with subscriptions := Function.update s.subscriptions subscription after }) := by
  cases a with
  | publish lease service endpoint =>
      simp only [step] at h
      split at h
      · rename_i unused
        split at h
        · cases h
          exact .inl ⟨lease, _, unused, rfl⟩
        · split at h
          · cases h
            exact .inl ⟨lease, _, unused, rfl⟩
          · rename_i update
            cases h
            exact .inr (.inl ⟨lease, _, endpoint, _, _, unused, update, rfl⟩)
      · cases h
  | sendAdded lease =>
      simp only [step] at h
      split at h
      · rename_i adding
        cases h
        exact .inr (.inr (.inl ⟨lease, _, _, adding, rfl⟩))
      · cases h
  | release lease =>
      simp only [step] at h
      split at h
      · rename_i active
        cases h
        exact .inr (.inr (.inr (.inl ⟨lease, _, _, active, rfl⟩)))
      · cases h
  | sendRemoved lease =>
      simp only [step] at h
      split at h
      · rename_i removing
        cases h
        exact .inr (.inr (.inr (.inr (.inl ⟨lease, _, _, rfl, removing, rfl⟩))))
      · cases h
  | subscribe subscription service =>
      simp only [step] at h
      split at h
      · split at h
        · cases h
          exact .inr (.inr (.inr (.inr (.inr ⟨subscription, _, .inl ⟨_, rfl⟩, rfl⟩))))
        · cases h
          exact .inr (.inr (.inr (.inr (.inr
            ⟨subscription, _, .inr (.inl ⟨_, rfl⟩), rfl⟩))))
      · cases h
  | snapshot subscription =>
      simp only [step] at h
      split at h
      · rename_i receiving
        cases h
        exact .inr (.inr (.inr (.inr (.inr
          ⟨subscription, _, .inr (.inr (.inl ⟨_, _, .inl receiving, rfl⟩)), rfl⟩))))
      · cases h
  | recv subscription =>
      simp only [step] at h
      split at h
      · rename_i live
        obtain ⟨event, received, next⟩ := Option.map_eq_some_iff.mp h
        exact .inr (.inr (.inr (.inr (.inr
          ⟨subscription, _, .inr (.inr (.inr ⟨_, _, _, event, live, received, rfl⟩)),
            next.symm⟩))))
      · cases h
  | resync subscription =>
      simp only [step] at h
      split at h
      · rename_i live
        cases h
        exact .inr (.inr (.inr (.inr (.inr
          ⟨subscription, _, .inr (.inr (.inl ⟨_, _, .inr ⟨_, live⟩, rfl⟩)), rfl⟩))))
      · cases h

end Step

end RustZero.Discov
