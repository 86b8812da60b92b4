import RustZero.Discov

/-!
# Lease accounting of the service registry

`core/src/discov.rs`: the leases that `publish_endpoint` grants, beside the nested
maps that count them.  Publishing and releasing each have one critical section, so
a run is a sequence of these; the order of the announcements is the subject of
`RustZero.Discov`.

* `publishLocked` is the critical section of `publish_endpoint` with the outer
  entry that `or_default` creates before anything is checked.
* `leased` and `firstPublished` read the history of publications and releases:
  how many leases of a URI are active and who published it first.
* `Accounted` is the invariant.
-/

namespace RustZero.Discov

open Lib

/-- The critical section of `publish_endpoint`: the map it leaves behind, and
whether the endpoint is new. -/
def publishLocked (services : Services) (service : String) (endpoint : DiscoveredEndpoint) :
    Services × Except DiscoveryError Bool :=
  let endpoints := (services service).getD ∅
  -- `services.entry(service).or_default()`
  let entered := Function.update services service (some endpoints)
  match endpoints.lookup endpoint.uri with
  | some entry =>
      if entry.endpoint ≠ endpoint then
        (entered, .error (.conflictingEndpointMetadata endpoint.uri))
      else
        (Function.update entered service
          (some (endpoints.insert endpoint.uri
            { entry with references := entry.references + 1 })), .ok false)
  | none =>
      (Function.update entered service
        (some (endpoints.insert endpoint.uri ⟨endpoint, 1⟩)), .ok true)

/-- The lookup in the outer entry is the lookup in the map. -/
theorem lookup_getD (services : Services) (service uri : String) :
    ((services service).getD ∅).lookup uri = services.lookup service uri := by
  unfold Services.lookup
  cases services service with
  | none => exact Finmap.lookup_empty _
  | some endpoints => rfl

/-- A refused publication finds its outer entry, so it leaves the map as it was. -/
theorem publishLocked_error {services services' : Services} {service : String}
    {endpoint : DiscoveredEndpoint} {error : DiscoveryError}
    (refused : publishLocked services service endpoint = (services', .error error)) :
    services' = services := by
  unfold publishLocked at refused
  dsimp only at refused
  split at refused
  · rename_i entry found
    split at refused
    · cases refused
      cases here : services service with
      | none =>
          rw [here] at found
          exact absurd found (by simp)
      | some endpoints =>
          rw [Option.getD_some, ← here]
          exact Function.update_eq_self service services
    · cases refused
  · cases refused

theorem publishLocked_ok {services services' : Services} {service : String}
    {endpoint : DiscoveredEndpoint} {added : Bool}
    (granted : publishLocked services service endpoint = (services', .ok added)) :
    publishUpdate services service endpoint = .ok (services', added) := by
  unfold publishLocked at granted
  unfold publishUpdate
  dsimp only at granted ⊢
  cases found : ((services service).getD ∅).lookup endpoint.uri with
  | none =>
      simp only [found] at granted ⊢
      cases granted
      rw [Function.update_idem]
  | some entry =>
      simp only [found] at granted ⊢
      split at granted
      · cases granted
      · rename_i same
        cases granted
        rw [if_neg same, Function.update_idem]

/-- The endpoint stored after a publication is the published one, and so was the
one it found. -/
theorem publishUpdate_endpoint {services services' : Services} {service : String}
    {endpoint : DiscoveredEndpoint} {added : Bool}
    (update : publishUpdate services service endpoint = .ok (services', added)) :
    (services'.lookup service endpoint.uri).map RegistryEndpoint.endpoint = some endpoint ∧
      ∀ entry, services.lookup service endpoint.uri = some entry → entry.endpoint = endpoint := by
  have stored : ∀ entry : RegistryEndpoint,
      Services.lookup (Function.update services service
        (some (((services service).getD ∅).insert endpoint.uri entry))) service endpoint.uri =
      some entry := by
    intro entry
    unfold Services.lookup
    rw [Function.update_self]
    exact Finmap.lookup_insert _
  unfold publishUpdate at update
  dsimp only at update
  rw [lookup_getD] at update
  split at update
  · rename_i entry found
    split at update
    · cases update
    · rename_i same
      have same : entry.endpoint = endpoint := not_not.mp same
      cases update
      refine ⟨?_, ?_⟩
      · rw [stored]
        exact congrArg some same
      · intro other here
        cases found.symm.trans here
        exact same
  · rename_i absent
    cases update
    refine ⟨?_, ?_⟩
    · rw [stored]
      rfl
    · intro other here
      cases absent.symm.trans here

/-! ## Leases -/

structure ServiceLease where
  service : String
  endpoint : String
  active : Bool
  deriving DecidableEq

/-- The map and every lease granted so far. -/
structure Registry where
  services : Services
  leases : List ServiceLease

/-- `publish_endpoint`. -/
def Registry.publishEndpoint (registry : Registry) (service : String)
    (endpoint : DiscoveredEndpoint) : Registry × Except DiscoveryError ServiceLease :=
  match validateService service with
  | .error error => (registry, .error error)
  | .ok service =>
      match publishLocked registry.services service endpoint with
      | (services, .error error) => ({ registry with services := services }, .error error)
      | (services, .ok _) =>
          let lease := ⟨service, endpoint.uri, true⟩
          (⟨services, registry.leases ++ [lease]⟩, .ok lease)

/-- `publish_weighted`; `publish` is the case of weight one. -/
def Registry.publishWeighted (registry : Registry) (service uri : String) (weight : Nat) :
    Registry × Except DiscoveryError ServiceLease :=
  match DiscoveredEndpoint.weighted uri weight with
  | .error error => (registry, .error error)
  | .ok endpoint => registry.publishEndpoint service endpoint

/-- `release`, which is also what dropping a lease does. -/
def Registry.release (registry : Registry) (index : Nat) : Registry :=
  match registry.leases[index]? with
  | some lease =>
      if lease.active then
        ⟨(releaseUpdate registry.services lease.service lease.endpoint).1,
          registry.leases.set index { lease with active := false }⟩
      else registry
  | none => registry

/-- `endpoints`, in the order of the inner map. -/
def Registry.endpoints (registry : Registry) (service : String) :
    Except DiscoveryError (List String) :=
  match validateService service with
  | .error error => .error error
  | .ok service => .ok ((registry.services.endpoints service).sort (· ≤ ·))

/-- `discovered_endpoints`, in the same order. -/
def Registry.discoveredEndpoints (registry : Registry) (service : String) :
    Except DiscoveryError (List DiscoveredEndpoint) :=
  match validateService service with
  | .error error => .error error
  | .ok service =>
      .ok (((registry.services.endpoints service).sort (· ≤ ·)).filterMap fun uri =>
        (registry.services.lookup service uri).map RegistryEndpoint.endpoint)

/-- The active leases of a URI. -/
def Registry.activeLeases (registry : Registry) (service uri : String) : Nat :=
  registry.leases.countP fun lease =>
    lease.active && (lease.service == service && lease.endpoint == uri)

/-! ## Runs -/

inductive LeaseAction where
  | publishEndpoint (service : String) (endpoint : DiscoveredEndpoint)
  | publishWeighted (service uri : String) (weight : Nat)
  | release (index : Nat)
  | drop (index : Nat)

/-- What happened to a URI: a lease of it was granted, or given back. -/
inductive LeaseEvent where
  | published (service : String) (endpoint : DiscoveredEndpoint)
  | released (service uri : String)

/-- The event of a publication that was granted. -/
def granted (service : String) (endpoint : DiscoveredEndpoint) :
    Except DiscoveryError ServiceLease → List LeaseEvent
  | .ok _ => [.published service endpoint]
  | .error _ => []

/-- The event of a release: none for a lease that is no longer active. -/
def Registry.givenBack (registry : Registry) (index : Nat) : List LeaseEvent :=
  match registry.leases[index]? with
  | some lease => if lease.active then [.released lease.service lease.endpoint] else []
  | none => []

def Registry.advance (registry : Registry) : LeaseAction → Option (Registry × List LeaseEvent)
  | .publishEndpoint service endpoint =>
      let (after, result) := registry.publishEndpoint service endpoint
      some (after, granted service endpoint result)
  | .publishWeighted service uri weight =>
      let (after, result) := registry.publishWeighted service uri weight
      some (after, match DiscoveredEndpoint.weighted uri weight with
        | .ok endpoint => granted service endpoint result
        | .error _ => [])
  | .release index => some (registry.release index, registry.givenBack index)
  | .drop index => some (registry.release index, registry.givenBack index)

def leaseSystem : Lts (Registry × List LeaseEvent) LeaseAction :=
  Lts.emitting ⟨fun _ => none, []⟩ Registry.advance

/-- How one event changes the number of active leases of a URI and the endpoint
that was published first among them. -/
def track (service uri : String) (known : Nat × Option DiscoveredEndpoint) :
    LeaseEvent → Nat × Option DiscoveredEndpoint
  | .published service' endpoint =>
      if service' = service ∧ endpoint.uri = uri then
        (known.1 + 1, if known.1 = 0 then some endpoint else known.2)
      else known
  | .released service' uri' =>
      if service' = service ∧ uri' = uri then
        (known.1 - 1, if known.1 ≤ 1 then none else known.2)
      else known

/-- The leases of a URI granted and not given back. -/
def leased (events : List LeaseEvent) (service uri : String) : Nat :=
  (events.foldl (track service uri) (0, none)).1

/-- The endpoint of the first publisher since the URI last had no lease. -/
def firstPublished (events : List LeaseEvent) (service uri : String) :
    Option DiscoveredEndpoint :=
  (events.foldl (track service uri) (0, none)).2

section Events

variable {events : List LeaseEvent} {service uri : String}

theorem leased_published (service' : String) (endpoint : DiscoveredEndpoint) :
    leased (events ++ [.published service' endpoint]) service uri =
        (if service' = service ∧ endpoint.uri = uri then leased events service uri + 1
          else leased events service uri) ∧
      firstPublished (events ++ [.published service' endpoint]) service uri =
        (if service' = service ∧ endpoint.uri = uri then
          if leased events service uri = 0 then some endpoint
          else firstPublished events service uri
        else firstPublished events service uri) := by
  unfold leased firstPublished
  rw [List.foldl_append, List.foldl_cons, List.foldl_nil, track]
  split <;> exact ⟨rfl, rfl⟩

theorem leased_released (service' uri' : String) :
    leased (events ++ [.released service' uri']) service uri =
        (if service' = service ∧ uri' = uri then leased events service uri - 1
          else leased events service uri) ∧
      firstPublished (events ++ [.released service' uri']) service uri =
        (if service' = service ∧ uri' = uri then
          if leased events service uri ≤ 1 then none else firstPublished events service uri
        else firstPublished events service uri) := by
  unfold leased firstPublished
  rw [List.foldl_append, List.foldl_cons, List.foldl_nil, track]
  split <;> exact ⟨rfl, rfl⟩

end Events

/-- No service is kept without endpoints. -/
def Services.Inhabited (services : Services) : Prop :=
  ∀ service endpoints, services service = some endpoints → endpoints.keys ≠ ∅

/-- The map counts the active leases, keeps what was published first, and has no
empty inner map. -/
structure Accounted (registry : Registry) (events : List LeaseEvent) : Prop where
  counted : registry.services.Counted
  active : ∀ service uri,
    registry.services.references service uri = registry.activeLeases service uri
  leased : ∀ service uri, registry.services.references service uri = leased events service uri
  first : ∀ service uri, (registry.services.lookup service uri).map RegistryEndpoint.endpoint =
    firstPublished events service uri
  named : ∀ service uri entry, registry.services.lookup service uri = some entry →
    entry.endpoint.uri = uri
  inhabited : registry.services.Inhabited
  valid : ∀ lease ∈ registry.leases, isBlank lease.service = false

/-! ## The critical sections keep no empty map -/

theorem Services.Inhabited.update {services : Services} (inhabited : services.Inhabited)
    {service : String} {value : Option Endpoints}
    (new : ∀ endpoints, value = some endpoints → endpoints.keys ≠ ∅) :
    Services.Inhabited (Function.update services service value) := by
  intro service' endpoints here
  by_cases same : service' = service
  · subst same
    rw [Function.update_self] at here
    exact new endpoints here
  · rw [Function.update_of_ne same] at here
    exact inhabited service' endpoints here

theorem keys_insert_ne_empty (endpoints : Endpoints) (uri : String) (entry : RegistryEndpoint) :
    (endpoints.insert uri entry).keys ≠ ∅ := by
  intro empty
  have member : uri ∈ (endpoints.insert uri entry).keys :=
    Finmap.mem_keys.mpr (Finmap.mem_insert.mpr (.inl rfl))
  rw [empty] at member
  exact absurd member (Finset.notMem_empty uri)

theorem publishUpdate_inhabited {services services' : Services} {service : String}
    {endpoint : DiscoveredEndpoint} {added : Bool} (inhabited : services.Inhabited)
    (update : publishUpdate services service endpoint = .ok (services', added)) :
    services'.Inhabited := by
  have insert : ∀ entry, Services.Inhabited (Function.update services service
      (some (((services service).getD ∅).insert endpoint.uri entry))) := by
    intro entry
    refine inhabited.update ?_
    intro endpoints same
    cases same
    exact keys_insert_ne_empty _ _ _
  unfold publishUpdate at update
  dsimp only at update
  split at update
  · split at update
    · cases update
    · cases update
      exact insert _
  · cases update
    exact insert _

theorem releaseUpdate_inhabited {services : Services} (inhabited : services.Inhabited)
    (service uri : String) : (releaseUpdate services service uri).1.Inhabited := by
  unfold releaseUpdate
  split
  · exact inhabited
  · split
    · exact inhabited
    · split
      · refine inhabited.update ?_
        intro endpoints same
        cases same
        exact keys_insert_ne_empty _ _ _
      · refine inhabited.update ?_
        intro endpoints same
        split at same
        · cases same
        · rename_i some_
          cases same
          exact some_

/-! ## One critical section -/

section Accounted

variable {registry : Registry} {events : List LeaseEvent}

theorem lookup_of_references {services : Services} {service uri : String}
    (positive : 0 < services.references service uri) :
    ∃ entry, services.lookup service uri = some entry := by
  unfold Services.references at positive
  cases found : services.lookup service uri with
  | none =>
      rw [found] at positive
      exact absurd positive (Nat.lt_irrefl 0)
  | some entry => exact ⟨entry, rfl⟩

/-- A critical section sets the entry of one URI, and the leases and events change
with it there and nowhere else. -/
theorem Accounted.update (accounted : Accounted registry events) {services : Services}
    {service uri : String} {entry : Option RegistryEndpoint} {leases : List ServiceLease}
    {out : List LeaseEvent} (sets : registry.services.Sets services service uri entry)
    (positive : ∀ stored, entry = some stored → 0 < stored.references)
    (named : ∀ stored, entry = some stored → stored.endpoint.uri = uri)
    (inhabited : services.Inhabited) (valid : ∀ lease ∈ leases, isBlank lease.service = false)
    (others : ∀ service' uri', service' ≠ service ∨ uri' ≠ uri →
      Registry.activeLeases ⟨services, leases⟩ service' uri' =
          registry.activeLeases service' uri' ∧
        Discov.leased (events ++ out) service' uri' = Discov.leased events service' uri' ∧
        firstPublished (events ++ out) service' uri' = firstPublished events service' uri')
    (active : services.references service uri =
      Registry.activeLeases ⟨services, leases⟩ service uri)
    (counted : services.references service uri = Discov.leased (events ++ out) service uri)
    (first : entry.map RegistryEndpoint.endpoint = firstPublished (events ++ out) service uri) :
    Accounted ⟨services, leases⟩ (events ++ out) := by
  have here_of {service' uri' : String} (same : ¬ (service' ≠ service ∨ uri' ≠ uri)) :
      service' = service ∧ uri' = uri := by
    simpa using same
  refine ⟨sets.counted accounted.counted positive, ?_, ?_, ?_, ?_, inhabited, valid⟩
  · intro service' uri'
    by_cases other : service' ≠ service ∨ uri' ≠ uri
    · rw [sets.references_other other, (others service' uri' other).1]
      exact accounted.active service' uri'
    · obtain ⟨rfl, rfl⟩ := here_of other
      exact active
  · intro service' uri'
    by_cases other : service' ≠ service ∨ uri' ≠ uri
    · rw [sets.references_other other, (others service' uri' other).2.1]
      exact accounted.leased service' uri'
    · obtain ⟨rfl, rfl⟩ := here_of other
      exact counted
  · intro service' uri'
    by_cases other : service' ≠ service ∨ uri' ≠ uri
    · rw [sets.2 service' uri' other, (others service' uri' other).2.2]
      exact accounted.first service' uri'
    · obtain ⟨rfl, rfl⟩ := here_of other
      rw [sets.1]
      exact first
  · intro service' uri' stored found
    by_cases other : service' ≠ service ∨ uri' ≠ uri
    · rw [sets.2 service' uri' other] at found
      exact accounted.named service' uri' stored found
    · obtain ⟨rfl, rfl⟩ := here_of other
      exact named stored (sets.1.symm.trans found)

theorem not_here {service service' uri uri' : String} (other : service' ≠ service ∨ uri' ≠ uri) :
    ¬ (service = service' ∧ uri = uri') := by
  intro same
  rcases other with ne | ne
  · exact ne same.1.symm
  · exact ne same.2.symm

theorem activeLeases_granted (services : Services) (service uri service' uri' : String) :
    Registry.activeLeases ⟨services, registry.leases ++ [⟨service, uri, true⟩]⟩ service' uri' =
      registry.activeLeases service' uri' + if service = service' ∧ uri = uri' then 1 else 0 := by
  simp [Registry.activeLeases, List.countP_append, List.countP_singleton]

theorem activeLeases_givenBack (services : Services) {index : Nat} {service uri : String}
    (found : registry.leases[index]? = some ⟨service, uri, true⟩) (service' uri' : String) :
    Registry.activeLeases ⟨services, registry.leases.set index ⟨service, uri, false⟩⟩
        service' uri' =
      registry.activeLeases service' uri' - if service = service' ∧ uri = uri' then 1 else 0 := by
  obtain ⟨within, same⟩ := List.getElem?_eq_some_iff.mp found
  simp [Registry.activeLeases, List.countP_set within, same]

theorem Accounted.publish (accounted : Accounted registry events) {service : String}
    {endpoint : DiscoveredEndpoint} {services : Services} {added : Bool}
    (valid : isBlank service = false)
    (update : publishUpdate registry.services service endpoint = .ok (services, added)) :
    Accounted ⟨services, registry.leases ++ [⟨service, endpoint.uri, true⟩]⟩
      (events ++ [.published service endpoint]) := by
  obtain ⟨entry, sets, references, -⟩ := publishUpdate_sets update
  obtain ⟨stored, known⟩ := publishUpdate_endpoint update
  have endpointEq : entry.endpoint = endpoint := by
    rw [sets.1] at stored
    exact Option.some.inj stored
  have now : services.references service endpoint.uri =
      registry.services.references service endpoint.uri + 1 := by
    rw [sets.references_here]
    exact references
  refine accounted.update sets ?_ ?_ (publishUpdate_inhabited accounted.inhabited update)
    ?_ ?_ ?_ ?_ ?_
  · intro other same
    cases same
    omega
  · intro other same
    cases same
    rw [endpointEq]
  · intro lease member
    rcases List.mem_append.mp member with older | new
    · exact accounted.valid lease older
    · rw [List.mem_singleton.mp new]
      exact valid
  · intro service' uri' other
    refine ⟨?_, ?_, ?_⟩
    · rw [activeLeases_granted, if_neg (not_here other), Nat.add_zero]
    · rw [(leased_published service endpoint).1, if_neg (not_here other)]
    · rw [(leased_published service endpoint).2, if_neg (not_here other)]
  · rw [now, activeLeases_granted, if_pos ⟨rfl, rfl⟩, accounted.active]
  · rw [now, (leased_published service endpoint).1, if_pos ⟨rfl, rfl⟩, accounted.leased]
  · rw [(leased_published service endpoint).2, if_pos ⟨rfl, rfl⟩, Option.map_some, endpointEq,
      ← accounted.leased, ← accounted.first]
    -- a leased URI holds what its publishers agree on
    split
    · rfl
    · rename_i some_
      obtain ⟨found, lookup⟩ := lookup_of_references (Nat.pos_of_ne_zero some_)
      rw [lookup, Option.map_some, known found lookup]

/-- An active lease is counted. -/
theorem Accounted.referenced (accounted : Accounted registry events) {lease : ServiceLease}
    (member : lease ∈ registry.leases) (active : lease.active = true) :
    0 < registry.services.references lease.service lease.endpoint := by
  rw [accounted.active]
  apply List.countP_pos_iff.mpr
  exact ⟨lease, member, by simp [active]⟩

theorem Accounted.release (accounted : Accounted registry events) {index : Nat}
    {lease : ServiceLease} (found : registry.leases[index]? = some lease)
    (active : lease.active = true) :
    Accounted ⟨(releaseUpdate registry.services lease.service lease.endpoint).1,
        registry.leases.set index { lease with active := false }⟩
      (events ++ [.released lease.service lease.endpoint]) := by
  obtain ⟨service, uri, flag⟩ := lease
  have active : flag = true := active
  subst active
  have member := List.mem_of_getElem? found
  obtain ⟨entry, lookup⟩ := lookup_of_references (accounted.referenced member rfl)
  obtain ⟨-, sets⟩ := releaseUpdate_sets lookup
  have references : registry.services.references service uri = entry.references := by
    unfold Services.references
    rw [lookup]
    rfl
  have lowered : (releaseUpdate registry.services service uri).1.references service uri =
      registry.services.references service uri - 1 := by
    rw [sets.references_here, references]
    split
    · rename_i last
      exact (Nat.sub_eq_zero_of_le last).symm
    · rfl
  refine accounted.update sets ?_ ?_ (releaseUpdate_inhabited accounted.inhabited _ _)
    ?_ ?_ ?_ ?_ ?_
  · intro other same
    split at same
    · cases same
    · cases same
      simp only
      omega
  · intro other same
    split at same
    · cases same
    · cases same
      exact accounted.named service uri entry lookup
  · intro other member
    rcases List.mem_or_eq_of_mem_set member with older | new
    · exact accounted.valid other older
    · have valid := accounted.valid _ (List.mem_of_getElem? found)
      rw [new]
      exact valid
  · intro service' uri' other
    refine ⟨?_, ?_, ?_⟩
    · rw [activeLeases_givenBack _ found, if_neg (not_here other), Nat.sub_zero]
    · rw [(leased_released service uri).1, if_neg (not_here other)]
    · rw [(leased_released service uri).2, if_neg (not_here other)]
  · rw [lowered, activeLeases_givenBack _ found, if_pos ⟨rfl, rfl⟩, accounted.active]
  · rw [lowered, (leased_released service uri).1, if_pos ⟨rfl, rfl⟩, accounted.leased]
  · have known : firstPublished (events ++ [.released service uri]) service uri =
        if entry.references ≤ 1 then none else some entry.endpoint := by
      rw [(leased_released service uri).2, if_pos ⟨rfl, rfl⟩, ← accounted.leased, references,
        ← accounted.first, lookup]
      rfl
    rw [known]
    split <;> rfl

/-- A publication is refused and changes nothing, or grants a lease of what its
critical section stored. -/
theorem publishEndpoint_cases (registry : Registry) (service : String)
    (endpoint : DiscoveredEndpoint) :
    (∃ error, registry.publishEndpoint service endpoint = (registry, .error error)) ∨
    (isBlank service = false ∧ ∃ services added,
      publishUpdate registry.services service endpoint = .ok (services, added) ∧
      registry.publishEndpoint service endpoint =
        (⟨services, registry.leases ++ [⟨service, endpoint.uri, true⟩]⟩,
          .ok ⟨service, endpoint.uri, true⟩)) := by
  cases blank : isBlank service with
  | true =>
      have invalid : validateService service = .error .emptyService := by
        simp [validateService, blank]
      refine .inl ⟨.emptyService, ?_⟩
      rw [Registry.publishEndpoint, invalid]
  | false =>
      have validated : validateService service = .ok service := by
        simp [validateService, blank]
      rw [Registry.publishEndpoint, validated]
      cases locked : publishLocked registry.services service endpoint with
      | mk services result =>
          cases result with
          | error error =>
              have same := publishLocked_error locked
              subst same
              exact .inl ⟨error, by simp only [locked]⟩
          | ok added =>
              exact .inr ⟨rfl, services, added, publishLocked_ok locked, by simp only [locked]⟩

/-- Every call keeps the accounts. -/
theorem Accounted.publishEndpoint (accounted : Accounted registry events) (service : String)
    (endpoint : DiscoveredEndpoint) :
    Accounted (registry.publishEndpoint service endpoint).1
      (events ++ granted service endpoint (registry.publishEndpoint service endpoint).2) := by
  rcases publishEndpoint_cases registry service endpoint with
    ⟨error, refused⟩ | ⟨valid, services, added, update, published⟩
  · rw [refused, granted, List.append_nil]
    exact accounted
  · rw [published]
    exact accounted.publish valid update

theorem Accounted.releaseCall (accounted : Accounted registry events) (index : Nat) :
    Accounted (registry.release index) (events ++ registry.givenBack index) := by
  unfold Registry.release Registry.givenBack
  cases found : registry.leases[index]? with
  | none =>
      rw [List.append_nil]
      exact accounted
  | some lease =>
      cases active : lease.active with
      | false =>
          simp only [active, Bool.false_eq_true, if_false, List.append_nil]
          exact accounted
      | true =>
          simp only [active, if_true]
          exact accounted.release found active

theorem Accounted.advance (accounted : Accounted registry events) {action : LeaseAction}
    {after : Registry} {out : List LeaseEvent}
    (taken : registry.advance action = some (after, out)) : Accounted after (events ++ out) := by
  cases action with
  | publishEndpoint service endpoint =>
      cases taken
      exact accounted.publishEndpoint service endpoint
  | publishWeighted service uri weight =>
      simp only [Registry.advance, Registry.publishWeighted] at taken
      cases described : DiscoveredEndpoint.weighted uri weight with
      | error error =>
          rw [described] at taken
          cases taken
          rw [List.append_nil]
          exact accounted
      | ok endpoint =>
          rw [described] at taken
          cases taken
          exact accounted.publishEndpoint service endpoint
  | release index =>
      cases taken
      exact accounted.releaseCall index
  | drop index =>
      cases taken
      exact accounted.releaseCall index

end Accounted

theorem accounted_of_reachable {registry : Registry} {events : List LeaseEvent}
    (reach : leaseSystem.Reachable (registry, events)) : Accounted registry events := by
  refine reach.emitting_invariant (I := Accounted) ?_ ?_
  · refine ⟨?_, fun _ _ => rfl, fun _ _ => rfl, fun _ _ => rfl, ?_, ?_, ?_⟩
    · intro service uri entry found
      cases found
    · intro service uri entry found
      cases found
    · intro service endpoints found
      cases found
    · intro lease member
      cases member
  · intro registry events action after out accounted _ taken
    exact accounted.advance taken

/-- A second release finds the lease inactive. -/
theorem release_release (registry : Registry) (index : Nat) :
    (registry.release index).release index = registry.release index := by
  cases found : registry.leases[index]? with
  | none =>
      have same : registry.release index = registry := by simp [Registry.release, found]
      rw [same, same]
  | some lease =>
      cases active : lease.active with
      | false =>
          have same : registry.release index = registry := by
            simp [Registry.release, found, active]
          rw [same, same]
      | true =>
          obtain ⟨within, -⟩ := List.getElem?_eq_some_iff.mp found
          have inactive : (registry.release index).leases[index]? =
              some { lease with active := false } := by
            simp only [Registry.release, found, active, if_true]
            exact List.getElem?_set_self within
          generalize registry.release index = once at inactive ⊢
          simp [Registry.release, inactive]

/-- A refused publication changes nothing. -/
theorem publish_refused (registry : Registry) (service : String)
    (endpoint : DiscoveredEndpoint) {error : DiscoveryError}
    (refused : (registry.publishEndpoint service endpoint).2 = .error error) :
    (registry.publishEndpoint service endpoint).1 = registry := by
  rcases publishEndpoint_cases registry service endpoint with
    ⟨conflict, same⟩ | ⟨-, services, added, -, published⟩
  · rw [same]
  · rw [published] at refused
    cases refused

theorem publishWeighted_refused (registry : Registry) (service uri : String) (weight : Nat)
    {error : DiscoveryError}
    (refused : (registry.publishWeighted service uri weight).2 = .error error) :
    (registry.publishWeighted service uri weight).1 = registry := by
  unfold Registry.publishWeighted at refused ⊢
  cases described : DiscoveredEndpoint.weighted uri weight with
  | error invalid => rfl
  | ok endpoint =>
      rw [described] at refused
      exact publish_refused registry service endpoint refused

section Listing

variable {registry : Registry} {events : List LeaseEvent} {service : String}

theorem Accounted.mem_endpoints (accounted : Accounted registry events) {listed : List String}
    (asked : registry.endpoints service = .ok listed) (uri : String) :
    uri ∈ listed ↔ 1 ≤ registry.activeLeases service uri := by
  unfold Registry.endpoints validateService at asked
  split at asked
  · cases asked
  · rename_i same
    split at same
    · cases same
    · cases same
      cases asked
      rw [Finset.mem_sort, accounted.counted.mem_endpoints, accounted.active]
      rfl

theorem Accounted.mem_discovered (accounted : Accounted registry events)
    {listed : List DiscoveredEndpoint} (asked : registry.discoveredEndpoints service = .ok listed)
    (endpoint : DiscoveredEndpoint) :
    endpoint ∈ listed ↔ 1 ≤ registry.activeLeases service endpoint.uri ∧
      firstPublished events service endpoint.uri = some endpoint := by
  unfold Registry.discoveredEndpoints validateService at asked
  split at asked
  · cases asked
  · rename_i same
    split at same
    · cases same
    · cases same
      cases asked
      rw [List.mem_filterMap]
      refine ⟨?_, ?_⟩
      · intro given
        obtain ⟨uri, member, stored⟩ := given
        obtain ⟨entry, lookup, same⟩ := Option.map_eq_some_iff.mp stored
        have named := accounted.named service uri entry lookup
        rw [same] at named
        subst named
        rw [Finset.mem_sort, accounted.counted.mem_endpoints, accounted.active] at member
        exact ⟨member, (accounted.first service endpoint.uri).symm.trans stored⟩
      · intro given
        obtain ⟨active, first⟩ := given
        refine ⟨endpoint.uri, ?_, (accounted.first service endpoint.uri).trans first⟩
        rw [Finset.mem_sort, accounted.counted.mem_endpoints, accounted.active]
        exact active

end Listing

/-- In every interleaving of publications, releases and drops: the reference count
of a URI is the number of its active leases; it is listed, with the metadata of
its first publisher, exactly while there is one; no decrement underflows; a second
release changes nothing; no service is kept without endpoints; and a refused
publication leaves the registry as it was. -/
theorem registry_counts_active_leases {registry : Registry} {events : List LeaseEvent}
    (reach : leaseSystem.Reachable (registry, events)) :
    (∀ service uri, registry.services.references service uri =
      registry.activeLeases service uri ∧
      registry.activeLeases service uri = leased events service uri) ∧
    (∀ service, isBlank service = false →
      ∃ listed discovered, registry.endpoints service = .ok listed ∧
        registry.discoveredEndpoints service = .ok discovered ∧
        (∀ uri, uri ∈ listed ↔ 1 ≤ registry.activeLeases service uri) ∧
        ∀ endpoint, endpoint ∈ discovered ↔ 1 ≤ registry.activeLeases service endpoint.uri ∧
          firstPublished events service endpoint.uri = some endpoint) ∧
    (∀ service uri, 1 ≤ registry.activeLeases service uri → isBlank service = false ∧
      ∃ entry, registry.services.lookup service uri = some entry ∧ 1 ≤ entry.references ∧
        entry.endpoint.uri = uri ∧
        firstPublished events service uri = some entry.endpoint) ∧
    (∀ index, (registry.release index).release index = registry.release index) ∧
    (∀ service endpoints, registry.services service = some endpoints → endpoints.keys ≠ ∅) ∧
    (∀ service endpoint error, (registry.publishEndpoint service endpoint).2 = .error error →
      (registry.publishEndpoint service endpoint).1 = registry) ∧
    (∀ service uri weight error,
      (registry.publishWeighted service uri weight).2 = .error error →
      (registry.publishWeighted service uri weight).1 = registry) := by
  have accounted := accounted_of_reachable reach
  refine ⟨?_, ?_, ?_, release_release registry, accounted.inhabited, ?_, ?_⟩
  · intro service uri
    have active := accounted.active service uri
    exact ⟨active, active.symm.trans (accounted.leased service uri)⟩
  · intro service valid
    have validated : validateService service = .ok service := by
      simp [validateService, valid]
    obtain ⟨listed, endpoints⟩ : ∃ listed, registry.endpoints service = .ok listed := by
      rw [Registry.endpoints, validated]
      exact ⟨_, rfl⟩
    obtain ⟨discovered, described⟩ :
        ∃ discovered, registry.discoveredEndpoints service = .ok discovered := by
      rw [Registry.discoveredEndpoints, validated]
      exact ⟨_, rfl⟩
    exact ⟨listed, discovered, endpoints, described, accounted.mem_endpoints endpoints,
      accounted.mem_discovered described⟩
  · intro service uri some_
    refine ⟨?_, ?_⟩
    · obtain ⟨lease, member, matched⟩ := List.countP_pos_iff.mp some_
      have same : lease.service = service := by
        simp only [Bool.and_eq_true, beq_iff_eq] at matched
        exact matched.2.1
      rw [← same]
      exact accounted.valid lease member
    · rw [← accounted.active] at some_
      obtain ⟨entry, lookup⟩ := lookup_of_references some_
      refine ⟨entry, lookup, accounted.counted service uri entry lookup,
        accounted.named service uri entry lookup, ?_⟩
      rw [← accounted.first, lookup, Option.map_some]
  · intro service endpoint error refused
    exact publish_refused registry service endpoint refused
  · intro service uri weight error refused
    exact publishWeighted_refused registry service uri weight refused

/-- Two publishers of one URI, one of which releases twice. -/
theorem registry_counts_the_remaining_lease :
    ∃ registry events, leaseSystem.Reachable (registry, events) ∧
      registry.activeLeases "users" "http://a" = 1 ∧
      registry.services.references "users" "http://a" = 1 := by
  have run : (leaseSystem.exec leaseSystem.init
      [.publishWeighted "users" "http://a" 2, .publishWeighted "users" "http://a" 2,
        .publishWeighted "users" "http://a" 3, .release 0, .drop 0]).map
        (fun reached => reached.1.activeLeases "users" "http://a") = some 1 := by decide +kernel
  obtain ⟨⟨registry, events⟩, executed, ends⟩ := Option.map_eq_some_iff.mp run
  have reach := Lts.reachable_of_exec _ executed
  have counted := (registry_counts_active_leases reach).1 "users" "http://a"
  exact ⟨registry, events, reach, ends, counted.1.trans ends⟩

end RustZero.Discov
