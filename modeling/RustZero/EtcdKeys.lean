import RustZero.Lib.Checks
import RustZero.Lib.Separated
import RustZero.Lib.Utf8
import RustZero.EtcdDiscovery
import RustZero.Gateway

/-!
# Etcd keys

The keys of `core/src/etcd.rs`: `config_key`, `service_prefix` and `service_key` of a client,
whose namespace `normalize_namespace` has made one segment, and `validate_name`, which lets no
`/` into a name.

A key is the path of its segments.  The prefix that a subscription watches ends with a `/`, so
etcd, which compares bytes, shows it what is below the service and nothing else: neither the
instances of a service whose name extends this one nor any configuration (`keys_collision_free`).
-/

namespace RustZero.EtcdKeys

open Lib
open Discov (isBlank)
open EtcdDiscovery (under)
open Gateway (trimSlashes)

/-- `EtcdError::EmptyName`, with the kind of the name. -/
structure EmptyName where
  kind : String
  deriving DecidableEq, Repr

def validateName (kind value : String) : Except EmptyName Unit :=
  if isBlank value || value.toList.contains '/' then .error ⟨kind⟩ else .ok ()

def normalizeNamespace (etcdNamespace : String) : Except EmptyName String := do
  let etcdNamespace := trimSlashes etcdNamespace
  validateName "namespace" etcdNamespace
  return "/" ++ etcdNamespace

/-- The client, scoped to a namespace that has been normalised. -/
@[ext] structure EtcdClient where
  etcdNamespace : String
  normalized : ∃ given, normalizeNamespace given = .ok etcdNamespace

namespace EtcdClient

/-- `EtcdClient::from_client`, and what `connect` does with the namespace. -/
def fromClient (etcdNamespace : String) : Except EmptyName EtcdClient :=
  match normalized : normalizeNamespace etcdNamespace with
  | .ok scope => .ok ⟨scope, etcdNamespace, normalized⟩
  | .error error => .error error

def configKey (client : EtcdClient) (name : String) : Except EmptyName String := do
  validateName "configuration name" name
  return client.etcdNamespace ++ "/config/" ++ name

def servicePrefix (client : EtcdClient) (service : String) : Except EmptyName String := do
  validateName "service name" service
  return client.etcdNamespace ++ "/discovery/" ++ service ++ "/"

def serviceKey (client : EtcdClient) (service inst : String) : Except EmptyName String := do
  validateName "instance name" inst
  return (← client.servicePrefix service) ++ inst

/-- The keys that the client can create. -/
inductive Creates (client : EtcdClient) (key : String) : Prop
  | config {name : String} (made : client.configKey name = .ok key)
  | service {service inst : String} (made : client.serviceKey service inst = .ok key)

end EtcdClient

/-! ## Names -/

variable {kind value etcdNamespace name service inst key scope : String} {client other : EtcdClient}

/-- A name is not blank, and is one segment. -/
structure Accepted (value : String) : Prop where
  filled : isBlank value = false
  segment : '/' ∉ value.toList

theorem validateName_ok : validateName kind value = .ok () ↔ Accepted value := by
  rw [validateName]
  split
  case isTrue refused =>
    constructor
    · intro made
      cases made
    · intro accepted
      rw [accepted.filled, Bool.false_or, List.contains_iff_mem] at refused
      exact absurd refused accepted.segment
  case isFalse accepted =>
    rw [Bool.or_eq_true, List.contains_iff_mem, not_or, Bool.not_eq_true] at accepted
    exact ⟨fun _ => ⟨accepted.1, accepted.2⟩, fun _ => rfl⟩

theorem EtcdClient.configKey_ok :
    client.configKey name = .ok key ↔
      Accepted name ∧ client.etcdNamespace ++ "/config/" ++ name = key := by
  constructor
  · intro made
    obtain ⟨_, valid, made⟩ := bind_eq_ok made
    exact ⟨validateName_ok.mp valid, Except.ok.inj made⟩
  · intro made
    rw [EtcdClient.configKey, validateName_ok.mpr made.1, ← made.2]
    rfl

theorem EtcdClient.servicePrefix_ok :
    client.servicePrefix service = .ok key ↔
      Accepted service ∧ client.etcdNamespace ++ "/discovery/" ++ service ++ "/" = key := by
  constructor
  · intro made
    obtain ⟨_, valid, made⟩ := bind_eq_ok made
    exact ⟨validateName_ok.mp valid, Except.ok.inj made⟩
  · intro made
    rw [EtcdClient.servicePrefix, validateName_ok.mpr made.1, ← made.2]
    rfl

theorem EtcdClient.serviceKey_ok :
    client.serviceKey service inst = .ok key ↔
      Accepted inst ∧ ∃ scope, client.servicePrefix service = .ok scope ∧ scope ++ inst = key := by
  constructor
  · intro made
    obtain ⟨_, valid, made⟩ := bind_eq_ok made
    obtain ⟨scope, under, made⟩ := bind_eq_ok made
    exact ⟨validateName_ok.mp valid, scope, under, Except.ok.inj made⟩
  · intro made
    obtain ⟨valid, scope, under, same⟩ := made
    rw [EtcdClient.serviceKey, validateName_ok.mpr valid, under, ← same]
    rfl

/-! ## Paths -/

/-- The byte of a `/`. -/
def slash : UInt8 := UInt8.ofNat '/'.toNat

/-- The key is the path of the segments, and can be read back. -/
structure PathOf (segments : List String) (key : String) : Prop where
  bytes : utf8 key = rooted slash (segments.map utf8)
  free : ∀ segment ∈ segments, '/' ∉ segment.toList

variable {segments others : List String}

theorem utf8_slash : utf8 "/" = [slash] := by
  rw [utf8_eq_flatMap]
  rfl

theorem PathOf.root : PathOf [] "" := by
  refine ⟨utf8_empty, ?_⟩
  intro segment member
  cases member

theorem PathOf.below (path : PathOf segments key) (name : String) (single : '/' ∉ name.toList) :
    PathOf (segments ++ [name]) (key ++ "/" ++ name) := by
  refine ⟨?_, ?_⟩
  · rw [utf8_append, utf8_append, utf8_slash, path.bytes, List.map_append, rooted_append,
      List.append_assoc]
    exact congrArg (_ ++ ·) (List.append_nil _).symm
  · intro segment member
    rcases List.mem_append.mp member with above | last
    · exact path.free segment above
    · rw [List.mem_singleton.mp last]
      exact single

/-- Two segments further. -/
theorem PathOf.beneath (path : PathOf segments key) (kind : String) (fixed : '/' ∉ kind.toList)
    (single : '/' ∉ name.toList) :
    PathOf (segments ++ [kind, name]) (key ++ ("/" ++ kind ++ "/") ++ name) := by
  have further := (path.below kind fixed).below name single
  rw [List.append_assoc] at further
  rw [← String.append_assoc, ← String.append_assoc]
  exact further

/-- A path has one key. -/
theorem PathOf.same (path : PathOf segments key) {again : String} (other : PathOf segments again) :
    key = again :=
  utf8_injective (path.bytes.trans other.bytes.symm)

theorem PathOf.free_bytes (path : PathOf segments key) :
    ∀ part ∈ segments.map utf8, slash ∉ part := by
  intro part member
  obtain ⟨segment, listed, rfl⟩ := List.mem_map.mp member
  exact fun inside => path.free segment listed ((mem_utf8_iff (by decide)).mp inside)

/-- A key has one path. -/
theorem PathOf.unique (path : PathOf segments key) (again : PathOf others key) :
    segments = others := by
  have parts := rooted_inj path.free_bytes again.free_bytes (path.bytes.symm.trans again.bytes)
  exact utf8_injective.list_map parts

/-- What ends with a `/` is over exactly the keys that have a further segment. -/
theorem PathOf.under_iff (above : PathOf (segments ++ [""]) scope) (path : PathOf others key) :
    under (utf8 scope) (utf8 key) = true ↔ ∃ first rest, others = segments ++ first :: rest := by
  have free : ∀ part ∈ segments.map utf8, slash ∉ part := by
    intro part member
    refine above.free_bytes part ?_
    rw [List.map_append]
    exact List.mem_append_left _ member
  have parts : (segments ++ [""]).map utf8 = segments.map utf8 ++ [[]] := by
    rw [List.map_append, List.map_cons, utf8_empty, List.map_nil]
  rw [under, List.isPrefixOf_iff_prefix, above.bytes, path.bytes, parts,
    rooted_prefix_iff free path.free_bytes]
  constructor
  · intro below
    obtain ⟨first, rest, split⟩ := below
    obtain ⟨upper, lower, rfl, same, more⟩ := List.map_eq_append_iff.mp split
    obtain ⟨segment, later, rfl, -, -⟩ := List.map_eq_cons_iff.mp more
    exact ⟨segment, later, congrArg (· ++ segment :: later) (utf8_injective.list_map same)⟩
  · intro below
    obtain ⟨first, rest, rfl⟩ := below
    exact ⟨utf8 first, rest.map utf8, List.map_append⟩

/-! ## Keys -/

/-- The namespace of a client is a single segment. -/
theorem EtcdClient.scoped (client : EtcdClient) :
    ∃ segment, PathOf [segment] client.etcdNamespace := by
  obtain ⟨given, normalized⟩ := client.normalized
  obtain ⟨_, valid, made⟩ := bind_eq_ok normalized
  have path := PathOf.root.below _ (validateName_ok.mp valid).segment
  exact ⟨trimSlashes given, (Except.ok.inj made) ▸ path⟩

section Segments

variable {segment : String} (within : PathOf [segment] client.etcdNamespace)

include within

theorem configKey_path (made : client.configKey name = .ok key) :
    PathOf [segment, "config", name] key := by
  obtain ⟨valid, rfl⟩ := EtcdClient.configKey_ok.mp made
  exact within.beneath "config" (by decide) valid.segment

theorem servicePrefix_path (made : client.servicePrefix service = .ok scope) :
    PathOf ([segment, "discovery", service] ++ [""]) scope := by
  obtain ⟨valid, rfl⟩ := EtcdClient.servicePrefix_ok.mp made
  have path := (within.beneath "discovery" (by decide) valid.segment).below "" (by decide)
  rw [String.append_empty] at path
  exact path

theorem serviceKey_path (made : client.serviceKey service inst = .ok key) :
    PathOf [segment, "discovery", service, inst] key := by
  obtain ⟨valid, scope, opened, rfl⟩ := EtcdClient.serviceKey_ok.mp made
  obtain ⟨accepted, rfl⟩ := EtcdClient.servicePrefix_ok.mp opened
  have path := (within.beneath "discovery" (by decide) accepted.segment).below inst valid.segment
  exact path

end Segments

/-- A key tells the namespace, and what is below it. -/
theorem namespace_unique {segment outer : String}
    (within : PathOf [segment] client.etcdNamespace)
    (elsewhere : PathOf [outer] other.etcdNamespace) (path : PathOf (segment :: segments) key)
    (again : PathOf (outer :: others) key) :
    client.etcdNamespace = other.etcdNamespace ∧ segments = others := by
  obtain ⟨rfl, rest⟩ := List.cons.inj (path.unique again)
  exact ⟨within.same elsewhere, rest⟩

/-- No configuration is under a service prefix. -/
theorem config_not_under (made : client.servicePrefix service = .ok scope)
    (named : other.configKey name = .ok key) : under (utf8 scope) (utf8 key) = false := by
  obtain ⟨segment, within⟩ := client.scoped
  obtain ⟨outer, elsewhere⟩ := other.scoped
  have above := servicePrefix_path within made
  rw [← Bool.not_eq_true, above.under_iff (configKey_path elsewhere named)]
  intro below
  obtain ⟨first, rest, same⟩ := below
  have kinds : "config" = "discovery" := (List.cons.inj (List.cons.inj same).2).1
  exact absurd kinds (by decide)

/-- A key that a client creates is under a service prefix if it is an instance of the service. -/
theorem under_iff_instance (made : client.servicePrefix service = .ok scope)
    (created : other.Creates key) :
    under (utf8 scope) (utf8 key) = true ↔ ∃ inst, client.serviceKey service inst = .ok key := by
  obtain ⟨segment, within⟩ := client.scoped
  obtain ⟨outer, elsewhere⟩ := other.scoped
  have above := servicePrefix_path within made
  constructor
  · intro below
    cases created with
    | config named => cases below.symm.trans (config_not_under made named)
    | @service _ inst named =>
        obtain ⟨valid, -⟩ := EtcdClient.serviceKey_ok.mp named
        have path := serviceKey_path elsewhere named
        obtain ⟨first, rest, same⟩ := (above.under_iff path).mp below
        simp only [List.cons_append, List.nil_append, List.cons.injEq] at same
        obtain ⟨rfl, -, rfl, rfl, -⟩ := same
        have own := EtcdClient.serviceKey_ok.mpr ⟨valid, scope, made, rfl⟩
        rw [(serviceKey_path within own).same path] at own
        exact ⟨inst, own⟩
  · intro named
    obtain ⟨inst, named⟩ := named
    exact (above.under_iff (serviceKey_path within named)).mpr ⟨inst, [], rfl⟩

/-- No two arguments share a key, a service prefix is over its own instances, and no
configuration is under one. -/
structure CollisionFree : Prop where
  config : ∀ (client other : EtcdClient) (name again key : String),
    client.configKey name = .ok key → other.configKey again = .ok key →
      client.etcdNamespace = other.etcdNamespace ∧ name = again
  services : ∀ (client other : EtcdClient) (service again scope : String),
    client.servicePrefix service = .ok scope → other.servicePrefix again = .ok scope →
      client.etcdNamespace = other.etcdNamespace ∧ service = again
  instances : ∀ (client other : EtcdClient) (service inst again sibling key : String),
    client.serviceKey service inst = .ok key → other.serviceKey again sibling = .ok key →
      client.etcdNamespace = other.etcdNamespace ∧ service = again ∧ inst = sibling
  watched : ∀ (client other : EtcdClient) (service scope key : String),
    client.servicePrefix service = .ok scope → other.Creates key →
      (under (utf8 scope) (utf8 key) = true ↔ ∃ inst, client.serviceKey service inst = .ok key)
  unwatched : ∀ (client other : EtcdClient) (service name scope key : String),
    client.servicePrefix service = .ok scope → other.configKey name = .ok key →
      under (utf8 scope) (utf8 key) = false
  kinds : ∀ (client other : EtcdClient) (name service inst key : String),
    client.configKey name = .ok key → other.serviceKey service inst ≠ .ok key

theorem keys_collision_free : CollisionFree where
  config client other name again key made remade := by
    obtain ⟨segment, within⟩ := client.scoped
    obtain ⟨outer, elsewhere⟩ := other.scoped
    obtain ⟨same, below⟩ := namespace_unique within elsewhere (configKey_path within made)
      (configKey_path elsewhere remade)
    exact ⟨same, List.head_eq_of_cons_eq (List.cons.inj below).2⟩
  services client other service again scope made remade := by
    obtain ⟨segment, within⟩ := client.scoped
    obtain ⟨outer, elsewhere⟩ := other.scoped
    obtain ⟨same, below⟩ := namespace_unique within elsewhere (servicePrefix_path within made)
      (servicePrefix_path elsewhere remade)
    exact ⟨same, List.head_eq_of_cons_eq (List.cons.inj below).2⟩
  instances client other service inst again sibling key made remade := by
    obtain ⟨segment, within⟩ := client.scoped
    obtain ⟨outer, elsewhere⟩ := other.scoped
    obtain ⟨same, below⟩ := namespace_unique within elsewhere (serviceKey_path within made)
      (serviceKey_path elsewhere remade)
    obtain ⟨named, below⟩ := List.cons.inj (List.cons.inj below).2
    exact ⟨same, named, List.head_eq_of_cons_eq below⟩
  watched _ _ _ _ _ := under_iff_instance
  unwatched _ _ _ _ _ _ := config_not_under
  kinds client other name service inst key named made := by
    obtain ⟨-, scope, opened, -⟩ := EtcdClient.serviceKey_ok.mp made
    have below := (under_iff_instance opened (.service made)).mpr ⟨inst, made⟩
    cases below.symm.trans (config_not_under opened named)

end RustZero.EtcdKeys
