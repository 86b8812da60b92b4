import RustZero.Cache
import RustZero.SingleFlightDelivery

/-!
# Cache-aside stores

`CachedSqlStore` (`core/src/stores_sql.rs`) and its twin `CachedMongoCollection`
(`core/src/stores_mongo.rs`).  A store keeps records by primary key and
secondary-to-primary mappings in two `MemoryCache`s.  `find` and
`find_by_index` load a miss once across concurrent callers: they read the
generation, query the database and, holding the cache gate, insert what they got
if the generation is still the same.  `execute` and the `invalidate` family
change the generation and remove entries while holding the gate.

The two sources differ only in the type of the database handle; `K`, `I` and `V`
are the primary keys, the secondary keys and the records.  The calls are named by
arbitrary types: `C` for `find`, `D` for `find_by_index` and `M` for mutations
and invalidations.  Queries and mutations of the database are single steps with
arbitrary outcomes; reads of the caches and of the generation do not take the
gate and so interleave with its holder.

What the code does not keep is `now`, which counts the steps, the stamps taken
from it, and `bumps`, which counts the changes of the generation.
-/

namespace RustZero.CachedStore

open Lib Cache SingleFlight

/-- `SqlCacheConfig` and `MongoCacheConfig`; their constructors assert the three
conditions. -/
structure CacheConfig where
  capacity : Nat
  ttl : Nat
  notFoundTtl : Option Nat
  ttlJitter : Nat
  capacity_pos : 0 < capacity
  ttl_pos : 0 < ttl
  notFoundTtl_pos : ∀ ttl, notFoundTtl = some ttl → 0 < ttl

/-- A query result with the step its query ran in. -/
structure Stamped (α : Type) where
  value : α
  queriedAt : Nat

/-- Whoever can hold the cache gate. -/
inductive Party (C D M : Type) where
  | find (call : C)
  | findByIndex (call : D)
  | invalidate (call : M)

/-- The state the calls share. -/
structure Store (C D M K I V : Type) where
  now : Nat
  clock : Nat
  cache : MemoryCache K (Stamped (Option V))
  indexes : MemoryCache I (Stamped (Option K))
  expirySequence : UInt64
  generation : Nat
  bumps : Nat
  cacheGate : Option (Party C D M)

def Store.new (C D M K I V : Type) (config : CacheConfig) : Store C D M K I V where
  now := 0
  clock := 0
  cache := .new config.capacity config.capacity_pos
  indexes := .new config.capacity config.capacity_pos
  expirySequence := 0
  generation := 0
  bumps := 0
  cacheGate := none

/-! ## Loading a miss -/

/-- An insertion a load makes. -/
inductive Write (K I V : Type) where
  | record (key : K) (value : Stamped (Option V))
  | mapping (index : I) (primary : Stamped (Option K))

/-- The closure that `find` and `find_by_index` pass to `execute`; `R` is what the
query finds. -/
inductive Load (K I V R : Type) where
  | start
  /-- `find_by_index` has found a mapping and still has to look up the record. -/
  | resolved (primary : K)
  | missed
  | loaded (generation loadedAt : Nat)
  | queried (generation loadedAt : Nat) (result : Stamped (Option R))
  /-- The gate is held, the generation is not yet compared. -/
  | gated (generation loadedAt : Nat) (result : Stamped (Option R))
  /-- The gate is held and these insertions are still to be made. -/
  | inserting (result : Stamped (Option R)) (ttl : Nat) (writes : List (Write K I V))

/-- What a load does not decide itself: the outcome of its query. -/
inductive Label (R E : Type) where
  | run
  | query (outcome : Except E (Option R))

section Load

variable {C D M K I V R E : Type} [DecidableEq K] [DecidableEq I]

/-- One insertion; `none` is the panic of `MemoryCache::insert`. -/
def Store.write (store : Store C D M K I V) (ttl : Nat) :
    Write K I V → Option (Store C D M K I V)
  | .record key value =>
      (store.cache.insert store.clock key value ttl).map fun cache => { store with cache := cache }
  | .mapping index primary =>
      (store.indexes.insert store.clock index primary ttl).map fun indexes =>
        { store with indexes := indexes }

/-- The part of a load after its cache look-ups. -/
def loadStep (config : CacheConfig) (party : Party C D M)
    (writes : Stamped (Option R) → List (Write K I V)) (store : Store C D M K I V) :
    Load K I V R → Label R E →
      Option (Store C D M K I V × Progress (Load K I V R) (Stamped (Option R)) E)
  | .missed, .run => some (store, .pending (.loaded store.generation store.now))
  | .loaded generation loadedAt, .query outcome =>
      match outcome with
      | .error error => some (store, .ready (.error error))
      | .ok result =>
          some (store, .pending (.queried generation loadedAt ⟨result, store.now⟩))
  | .queried generation loadedAt result, .run =>
      match store.cacheGate with
      | none =>
          some ({ store with cacheGate := some party },
            .pending (.gated generation loadedAt result))
      | some _ => none
  | .gated generation _ result, .run =>
      if store.generation = generation then
        match if result.value.isSome then some config.ttl else config.notFoundTtl with
        | some baseTtl =>
            some ({ store with expirySequence := store.expirySequence + 1 },
              .pending (.inserting result
                (jitteredTtl baseTtl config.ttlJitter store.expirySequence) (writes result)))
        | none => some (store, .pending (.inserting result 0 []))
      else some (store, .pending (.inserting result 0 []))
  | .inserting result ttl (write :: rest), .run =>
      match store.write ttl write with
      | some store => some (store, .pending (.inserting result ttl rest))
      | none => some ({ store with cacheGate := none }, .unwind)
  | .inserting result _ [], .run =>
      some ({ store with cacheGate := none }, .ready (.ok result))
  | _, _ => none

/-- A load can be dropped while its query runs, its only await. -/
def Load.suspended : Load K I V R → Bool
  | .loaded _ _ => true
  | _ => false

/-- The closure of `find`. -/
def findOperation (config : CacheConfig) : Operation C (Store C D M K I V) K (Load K I V V)
    (Label V E) (Stamped (Option V)) E where
  step store call key
    | .start, .run =>
        match store.cache.get store.clock key with
        | (cache, some value) => some ({ store with cache := cache }, .ready (.ok value))
        | (cache, none) => some ({ store with cache := cache }, .pending .missed)
    | op, label =>
        loadStep config (.find call) (fun result => [.record key result]) store op label
  suspended := Load.suspended

/-- The insertions of `find_by_index`: the mapping and, if there is one, the
record. -/
def indexWrites (index : I) (result : Stamped (Option (K × V))) : List (Write K I V) :=
  .mapping index ⟨result.value.map Prod.fst, result.queriedAt⟩ ::
    match result.value with
    | some (primary, value) => [.record primary ⟨some value, result.queriedAt⟩]
    | none => []

/-- The closure of `find_by_index`. -/
def findByIndexOperation (config : CacheConfig) : Operation D (Store C D M K I V) I
    (Load K I V (K × V)) (Label (K × V) E) (Stamped (Option (K × V))) E where
  step store call index
    | .start, .run =>
        match store.indexes.get store.clock index with
        | (indexes, some ⟨some primary, _⟩) =>
            some ({ store with indexes := indexes }, .pending (.resolved primary))
        | (indexes, some ⟨none, queriedAt⟩) =>
            some ({ store with indexes := indexes }, .ready (.ok ⟨none, queriedAt⟩))
        | (indexes, none) => some ({ store with indexes := indexes }, .pending .missed)
    | .resolved primary, .run =>
        match store.cache.get store.clock primary with
        | (cache, some ⟨some value, queriedAt⟩) =>
            some ({ store with cache := cache },
              .ready (.ok ⟨some (primary, value), queriedAt⟩))
        | (cache, _) => some ({ store with cache := cache }, .pending .missed)
    | op, label => loadStep config (.findByIndex call) (indexWrites index) store op label
  suspended := Load.suspended

end Load

/-! ## Mutations and invalidations -/

/-- A removal an invalidation makes, each under the mutex of one cache. -/
inductive Command (K I : Type) where
  | remove (key : K)
  | removeMappings (keys : List K)
  | removeIndex (index : I)

/-- The calls that invalidate; `execute` and `execute_indexed` do so after a
mutation of the database.  A key set is listed in the order in which the code
iterates over it. -/
inductive Request (K I : Type) where
  | execute (keys : List K)
  | executeIndexed (primaryKeys : List K) (indexKeys : List I)
  | invalidate (key : K)
  | invalidateMany (keys : List K)
  | invalidateIndex (index : I)
  | invalidateRelated (primaryKeys : List K) (indexKeys : List I)

namespace Request

variable {K I : Type}

/-- `CachedMongoCollection::insert_one`; `insert_many`, `update_one`,
`replace_one` and `delete_one` pass their keys on to `execute_indexed` as they
are. -/
def insertOne (primaryKey : K) (indexKeys : List I) : Request K I :=
  .executeIndexed [primaryKey] indexKeys

/-- Whether the call runs a mutation before it invalidates. -/
def mutates : Request K I → Bool
  | .execute _ => true
  | .executeIndexed _ _ => true
  | _ => false

def primaryKeys : Request K I → List K
  | .execute keys => keys
  | .executeIndexed primaryKeys _ => primaryKeys
  | .invalidate key => [key]
  | .invalidateMany keys => keys
  | .invalidateIndex _ => []
  | .invalidateRelated primaryKeys _ => primaryKeys

def indexKeys : Request K I → List I
  | .execute _ => []
  | .executeIndexed _ indexKeys => indexKeys
  | .invalidate _ => []
  | .invalidateMany _ => []
  | .invalidateIndex index => [index]
  | .invalidateRelated _ indexKeys => indexKeys

/-- The removals of `invalidate_many`. -/
def manyCommands (keys : List K) : List (Command K I) :=
  keys.map .remove ++ [.removeMappings keys]

/-- The removals of `invalidate_related`. -/
def relatedCommands (primaryKeys : List K) (indexKeys : List I) : List (Command K I) :=
  primaryKeys.map .remove ++ [.removeMappings primaryKeys] ++ indexKeys.map .removeIndex

def commands : Request K I → List (Command K I)
  | .execute keys => manyCommands keys
  | .executeIndexed primaryKeys indexKeys => relatedCommands primaryKeys indexKeys
  | .invalidate key => [.remove key, .removeMappings [key]]
  | .invalidateMany keys => manyCommands keys
  | .invalidateIndex index => [.removeIndex index]
  | .invalidateRelated primaryKeys indexKeys => relatedCommands primaryKeys indexKeys

end Request

/-- How far a mutation or invalidation has come.  `committedAt` is the step its
mutation committed in, if it has one. -/
inductive Invalidation (K I : Type) where
  | idle
  /-- The mutation failed; nothing is invalidated. -/
  | failed
  | ready (request : Request K I) (committedAt : Option Nat)
  | locked (request : Request K I) (committedAt : Option Nat)
  /-- The generation is changed and these removals are still to be made; `removed`
  is what `invalidate` and `invalidate_index` report. -/
  | removing (request : Request K I) (committedAt : Option Nat) (bumpedAt : Nat)
      (rest : List (Command K I)) (removed : Bool)
  | returned (request : Request K I) (committedAt : Option Nat) (bumpedAt returnedAt : Nat)
      (removed : Bool)

/-- The mapping points at one of the keys. -/
def mapsInto {K : Type} [DecidableEq K] (keys : List K) (primary : Stamped (Option K)) : Bool :=
  primary.value.any fun key => decide (key ∈ keys)

/-- One removal, and whether it removed an entry of the named key. -/
def Store.perform {C D M K I V : Type} [DecidableEq K] [DecidableEq I]
    (store : Store C D M K I V) : Command K I → Store C D M K I V × Bool
  | .remove key =>
      let (cache, removed) := store.cache.remove key
      ({ store with cache := cache }, removed.isSome)
  | .removeMappings keys =>
      let (indexes, _) := store.indexes.removeWhere fun _ primary => mapsInto keys primary
      ({ store with indexes := indexes }, false)
  | .removeIndex index =>
      let (indexes, removed) := store.indexes.remove index
      ({ store with indexes := indexes }, removed.isSome)

/-! ## The store and its callers -/

/-- How far a call of `find` has come; once it has called `execute` the flights
say how far.  `began` is the step the call began in. -/
inductive FindCall (K V : Type) where
  | idle
  | answered (key : K) (began : Nat) (value : Stamped (Option V))
  | missed (key : K) (began : Nat)
  | executing (key : K) (began : Nat)

/-- How far a call of `find_by_index` has come. -/
inductive FindByIndexCall (K I V : Type) where
  | idle
  | resolved (index : I) (primary : K)
  | answered (index : I) (value : Option V)
  | missed (index : I)
  | executing (index : I)

structure System (C D M K I V E : Type) where
  store : Store C D M K I V
  finds : C → FindCall K V
  flights : Flights C K (Load K I V V) (Stamped (Option V)) E
  indexFinds : D → FindByIndexCall K I V
  indexFlights : Flights D I (Load K I V (K × V)) (Stamped (Option (K × V))) E
  invalidations : M → Invalidation K I

def System.new (C D M K I V E : Type) (config : CacheConfig) : System C D M K I V E where
  store := .new C D M K I V config
  finds := fun _ => .idle
  flights := SingleFlight.new C K _ _ E
  indexFinds := fun _ => .idle
  indexFlights := SingleFlight.new D I _ _ E
  invalidations := fun _ => .idle

inductive Action (C D M K I V E : Type) where
  /-- `find` begins with its first cache look-up. -/
  | find (call : C) (key : K)
  | enter (call : C)
  | flight (action : SingleFlight.Action C K (Load K I V V) (Label V E))
  | findByIndex (call : D) (index : I)
  | resolve (call : D)
  | enterIndex (call : D)
  | indexFlight (action : SingleFlight.Action D I (Load K I V (K × V)) (Label (K × V) E))
  /-- A call begins; `commits` is the outcome of its mutation, if it has one. -/
  | begin (call : M) (request : Request K I) (commits : Bool)
  | lock (call : M)
  | fetchAdd (call : M)
  | perform (call : M)
  | unlock (call : M)
  | elapse (nanos : Nat)

section Step

variable {C D M K I V E : Type} [DecidableEq C] [DecidableEq D] [DecidableEq M] [DecidableEq K]
  [DecidableEq I]

/-- A step of a flight other than entering it. -/
def flightStep {P Q L A W : Type} [DecidableEq P] [DecidableEq Q]
    (operation : Operation P (Store C D M K I V) Q L A W E) (store : Store C D M K I V)
    (flights : Flights P Q L W E) :
    SingleFlight.Action P Q L A → Option (Store C D M K I V × Flights P Q L W E)
  | .enter _ _ _ => none
  | action => SingleFlight.step operation store flights action

/-- One step, without the step count. -/
def act (config : CacheConfig) (s : System C D M K I V E) :
    Action C D M K I V E → Option (System C D M K I V E)
  | .find call key =>
      match s.finds call with
      | .idle =>
          match s.store.cache.get s.store.clock key with
          | (cache, some value) =>
              some { s with
                store := { s.store with cache := cache }
                finds := Function.update s.finds call (.answered key s.store.now value) }
          | (cache, none) =>
              some { s with
                store := { s.store with cache := cache }
                finds := Function.update s.finds call (.missed key s.store.now) }
      | _ => none
  | .enter call =>
      match s.finds call with
      | .missed key began =>
          (SingleFlight.step (findOperation config) s.store s.flights
            (.enter call key .start)).map fun (store, flights) =>
              { s with
                store := store
                flights := flights
                finds := Function.update s.finds call (.executing key began) }
      | _ => none
  | .flight action =>
      (flightStep (findOperation config) s.store s.flights action).map fun (store, flights) =>
        { s with store := store, flights := flights }
  | .findByIndex call index =>
      match s.indexFinds call with
      | .idle =>
          let (indexes, found) := s.store.indexes.get s.store.clock index
          let next := match found with
            | some ⟨some primary, _⟩ => .resolved index primary
            | some ⟨none, _⟩ => .answered index none
            | none => .missed index
          some { s with
            store := { s.store with indexes := indexes }
            indexFinds := Function.update s.indexFinds call next }
      | _ => none
  | .resolve call =>
      match s.indexFinds call with
      | .resolved index primary =>
          let (cache, found) := s.store.cache.get s.store.clock primary
          let next := match found with
            | some value => .answered index value.value
            | none => .missed index
          some { s with
            store := { s.store with cache := cache }
            indexFinds := Function.update s.indexFinds call next }
      | _ => none
  | .enterIndex call =>
      match s.indexFinds call with
      | .missed index =>
          (SingleFlight.step (findByIndexOperation config) s.store s.indexFlights
            (.enter call index .start)).map fun (store, flights) =>
              { s with
                store := store
                indexFlights := flights
                indexFinds := Function.update s.indexFinds call (.executing index) }
      | _ => none
  | .indexFlight action =>
      (flightStep (findByIndexOperation config) s.store s.indexFlights action).map
        fun (store, flights) => { s with store := store, indexFlights := flights }
  | .begin call request commits =>
      match s.invalidations call with
      | .idle =>
          let next := if request.mutates then
              if commits then .ready request (some s.store.now) else .failed
            else .ready request none
          some { s with invalidations := Function.update s.invalidations call next }
      | _ => none
  | .lock call =>
      match s.invalidations call, s.store.cacheGate with
      | .ready request committedAt, none =>
          some { s with
            store := { s.store with cacheGate := some (.invalidate call) }
            invalidations := Function.update s.invalidations call
              (.locked request committedAt) }
      | _, _ => none
  | .fetchAdd call =>
      match s.invalidations call with
      | .locked request committedAt =>
          some { s with
            store := { s.store with
              generation := (s.store.generation + 1) % 2 ^ 64
              bumps := s.store.bumps + 1 }
            invalidations := Function.update s.invalidations call
              (.removing request committedAt s.store.now request.commands false) }
      | _ => none
  | .perform call =>
      match s.invalidations call with
      | .removing request committedAt bumpedAt (command :: rest) removed =>
          let (store, found) := s.store.perform command
          some { s with
            store := store
            invalidations := Function.update s.invalidations call
              (.removing request committedAt bumpedAt rest (removed || found)) }
      | _ => none
  | .unlock call =>
      match s.invalidations call with
      | .removing request committedAt bumpedAt [] removed =>
          some { s with
            store := { s.store with cacheGate := none }
            invalidations := Function.update s.invalidations call
              (.returned request committedAt bumpedAt s.store.now removed) }
      | _ => none
  | .elapse nanos => some { s with store := { s.store with clock := s.store.clock + nanos } }

/-- One step. -/
def step (config : CacheConfig) (s : System C D M K I V E) (a : Action C D M K I V E) :
    Option (System C D M K I V E) :=
  (act config s a).map fun s' => { s' with store := { s'.store with now := s.store.now + 1 } }

end Step

/-- Every interleaving of calls on one store. -/
def lts (C D M K I V E : Type) [DecidableEq C] [DecidableEq D] [DecidableEq M] [DecidableEq K]
    [DecidableEq I] (config : CacheConfig) :
    Lts (System C D M K I V E) (Action C D M K I V E) where
  init := .new C D M K I V E config
  step := step config

end RustZero.CachedStore
