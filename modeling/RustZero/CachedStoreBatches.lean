import RustZero.CachedStoreFreshness

/-!
# Mutations that fail half-way

`execute` and `execute_indexed` of the cache-aside stores invalidate after the awaited
mutation, and only if it returned `Ok`.  A mutation that reports an error may have changed
the database all the same: an ordered `insert_many` inserts the documents before the one
that fails, and a transaction can commit before its connection is lost.

Here one call runs by itself on a database and the caches of a store.
`mutate_coherent_iff` says when no entry is left for a changed key that disagrees with the
database.
-/

namespace RustZero.CachedStore

open Lib Cache

/-- The records of a table or collection by primary key, and the primary keys that the
secondary keys select. -/
structure Collection (K I V : Type) where
  records : K → Option V
  mappings : I → Option K

/-- A document with its keys. -/
structure Document (K I V : Type) where
  key : K
  indexKeys : List I
  value : V

/-- What the driver makes of `insert_many`: a failure may come after any number of
documents. -/
inductive InsertManyOutcome (R E : Type) where
  | inserted (result : R)
  | failed (inserted : Nat) (error : E)

section Batch

variable {C D M K I V R E : Type} [DecidableEq K] [DecidableEq I]

def Collection.insert (collection : Collection K I V) (document : Document K I V) :
    Collection K I V where
  records := Function.update collection.records document.key (some document.value)
  mappings := fun index =>
    if index ∈ document.indexKeys then some document.key else collection.mappings index

def Collection.insertMany (collection : Collection K I V) (documents : List (Document K I V)) :
    InsertManyOutcome R E → Collection K I V × Except E R
  | .inserted result => (documents.foldl Collection.insert collection, .ok result)
  | .failed inserted error =>
      ((documents.take inserted).foldl Collection.insert collection, .error error)

/-- `generation.fetch_add`. -/
def Store.fetchAdd (store : Store C D M K I V) : Store C D M K I V :=
  { store with generation := (store.generation + 1) % 2 ^ 64, bumps := store.bumps + 1 }

/-- The critical section of the calls that invalidate. -/
def Store.invalidate (store : Store C D M K I V) (request : Request K I) : Store C D M K I V :=
  request.commands.foldl (fun store command => (store.perform command).1) store.fetchAdd

/-- A mutation of the database, then the invalidation, unless it failed. -/
def Store.mutate (store : Store C D M K I V) (collection : Collection K I V)
    (request : Request K I)
    (operation : Collection K I V → Collection K I V × Except E R) :
    Store C D M K I V × Collection K I V × Except E R :=
  match operation collection with
  | (collection, .ok result) => (store.invalidate request, collection, .ok result)
  | (collection, .error error) => (store, collection, .error error)

/-- `execute`. -/
def Store.execute (store : Store C D M K I V) (collection : Collection K I V) (keys : List K)
    (operation : Collection K I V → Collection K I V × Except E R) :
    Store C D M K I V × Collection K I V × Except E R :=
  store.mutate collection (.execute keys) operation

/-- `execute_indexed`. -/
def Store.executeIndexed (store : Store C D M K I V) (collection : Collection K I V)
    (primaryKeys : List K) (indexKeys : List I)
    (operation : Collection K I V → Collection K I V × Except E R) :
    Store C D M K I V × Collection K I V × Except E R :=
  store.mutate collection (.executeIndexed primaryKeys indexKeys) operation

/-- `CachedMongoCollection::insert_many`, with the driver's part of it. -/
def Store.insertMany (store : Store C D M K I V) (collection : Collection K I V)
    (primaryKeys : List K) (indexKeys : List I) (documents : List (Document K I V))
    (outcome : InsertManyOutcome R E) : Store C D M K I V × Collection K I V × Except E R :=
  store.executeIndexed collection primaryKeys indexKeys fun collection =>
    collection.insertMany documents outcome

/-- No entry for a key that changed disagrees with the database. -/
structure Coherent (before after : Collection K I V) (store : Store C D M K I V) : Prop where
  record : ∀ key, after.records key ≠ before.records key → ∀ value,
    store.cache.value key = some value → value.value = after.records key
  mapping : ∀ index, after.mappings index ≠ before.mappings index → ∀ primary,
    store.indexes.value index = some primary → primary.value = after.mappings index

/-- What a caller promises: it passes the keys that the operation changes.  A secondary
key may be left out when the only thing the cache may hold for it is a mapping to one of the
primary keys. -/
structure Covers (store : Store C D M K I V) (before after : Collection K I V)
    (request : Request K I) : Prop where
  record : ∀ key, after.records key ≠ before.records key → key ∈ request.primaryKeys
  mapping : ∀ index, after.mappings index ≠ before.mappings index →
    index ∈ request.indexKeys ∨ ∀ primary, store.indexes.value index = some primary →
      ∃ key ∈ request.primaryKeys, primary.value = some key

/-! ## Invalidation -/

/-- The removals of a request leave nothing for its keys. -/
theorem cleared_foldl {store : Store C D M K I V} {request : Request K I} {bumpedAt : Nat}
    {commands : List (Command K I)} (cleared : Cleared store request bumpedAt commands) :
    Cleared (commands.foldl (fun store command => (store.perform command).1) store) request
      bumpedAt [] := by
  induction commands generalizing store with
  | nil => exact cleared
  | cons command rest ih => exact ih cleared.perform

/-- A mapping that is left was there before. -/
theorem foldl_perform_mapping {commands : List (Command K I)} {store : Store C D M K I V}
    {index : I} {primary : Stamped (Option K)}
    (held : (commands.foldl (fun store command => (store.perform command).1)
      store).indexes.value index = some primary) : store.indexes.value index = some primary := by
  induction commands generalizing store with
  | nil => exact held
  | cons command rest ih =>
      have before := ih held
      cases command with
      | remove key => exact before
      | removeMappings keys =>
          exact (MemoryCache.value_removeWhere (fun _ primary => mapsInto keys primary) before).2
      | removeIndex removed => exact (MemoryCache.value_remove before).2

/-- Whatever the caches held, an invalidation leaves nothing for the keys of the request. -/
theorem invalidate_cleared (store : Store C D M K I V) (request : Request K I) (bumpedAt : Nat) :
    Cleared (store.invalidate request) request bumpedAt [] := by
  obtain ⟨primary, secondary⟩ := request.mem_commands
  refine cleared_foldl ⟨?_, ?_, ?_⟩
  · exact fun key member _ _ => .inr (primary key member).1
  · exact fun key member _ _ _ _ => .inr (primary key member).2
  · exact fun index member _ _ => .inr (secondary index member)

theorem invalidate_record {store : Store C D M K I V} {request : Request K I} {key : K}
    (member : key ∈ request.primaryKeys) : (store.invalidate request).cache.value key = none := by
  cases held : (store.invalidate request).cache.value key with
  | none => rfl
  | some value =>
      rcases (invalidate_cleared store request value.queriedAt).record key member value held with
        later | pending
      · omega
      · cases pending

theorem invalidate_mapping {store : Store C D M K I V} {request : Request K I} {index : I}
    {primary : Stamped (Option K)}
    (held : (store.invalidate request).indexes.value index = some primary) :
    index ∉ request.indexKeys ∧ (∀ key ∈ request.primaryKeys, primary.value ≠ some key) ∧
      store.indexes.value index = some primary := by
  have cleared := invalidate_cleared store request primary.queriedAt
  have old : store.fetchAdd.indexes.value index = some primary := foldl_perform_mapping held
  refine ⟨?_, ?_, old⟩
  · intro member
    rcases cleared.index index member primary held with later | pending
    · omega
    · cases pending
  · intro key member maps
    rcases cleared.mapping key member index primary held maps with later | pending
    · omega
    · cases pending

/-! ## Coherence -/

/-- With the promised keys an invalidation leaves nothing outdated. -/
theorem invalidate_coherent {store : Store C D M K I V} {before after : Collection K I V}
    {request : Request K I} (covers : Covers store before after request) :
    Coherent before after (store.invalidate request) where
  record := by
    intro key changed value held
    rw [invalidate_record (covers.record key changed)] at held
    cases held
  mapping := by
    intro index changed primary held
    obtain ⟨unlisted, elsewhere, old⟩ := invalidate_mapping held
    rcases covers.mapping index changed with listed | learned
    · exact absurd listed unlisted
    · obtain ⟨key, member, maps⟩ := learned primary old
      exact absurd maps (elsewhere key member)

/-- A call leaves nothing outdated where its operation succeeds, or there was nothing
outdated to leave. -/
theorem mutate_coherent_iff {store : Store C D M K I V} {collection : Collection K I V}
    {request : Request K I} (operation : Collection K I V → Collection K I V × Except E R)
    (covers : Covers store collection (operation collection).1 request) :
    Coherent collection (operation collection).1
        (store.mutate collection request operation).1 ↔
      (operation collection).2.isOk ∨ Coherent collection (operation collection).1 store := by
  unfold Store.mutate
  generalize operation collection = outcome at covers ⊢
  obtain ⟨after, result⟩ := outcome
  cases result with
  | ok result => exact ⟨fun _ => .inl rfl, fun _ => invalidate_coherent covers⟩
  | error error => exact ⟨.inr, fun either => either.resolve_left nofun⟩

/-! ## Batches -/

theorem insert_records (collection : Collection K I V) (documents : List (Document K I V))
    (key : K) (unlisted : key ∉ documents.map Document.key) :
    (documents.foldl Collection.insert collection).records key = collection.records key := by
  induction documents generalizing collection with
  | nil => rfl
  | cons document rest ih =>
      simp only [List.map_cons, List.mem_cons, not_or] at unlisted
      rw [List.foldl_cons, ih _ unlisted.2]
      exact Function.update_of_ne unlisted.1 _ _

theorem insert_mappings (collection : Collection K I V) (documents : List (Document K I V))
    (index : I) (unlisted : index ∉ documents.flatMap Document.indexKeys) :
    (documents.foldl Collection.insert collection).mappings index =
      collection.mappings index := by
  induction documents generalizing collection with
  | nil => rfl
  | cons document rest ih =>
      simp only [List.flatMap_cons, List.mem_append, not_or] at unlisted
      rw [List.foldl_cons, ih _ unlisted.2]
      exact if_neg unlisted.1

/-- The keys of the documents are all that `insert_many` changes. -/
theorem insertMany_covers (store : Store C D M K I V) (collection : Collection K I V)
    (documents : List (Document K I V)) (outcome : InsertManyOutcome R E) :
    Covers store collection (collection.insertMany documents outcome).1
      (.executeIndexed (documents.map Document.key) (documents.flatMap Document.indexKeys)) := by
  have inserted : ∃ some : List (Document K I V), some ⊆ documents ∧
      (collection.insertMany documents outcome).1 = some.foldl Collection.insert collection := by
    cases outcome with
    | inserted result => exact ⟨documents, List.Subset.refl _, rfl⟩
    | failed count error => exact ⟨documents.take count, List.take_subset count documents, rfl⟩
  obtain ⟨part, within, same⟩ := inserted
  rw [same]
  refine ⟨?_, ?_⟩
  · intro key changed
    by_contra unlisted
    refine changed (insert_records collection part key fun listed => unlisted ?_)
    exact List.map_subset _ within listed
  · intro index changed
    refine .inl ?_
    by_contra unlisted
    refine changed (insert_mappings collection part index fun listed => unlisted ?_)
    obtain ⟨document, member, own⟩ := List.mem_flatMap.mp listed
    exact List.mem_flatMap.mpr ⟨document, within member, own⟩

/-- Where the entries for the keys that change are up to date before the call, they are not
outdated after the change only if there are none. -/
theorem coherent_iff_of_current {store : Store C D M K I V} {before after : Collection K I V}
    (record : ∀ key value, store.cache.value key = some value →
      value.value = before.records key)
    (mapping : ∀ index primary, store.indexes.value index = some primary →
      primary.value = before.mappings index) :
    Coherent before after store ↔
      (∀ key, after.records key ≠ before.records key → store.cache.value key = none) ∧
        ∀ index, after.mappings index ≠ before.mappings index →
          store.indexes.value index = none := by
  refine ⟨?_, ?_⟩
  · intro coherent
    refine ⟨?_, ?_⟩
    · intro key changed
      cases held : store.cache.value key with
      | none => rfl
      | some value =>
          have now := coherent.record key changed value held
          rw [record key value held] at now
          exact absurd now.symm changed
    · intro index changed
      cases held : store.indexes.value index with
      | none => rfl
      | some primary =>
          have now := coherent.mapping index changed primary held
          rw [mapping index primary held] at now
          exact absurd now.symm changed
  · intro none
    refine ⟨?_, ?_⟩
    · intro key changed value held
      rw [none.1 key changed] at held
      cases held
    · intro index changed primary held
      rw [none.2 index changed] at held
      cases held

/-- A call of `execute`, `execute_indexed` or `insert_many` leaves no outdated entry for a key
it changed exactly when its operation succeeds, or the caches held nothing for such a key that
is not also its new state. -/
theorem mutations_coherent_iff (store : Store C D M K I V) (collection : Collection K I V) :
    (∀ (keys : List K) (operation : Collection K I V → Collection K I V × Except E R),
      Covers store collection (operation collection).1 (.execute keys) →
      (Coherent collection (operation collection).1
          (store.execute collection keys operation).1 ↔
        (operation collection).2.isOk ∨
          Coherent collection (operation collection).1 store)) ∧
    (∀ (primaryKeys : List K) (indexKeys : List I)
        (operation : Collection K I V → Collection K I V × Except E R),
      Covers store collection (operation collection).1
        (.executeIndexed primaryKeys indexKeys) →
      (Coherent collection (operation collection).1
          (store.executeIndexed collection primaryKeys indexKeys operation).1 ↔
        (operation collection).2.isOk ∨
          Coherent collection (operation collection).1 store)) ∧
    ∀ (documents : List (Document K I V)) (outcome : InsertManyOutcome R E),
      Coherent collection (collection.insertMany documents outcome).1
          (store.insertMany collection (documents.map Document.key)
            (documents.flatMap Document.indexKeys) documents outcome).1 ↔
        (∃ result, outcome = .inserted result) ∨
          Coherent collection (collection.insertMany documents outcome).1 store := by
  refine ⟨?_, ?_, ?_⟩
  · exact fun keys operation covers => mutate_coherent_iff operation covers
  · exact fun primaryKeys indexKeys operation covers => mutate_coherent_iff operation covers
  · intro documents outcome
    have covers := insertMany_covers store collection documents outcome
    have call := mutate_coherent_iff
      (fun collection => collection.insertMany documents outcome) covers
    refine call.trans (or_congr_left ?_)
    cases outcome with
    | inserted result => exact ⟨fun _ => ⟨result, rfl⟩, fun _ => rfl⟩
    | failed inserted error => exact ⟨nofun, nofun⟩

end Batch

/-- A store whose caches know that there is no record `1` and none for index key `"a"`. -/
def emptyHandedStore : Store Nat Nat Nat Nat String Nat :=
  ((Store.new Nat Nat Nat Nat String Nat minuteConfig).write 60 (.record 1 ⟨none, 0⟩)).bind
    (fun store => store.write 60 (.mapping "a" ⟨none, 0⟩)) |>.getD
      (Store.new Nat Nat Nat Nat String Nat minuteConfig)

def noDocuments : Collection Nat String Nat :=
  ⟨fun _ => none, fun _ => none⟩

def twoDocuments : List (Document Nat String Nat) :=
  [⟨1, ["a"], 10⟩, ⟨2, ["b"], 20⟩]

/-- A batch that is inserted whole. -/
theorem whole_batch_coherent :
    Coherent noDocuments (noDocuments.insertMany twoDocuments
        (.inserted () : InsertManyOutcome Unit String)).1
      (emptyHandedStore.executeIndexed noDocuments [1, 2] ["a", "b"] fun collection =>
        collection.insertMany twoDocuments (.inserted () : InsertManyOutcome Unit String)).1 :=
  ((mutations_coherent_iff emptyHandedStore noDocuments).2.1 [1, 2] ["a", "b"]
    (fun collection =>
      collection.insertMany twoDocuments (.inserted () : InsertManyOutcome Unit String))
    (insertMany_covers emptyHandedStore noDocuments twoDocuments (.inserted ()))).mpr (.inl rfl)

/-- The second document of a batch is refused: the first is in the collection, and both caches
still say that it is not. -/
theorem half_batch_outdated :
    ∃ (store : Store Nat Nat Nat Nat String Nat) (collection : Collection Nat String Nat),
      emptyHandedStore.insertMany noDocuments [1, 2] ["a", "b"] twoDocuments
        (.failed 1 "E11000 duplicate key" : InsertManyOutcome Unit String) =
          (store, collection, .error "E11000 duplicate key") ∧
      collection.records 1 = some 10 ∧ store.cache.value 1 = some ⟨none, 0⟩ ∧
      collection.mappings "a" = some 1 ∧ store.indexes.value "a" = some ⟨none, 0⟩ ∧
      ¬ Coherent noDocuments collection store := by
  have record : emptyHandedStore.cache.value 1 = some ⟨none, 0⟩ := rfl
  have mapping : emptyHandedStore.indexes.value "a" = some ⟨none, 0⟩ := rfl
  refine ⟨_, _, rfl, rfl, record, rfl, mapping, ?_⟩
  intro coherent
  have now := coherent.record 1 nofun ⟨none, 0⟩ record
  cases now

end RustZero.CachedStore
