import RustZero.CachedStore

/-!
# No stale entry is restored

A load that inserts holds the gate and finds the generation it read before its
query.  Every invalidation changes the generation while holding the gate, so all
invalidations up to then had changed it before the load read it: what the load
inserts was queried after each of them (`Recent`).  Invalidations still to come
remove the entry.

* `Inv` is the invariant: what the loads have seen of the generation, who holds
  the gate, and which entries an invalidation has already cleared.
* `invalidated_entries_fresh`: once an invalidation has completed, an entry for
  one of its keys was queried after it changed the generation, hence after its
  mutation committed.
* `queried_during_invalidation`: such a query may still have run before the
  invalidation completed.
-/

namespace RustZero.CachedStore

open Lib Cache SingleFlight

section Invariant

variable {C D M K I V R E : Type}

/-- The step in which the call changed the generation. -/
def Invalidation.bumpedAt : Invalidation K I → Option Nat
  | .removing _ _ bumpedAt _ _ => some bumpedAt
  | .returned _ _ bumpedAt _ _ => some bumpedAt
  | _ => none

/-- A query that ran after every change of the generation so far. -/
def Recent (store : Store C D M K I V) (invalidations : M → Invalidation K I)
    (queriedAt : Nat) : Prop :=
  store.bumps < 2 ^ 64 → ∀ call bumpedAt,
    (invalidations call).bumpedAt = some bumpedAt → bumpedAt < queriedAt

/-- What reading a generation tells: while it is still the current one, no
invalidation has changed it since. -/
structure Seen (store : Store C D M K I V) (invalidations : M → Invalidation K I)
    (generation loadedAt : Nat) : Prop where
  before : loadedAt < store.now
  counted : ∃ bumps ≤ store.bumps, generation = bumps % 2 ^ 64
  current : store.bumps < 2 ^ 64 → store.generation = generation →
    ∀ call bumpedAt, (invalidations call).bumpedAt = some bumpedAt → bumpedAt < loadedAt

def Write.queriedAt : Write K I V → Nat
  | .record _ value => value.queriedAt
  | .mapping _ primary => primary.queriedAt

/-- The invariant of one load. -/
def LoadOk (store : Store C D M K I V) (invalidations : M → Invalidation K I)
    (party : Party C D M) : Load K I V R → Prop
  | .loaded generation loadedAt => Seen store invalidations generation loadedAt
  | .queried generation loadedAt result =>
      Seen store invalidations generation loadedAt ∧ loadedAt < result.queriedAt
  | .gated generation loadedAt result =>
      store.cacheGate = some party ∧ Seen store invalidations generation loadedAt ∧
        loadedAt < result.queriedAt
  | .inserting _ _ writes =>
      store.cacheGate = some party ∧
        ∀ write ∈ writes, Recent store invalidations write.queriedAt
  | _ => True

/-- Every entry for a key of the request was queried after the request changed the
generation, unless its removal is still to be made. -/
structure Cleared (store : Store C D M K I V) (request : Request K I) (bumpedAt : Nat)
    (rest : List (Command K I)) [DecidableEq K] [DecidableEq I] : Prop where
  record : ∀ key ∈ request.primaryKeys, ∀ value, store.cache.value key = some value →
    bumpedAt < value.queriedAt ∨ .remove key ∈ rest
  mapping : ∀ key ∈ request.primaryKeys, ∀ index primary,
    store.indexes.value index = some primary → primary.value = some key →
    bumpedAt < primary.queriedAt ∨ .removeMappings request.primaryKeys ∈ rest
  index : ∀ index ∈ request.indexKeys, ∀ primary, store.indexes.value index = some primary →
    bumpedAt < primary.queriedAt ∨ .removeIndex index ∈ rest

variable [DecidableEq K] [DecidableEq I]

/-- The invariant of one mutation or invalidation. -/
def InvalidationOk (store : Store C D M K I V) (call : M) : Invalidation K I → Prop
  | .ready _ committedAt => ∀ t, committedAt = some t → t < store.now
  | .locked _ committedAt =>
      store.cacheGate = some (.invalidate call) ∧ ∀ t, committedAt = some t → t < store.now
  | .removing request committedAt bumpedAt rest _ =>
      store.cacheGate = some (.invalidate call) ∧ bumpedAt < store.now ∧
      (∀ t, committedAt = some t → t < bumpedAt) ∧
      (store.bumps < 2 ^ 64 → Cleared store request bumpedAt rest)
  | .returned request committedAt bumpedAt returnedAt _ =>
      bumpedAt < returnedAt ∧ returnedAt < store.now ∧
      (∀ t, committedAt = some t → t < bumpedAt) ∧
      (store.bumps < 2 ^ 64 → Cleared store request bumpedAt [])
  | _ => True

/-- The invariant of the store and its callers. -/
structure Inv (s : System C D M K I V E) : Prop where
  generation : s.store.generation = s.store.bumps % 2 ^ 64
  invalidations : ∀ call, InvalidationOk s.store call (s.invalidations call)
  loads : ∀ call key op, s.flights.calls call = .leading key op →
    LoadOk s.store s.invalidations (.find call) op
  indexLoads : ∀ call index op, s.indexFlights.calls call = .leading index op →
    LoadOk s.store s.invalidations (.findByIndex call) op

/-! ## Steps that keep the generation -/

/-- A step that keeps the generation: at most `party` takes or leaves the gate,
and every cached entry is an old one or a recent one. -/
structure Touch (invalidations : M → Invalidation K I) (party : Option (Party C D M))
    (store store' : Store C D M K I V) : Prop where
  now : store'.now = store.now + 1
  generation : store'.generation = store.generation
  bumps : store'.bumps = store.bumps
  gate : ∀ other, some other ≠ party → store.cacheGate = some other →
    store'.cacheGate = some other
  record : ∀ key value, store'.cache.value key = some value →
    store.cache.value key = some value ∨ Recent store invalidations value.queriedAt
  mapping : ∀ index primary, store'.indexes.value index = some primary →
    store.indexes.value index = some primary ∨ Recent store invalidations primary.queriedAt

variable {store store' : Store C D M K I V} {invalidations invalidations' : M → Invalidation K I}
  {party : Option (Party C D M)}

theorem Touch.recent (touch : Touch invalidations party store store')
    (same : ∀ call, (invalidations' call).bumpedAt = (invalidations call).bumpedAt)
    {queriedAt : Nat} (recent : Recent store invalidations queriedAt) :
    Recent store' invalidations' queriedAt := by
  intro bounded call bumpedAt bumped
  rw [touch.bumps] at bounded
  rw [same] at bumped
  exact recent bounded call bumpedAt bumped

theorem Touch.seen (touch : Touch invalidations party store store')
    (same : ∀ call, (invalidations' call).bumpedAt = (invalidations call).bumpedAt)
    {generation loadedAt : Nat} (seen : Seen store invalidations generation loadedAt) :
    Seen store' invalidations' generation loadedAt where
  before := by
    have := seen.before
    rw [touch.now]
    omega
  counted := by
    rw [touch.bumps]
    exact seen.counted
  current := by
    intro bounded current call bumpedAt bumped
    rw [touch.bumps] at bounded
    rw [touch.generation] at current
    rw [same] at bumped
    exact seen.current bounded current call bumpedAt bumped

theorem Touch.load (touch : Touch invalidations party store store')
    (same : ∀ call, (invalidations' call).bumpedAt = (invalidations call).bumpedAt)
    {other : Party C D M} (bystander : some other ≠ party) {op : Load K I V R}
    (ok : LoadOk store invalidations other op) : LoadOk store' invalidations' other op := by
  cases op with
  | start => trivial
  | resolved primary => trivial
  | missed => trivial
  | loaded generation loadedAt => exact touch.seen same ok
  | queried generation loadedAt result => exact ⟨touch.seen same ok.1, ok.2⟩
  | gated generation loadedAt result =>
      exact ⟨touch.gate other bystander ok.1, touch.seen same ok.2.1, ok.2.2⟩
  | inserting result ttl writes =>
      exact ⟨touch.gate other bystander ok.1, fun write member =>
        touch.recent same (ok.2 write member)⟩

theorem Touch.cleared (touch : Touch invalidations party store store') {call : M}
    {request : Request K I} {bumpedAt : Nat} {rest : List (Command K I)}
    (bounded : store.bumps < 2 ^ 64) (bumped : (invalidations call).bumpedAt = some bumpedAt)
    (cleared : Cleared store request bumpedAt rest) :
    Cleared store' request bumpedAt rest where
  record := by
    intro key member value found
    rcases touch.record key value found with old | recent
    · exact cleared.record key member value old
    · exact .inl (recent bounded call bumpedAt bumped)
  mapping := by
    intro key member index primary found maps
    rcases touch.mapping index primary found with old | recent
    · exact cleared.mapping key member index primary old maps
    · exact .inl (recent bounded call bumpedAt bumped)
  index := by
    intro index member primary found
    rcases touch.mapping index primary found with old | recent
    · exact cleared.index index member primary old
    · exact .inl (recent bounded call bumpedAt bumped)

theorem Touch.invalidation (touch : Touch invalidations party store store') {call : M}
    (bystander : some (.invalidate call) ≠ party)
    (ok : InvalidationOk store call (invalidations call)) :
    InvalidationOk store' call (invalidations call) := by
  have bumpedAt : ∀ t, (invalidations call).bumpedAt = some t → store.bumps < 2 ^ 64 →
      ∀ request rest, Cleared store request t rest → Cleared store' request t rest :=
    fun t bumped bounded request rest => touch.cleared bounded bumped
  have now := touch.now
  cases phase : invalidations call with
  | idle => trivial
  | failed => trivial
  | ready request committedAt =>
      rw [phase] at ok
      intro t committed
      have := ok t committed
      omega
  | locked request committedAt =>
      rw [phase] at ok
      refine ⟨touch.gate _ bystander ok.1, fun t committed => ?_⟩
      have := ok.2 t committed
      omega
  | removing request committedAt t rest removed =>
      rw [phase] at ok bumpedAt
      obtain ⟨gate, before, committed, cleared⟩ := ok
      refine ⟨touch.gate _ bystander gate, by omega, committed, fun bounded => ?_⟩
      rw [touch.bumps] at bounded
      exact bumpedAt t rfl bounded request rest (cleared bounded)
  | returned request committedAt t returnedAt removed =>
      rw [phase] at ok bumpedAt
      obtain ⟨later, before, committed, cleared⟩ := ok
      refine ⟨later, by omega, committed, fun bounded => ?_⟩
      rw [touch.bumps] at bounded
      exact bumpedAt t rfl bounded request [] (cleared bounded)

/-! ## Loads -/

/-- A step that only moves the gate and counts. -/
theorem Touch.of_gate (now : store'.now = store.now + 1)
    (generation : store'.generation = store.generation) (bumps : store'.bumps = store.bumps)
    (cache : store'.cache = store.cache) (indexes : store'.indexes = store.indexes)
    (gate : ∀ other, some other ≠ party → store.cacheGate = some other →
      store'.cacheGate = some other) :
    Touch invalidations party store store' where
  now := now
  generation := generation
  bumps := bumps
  gate := gate
  record := by
    intro key value found
    rw [cache] at found
    exact .inl found
  mapping := by
    intro index primary found
    rw [indexes] at found
    exact .inl found

/-- A step that only counts. -/
theorem Touch.tick {sequence : UInt64} {clock : Nat} : Touch invalidations party store
    { store with now := store.now + 1, expirySequence := sequence, clock := clock } :=
  .of_gate rfl rfl rfl rfl rfl fun _ _ gate => gate

/-- A look-up in the primary cache. -/
theorem Touch.get_cache (store : Store C D M K I V) (invalidations : M → Invalidation K I)
    (party : Option (Party C D M)) (key : K) : Touch invalidations party store { store with
    now := store.now + 1, cache := (store.cache.get store.clock key).1 } where
  now := rfl
  generation := rfl
  bumps := rfl
  gate _ _ gate := gate
  record _ _ found := .inl (MemoryCache.value_get found)
  mapping _ _ found := .inl found

/-- A look-up in the index cache. -/
theorem Touch.get_indexes (store : Store C D M K I V) (invalidations : M → Invalidation K I)
    (party : Option (Party C D M)) (index : I) : Touch invalidations party store { store with
    now := store.now + 1, indexes := (store.indexes.get store.clock index).1 } where
  now := rfl
  generation := rfl
  bumps := rfl
  gate _ _ gate := gate
  record _ _ found := .inl found
  mapping _ _ found := .inl (MemoryCache.value_get found)

/-- Inserting a recent entry. -/
theorem Touch.write {ttl : Nat} {write : Write K I V}
    (written : store.write ttl write = some store')
    (recent : Recent store invalidations write.queriedAt) :
    Touch invalidations party store { store' with now := store.now + 1 } := by
  cases write with
  | record key value =>
      obtain ⟨cache, inserted, rfl⟩ := Option.map_eq_some_iff.mp written
      refine ⟨rfl, rfl, rfl, fun _ _ gate => gate, fun key' value' found => ?_,
        fun _ _ found => .inl found⟩
      rcases MemoryCache.value_insert inserted found with ⟨_, rfl⟩ | ⟨_, old⟩
      · exact .inr recent
      · exact .inl old
  | mapping index primary =>
      obtain ⟨indexes, inserted, rfl⟩ := Option.map_eq_some_iff.mp written
      refine ⟨rfl, rfl, rfl, fun _ _ gate => gate, fun _ _ found => .inl found,
        fun index' primary' found => ?_⟩
      rcases MemoryCache.value_insert inserted found with ⟨_, rfl⟩ | ⟨_, old⟩
      · exact .inr recent
      · exact .inl old

omit [DecidableEq K] [DecidableEq I] in
theorem Seen.now (generation : store.generation = store.bumps % 2 ^ 64)
    (past : ∀ call t, (invalidations call).bumpedAt = some t → t < store.now)
    {clock : Nat} {cache : MemoryCache K (Stamped (Option V))} :
    Seen { store with now := store.now + 1, clock := clock, cache := cache } invalidations
      store.generation store.now where
  before := Nat.lt_succ_self _
  counted := ⟨store.bumps, Nat.le_refl _, generation⟩
  current _ _ call t bumped := past call t bumped

omit [DecidableEq K] [DecidableEq I] in
theorem write_gate {ttl : Nat} {write : Write K I V} [DecidableEq K] [DecidableEq I]
    (written : store.write ttl write = some store') : store'.cacheGate = store.cacheGate := by
  cases write with
  | record key value =>
      obtain ⟨cache, inserted, rfl⟩ := Option.map_eq_some_iff.mp written
      rfl
  | mapping index primary =>
      obtain ⟨indexes, inserted, rfl⟩ := Option.map_eq_some_iff.mp written
      rfl

/-- A step of a load after its look-ups touches the store and keeps its own
invariant. -/
theorem loadStep_ok {config : CacheConfig} {mine : Party C D M}
    {writes : Stamped (Option R) → List (Write K I V)} {op : Load K I V R} {label : Label R E}
    {progress : Progress (Load K I V R) (Stamped (Option R)) E}
    (stamps : ∀ result, ∀ write ∈ writes result, write.queriedAt = result.queriedAt)
    (generation : store.generation = store.bumps % 2 ^ 64)
    (past : ∀ call t, (invalidations call).bumpedAt = some t → t < store.now)
    (ok : LoadOk store invalidations mine op)
    (run : loadStep config mine writes store op label = some (store', progress)) :
    Touch invalidations (some mine) store { store' with now := store.now + 1 } ∧
      ∀ op', progress = .pending op' →
        LoadOk { store' with now := store.now + 1 } invalidations mine op' := by
  unfold loadStep at run
  split at run
  · cases run
    exact ⟨.tick, fun op' eq => by cases eq; exact Seen.now generation past⟩
  · rename_i seenGeneration loadedAt outcome
    split at run
    · cases run
      exact ⟨.tick, nofun⟩
    · cases run
      have touch : Touch invalidations (some mine) store { store with now := store.now + 1 } :=
        .tick
      refine ⟨touch, fun op' eq => ?_⟩
      cases eq
      exact ⟨touch.seen (fun _ => rfl) ok, ok.before⟩
  · split at run
    · rename_i free
      cases run
      have touch : Touch invalidations (some mine) store
          { store with now := store.now + 1, cacheGate := some mine } := by
        refine .of_gate rfl rfl rfl rfl rfl fun other _ gate => ?_
        rw [free] at gate
        cases gate
      refine ⟨touch, fun op' eq => ?_⟩
      cases eq
      exact ⟨rfl, touch.seen (fun _ => rfl) ok.1, ok.2⟩
    · cases run
  · rename_i seenGeneration loadedAt result
    obtain ⟨gate, seen, later⟩ := ok
    split at run
    · rename_i current
      split at run
      · cases run
        refine ⟨.tick, fun op' eq => ?_⟩
        cases eq
        refine ⟨gate, fun write member bounded call t bumped => ?_⟩
        have := seen.current bounded current call t bumped
        rw [stamps result write member]
        omega
      · cases run
        refine ⟨.tick, fun op' eq => ?_⟩
        cases eq
        exact ⟨gate, nofun⟩
    · cases run
      refine ⟨.tick, fun op' eq => ?_⟩
      cases eq
      exact ⟨gate, nofun⟩
  · rename_i result ttl write rest
    obtain ⟨gate, recent⟩ := ok
    split at run
    · rename_i written
      cases run
      have touch : Touch invalidations (some mine) store _ :=
        .write written (recent write List.mem_cons_self)
      refine ⟨touch, fun op' eq => ?_⟩
      cases eq
      refine ⟨(write_gate written).trans gate, fun later member => ?_⟩
      exact touch.recent (fun _ => rfl) (recent later (List.mem_cons_of_mem _ member))
    · cases run
      refine ⟨.of_gate rfl rfl rfl rfl rfl fun other bystander held => ?_, nofun⟩
      rw [gate] at held
      exact absurd held.symm bystander
  · obtain ⟨gate, _⟩ := ok
    cases run
    refine ⟨.of_gate rfl rfl rfl rfl rfl fun other bystander held => ?_, nofun⟩
    rw [gate] at held
    exact absurd held.symm bystander
  · cases run

theorem findOperation_ok {config : CacheConfig} {call : C} {key : K} {op : Load K I V V}
    {label : Label V E} {progress : Progress (Load K I V V) (Stamped (Option V)) E}
    (generation : store.generation = store.bumps % 2 ^ 64)
    (past : ∀ call t, (invalidations call).bumpedAt = some t → t < store.now)
    (ok : LoadOk store invalidations (.find call) op)
    (run : (findOperation config).step store call key op label = some (store', progress)) :
    Touch invalidations (some (.find call)) store { store' with now := store.now + 1 } ∧
      ∀ op', progress = .pending op' →
        LoadOk { store' with now := store.now + 1 } invalidations (.find call) op' := by
  have stamps : ∀ (result : Stamped (Option V)),
      ∀ write ∈ ([.record key result] : List (Write K I V)),
        write.queriedAt = result.queriedAt := by
    intro result write member
    rw [List.mem_singleton] at member
    rw [member]
    rfl
  dsimp only [findOperation] at run
  split at run
  · have touch := Touch.get_cache store invalidations (some (.find call)) key
    split at run <;> rename_i got <;> cases run <;> rw [got] at touch
    · exact ⟨touch, nofun⟩
    · exact ⟨touch, fun op' eq => by cases eq; trivial⟩
  · exact loadStep_ok stamps generation past ok run

theorem findByIndexOperation_ok {config : CacheConfig} {call : D} {index : I}
    {op : Load K I V (K × V)} {label : Label (K × V) E}
    {progress : Progress (Load K I V (K × V)) (Stamped (Option (K × V))) E}
    (generation : store.generation = store.bumps % 2 ^ 64)
    (past : ∀ call t, (invalidations call).bumpedAt = some t → t < store.now)
    (ok : LoadOk store invalidations (.findByIndex call) op)
    (run : (findByIndexOperation config).step store call index op label =
      some (store', progress)) :
    Touch invalidations (some (.findByIndex call)) store { store' with now := store.now + 1 } ∧
      ∀ op', progress = .pending op' →
        LoadOk { store' with now := store.now + 1 } invalidations (.findByIndex call) op' := by
  have stamps : ∀ (result : Stamped (Option (K × V))),
      ∀ write ∈ (indexWrites index result : List (Write K I V)),
        write.queriedAt = result.queriedAt := by
    intro result write member
    unfold indexWrites at member
    rcases List.mem_cons.mp member with rfl | member
    · rfl
    · split at member
      · rw [List.mem_singleton] at member
        rw [member]
        rfl
      · cases member
  dsimp only [findByIndexOperation] at run
  split at run
  · have touch := Touch.get_indexes store invalidations (some (.findByIndex call)) index
    split at run <;> rename_i got <;> cases run <;> rw [got] at touch
    · exact ⟨touch, fun op' eq => by cases eq; trivial⟩
    · exact ⟨touch, nofun⟩
    · exact ⟨touch, fun op' eq => by cases eq; trivial⟩
  · rename_i primary
    have touch := Touch.get_cache store invalidations (some (.findByIndex call)) primary
    split at run <;> rename_i got <;> cases run <;> rw [got] at touch
    · exact ⟨touch, nofun⟩
    · exact ⟨touch, fun op' eq => by cases eq; trivial⟩
  · exact loadStep_ok stamps generation past ok run

/-! ## Every step keeps the invariant -/

variable {s s' : System C D M K I V E}

omit [DecidableEq K] [DecidableEq I] in
theorem bumpedAt_lt [DecidableEq K] [DecidableEq I] {call : M} {phase : Invalidation K I}
    (ok : InvalidationOk store call phase) {t : Nat} (bumped : phase.bumpedAt = some t) :
    t < store.now := by
  cases phase with
  | removing request committedAt bumpedAt rest removed =>
      cases bumped
      exact ok.2.1
  | returned request committedAt bumpedAt returnedAt removed =>
      cases bumped
      exact Nat.lt_trans ok.1 ok.2.1
  | _ => cases bumped

theorem Inv.past (inv : Inv s) (call : M) (t : Nat)
    (bumped : (s.invalidations call).bumpedAt = some t) : t < s.store.now :=
  bumpedAt_lt (inv.invalidations call) bumped

/-- A step of a look-up or a load keeps the invariant. -/
theorem Inv.touch (inv : Inv s) (touch : Touch s.invalidations party s.store s'.store)
    (same : s'.invalidations = s.invalidations)
    (bystanders : ∀ call, some (.invalidate call) ≠ party)
    (loads : ∀ call key op, s'.flights.calls call = .leading key op →
      s.flights.calls call = .leading key op ∧ some (.find call) ≠ party ∨
        LoadOk s'.store s.invalidations (.find call) op)
    (indexLoads : ∀ call index op, s'.indexFlights.calls call = .leading index op →
      s.indexFlights.calls call = .leading index op ∧ some (.findByIndex call) ≠ party ∨
        LoadOk s'.store s.invalidations (.findByIndex call) op) : Inv s' where
  generation := by
    rw [touch.generation, touch.bumps]
    exact inv.generation
  invalidations := by
    intro call
    rw [same]
    exact touch.invalidation (bystanders call) (inv.invalidations call)
  loads := by
    intro call key op leading
    rw [same]
    rcases loads call key op leading with ⟨old, bystander⟩ | ok
    · exact touch.load (fun _ => rfl) bystander (inv.loads call key op old)
    · exact ok
  indexLoads := by
    intro call index op leading
    rw [same]
    rcases indexLoads call index op leading with ⟨old, bystander⟩ | ok
    · exact touch.load (fun _ => rfl) bystander (inv.indexLoads call index op old)
    · exact ok

/-- A step of an invalidation other than changing the generation keeps the
invariant. -/
theorem Inv.invalidate [DecidableEq M] (inv : Inv s) {call : M} {next : Invalidation K I}
    (touch : Touch s.invalidations (some (.invalidate call)) s.store s'.store)
    (invalidations : s'.invalidations = Function.update s.invalidations call next)
    (same : next.bumpedAt = (s.invalidations call).bumpedAt)
    (ok : InvalidationOk s'.store call next) (flights : s'.flights = s.flights)
    (indexFlights : s'.indexFlights = s.indexFlights) : Inv s' := by
  have bumped : ∀ other, (s'.invalidations other).bumpedAt =
      (s.invalidations other).bumpedAt := by
    intro other
    rw [invalidations, Function.update_apply]
    split
    · subst other
      exact same
    · rfl
  refine ⟨?_, fun other => ?_, fun other key op leading => ?_, fun other index op leading => ?_⟩
  · rw [touch.generation, touch.bumps]
    exact inv.generation
  · rw [invalidations, Function.update_apply]
    split
    · subst other
      exact ok
    · rename_i ne
      refine touch.invalidation ?_ (inv.invalidations other)
      intro eq
      cases eq
      exact ne rfl
  · rw [flights] at leading
    refine touch.load bumped ?_ (inv.loads other key op leading)
    exact nofun
  · rw [indexFlights] at leading
    refine touch.load bumped ?_ (inv.indexLoads other index op leading)
    exact nofun

omit [DecidableEq K] [DecidableEq I] in
/-- A request removes everything its keys stand for. -/
theorem Request.mem_commands (request : Request K I) :
    (∀ key ∈ request.primaryKeys, .remove key ∈ request.commands ∧
      .removeMappings request.primaryKeys ∈ request.commands) ∧
    ∀ index ∈ request.indexKeys, .removeIndex index ∈ request.commands := by
  cases request <;>
    simp [Request.primaryKeys, Request.indexKeys, Request.commands, Request.manyCommands,
      Request.relatedCommands]

omit [DecidableEq K] [DecidableEq I] in
/-- A generation read before it is changed is no longer the current one. -/
theorem Seen.bump (generation : store.generation = store.bumps % 2 ^ 64)
    {seen loadedAt : Nat} (old : Seen store invalidations seen loadedAt) :
    Seen { store with
      generation := (store.generation + 1) % 2 ^ 64
      bumps := store.bumps + 1
      now := store.now + 1 } invalidations' seen loadedAt where
  before := Nat.lt_succ_of_lt old.before
  counted := by
    obtain ⟨bumps, le, eq⟩ := old.counted
    exact ⟨bumps, Nat.le_succ_of_le le, eq⟩
  current := by
    intro bounded current
    obtain ⟨bumps, le, eq⟩ := old.counted
    dsimp only at bounded current
    rw [generation] at current
    omega

omit [DecidableEq K] [DecidableEq I] in
/-- Nobody but the holder of the gate is at a point where the gate is needed, so
the other loads survive a change of the generation. -/
theorem LoadOk.bump (generation : store.generation = store.bumps % 2 ^ 64) {call : M}
    (gate : store.cacheGate = some (.invalidate call)) {mine : Party C D M}
    (other : mine ≠ .invalidate call) {op : Load K I V R}
    (ok : LoadOk store invalidations mine op) :
    LoadOk { store with
      generation := (store.generation + 1) % 2 ^ 64
      bumps := store.bumps + 1
      now := store.now + 1 } invalidations' mine op := by
  have excluded : store.cacheGate ≠ some mine := by
    rw [gate]
    intro eq
    cases eq
    exact other rfl
  cases op with
  | loaded seen loadedAt => exact Seen.bump generation ok
  | queried seen loadedAt result => exact ⟨Seen.bump generation ok.1, ok.2⟩
  | gated seen loadedAt result => exact absurd ok.1 excluded
  | inserting result ttl writes => exact absurd ok.1 excluded
  | _ => trivial

/-- Changing the generation. -/
theorem Inv.fetchAdd [DecidableEq M] (inv : Inv s) {call : M} {request : Request K I}
    {committedAt : Option Nat} (locked : s.invalidations call = .locked request committedAt) :
    Inv { s with
      store := { s.store with
        generation := (s.store.generation + 1) % 2 ^ 64
        bumps := s.store.bumps + 1
        now := s.store.now + 1 }
      invalidations := Function.update s.invalidations call
        (.removing request committedAt s.store.now request.commands false) } := by
  have mine := inv.invalidations call
  rw [locked] at mine
  obtain ⟨gate, committed⟩ := mine
  refine ⟨?_, fun other => ?_, fun other key op leading => ?_, fun other index op leading => ?_⟩
  · have := inv.generation
    dsimp only
    omega
  · dsimp only
    rw [Function.update_apply]
    split
    · subst other
      obtain ⟨primary, index⟩ := request.mem_commands
      refine ⟨gate, Nat.lt_succ_self _, committed, fun _ => ⟨?_, ?_, ?_⟩⟩
      · exact fun key member _ _ => .inr (primary key member).1
      · exact fun key member _ _ _ _ => .inr (primary key member).2
      · exact fun i member _ _ => .inr (index i member)
    · rename_i ne
      have theirs := inv.invalidations other
      have excluded : s.store.cacheGate ≠ some (.invalidate other) := by
        rw [gate]
        intro eq
        cases eq
        exact ne rfl
      cases phase : s.invalidations other with
      | idle => trivial
      | failed => trivial
      | ready request committedAt =>
          rw [phase] at theirs
          exact fun t committed => Nat.lt_succ_of_lt (theirs t committed)
      | locked request committedAt =>
          rw [phase] at theirs
          exact absurd theirs.1 excluded
      | removing request committedAt bumpedAt rest removed =>
          rw [phase] at theirs
          exact absurd theirs.1 excluded
      | returned request committedAt bumpedAt returnedAt removed =>
          rw [phase] at theirs
          obtain ⟨later, before, committed, cleared⟩ := theirs
          refine ⟨later, Nat.lt_succ_of_lt before, committed, fun bounded => ?_⟩
          have old := cleared (Nat.lt_of_succ_lt bounded)
          exact ⟨old.record, old.mapping, old.index⟩
  · refine LoadOk.bump inv.generation gate ?_ (inv.loads other key op leading)
    exact nofun
  · refine LoadOk.bump inv.generation gate ?_ (inv.indexLoads other index op leading)
    exact nofun

/-- One removal of an invalidation. -/
theorem Touch.perform (store : Store C D M K I V) (invalidations : M → Invalidation K I)
    (party : Option (Party C D M)) (command : Command K I) :
    Touch invalidations party store
      { (store.perform command).1 with now := store.now + 1 } := by
  cases command with
  | remove key =>
      exact ⟨rfl, rfl, rfl, fun _ _ gate => gate,
        fun _ _ found => .inl (MemoryCache.value_remove found).2, fun _ _ found => .inl found⟩
  | removeMappings keys =>
      exact ⟨rfl, rfl, rfl, fun _ _ gate => gate, fun _ _ found => .inl found,
        fun _ _ found => .inl
          (MemoryCache.value_removeWhere (fun _ primary => mapsInto keys primary) found).2⟩
  | removeIndex index =>
      exact ⟨rfl, rfl, rfl, fun _ _ gate => gate, fun _ _ found => .inl found,
        fun _ _ found => .inl (MemoryCache.value_remove found).2⟩

/-- A removal clears what it stands for. -/
theorem Cleared.perform {request : Request K I} {bumpedAt : Nat} {command : Command K I}
    {rest : List (Command K I)} (cleared : Cleared store request bumpedAt (command :: rest)) :
    Cleared (store.perform command).1 request bumpedAt rest where
  record := by
    intro key member value found
    cases command with
    | remove removed =>
        obtain ⟨ne, old⟩ := MemoryCache.value_remove found
        rcases cleared.record key member value old with fresh | later
        · exact .inl fresh
        · exact .inr (by simpa [ne] using later)
    | removeMappings keys => simpa using cleared.record key member value found
    | removeIndex index => simpa using cleared.record key member value found
  mapping := by
    intro key member index primary found maps
    cases command with
    | remove removed => simpa using cleared.mapping key member index primary found maps
    | removeMappings keys =>
        obtain ⟨spared, old⟩ :=
          MemoryCache.value_removeWhere (fun _ primary => mapsInto keys primary) found
        rcases cleared.mapping key member index primary old maps with fresh | later
        · exact .inl fresh
        · have other : keys ≠ request.primaryKeys := by
            rintro rfl
            simp [mapsInto, maps, member] at spared
          exact .inr (by simpa [Ne.symm other] using later)
    | removeIndex removed =>
        obtain ⟨_, old⟩ := MemoryCache.value_remove found
        simpa using cleared.mapping key member index primary old maps
  index := by
    intro index member primary found
    cases command with
    | remove removed => simpa using cleared.index index member primary found
    | removeMappings keys =>
        obtain ⟨_, old⟩ :=
          MemoryCache.value_removeWhere (fun _ primary => mapsInto keys primary) found
        simpa using cleared.index index member primary old
    | removeIndex removed =>
        obtain ⟨ne, old⟩ := MemoryCache.value_remove found
        rcases cleared.index index member primary old with fresh | later
        · exact .inl fresh
        · exact .inr (by simpa [ne] using later)

/-- A step of the flights of `find` or of `find_by_index`. -/
theorem flight_ok {P Q A : Type} [DecidableEq P] [DecidableEq Q]
    {operation : Operation P (Store C D M K I V) Q (Load K I V R) A (Stamped (Option R)) E}
    (toParty : P → Party C D M) (injective : Function.Injective toParty)
    (ok : ∀ store' call key op label progress, LoadOk store invalidations (toParty call) op →
      operation.step store call key op label = some (store', progress) →
      Touch invalidations (some (toParty call)) store { store' with now := store.now + 1 } ∧
        ∀ op', progress = .pending op' →
          LoadOk { store' with now := store.now + 1 } invalidations (toParty call) op')
    {f f' : Flights P Q (Load K I V R) (Stamped (Option R)) E}
    {a : SingleFlight.Action P Q (Load K I V R) A}
    (loads : ∀ call key op, f.calls call = .leading key op →
      LoadOk store invalidations (toParty call) op)
    (start : ∀ call key op, a = .enter call key op → op = .start)
    (step : SingleFlight.step operation store f a = some (store', f')) :
    ∃ party, Touch invalidations party store { store' with now := store.now + 1 } ∧
      (∀ call key op, f'.calls call = .leading key op →
        f.calls call = .leading key op ∧ some (toParty call) ≠ party ∨
          LoadOk { store' with now := store.now + 1 } invalidations (toParty call) op) ∧
      ∀ other, (∀ call, other ≠ toParty call) → some other ≠ party := by
  rcases step_polls_or step with ⟨call, label, key, op, progress, _, leading, run, rfl⟩ |
    ⟨rfl, kept⟩
  · obtain ⟨touch, next⟩ := ok _ _ _ _ _ _ (loads call key op leading) run
    refine ⟨_, touch, fun other key' op' leads => ?_, fun other ne eq => ?_⟩
    · rcases phase_of_update leads with ⟨rfl, new⟩ | ⟨ne, old⟩
      · cases progress with
        | pending op'' =>
            cases new
            exact .inr (next _ rfl)
        | ready result => cases new
        | unwind => cases new
      · exact .inl ⟨old, fun eq => ne (injective (Option.some.inj eq))⟩
    · exact ne call (Option.some.inj eq)
  · refine ⟨none, .tick, fun call key op leads => ?_, fun _ _ => nofun⟩
    rcases kept call key op leads with old | entered
    · exact .inl ⟨old, nofun⟩
    · rw [start call key op entered]
      exact .inr trivial

variable {config : CacheConfig} {a : Action C D M K I V E}

theorem Inv.init : Inv (System.new C D M K I V E config) where
  generation := rfl
  invalidations _ := trivial
  loads := nofun
  indexLoads := nofun

/-- A step of the flights of `find`. -/
theorem Inv.flight [DecidableEq C] (inv : Inv s)
    {action : SingleFlight.Action C K (Load K I V V) (Label V E)}
    (start : ∀ call key op, action = .enter call key op → op = .start)
    {flights : Flights C K (Load K I V V) (Stamped (Option V)) E}
    (step : SingleFlight.step (findOperation config) s.store s.flights action =
      some (store', flights)) (finds : C → FindCall K V) :
    Inv { s with
      store := { store' with now := s.store.now + 1 }
      flights := flights
      finds := finds } := by
  obtain ⟨party, touch, loads, others⟩ := flight_ok Party.find
    (fun _ _ eq => Party.find.inj eq)
    (fun _ _ _ _ _ _ ok run => findOperation_ok inv.generation inv.past ok run)
    inv.loads start step
  refine inv.touch touch rfl (fun call => others _ nofun) loads fun call index op leading => ?_
  exact .inl ⟨leading, others _ nofun⟩

/-- A step of the flights of `find_by_index`. -/
theorem Inv.indexFlight [DecidableEq D] (inv : Inv s)
    {action : SingleFlight.Action D I (Load K I V (K × V)) (Label (K × V) E)}
    (start : ∀ call index op, action = .enter call index op → op = .start)
    {flights : Flights D I (Load K I V (K × V)) (Stamped (Option (K × V))) E}
    (step : SingleFlight.step (findByIndexOperation config) s.store s.indexFlights action =
      some (store', flights)) (indexFinds : D → FindByIndexCall K I V) :
    Inv { s with
      store := { store' with now := s.store.now + 1 }
      indexFlights := flights
      indexFinds := indexFinds } := by
  obtain ⟨party, touch, loads, others⟩ := flight_ok Party.findByIndex
    (fun _ _ eq => Party.findByIndex.inj eq)
    (fun _ _ _ _ _ _ ok run => findByIndexOperation_ok inv.generation inv.past ok run)
    inv.indexLoads start step
  refine inv.touch touch rfl (fun call => others _ nofun) (fun call key op leading => ?_) loads
  exact .inl ⟨leading, others _ nofun⟩

omit [DecidableEq K] [DecidableEq I] in
theorem flightStep_eq {P Q L A W : Type} [DecidableEq P] [DecidableEq Q]
    {operation : Operation P (Store C D M K I V) Q L A W E} {flights flights' : Flights P Q L W E}
    {action : SingleFlight.Action P Q L A}
    (step : flightStep operation store flights action = some (store', flights')) :
    SingleFlight.step operation store flights action = some (store', flights') ∧
      ∀ call key op, action ≠ .enter call key op := by
  cases action with
  | enter call key op => cases step
  | _ => exact ⟨step, nofun⟩

/-- A look-up outside the flights. -/
theorem Inv.lookup (inv : Inv s)
    (touch : Touch s.invalidations none s.store s'.store)
    (invalidations : s'.invalidations = s.invalidations) (flights : s'.flights = s.flights)
    (indexFlights : s'.indexFlights = s.indexFlights) : Inv s' := by
  refine inv.touch touch invalidations (fun _ => nofun) (fun call key op leading => ?_)
    fun call index op leading => ?_
  · rw [flights] at leading
    exact .inl ⟨leading, nofun⟩
  · rw [indexFlights] at leading
    exact .inl ⟨leading, nofun⟩

variable [DecidableEq C] [DecidableEq D] [DecidableEq M]

theorem Inv.step (inv : Inv s) (step : CachedStore.step config s a = some s') : Inv s' := by
  obtain ⟨t, h, rfl⟩ := Option.map_eq_some_iff.mp step
  clear step
  cases a with
  | find call key =>
      simp only [act] at h
      split at h
      · have touch := Touch.get_cache s.store s.invalidations none key
        split at h <;> rename_i got <;> cases h <;> rw [got] at touch
        · exact inv.lookup touch rfl rfl rfl
        · exact inv.lookup touch rfl rfl rfl
      · cases h
  | enter call =>
      simp only [act] at h
      split at h
      · obtain ⟨⟨store', flights⟩, step, rfl⟩ := Option.map_eq_some_iff.mp h
        exact inv.flight (fun _ _ _ eq => by cases eq; rfl) step _
      · cases h
  | flight action =>
      obtain ⟨⟨store', flights⟩, step, rfl⟩ := Option.map_eq_some_iff.mp h
      obtain ⟨step, notEnter⟩ := flightStep_eq step
      exact inv.flight (fun call key op eq => absurd eq (notEnter call key op)) step _
  | findByIndex call index =>
      simp only [act] at h
      split at h
      · cases h
        exact inv.lookup (Touch.get_indexes s.store s.invalidations none index) rfl rfl rfl
      · cases h
  | resolve call =>
      simp only [act] at h
      split at h
      · cases h
        exact inv.lookup (Touch.get_cache s.store s.invalidations none _) rfl rfl rfl
      · cases h
  | enterIndex call =>
      simp only [act] at h
      split at h
      · obtain ⟨⟨store', flights⟩, step, rfl⟩ := Option.map_eq_some_iff.mp h
        exact inv.indexFlight (fun _ _ _ eq => by cases eq; rfl) step _
      · cases h
  | indexFlight action =>
      obtain ⟨⟨store', flights⟩, step, rfl⟩ := Option.map_eq_some_iff.mp h
      obtain ⟨step, notEnter⟩ := flightStep_eq step
      exact inv.indexFlight (fun call key op eq => absurd eq (notEnter call key op)) step _
  | begin call request commits =>
      simp only [act] at h
      split at h
      · rename_i idle
        cases h
        refine inv.invalidate .tick rfl ?_ ?_ rfl rfl
        · rw [idle]
          cases request.mutates <;> cases commits <;> rfl
        · cases request.mutates with
          | false => exact nofun
          | true =>
              cases commits with
              | false => trivial
              | true =>
                  intro t committed
                  cases committed
                  exact Nat.lt_succ_self _
      · cases h
  | lock call =>
      simp only [act] at h
      split at h
      · rename_i request committedAt ready free
        cases h
        have old := inv.invalidations call
        rw [ready] at old
        refine inv.invalidate (.of_gate rfl rfl rfl rfl rfl fun other _ gate => ?_) rfl ?_
          ⟨rfl, fun t committed => Nat.lt_succ_of_lt (old t committed)⟩ rfl rfl
        · rw [free] at gate
          cases gate
        · rw [ready]
          rfl
      · cases h
  | fetchAdd call =>
      simp only [act] at h
      split at h
      · rename_i locked
        cases h
        exact inv.fetchAdd locked
      · cases h
  | perform call =>
      simp only [act] at h
      split at h
      · rename_i request committedAt bumpedAt command rest removed removing
        cases h
        have old := inv.invalidations call
        rw [removing] at old
        obtain ⟨gate, before, committed, cleared⟩ := old
        have touch := Touch.perform s.store s.invalidations (some (.invalidate call)) command
        refine inv.invalidate touch rfl ?_ ⟨?_, Nat.lt_succ_of_lt before, committed, ?_⟩ rfl rfl
        · rw [removing]
          rfl
        · cases command <;> exact gate
        · intro bounded
          have bounded : s.store.bumps < 2 ^ 64 := by
            have := touch.bumps
            exact this ▸ bounded
          have cleared := (cleared bounded).perform
          exact ⟨cleared.record, cleared.mapping, cleared.index⟩
      · cases h
  | unlock call =>
      simp only [act] at h
      split at h
      · rename_i request committedAt bumpedAt removed removing
        cases h
        have old := inv.invalidations call
        rw [removing] at old
        obtain ⟨gate, before, committed, cleared⟩ := old
        refine inv.invalidate (.of_gate rfl rfl rfl rfl rfl fun other bystander held => ?_) rfl ?_
          ⟨before, Nat.lt_succ_self _, committed, fun bounded => ?_⟩ rfl rfl
        · rw [gate] at held
          exact absurd held.symm bystander
        · rw [removing]
          rfl
        · have cleared := cleared bounded
          exact ⟨cleared.record, cleared.mapping, cleared.index⟩
      · cases h
  | elapse nanos =>
      cases h
      exact inv.lookup .tick rfl rfl rfl

theorem Inv.reach {P : System C D M K I V E → Action C D M K I V E → Prop}
    (reach : (lts C D M K I V E config).Reach P s) : Inv s :=
  reach.invariant Inv.init fun _ _ _ inv _ step => inv.step step

end Invariant

/-! ## Completed invalidations -/

/-- In every run with fewer than `2 ^ 64` invalidations: once an invalidation has
completed, every entry the caches hold for one of its primary or index keys, and
every mapping to one of its primary keys, was queried after it changed the
generation, and so after its mutation committed. -/
theorem invalidated_entries_fresh {C D M K I V E : Type} [DecidableEq C] [DecidableEq D]
    [DecidableEq M] [DecidableEq K] [DecidableEq I] (config : CacheConfig)
    (s : System C D M K I V E) (reach : (lts C D M K I V E config).Reachable s)
    (bounded : s.store.bumps < 2 ^ 64) (call : M) (request : Request K I)
    (committedAt : Option Nat) (bumpedAt returnedAt : Nat) (removed : Bool)
    (returned : s.invalidations call =
      .returned request committedAt bumpedAt returnedAt removed) :
    (∀ key ∈ request.primaryKeys, ∀ value, s.store.cache.value key = some value →
      bumpedAt < value.queriedAt ∧ ∀ t, committedAt = some t → t < value.queriedAt) ∧
    (∀ index ∈ request.indexKeys, ∀ primary, s.store.indexes.value index = some primary →
      bumpedAt < primary.queriedAt ∧ ∀ t, committedAt = some t → t < primary.queriedAt) ∧
    (∀ key ∈ request.primaryKeys, ∀ index primary,
      s.store.indexes.value index = some primary → primary.value = some key →
      bumpedAt < primary.queriedAt ∧ ∀ t, committedAt = some t → t < primary.queriedAt) := by
  have ok := (Inv.reach reach).invalidations call
  rw [returned] at ok
  obtain ⟨_, _, committed, cleared⟩ := ok
  have cleared := cleared bounded
  have after : ∀ {queriedAt : Nat}, bumpedAt < queriedAt →
      bumpedAt < queriedAt ∧ ∀ t, committedAt = some t → t < queriedAt :=
    fun later => ⟨later, fun t eq => Nat.lt_trans (committed t eq) later⟩
  refine ⟨fun key member value found => ?_, fun index member primary found => ?_,
    fun key member index primary found maps => ?_⟩
  · rcases cleared.record key member value found with fresh | later
    · exact after fresh
    · cases later
  · rcases cleared.index index member primary found with fresh | later
    · exact after fresh
    · cases later
  · rcases cleared.mapping key member index primary found maps with fresh | later
    · exact after fresh
    · cases later

/-- Ten entries that live for a minute. -/
def minuteConfig : CacheConfig where
  capacity := 10
  ttl := 60000000000
  notFoundTtl := some 60000000000
  ttlJitter := 0
  capacity_pos := by decide
  ttl_pos := by decide
  notFoundTtl_pos := by
    intro ttl eq
    cases eq
    decide

/-- One `find` of key `7` and one `execute` of it, on records that are numbers. -/
abbrev SmallSystem := System Nat Nat Nat Nat Nat Nat Unit

/-- A `find` that misses while an `execute` of its key commits and invalidates, and
queries between the change of the generation and the removals. -/
def overlappingRun : List (Action Nat Nat Nat Nat Nat Nat Unit) :=
  [.find 0 7, .enter 0, .flight (.poll 0 .run), .begin 0 (.execute [7]) true, .lock 0,
    .fetchAdd 0, .flight (.poll 0 .run), .flight (.poll 0 (.query (.ok (some 42)))),
    .perform 0, .perform 0, .unlock 0, .flight (.poll 0 .run), .flight (.poll 0 .run),
    .flight (.poll 0 .run), .flight (.poll 0 .run)]

theorem invalidated_entries_fresh_overlapping :
    ∃ s : SmallSystem, (lts Nat Nat Nat Nat Nat Nat Unit minuteConfig).Reachable s ∧
      ∃ value, s.store.cache.value 7 = some value ∧ value.value = some 42 ∧
        5 < value.queriedAt := by
  have reach : (lts Nat Nat Nat Nat Nat Nat Unit minuteConfig).Reachable _ :=
    Lts.reachable_of_exec overlappingRun rfl
  have fresh := (invalidated_entries_fresh minuteConfig _ reach (by decide) 0 (.execute [7])
    (some 3) 5 10 false rfl).1 7 (by decide)
  exact ⟨_, reach, _, rfl, rfl, (fresh _ rfl).1⟩

/-- The query of an entry that outlives an invalidation may have run before that
invalidation completed: here it ran after the change of the generation and before
the removals. -/
theorem queried_during_invalidation :
    ∃ s : SmallSystem, (lts Nat Nat Nat Nat Nat Nat Unit minuteConfig).Reachable s ∧
      s.store.bumps < 2 ^ 64 ∧
      ∃ committedAt bumpedAt returnedAt removed value,
        s.invalidations 0 = .returned (.execute [7]) committedAt bumpedAt returnedAt removed ∧
        s.store.cache.value 7 = some value ∧ value.queriedAt < returnedAt :=
  ⟨_, Lts.reachable_of_exec overlappingRun rfl, by decide, _, _, _, _, _, rfl, rfl, by decide⟩

end RustZero.CachedStore
