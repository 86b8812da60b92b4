import RustZero.CachedStoreFreshness

/-!
# Reading one's writes through a cache-aside store

A `find` may answer from the cache, from its own query or from the flight of a
leader that began earlier.  The generation keeps the first two as recent as the
mutations that had returned when the `find` began; it does not keep the third,
because a leader hands on what it queried whether or not it could insert it.

* `Fresh` is the requirement of a `find`: a value queried after the commit of
  every mutation of its key that had returned when it began.
* `Timely` is the condition that a `find` joins a flight only while its leader
  has no value yet or holds a fresh one (and that the generation does not wrap).
* `find_reads_writes`: along such runs every `find` returns a fresh value.
* `joined_flight_is_stale`: without the condition it does not.
-/

namespace RustZero.CachedStore

open Lib Cache SingleFlight

section Requirement

variable {C D M K I V E : Type}

/-- The key a call of `find` looks for and the step it began in. -/
def FindCall.since : FindCall K V → Option (K × Nat)
  | .idle => none
  | .answered key began _ => some (key, began)
  | .missed key began => some (key, began)
  | .executing key began => some (key, began)

/-- Queried after the commit of every mutation of the call's key that had returned
when the call began. -/
def Fresh (s : System C D M K I V E) (call : C) (queriedAt : Nat) : Prop :=
  ∀ key began, (s.finds call).since = some (key, began) →
    ∀ other request committedAt bumpedAt returnedAt removed,
      s.invalidations other =
        .returned request (some committedAt) bumpedAt returnedAt removed →
      returnedAt < began → key ∈ request.primaryKeys → committedAt < queriedAt

/-- The result a load already has. -/
def Load.held {R : Type} : Load K I V R → Option (Stamped (Option R))
  | .queried _ _ result => some result
  | .gated _ _ result => some result
  | .inserting result _ _ => some result
  | _ => none

/-- A leader for the key that already has its result. -/
def Holds (call : Call C K (Load K I V V) (Stamped (Option V)) E) (key : K)
    (result : Stamped (Option V)) : Prop :=
  (∃ op, call = .leading key op ∧ op.held = some result) ∨ call = .finished key (.ok result)

/-- A `find` joins a flight only when its leader has no result yet or one that is
fresh for it, and the generation does not wrap. -/
def Timely (s : System C D M K I V E) : Action C D M K I V E → Prop
  | .enter call => ∀ key began leader result, s.finds call = .missed key began →
      Holds (s.flights.calls leader) key result → Fresh s call result.queriedAt
  | .fetchAdd _ => s.store.bumps + 1 < 2 ^ 64
  | _ => True

/-- A load owes a call a fresh result. -/
def Owes (s : System C D M K I V E) (call : C) (key : K) (op : Load K I V V) : Prop :=
  (∃ began, s.finds call = .executing key began) ∧
    ∀ result, op.held = some result → Fresh s call result.queriedAt

/-- A result that is a value is fresh. -/
def Good (s : System C D M K I V E) (call : C)
    (result : Outcome (Stamped (Option V)) E) : Prop :=
  ∀ value, result = .ok value →
    (∃ key began, s.finds call = .executing key began) ∧ Fresh s call value.queriedAt

/-- The invariant: every value that a `find` has got, or will get from the load it
waits for, is fresh. -/
structure Reads [DecidableEq K] [DecidableEq I] (s : System C D M K I V E) : Prop where
  inv : Inv s
  bounded : s.store.bumps < 2 ^ 64
  began : ∀ call key began, (s.finds call).since = some (key, began) → began < s.store.now
  answered : ∀ call key began value, s.finds call = .answered key began value →
    Fresh s call value.queriedAt
  delivers : Delivers (Owes s) (Good s) s.flights

/-! ## What keeps the requirement -/

variable {s s' : System C D M K I V E}

/-- A step after which the calls of `find` look for the same as before, and no
mutation has returned that counts for one that had begun. -/
structure Keeps (s s' : System C D M K I V E) : Prop where
  finds : ∀ call, (s.finds call).since ≠ none →
    (s'.finds call).since = (s.finds call).since
  executing : ∀ call key began, s.finds call = .executing key began →
    s'.finds call = .executing key began
  returned : ∀ other request committedAt bumpedAt returnedAt removed,
    s'.invalidations other = .returned request committedAt bumpedAt returnedAt removed →
    s.invalidations other = .returned request committedAt bumpedAt returnedAt removed ∨
      s.store.now ≤ returnedAt

theorem Keeps.of_same (finds : s'.finds = s.finds)
    (invalidations : s'.invalidations = s.invalidations) : Keeps s s' where
  finds _ _ := by rw [finds]
  executing _ _ _ executing := by rw [finds, executing]
  returned _ _ _ _ _ _ returned := by
    rw [invalidations] at returned
    exact .inl returned

variable [DecidableEq K] [DecidableEq I]

theorem Reads.fresh (reads : Reads s) (keeps : Keeps s s') {call : C} {queriedAt : Nat}
    (began : (s.finds call).since ≠ none) (fresh : Fresh s call queriedAt) :
    Fresh s' call queriedAt := by
  intro key start since other request committedAt bumpedAt returnedAt removed returned before
    member
  rw [keeps.finds call began] at since
  rcases keeps.returned _ _ _ _ _ _ returned with old | later
  · exact fresh key start since other request committedAt bumpedAt returnedAt removed old before
      member
  · have := reads.began call key start since
    omega

theorem Reads.delivers_keep (reads : Reads s) (keeps : Keeps s s') :
    Delivers (Owes s') (Good s') s.flights := by
  refine reads.delivers.weaken ?_ ?_
  · rintro call key op ⟨⟨began, executing⟩, held⟩
    refine ⟨⟨began, keeps.executing call key began executing⟩, fun result eq => ?_⟩
    exact reads.fresh keeps (by rw [executing]; exact nofun) (held result eq)
  · intro call result good value eq
    obtain ⟨⟨key, began, executing⟩, fresh⟩ := good value eq
    exact ⟨⟨key, began, keeps.executing call key began executing⟩,
      reads.fresh keeps (by rw [executing]; exact nofun) fresh⟩

/-- What the cache holds for a key is fresh for every call that looks for it. -/
theorem Inv.fresh_cached (inv : Inv s) (bounded : s.store.bumps < 2 ^ 64)
    (same : s'.invalidations = s.invalidations) {call : C} {key : K} {value : Stamped (Option V)}
    (since : ∀ key' began, (s'.finds call).since = some (key', began) → key' = key)
    (cached : s.store.cache.value key = some value) : Fresh s' call value.queriedAt := by
  intro key' began sinceEq other request committedAt bumpedAt returnedAt removed returned before
    member
  have ok := inv.invalidations other
  rw [same] at returned
  rw [returned] at ok
  obtain ⟨_, _, committed, cleared⟩ := ok
  have := committed committedAt rfl
  rcases (cleared bounded).record key (since key' began sinceEq ▸ member) value cached with
    younger | later
  · omega
  · cases later

/-- What is queried now is fresh for every call that has begun. -/
theorem Reads.fresh_now (reads : Reads s) (call : C) : Fresh s call s.store.now := by
  intro key began since other request committedAt bumpedAt returnedAt removed returned before
    member
  have ok := reads.inv.invalidations other
  rw [returned] at ok
  obtain ⟨later, past, committed, _⟩ := ok
  have := committed committedAt rfl
  omega

/-! ## Loads -/

/-- The results a load has, or gives, meet a requirement on their stamp. -/
def Stamps {R : Type} (F : Nat → Prop) :
    Progress (Load K I V R) (Stamped (Option R)) E → Prop
  | .pending op => ∀ result, op.held = some result → F result.queriedAt
  | .ready (.ok value) => F value.queriedAt
  | _ => True

theorem loadStep_stamps {R : Type} {F : Nat → Prop} {config : CacheConfig}
    {party : Party C D M} {writes : Stamped (Option R) → List (Write K I V)}
    {store store' : Store C D M K I V} {op : Load K I V R} {label : Label R E}
    {progress : Progress (Load K I V R) (Stamped (Option R)) E}
    (now : F store.now) (held : ∀ result, op.held = some result → F result.queriedAt)
    (run : loadStep config party writes store op label = some (store', progress)) :
    Stamps F progress := by
  unfold loadStep at run
  split at run
  · cases run
    exact nofun
  · split at run
    · cases run
      trivial
    · cases run
      intro result eq
      cases eq
      exact now
  · split at run
    · cases run
      exact held
    · cases run
  · split at run
    · split at run <;> cases run <;> exact held
    · cases run
      exact held
  · split at run
    · cases run
      exact held
    · cases run
      trivial
  · cases run
    exact held _ rfl
  · cases run

theorem findOperation_stamps {F : Nat → Prop} {config : CacheConfig} {call : C} {key : K}
    {store store' : Store C D M K I V} {op : Load K I V V} {label : Label V E}
    {progress : Progress (Load K I V V) (Stamped (Option V)) E}
    (cached : ∀ value, store.cache.value key = some value → F value.queriedAt)
    (now : F store.now) (held : ∀ result, op.held = some result → F result.queriedAt)
    (run : (findOperation config).step store call key op label = some (store', progress)) :
    Stamps F progress := by
  dsimp only [findOperation] at run
  split at run
  · split at run <;> rename_i got <;> cases run
    · exact cached _ (MemoryCache.value_of_hit (congrArg Prod.snd got))
    · exact nofun
  · exact loadStep_stamps now held run

/-- A step of the flights of `find` delivers fresh values. -/
theorem Reads.flight [DecidableEq C] (reads : Reads s) (keeps : Keeps s s')
    {config : CacheConfig} {action : SingleFlight.Action C K (Load K I V V) (Label V E)}
    {store' : Store C D M K I V}
    (enter : ∀ call key op, action = .enter call key op → op = .start ∧
      (∃ began, s'.finds call = .executing key began) ∧
      ∀ leader result, Holds (s.flights.calls leader) key result →
        Fresh s' call result.queriedAt)
    (executing : ∀ call key began, s'.finds call = .executing key began →
      (s.finds call).since = some (key, began))
    (step : SingleFlight.step (findOperation config) s.store s.flights action =
      some (store', s'.flights)) : Delivers (Owes s') (Good s') s'.flights := by
  refine Delivers.step ?_ (reads.delivers_keep keeps) step
  refine ⟨fun call key op eq _ => ?_, fun call key op leader eq => ⟨fun op' leading => ?_,
    fun result finished value ok => ?_⟩, fun call label key op g' progress _ leading run caller
    owes => ?_, fun call value eq => by cases eq⟩
  · obtain ⟨rfl, executing, _⟩ := enter call key op eq
    exact ⟨executing, nofun⟩
  · obtain ⟨_, executing, held⟩ := enter call key op eq
    exact ⟨executing, fun result has => held leader result (.inl ⟨op', leading, has⟩)⟩
  · obtain ⟨_, ⟨began, executing⟩, held⟩ := enter call key op eq
    subst ok
    exact ⟨⟨key, began, executing⟩, held leader value (.inr finished)⟩
  · obtain ⟨⟨began, exec⟩, held⟩ := owes
    have since := executing caller key began exec
    have started : (s.finds caller).since ≠ none := by
      rw [since]
      exact nofun
    have stamps : Stamps (Fresh s' caller) progress := by
      refine findOperation_stamps (fun value cached => ?_) ?_ held run
      · refine reads.fresh keeps started
          (reads.inv.fresh_cached reads.bounded rfl (fun key' began' eq => ?_) cached)
        rw [since] at eq
        cases eq
        rfl
      · exact reads.fresh keeps started (reads.fresh_now caller)
    cases progress with
    | pending op' => exact ⟨⟨began, exec⟩, stamps⟩
    | ready result =>
        cases result with
        | error error => exact nofun
        | ok value =>
            intro value' eq
            cases eq
            exact ⟨⟨key, began, exec⟩, stamps⟩
    | unwind => trivial

/-- A step that leaves `find` and its flights alone. -/
theorem Reads.keep (reads : Reads s) (keeps : Keeps s s') (inv : Inv s')
    (bounded : s'.store.bumps < 2 ^ 64) (now : s.store.now ≤ s'.store.now)
    (finds : s'.finds = s.finds) (flights : s'.flights = s.flights) : Reads s' where
  inv := inv
  bounded := bounded
  began := by
    intro call key began since
    rw [finds] at since
    exact Nat.lt_of_lt_of_le (reads.began call key began since) now
  answered := by
    intro call key began value answered
    rw [finds] at answered
    exact reads.fresh keeps (by rw [answered]; exact nofun)
      (reads.answered call key began value answered)
  delivers := by
    rw [flights]
    exact reads.delivers_keep keeps

/-! ## Every step keeps the requirement -/

variable [DecidableEq C] [DecidableEq D] [DecidableEq M] {config : CacheConfig}
  {a : Action C D M K I V E}

omit [DecidableEq D] [DecidableEq M] in
theorem Inv.find_bumps (inv : Inv s)
    {action : SingleFlight.Action C K (Load K I V V) (Label V E)}
    {store' : Store C D M K I V} {flights : Flights C K (Load K I V V) (Stamped (Option V)) E}
    (step : SingleFlight.step (findOperation config) s.store s.flights action =
      some (store', flights))
    (start : ∀ call key op, action = .enter call key op → op = .start) :
    store'.bumps = s.store.bumps := by
  obtain ⟨_, touch, _, _⟩ := flight_ok Party.find (fun _ _ eq => Party.find.inj eq)
    (fun _ _ _ _ _ _ ok run => findOperation_ok inv.generation inv.past ok run)
    inv.loads start step
  exact touch.bumps

omit [DecidableEq C] [DecidableEq M] in
theorem Inv.findByIndex_bumps (inv : Inv s)
    {action : SingleFlight.Action D I (Load K I V (K × V)) (Label (K × V) E)}
    {store' : Store C D M K I V}
    {flights : Flights D I (Load K I V (K × V)) (Stamped (Option (K × V))) E}
    (step : SingleFlight.step (findByIndexOperation config) s.store s.indexFlights action =
      some (store', flights))
    (start : ∀ call index op, action = .enter call index op → op = .start) :
    store'.bumps = s.store.bumps := by
  obtain ⟨_, touch, _, _⟩ := flight_ok Party.findByIndex (fun _ _ eq => Party.findByIndex.inj eq)
    (fun _ _ _ _ _ _ ok run => findByIndexOperation_ok inv.generation inv.past ok run)
    inv.indexLoads start step
  exact touch.bumps

/-- Only an invalidation that changes the generation counts a change. -/
theorem Inv.bumps (inv : Inv s) (step : CachedStore.step config s a = some s') :
    s'.store.bumps = s.store.bumps ∨
      ∃ call, a = .fetchAdd call ∧ s'.store.bumps = s.store.bumps + 1 := by
  obtain ⟨t, h, rfl⟩ := Option.map_eq_some_iff.mp step
  clear step
  cases a with
  | fetchAdd call =>
      simp only [act] at h
      split at h
      · cases h
        exact .inr ⟨call, rfl, rfl⟩
      · cases h
  | enter call =>
      simp only [act] at h
      split at h
      · obtain ⟨⟨store', flights⟩, step, rfl⟩ := Option.map_eq_some_iff.mp h
        have bumps := inv.find_bumps step fun _ _ _ eq => by cases eq; rfl
        exact .inl bumps
      · cases h
  | flight action =>
      obtain ⟨⟨store', flights⟩, step, rfl⟩ := Option.map_eq_some_iff.mp h
      obtain ⟨step, notEnter⟩ := flightStep_eq step
      have bumps := inv.find_bumps step fun call key op eq => absurd eq (notEnter call key op)
      exact .inl bumps
  | enterIndex call =>
      simp only [act] at h
      split at h
      · obtain ⟨⟨store', flights⟩, step, rfl⟩ := Option.map_eq_some_iff.mp h
        have bumps := inv.findByIndex_bumps step fun _ _ _ eq => by cases eq; rfl
        exact .inl bumps
      · cases h
  | indexFlight action =>
      obtain ⟨⟨store', flights⟩, step, rfl⟩ := Option.map_eq_some_iff.mp h
      obtain ⟨step, notEnter⟩ := flightStep_eq step
      have bumps := inv.findByIndex_bumps step
        fun call index op eq => absurd eq (notEnter call index op)
      exact .inl bumps
  | find call key =>
      simp only [act] at h
      split at h
      · split at h <;> cases h <;> exact .inl rfl
      · cases h
  | perform call =>
      simp only [act] at h
      split at h
      · rename_i command _ _ _
        cases h
        exact .inl (Touch.perform s.store s.invalidations none command).bumps
      · cases h
  | elapse nanos =>
      cases h
      exact .inl rfl
  | _ =>
      simp only [act] at h
      split at h <;> cases h
      exact .inl rfl

omit [DecidableEq K] [DecidableEq I] [DecidableEq D] [DecidableEq M] in
/-- A call that moves on while it looks for the same. -/
theorem Keeps.of_update {call : C} {next : FindCall K V}
    (finds : s'.finds = Function.update s.finds call next)
    (invalidations : s'.invalidations = s.invalidations)
    (since : (s.finds call).since ≠ none → next.since = (s.finds call).since)
    (waiting : ∀ key began, s.finds call ≠ .executing key began) : Keeps s s' where
  finds other began := by
    rw [finds, Function.update_apply]
    split
    · subst other
      exact since began
    · rfl
  executing other key began executing := by
    rw [finds]
    exact phase_keep executing (waiting key began)
  returned _ _ _ _ _ _ returned := by
    rw [invalidations] at returned
    exact .inl returned

omit [DecidableEq K] [DecidableEq I] [DecidableEq C] [DecidableEq D] in
/-- An invalidation that moves without returning. -/
theorem Keeps.of_invalidation {call : M} {next : Invalidation K I} (finds : s'.finds = s.finds)
    (invalidations : s'.invalidations = Function.update s.invalidations call next)
    (returns : ∀ request committedAt bumpedAt returnedAt removed,
      next = .returned request committedAt bumpedAt returnedAt removed →
      s.store.now ≤ returnedAt) : Keeps s s' where
  finds _ _ := by rw [finds]
  executing _ _ _ executing := by rw [finds, executing]
  returned other request committedAt bumpedAt returnedAt removed returned := by
    rw [invalidations] at returned
    rcases phase_of_update returned with ⟨_, new⟩ | ⟨_, old⟩
    · exact .inr (returns _ _ _ _ _ new)
    · exact .inl old

omit [DecidableEq D] [DecidableEq M] in
/-- A `find` begins: it looks into the cache and may answer. -/
theorem Reads.find (reads : Reads s) {call : C} {key : K} {next : FindCall K V}
    (idle : s.finds call = .idle) (since : next.since = some (key, s.store.now))
    (hit : ∀ key' began value, next = .answered key' began value →
      s.store.cache.value key = some value)
    (inv : Inv s') (bounded : s'.store.bumps < 2 ^ 64) (now : s'.store.now = s.store.now + 1)
    (finds : s'.finds = Function.update s.finds call next)
    (invalidations : s'.invalidations = s.invalidations) (flights : s'.flights = s.flights) :
    Reads s' := by
  have keeps : Keeps s s' := by
    refine .of_update finds invalidations (fun began => ?_) ?_
    · rw [idle] at began
      exact absurd rfl began
    · rw [idle]
      exact nofun
  refine ⟨inv, bounded, fun other key' began eq => ?_, fun other key' began value eq => ?_, ?_⟩
  · rw [finds, Function.update_apply] at eq
    split at eq
    · rw [since] at eq
      cases eq
      omega
    · have := reads.began other key' began eq
      omega
  · rw [finds] at eq
    rcases phase_of_update eq with ⟨rfl, answered⟩ | ⟨_, old⟩
    · refine reads.inv.fresh_cached reads.bounded invalidations (fun key'' began' eq => ?_)
        (hit key' began value answered)
      rw [finds, Function.update_self, since] at eq
      cases eq
      rfl
    · exact reads.fresh keeps (by rw [old]; exact nofun) (reads.answered other key' began value old)
  · rw [flights]
    exact reads.delivers_keep keeps

omit [DecidableEq D] [DecidableEq M] in
/-- A `find` that missed calls `execute`. -/
theorem Reads.enter (reads : Reads s) {call : C} {key : K} {began : Nat}
    {store' : Store C D M K I V}
    {flights : Flights C K (Load K I V V) (Stamped (Option V)) E}
    (missed : s.finds call = .missed key began)
    (timely : ∀ leader result, s.finds call = .missed key began →
      Holds (s.flights.calls leader) key result → Fresh s call result.queriedAt)
    (step : SingleFlight.step (findOperation config) s.store s.flights
      (.enter call key .start) = some (store', flights))
    (inv : Inv { s with
      store := { store' with now := s.store.now + 1 }
      flights := flights
      finds := Function.update s.finds call (.executing key began) })
    (bounded : store'.bumps < 2 ^ 64) :
    Reads { s with
      store := { store' with now := s.store.now + 1 }
      flights := flights
      finds := Function.update s.finds call (.executing key began) } := by
  have since : (s.finds call).since = some (key, began) := by
    rw [missed]
    rfl
  have keeps : Keeps s { s with
      store := { store' with now := s.store.now + 1 }
      flights := flights
      finds := Function.update s.finds call (.executing key began) } := by
    refine .of_update rfl rfl (fun _ => since.symm) ?_
    rw [missed]
    exact nofun
  have kept : ∀ other, (Function.update s.finds call (.executing key began) other).since =
      (s.finds other).since := by
    intro other
    rw [Function.update_apply]
    split
    · subst other
      exact since.symm
    · rfl
  refine ⟨inv, bounded, fun other key' began' eq => ?_, fun other key' began' value eq => ?_, ?_⟩
  · dsimp only at eq
    rw [kept] at eq
    exact Nat.lt_succ_of_lt (reads.began other key' began' eq)
  · rcases phase_of_update eq with ⟨_, new⟩ | ⟨_, old⟩
    · cases new
    · exact reads.fresh keeps (by rw [old]; exact nofun)
        (reads.answered other key' began' value old)
  · refine reads.flight keeps (fun other key' op eq => ?_) (fun other key' began' exec => ?_) step
    · cases eq
      refine ⟨rfl, ⟨began, Function.update_self ..⟩, fun leader result holds => ?_⟩
      exact reads.fresh keeps (by rw [since]; exact nofun) (timely leader result missed holds)
    · rw [← kept other]
      dsimp only at exec
      rw [exec]
      rfl

theorem Reads.step (reads : Reads s) (timely : Timely s a)
    (step : CachedStore.step config s a = some s') : Reads s' := by
  have inv := reads.inv.step step
  have bounded : s'.store.bumps < 2 ^ 64 := by
    rcases reads.inv.bumps step with same | ⟨call, rfl, more⟩
    · rw [same]
      exact reads.bounded
    · rw [more]
      exact timely
  obtain ⟨t, h, rfl⟩ := Option.map_eq_some_iff.mp step
  clear step
  cases a with
  | find call key =>
      simp only [act] at h
      split at h
      · rename_i idle
        split at h <;> rename_i got <;> cases h
        · refine reads.find idle rfl (fun key' began value eq => ?_) inv bounded rfl rfl rfl rfl
          cases eq
          exact MemoryCache.value_of_hit (congrArg Prod.snd got)
        · refine reads.find idle rfl (fun key' began value eq => ?_) inv bounded rfl rfl rfl rfl
          cases eq
      · cases h
  | enter call =>
      simp only [act] at h
      split at h
      · rename_i key began missed
        obtain ⟨⟨store', flights⟩, step, rfl⟩ := Option.map_eq_some_iff.mp h
        exact reads.enter missed (timely key began) step inv bounded
      · cases h
  | flight action =>
      obtain ⟨⟨store', flights⟩, step, rfl⟩ := Option.map_eq_some_iff.mp h
      obtain ⟨step, notEnter⟩ := flightStep_eq step
      have keeps : Keeps s { s with
          store := { store' with now := s.store.now + 1 }, flights := flights } :=
        .of_same rfl rfl
      refine ⟨inv, bounded, fun call key began since => ?_, fun call key began value answered => ?_,
        ?_⟩
      · exact Nat.lt_succ_of_lt (reads.began call key began since)
      · exact reads.fresh keeps (by rw [answered]; simp [FindCall.since])
          (reads.answered call key began value answered)
      · refine reads.flight keeps (fun call key op eq => absurd eq (notEnter call key op)) ?_ step
        intro call key began executing
        dsimp only at executing
        rw [executing]
        rfl
  | begin call request commits =>
      simp only [act] at h
      split at h
      · cases h
        refine reads.keep (.of_invalidation rfl rfl ?_) inv bounded (Nat.le_succ _) rfl rfl
        intro _ _ _ _ _ eq
        split at eq
        · split at eq <;> cases eq
        · cases eq
      · cases h
  | unlock call =>
      simp only [act] at h
      split at h
      · cases h
        refine reads.keep (.of_invalidation rfl rfl ?_) inv bounded (Nat.le_succ _) rfl rfl
        intro _ _ _ _ _ eq
        cases eq
        exact Nat.le_refl _
      · cases h
  | lock call =>
      simp only [act] at h
      split at h
      · cases h
        exact reads.keep (.of_invalidation rfl rfl fun _ _ _ _ _ eq => by cases eq) inv bounded
          (Nat.le_succ _) rfl rfl
      · cases h
  | fetchAdd call =>
      simp only [act] at h
      split at h
      · cases h
        exact reads.keep (.of_invalidation rfl rfl fun _ _ _ _ _ eq => by cases eq) inv bounded
          (Nat.le_succ _) rfl rfl
      · cases h
  | perform call =>
      simp only [act] at h
      split at h
      · cases h
        exact reads.keep (.of_invalidation rfl rfl fun _ _ _ _ _ eq => by cases eq) inv bounded
          (Nat.le_succ _) rfl rfl
      · cases h
  | findByIndex call index =>
      simp only [act] at h
      split at h
      · cases h
        exact reads.keep (.of_same rfl rfl) inv bounded (Nat.le_succ _) rfl rfl
      · cases h
  | resolve call =>
      simp only [act] at h
      split at h
      · cases h
        exact reads.keep (.of_same rfl rfl) inv bounded (Nat.le_succ _) rfl rfl
      · cases h
  | enterIndex call =>
      simp only [act] at h
      split at h
      · obtain ⟨_, _, rfl⟩ := Option.map_eq_some_iff.mp h
        exact reads.keep (.of_same rfl rfl) inv bounded (Nat.le_succ _) rfl rfl
      · cases h
  | indexFlight action =>
      obtain ⟨_, _, rfl⟩ := Option.map_eq_some_iff.mp h
      exact reads.keep (.of_same rfl rfl) inv bounded (Nat.le_succ _) rfl rfl
  | elapse nanos =>
      cases h
      exact reads.keep (.of_same rfl rfl) inv bounded (Nat.le_succ _) rfl rfl

omit [DecidableEq C] [DecidableEq D] [DecidableEq M] in
theorem Reads.init : Reads (System.new C D M K I V E config) where
  inv := Inv.init
  bounded := (by decide : 0 < 2 ^ 64)
  began := nofun
  answered := nofun
  delivers := Delivers.new

theorem Reads.reach (reach : (lts C D M K I V E config).Reach Timely s) : Reads s :=
  reach.invariant Reads.init fun _ _ _ reads timely step => reads.step timely step

end Requirement

/-- The call of `find` has returned this value. -/
def Returns {C D M K I V E : Type} (s : System C D M K I V E) (call : C) (key : K)
    (began : Nat) (value : Stamped (Option V)) : Prop :=
  s.finds call = .answered key began value ∨
    s.finds call = .executing key began ∧ s.flights.calls call = .returned (.ok value)

/-- In every run in which no `find` joins a flight whose leader already holds a
value that is stale for it: a `find` that began after a mutation of its key had
returned returns a value queried after that mutation committed. -/
theorem find_reads_writes {C D M K I V E : Type} [DecidableEq C] [DecidableEq D]
    [DecidableEq M] [DecidableEq K] [DecidableEq I] (config : CacheConfig)
    (s : System C D M K I V E) (reach : (lts C D M K I V E config).Reach Timely s)
    (call : C) (key : K) (began : Nat) (value : Stamped (Option V))
    (returns : Returns s call key began value) (other : M) (request : Request K I)
    (committedAt bumpedAt returnedAt : Nat) (removed : Bool)
    (returned : s.invalidations other =
      .returned request (some committedAt) bumpedAt returnedAt removed)
    (before : returnedAt < began) (member : key ∈ request.primaryKeys) :
    committedAt < value.queriedAt := by
  have reads := Reads.reach reach
  have fresh : Fresh s call value.queriedAt := by
    rcases returns with answered | ⟨executing, flight⟩
    · exact reads.answered call key began value answered
    · exact (reads.delivers.returned call _ flight value rfl).2
  have since : (s.finds call).since = some (key, began) := by
    rcases returns with answered | ⟨executing, _⟩
    · rw [answered]
      rfl
    · rw [executing]
      rfl
  exact fresh key began since other request committedAt bumpedAt returnedAt removed returned before
    member

/-- Two calls of `find` and one `execute` on records that are numbers. -/
abbrev PairSystem := System Nat Nat Nat Nat Nat Nat Unit

/-- An `execute` of the key returns and a `find` loads it afterwards. -/
def freshRun : List (Action Nat Nat Nat Nat Nat Nat Unit) :=
  [.begin 0 (.execute [7]) true, .lock 0, .fetchAdd 0, .perform 0, .perform 0, .unlock 0,
    .find 0 7, .enter 0, .flight (.poll 0 .run), .flight (.poll 0 .run),
    .flight (.poll 0 (.query (.ok (some 43)))), .flight (.poll 0 .run), .flight (.poll 0 .run),
    .flight (.poll 0 .run), .flight (.poll 0 .run), .flight (.complete 0), .flight (.disarm 0)]

theorem find_reads_writes_alone :
    ∃ s : PairSystem, (lts Nat Nat Nat Nat Nat Nat Unit minuteConfig).Reach Timely s ∧
      ∃ value, Returns s 0 7 6 value ∧ value.value = some 43 ∧ 0 < value.queriedAt := by
  have meets : (lts Nat Nat Nat Nat Nat Nat Unit minuteConfig).Meets Timely
      (System.new Nat Nat Nat Nat Nat Nat Unit minuteConfig) freshRun := by
    refine ⟨trivial, trivial, (by decide : 0 + 1 < 2 ^ 64), trivial, trivial, trivial, trivial, ?_,
      trivial, trivial, trivial, trivial, trivial, trivial, trivial, trivial, trivial, trivial⟩
    -- nobody leads when the call enters
    intro key began leader result _ holds
    rcases holds with ⟨op, leading, _⟩ | finished
    · cases leading
    · cases finished
  have reach := Lts.reach_of_exec freshRun meets rfl
  exact ⟨_, reach, _, .inr ⟨rfl, rfl⟩, rfl, find_reads_writes minuteConfig _ reach 0 7 6 _
    (.inr ⟨rfl, rfl⟩) 0 (.execute [7]) 0 2 5 false rfl (by decide) (by decide)⟩

/-- A `find` queries, an `execute` of the key commits and returns, and a second
`find` joins the first one's flight: it gets the value queried before the
commit. -/
theorem joined_flight_is_stale :
    ∃ s : PairSystem, (lts Nat Nat Nat Nat Nat Nat Unit minuteConfig).Reachable s ∧
      ∃ began value committedAt bumpedAt returnedAt removed,
        Returns s 1 7 began value ∧
        s.invalidations 0 =
          .returned (.execute [7]) (some committedAt) bumpedAt returnedAt removed ∧
        returnedAt < began ∧ value.queriedAt < committedAt :=
  ⟨_, Lts.reachable_of_exec [.find 0 7, .enter 0, .flight (.poll 0 .run),
      .flight (.poll 0 .run), .flight (.poll 0 (.query (.ok (some 42)))),
      .begin 0 (.execute [7]) true, .lock 0, .fetchAdd 0, .perform 0, .perform 0, .unlock 0,
      .find 1 7, .enter 1, .flight (.poll 0 .run), .flight (.poll 0 .run),
      .flight (.poll 0 .run), .flight (.complete 0), .flight (.notify 0), .flight (.disarm 0),
      .flight (.recv 1)] rfl,
    _, _, _, _, _, _, .inr ⟨rfl, rfl⟩, rfl, by decide, by decide⟩

end RustZero.CachedStore
