import RustZero.Lib.Lts
import RustZero.Lib.KeyValueLog
import RustZero.Lib.TaskPool

/-!
# MapReduce

`MapReduce::execute` of `mapreduce/src/mapreduce.rs`.  Two loops with at most
`max_concurrent_tasks` tasks each: one maps the input, the other reduces the values that
were emitted for a key, one key after another in the order of a hash map.

An action is a step of a task or of the loop, so a run is one schedule.  The history holds
the calls of the two functions.  No task panics.

* `Computes` is what `execute` is for: the sequential result up to the order of the values
  of a key, with one call of the reduce function for each key.
-/

namespace RustZero.Mapreduce

open RustZero.Lib

variable {K V R : Type} [DecidableEq K]

/-! ## The program -/

/-- `new` asserts that the limit is positive. -/
structure MapReduce where
  maxConcurrentTasks : Nat
  positive : 0 < maxConcurrentTasks

/-- The order in which a hash map yields its entries. -/
structure HashOrder (K R : Type) where
  entries : Table K R → List (K × R)
  perm : ∀ table, (entries table).Perm (table.entries.map fun entry => (entry.1, entry.2))

/-- The two functions. -/
structure Functions (K V R : Type) where
  mapFn : V → List (K × R)
  reduceFn : K → List R → R

def MapReduce.mapJob (mapReduce : MapReduce) (functions : Functions K V R) :
    PooledJob V (List (K × R)) (List (K × R)) where
  limit := mapReduce.maxConcurrentTasks
  run := functions.mapFn
  collect := fun mapped result => mapped ++ result

def shufflePhase (mapResults : List (K × R)) : Table K (List R) :=
  mapResults.foldl
    (fun grouped pair => grouped.insert pair.1 ((grouped.lookup pair.1).getD [] ++ [pair.2])) ∅

def MapReduce.reduceJob (mapReduce : MapReduce) (functions : Functions K V R) :
    PooledJob (K × List R) (K × R) (Table K R) where
  limit := mapReduce.maxConcurrentTasks
  run := fun group => (group.1, functions.reduceFn group.1 group.2)
  collect := fun reduced pair => reduced.insert pair.1 pair.2

inductive State (K V R : Type) where
  | mapping (pool : TaskPool V (List (K × R)) (List (K × R)))
  | reducing (pool : TaskPool (K × List R) (K × R) (Table K R))
  | returned (reduced : Table K R)
  /-- The `expect` on a task set that is empty. -/
  | panicked

inductive Action where
  | task (action : PoolAction)
  /-- `join_next` finds no task. -/
  | none

/-- A call of one of the functions. -/
inductive Note (K V R : Type) where
  | mapped (item : V)
  | reduced (key : K) (values : List R)

def advance (mapReduce : MapReduce) (functions : Functions K V R)
    (order : HashOrder K (List R)) : State K V R → Action → Option (State K V R × List (Note K V R))
  | .mapping pool, .task action =>
      (pool.step (mapReduce.mapJob functions) action).map fun next =>
        (.mapping next.1, next.2.map .mapped)
  | .mapping pool, .none =>
      if pool.joins (mapReduce.mapJob functions) && pool.live.isEmpty then
        if pool.waiting.isEmpty then
          some (.reducing (.start (order.entries (shufflePhase pool.collected)) ∅), [])
        else some (.panicked, [])
      else none
  | .reducing pool, .task action =>
      (pool.step (mapReduce.reduceJob functions) action).map fun next =>
        (.reducing next.1, next.2.map fun group => .reduced group.1 group.2)
  | .reducing pool, .none =>
      if pool.joins (mapReduce.reduceJob functions) && pool.live.isEmpty then
        if pool.waiting.isEmpty then some (.returned pool.collected, [])
        else some (.panicked, [])
      else none
  | .returned _, _ => none
  | .panicked, _ => none

/-- `execute` on an input. -/
def execute (mapReduce : MapReduce) (functions : Functions K V R)
    (order : HashOrder K (List R)) (inputData : List V) :
    Lts (State K V R × List (Note K V R)) Action :=
  .emitting (.mapping (.start inputData [])) (advance mapReduce functions order)

/-! ## What it is for -/

/-- The values emitted for a key. -/
def valuesOf (key : K) (pairs : List (K × R)) : List R :=
  (pairs.filter fun pair => pair.1 = key).map Prod.snd

def emitted (functions : Functions K V R) (inputData : List V) (key : K) : List R :=
  valuesOf key (inputData.flatMap functions.mapFn)

def Note.item : Note K V R → List V
  | .mapped item => [item]
  | .reduced _ _ => []

def Note.group : Note K V R → List (K × List R)
  | .mapped _ => []
  | .reduced key values => [(key, values)]

/-- The inputs that were mapped. -/
def mappedItems (history : List (Note K V R)) : List V :=
  history.flatMap Note.item

/-- The groups that were reduced. -/
def reducedGroups (history : List (Note K V R)) : List (K × List R) :=
  history.flatMap Note.group

/-- The tasks that are live. -/
def State.live : State K V R → Nat
  | .mapping pool => pool.live.length
  | .reducing pool => pool.live.length
  | .returned _ => 0
  | .panicked => 0

/-- What `execute` returned. -/
def State.table : State K V R → Option (Table K R)
  | .returned reduced => some reduced
  | .mapping _ | .reducing _ | .panicked => none

omit [DecidableEq K] in
theorem State.eq_returned {state : State K V R} {table : Table K R}
    (held : state.table = some table) : state = .returned table := by
  cases state with
  | returned reduced =>
      cases held
      rfl
  | mapping pool => cases held
  | reducing pool => cases held
  | panicked => cases held

/-- A result and the calls that were made for it. -/
structure Result (functions : Functions K V R) (inputData : List V) (table : Table K R)
    (history : List (Note K V R)) : Prop where
  mapped : (mappedItems history).Perm inputData
  keys : ∀ key, key ∈ table ↔ ∃ item ∈ inputData, ∃ value, (key, value) ∈ functions.mapFn item
  /-- Each key was reduced once, from an arrangement of the values emitted for it. -/
  reduced : ∀ key value, table.lookup key = some value → ∃ values,
    values.Perm (emitted functions inputData key) ∧ value = functions.reduceFn key values ∧
      ((reducedGroups history).filter fun group => group.1 = key) = [(key, values)]
  /-- Nothing else was reduced. -/
  others : ∀ group ∈ reducedGroups history, group.1 ∈ table
  /-- A reduce function that ignores the order of the values leaves no choice. -/
  sequential : (∀ key left right, left.Perm right →
      functions.reduceFn key left = functions.reduceFn key right) →
    ∀ key, table.lookup key = if emitted functions inputData key = [] then Option.none
      else some (functions.reduceFn key (emitted functions inputData key))

structure Computes (mapReduce : MapReduce) (functions : Functions K V R) (inputData : List V)
    (state : State K V R) (history : List (Note K V R)) : Prop where
  bounded : state.live ≤ mapReduce.maxConcurrentTasks
  unpanicked : state ≠ .panicked
  result : ∀ table, state = .returned table → Result functions inputData table history

/-! ## The phases -/

section Shuffle

theorem valuesOf_perm {pairs pairs' : List (K × R)} (arranged : pairs.Perm pairs') (key : K) :
    (valuesOf key pairs).Perm (valuesOf key pairs') :=
  (arranged.filter _).map _

theorem mem_valuesOf {key : K} {value : R} {pairs : List (K × R)} :
    value ∈ valuesOf key pairs ↔ (key, value) ∈ pairs := by
  simp [valuesOf]

/-- The values of a key, in the order of the results. -/
theorem lookup_shufflePhase (mapResults : List (K × R)) (key : K) :
    (shufflePhase mapResults).lookup key =
      if valuesOf key mapResults = [] then none else some (valuesOf key mapResults) := by
  induction mapResults using List.reverseRecOn with
  | nil => rfl
  | append_singleton earlier pair ih =>
      have grown : valuesOf key (earlier ++ [pair]) =
          valuesOf key earlier ++ if pair.1 = key then [pair.2] else [] := by
        by_cases same : pair.1 = key
        · simp [valuesOf, same]
        · simp [valuesOf, same]
      rw [shufflePhase, List.foldl_append, ← shufflePhase, grown]
      by_cases same : pair.1 = key
      · subst same
        simp only [List.foldl_cons, List.foldl_nil, AList.lookup_insert, ih, if_true]
        by_cases none : valuesOf pair.1 earlier = []
        · simp [none]
        · simp [none]
      · have other : key ≠ pair.1 := Ne.symm same
        simp only [List.foldl_cons, List.foldl_nil, AList.lookup_insert_ne other, ih, if_neg same,
          List.append_nil]

variable (order : HashOrder K (List R)) (pairs : List (K × R))

/-- The groups the reduce loop goes through. -/
theorem mem_groups {key : K} {values : List R} :
    (key, values) ∈ order.entries (shufflePhase pairs) ↔
      values = valuesOf key pairs ∧ values ≠ [] := by
  have listed : (key, values) ∈ order.entries (shufflePhase pairs) ↔
      (shufflePhase pairs).lookup key = some values := by
    rw [(order.perm _).mem_iff, List.mem_map, ← Option.mem_def, AList.mem_lookup_iff]
    constructor
    · intro held
      obtain ⟨⟨other, group⟩, member, same⟩ := held
      cases same
      exact member
    · intro member
      exact ⟨⟨key, values⟩, member, rfl⟩
  rw [listed, lookup_shufflePhase]
  split
  · rename_i none
    simp [none]
  · rename_i some
    constructor
    · intro same
      cases same
      exact ⟨rfl, some⟩
    · intro same
      rw [same.1]

theorem nodup_groups : ((order.entries (shufflePhase pairs)).map Prod.fst).Nodup := by
  have keys := (order.perm (shufflePhase pairs)).map Prod.fst
  rw [List.map_map] at keys
  exact keys.nodup_iff.mpr (shufflePhase pairs).nodupKeys

theorem length_groups : (order.entries (shufflePhase pairs)).length ≤ pairs.length := by
  have listed : (order.entries (shufflePhase pairs)).map Prod.fst ⊆ pairs.map Prod.fst := by
    intro key member
    obtain ⟨⟨_, values⟩, group, same⟩ := List.mem_map.mp member
    cases same
    obtain ⟨mine, some⟩ := (mem_groups order pairs).mp group
    obtain ⟨value, held⟩ := List.exists_mem_of_ne_nil _ some
    rw [mine] at held
    exact List.mem_map_of_mem (mem_valuesOf.mp held)
  have fewer := ((nodup_groups order pairs).subperm listed).length_le
  rwa [List.length_map, List.length_map] at fewer

end Shuffle

section Reduced

variable {mapReduce : MapReduce} {functions : Functions K V R} {order : HashOrder K (List R)}
  {inputData : List V} {state state' : State K V R} {action : Action}
  {history notes : List (Note K V R)} {pairs : List (K × R)}

omit [DecidableEq K] in
theorem lookup_eq_some_iff_mem [BEq K] [LawfulBEq K] {entries : List (K × R)}
    (keys : (entries.map Prod.fst).Nodup) {key : K} {value : R} :
    entries.lookup key = some value ↔ (key, value) ∈ entries := by
  constructor
  · intro found
    obtain ⟨before, after, split, _⟩ := List.lookup_eq_some_iff.mp found
    rw [split]
    simp
  · intro member
    obtain ⟨before, after, split⟩ := List.append_of_mem member
    refine List.lookup_eq_some_iff.mpr ⟨before, after, split, ?_⟩
    intro pair earlier
    rw [split, List.map_append, List.map_cons] at keys
    have apart := (List.nodup_append.mp keys).2.2 pair.1 (List.mem_map_of_mem earlier) key
      List.mem_cons_self
    simpa using apart.symm

/-- The table of the reduce loop, in whatever order its tasks are joined. -/
theorem lookup_reduced {joined : List (K × List R)}
    (arranged : joined.Perm (order.entries (shufflePhase pairs))) {key : K} {value : R} :
    ((joined.map (mapReduce.reduceJob functions).run).foldl
        (mapReduce.reduceJob functions).collect ∅).lookup key = some value ↔
      valuesOf key pairs ≠ [] ∧ value = functions.reduceFn key (valuesOf key pairs) := by
  have keys : ((joined.map (mapReduce.reduceJob functions).run).map Prod.fst).Nodup := by
    rw [List.map_map]
    exact (arranged.map Prod.fst).nodup_iff.mpr (nodup_groups order pairs)
  have loaded := lookup_load some keys ∅ key
  rw [AList.lookup_empty, Option.or_none, Option.bind_fun_some] at loaded
  refine Iff.trans (Iff.of_eq (congrArg (· = some value) loaded))
    ((lookup_eq_some_iff_mem keys).trans ?_)
  rw [List.mem_map]
  constructor
  · intro held
    obtain ⟨⟨other, values⟩, joins, same⟩ := held
    cases same
    obtain ⟨group, some⟩ := (mem_groups order pairs).mp (arranged.mem_iff.mp joins)
    subst group
    exact ⟨some, rfl⟩
  · intro held
    obtain ⟨some, same⟩ := held
    have group := (mem_groups order pairs).mpr ⟨rfl, some⟩
    exact ⟨_, arranged.mem_iff.mpr group, by rw [same]; rfl⟩

/-- Each key has one group. -/
theorem filter_groups {groups : List (K × List R)}
    (arranged : groups.Perm (order.entries (shufflePhase pairs))) {key : K}
    (some : valuesOf key pairs ≠ []) :
    groups.filter (fun group => group.1 = key) = [(key, valuesOf key pairs)] := by
  refine List.perm_singleton.mp ((List.perm_ext_iff_of_nodup ?_ (List.nodup_singleton _)).mpr ?_)
  · have keys := (arranged.map Prod.fst).nodup_iff.mpr (nodup_groups order pairs)
    exact keys.of_map.filter _
  · intro group
    obtain ⟨other, values⟩ := group
    rw [List.mem_filter, arranged.mem_iff, mem_groups, List.mem_singleton]
    constructor
    · intro held
      obtain ⟨⟨mine, _⟩, here⟩ := held
      have here : other = key := by simpa using here
      rw [mine, here]
    · intro same
      cases same
      exact ⟨⟨rfl, some⟩, by simp⟩

/-- The reduce loop is done. -/
theorem result_of_joined {items : List V} (inputs : items.Perm inputData)
    (emits : pairs.Perm (inputData.flatMap functions.mapFn))
    {joined groups : List (K × List R)}
    (arranged : joined.Perm (order.entries (shufflePhase pairs))) (called : joined.Perm groups)
    (maps : mappedItems history = items) (reduces : reducedGroups history = groups) :
    Result functions inputData ((joined.map (mapReduce.reduceJob functions).run).foldl
      (mapReduce.reduceJob functions).collect ∅) history := by
  have agrees (key : K) : (valuesOf key pairs).Perm (emitted functions inputData key) :=
    valuesOf_perm emits key
  have groups_perm := called.symm.trans arranged
  have present (key : K) : key ∈ (joined.map (mapReduce.reduceJob functions).run).foldl
      (mapReduce.reduceJob functions).collect ∅ ↔ valuesOf key pairs ≠ [] := by
    rw [← AList.lookup_isSome, Option.isSome_iff_exists]
    constructor
    · intro held
      obtain ⟨value, found⟩ := held
      exact (lookup_reduced arranged).mp found |>.1
    · intro some
      exact ⟨_, (lookup_reduced arranged).mpr ⟨some, rfl⟩⟩
  refine ⟨maps ▸ inputs, ?_, ?_, ?_, ?_⟩
  · intro key
    rw [present]
    constructor
    · intro some
      obtain ⟨value, member⟩ := List.exists_mem_of_ne_nil _ some
      obtain ⟨item, source, emits⟩ :=
        List.mem_flatMap.mp (mem_valuesOf.mp ((agrees key).mem_iff.mp member))
      exact ⟨item, source, value, emits⟩
    · intro held
      obtain ⟨item, source, value, emits⟩ := held
      refine List.ne_nil_of_mem (a := value) ((agrees key).mem_iff.mpr (mem_valuesOf.mpr ?_))
      exact List.mem_flatMap.mpr ⟨item, source, emits⟩
  · intro key value found
    obtain ⟨some, same⟩ := (lookup_reduced arranged).mp found
    refine ⟨valuesOf key pairs, agrees key, same, ?_⟩
    rw [reduces]
    exact filter_groups groups_perm some
  · intro group member
    obtain ⟨key, values⟩ := group
    rw [reduces, groups_perm.mem_iff, mem_groups] at member
    rw [present, ← member.1]
    exact member.2
  · intro ignores key
    by_cases none : emitted functions inputData key = []
    · rw [if_pos none, ← Option.not_isSome_iff_eq_none, AList.lookup_isSome, present]
      intro some
      have arrangement := agrees key
      rw [none] at arrangement
      exact some arrangement.eq_nil
    · rw [if_neg none]
      refine (lookup_reduced arranged).mpr ⟨?_, ignores key _ _ (agrees key).symm⟩
      intro empty
      have arrangement := agrees key
      rw [empty] at arrangement
      exact none arrangement.symm.eq_nil

/-! ## Every schedule -/

/-- The steps of `execute`: those of the two loops and their ends. -/
inductive Step (mapReduce : MapReduce) (functions : Functions K V R)
    (order : HashOrder K (List R)) : State K V R → State K V R → List (Note K V R) → Prop
  | map (pool pool' : TaskPool V (List (K × R)) (List (K × R))) (ran : List V)
      (step : pool.Step (mapReduce.mapJob functions) pool' ran) :
      Step mapReduce functions order (.mapping pool) (.mapping pool') (ran.map .mapped)
  | shuffle (pool : TaskPool V (List (K × R)) (List (K × R))) (idle : pool.idle = true) :
      Step mapReduce functions order (.mapping pool)
        (.reducing (.start (order.entries (shufflePhase pool.collected)) ∅)) []
  | reduce (pool pool' : TaskPool (K × List R) (K × R) (Table K R)) (ran : List (K × List R))
      (step : pool.Step (mapReduce.reduceJob functions) pool' ran) :
      Step mapReduce functions order (.reducing pool) (.reducing pool')
        (ran.map fun group => .reduced group.1 group.2)
  | finish (pool : TaskPool (K × List R) (K × R) (Table K R)) (idle : pool.idle = true) :
      Step mapReduce functions order (.reducing pool) (.returned pool.collected) []

/-- A loop never waits for a task of an empty set: there is room for one. -/
theorem advance_cases
    (taken : advance mapReduce functions order state action = some (state', notes)) :
    Step mapReduce functions order state state' notes := by
  cases state with
  | mapping pool =>
      cases action with
      | task action =>
          obtain ⟨⟨pool', ran⟩, stepped, same⟩ := Option.map_eq_some_iff.mp taken
          cases same
          exact .map pool pool' ran (TaskPool.step_cases stepped)
      | none =>
          simp only [advance, Option.ite_none_right_eq_some] at taken
          obtain ⟨empty, taken⟩ := taken
          obtain ⟨waits, unlive⟩ := Bool.and_eq_true_iff.mp empty
          have idle := TaskPool.idle_of_joins mapReduce.positive waits unlive
          rw [if_pos (Bool.and_eq_true_iff.mp idle).1] at taken
          cases taken
          exact .shuffle pool idle
  | reducing pool =>
      cases action with
      | task action =>
          obtain ⟨⟨pool', ran⟩, stepped, same⟩ := Option.map_eq_some_iff.mp taken
          cases same
          exact .reduce pool pool' ran (TaskPool.step_cases stepped)
      | none =>
          simp only [advance, Option.ite_none_right_eq_some] at taken
          obtain ⟨empty, taken⟩ := taken
          obtain ⟨waits, unlive⟩ := Bool.and_eq_true_iff.mp empty
          have idle := TaskPool.idle_of_joins mapReduce.positive waits unlive
          rw [if_pos (Bool.and_eq_true_iff.mp idle).1] at taken
          cases taken
          exact .finish pool idle
  | returned table => cases action <;> cases taken
  | panicked => cases action <;> cases taken

omit [DecidableEq K] in
/-- What the map loop has collected when it is idle. -/
theorem gathers_mapped {pool : TaskPool V (List (K × R)) (List (K × R))} {ran : List V}
    (gathers : pool.Gathers (mapReduce.mapJob functions) [] inputData ran)
    (idle : pool.idle = true) :
    ran.Perm inputData ∧ pool.collected.Perm (inputData.flatMap functions.mapFn) := by
  obtain ⟨joined, items, called, collected⟩ := gathers.of_idle idle
  refine ⟨called.symm.trans items, ?_⟩
  have mapped : pool.collected = joined.flatMap functions.mapFn := by
    rw [collected, List.foldl_map]
    exact List.foldl_append_eq_append
  rw [mapped]
  exact items.flatMap_right functions.mapFn

inductive Inv (mapReduce : MapReduce) (functions : Functions K V R) (order : HashOrder K (List R))
    (inputData : List V) : State K V R → List (Note K V R) → Prop
  | mapping {pool : TaskPool V (List (K × R)) (List (K × R))} {ran : List V}
      (gathers : (pool.Gathers (mapReduce.mapJob functions) [] inputData ran)) :
      Inv mapReduce functions order inputData (.mapping pool) (ran.map .mapped)
  | reducing {pool : TaskPool (K × List R) (K × R) (Table K R)} {ran : List (K × List R)}
      {items : List V} {pairs : List (K × R)} (inputs : items.Perm inputData)
      (emits : pairs.Perm (inputData.flatMap functions.mapFn))
      (gathers : (pool.Gathers (mapReduce.reduceJob functions) ∅
        (order.entries (shufflePhase pairs)) ran)) :
      Inv mapReduce functions order inputData (.reducing pool)
        (items.map .mapped ++ ran.map fun group => .reduced group.1 group.2)
  | returned {table : Table K R} {history : List (Note K V R)}
      (result : Result functions inputData table history) :
      Inv mapReduce functions order inputData (.returned table) history

omit [DecidableEq K] in
theorem mappedItems_calls (items : List V) (groups : List (K × List R)) :
    mappedItems (items.map .mapped ++ groups.map fun group => .reduced group.1 group.2) =
      items := by
  have first : (items.map Note.mapped).flatMap (Note.item (K := K) (R := R)) = items := by
    rw [List.flatMap_map]
    exact List.flatMap_singleton' items
  have second : (groups.map fun group => Note.reduced group.1 group.2).flatMap
      (Note.item (V := V)) = [] := by
    rw [List.flatMap_map, List.flatMap_eq_nil_iff]
    intro group _
    rfl
  rw [mappedItems, List.flatMap_append, first, second, List.append_nil]

omit [DecidableEq K] in
theorem reducedGroups_calls (items : List V) (groups : List (K × List R)) :
    reducedGroups (items.map .mapped ++ groups.map fun group => .reduced group.1 group.2) =
      groups := by
  have first : (items.map Note.mapped).flatMap (Note.group (K := K) (R := R)) = [] := by
    rw [List.flatMap_map, List.flatMap_eq_nil_iff]
    intro item _
    rfl
  have second : (groups.map fun group => Note.reduced group.1 group.2).flatMap
      (Note.group (V := V)) = groups := by
    rw [List.flatMap_map]
    exact List.flatMap_singleton' groups
  rw [reducedGroups, List.flatMap_append, first, second, List.nil_append]

theorem Inv.step (inv : Inv mapReduce functions order inputData state history)
    (step : Step mapReduce functions order state state' notes) :
    Inv mapReduce functions order inputData state' (history ++ notes) := by
  cases step with
  | map pool pool' ran step =>
      cases inv with
      | mapping gathers =>
          rw [← List.map_append]
          exact .mapping (gathers.step step)
  | shuffle pool idle =>
      cases inv with
      | @mapping _ ran gathers =>
          obtain ⟨inputs, emits⟩ := gathers_mapped gathers idle
          have begun : Inv mapReduce functions order inputData
              (.reducing (.start (order.entries (shufflePhase pool.collected)) ∅))
              (ran.map .mapped ++ ([] : List (K × List R)).map fun group =>
                .reduced group.1 group.2) := .reducing inputs emits (.start _ _ _)
          exact begun
  | reduce pool pool' ran step =>
      cases inv with
      | reducing inputs emits gathers =>
          rw [List.append_assoc, ← List.map_append]
          exact .reducing inputs emits (gathers.step step)
  | finish pool idle =>
      cases inv with
      | @reducing _ ran items pairs inputs emits gathers =>
          obtain ⟨joined, groups, called, collected⟩ := gathers.of_idle idle
          rw [collected, List.append_nil]
          exact .returned (result_of_joined inputs emits groups called
            (mappedItems_calls items ran) (reducedGroups_calls items ran))

/-- The steps that are left at most. -/
def State.work (functions : Functions K V R) (inputData : List V) : State K V R → Nat
  | .mapping pool => pool.work + 2 + 3 * (inputData.flatMap functions.mapFn).length
  | .reducing pool => pool.work + 1
  | .returned _ => 0
  | .panicked => 0

theorem Inv.work_lt (inv : Inv mapReduce functions order inputData state history)
    (step : Step mapReduce functions order state state' notes) :
    state'.work functions inputData < state.work functions inputData := by
  cases step with
  | map pool pool' ran step =>
      have lower := step.work_lt
      simp only [State.work]
      omega
  | shuffle pool idle =>
      cases inv with
      | mapping gathers =>
          have groups := length_groups order pool.collected
          have emits := (gathers_mapped gathers idle).2.length_eq
          change 3 * (order.entries (shufflePhase pool.collected)).length + 0 + 1 <
            pool.work + 2 + 3 * (inputData.flatMap functions.mapFn).length
          omega
  | reduce pool pool' ran step => exact Nat.add_lt_add_right step.work_lt 1
  | finish pool idle => exact Nat.succ_pos _

/-- Until `execute` returns, a task or the loop can go on. -/
theorem Inv.goes_on (inv : Inv mapReduce functions order inputData state history) :
    (∃ table, state = .returned table) ∨
      ∃ action next, advance mapReduce functions order state action = some next := by
  cases inv with
  | @returned table _ result => exact .inl ⟨table, rfl⟩
  | @mapping pool ran gathers =>
      right
      cases busy : pool.idle with
      | false =>
          obtain ⟨action, pool', own, stepped⟩ :=
            TaskPool.exists_step (mapReduce.mapJob functions) mapReduce.positive busy
          exact ⟨.task action, _, by rw [advance, stepped]; rfl⟩
      | true =>
          obtain ⟨last, unlive⟩ := Bool.and_eq_true_iff.mp busy
          exact ⟨.none, _, by simp only [advance, TaskPool.joins, last, unlive]; rfl⟩
  | @reducing pool ran items pairs inputs emits gathers =>
      right
      cases busy : pool.idle with
      | false =>
          obtain ⟨action, pool', own, stepped⟩ :=
            TaskPool.exists_step (mapReduce.reduceJob functions) mapReduce.positive busy
          exact ⟨.task action, _, by rw [advance, stepped]; rfl⟩
      | true =>
          obtain ⟨last, unlive⟩ := Bool.and_eq_true_iff.mp busy
          exact ⟨.none, _, by simp only [advance, TaskPool.joins, last, unlive]; rfl⟩

theorem inv_of_reach
    (reach : (execute mapReduce functions order inputData).Reachable (state, history)) :
    Inv mapReduce functions order inputData state history := by
  refine reach.emitting_invariant (I := Inv mapReduce functions order inputData) ?_ ?_
  · exact .mapping (.start _ _ _)
  · intro state history action state' notes inv _ taken
    exact inv.step (advance_cases taken)

theorem Inv.computes (inv : Inv mapReduce functions order inputData state history) :
    Computes mapReduce functions inputData state history := by
  cases inv with
  | mapping gathers =>
      refine ⟨gathers.bounded, by simp, ?_⟩
      intro table same
      cases same
  | reducing inputs emits gathers =>
      refine ⟨gathers.bounded, by simp, ?_⟩
      intro table same
      cases same
  | returned result =>
      refine ⟨Nat.zero_le _, by simp, ?_⟩
      intro table same
      cases same
      exact result

/-- Under every schedule the result is the sequential one, no more tasks are live than the
limit allows, and `execute` returns: it can go on until it has, and only so long. -/
theorem map_reduce_computes (mapReduce : MapReduce) (functions : Functions K V R)
    (order : HashOrder K (List R)) (inputData : List V) {state : State K V R}
    {history : List (Note K V R)}
    (reach : (execute mapReduce functions order inputData).Reachable (state, history)) :
    Computes mapReduce functions inputData state history ∧
      ((∃ table, state = .returned table) ∨ ∃ action next,
        (execute mapReduce functions order inputData).step (state, history) action =
          some next) ∧
      ∀ schedule last, (execute mapReduce functions order inputData).exec (state, history)
        schedule = some last → schedule.length ≤ state.work functions inputData := by
  have inv := inv_of_reach reach
  refine ⟨inv.computes, ?_, ?_⟩
  · rcases inv.goes_on with returned | ⟨action, next, taken⟩
    · exact .inl returned
    · exact .inr ⟨action, _, Option.map_eq_some_iff.mpr ⟨next, taken, rfl⟩⟩
  · intro schedule last ran
    refine Lts.length_le_of_rank (I := fun reached => Inv mapReduce functions order inputData
      reached.1 reached.2) (fun reached => reached.1.work functions inputData) ?_ schedule inv ran
    intro before action after held taken
    obtain ⟨state, history⟩ := before
    obtain ⟨state', history'⟩ := after
    obtain ⟨notes, advanced, grown⟩ := Lts.emitting_step taken
    subst grown
    exact ⟨held.step (advance_cases advanced), held.work_lt (advance_cases advanced)⟩

end Reduced

/-- A map that lists its entries as they are kept. -/
def keptOrder : HashOrder String (List Nat) where
  entries := fun table => table.entries.map fun entry => (entry.1, entry.2)
  perm := fun _ => .refl _

def wordCount : Functions String String Nat where
  mapFn := fun word => [(word, 1)]
  reduceFn := fun _ counts => counts.sum

/-- Three words, counted one task at a time. -/
theorem map_reduce_computes_words : ∃ state history table,
    Computes ⟨1, by decide⟩ wordCount ["a", "b", "a"] state history ∧
      state = .returned table ∧ table.lookup "a" = some 2 := by
  have run : ((execute ⟨1, by decide⟩ wordCount keptOrder ["a", "b", "a"]).exec
        (execute ⟨1, by decide⟩ wordCount keptOrder ["a", "b", "a"]).init
        [.task .spawn, .task (.finish 0), .task (.join 0), .task .spawn, .task (.finish 0),
          .task (.join 0), .task .spawn, .task (.finish 0), .task (.join 0), .none,
          .task .spawn, .task (.finish 0), .task (.join 0), .task .spawn, .task (.finish 0),
          .task (.join 0), .none]).map
      (fun last => last.1.table.map fun table => table.lookup "a") = some (some (some 2)) := by
    rfl
  obtain ⟨⟨state, history⟩, executed, ends⟩ := Option.map_eq_some_iff.mp run
  obtain ⟨table, returned, counted⟩ := Option.map_eq_some_iff.mp ends
  refine ⟨state, history, table, ?_, State.eq_returned returned, counted⟩
  exact (map_reduce_computes _ _ _ _ (Lts.reachable_of_exec _ executed)).1

end RustZero.Mapreduce
