import RustZero.Lib.Phases

/-!
# A bounded pool of tasks

A loop that spawns one task for each of its items and collects the results of the tasks
in the order they are joined.  It spawns while fewer than `limit` tasks are live and joins
one that has finished otherwise; after the last item it joins those that are left.  Tasks
finish in any order.

* `Gathers` is what the pool has done with its items: the results collected are those of
  some of the items in some order, and each item of the others is live or waiting.
* `work` is a rank that every step lowers (`Step.work_lt`), and `exists_step` finds a step
  until the pool is idle.
-/

namespace RustZero.Lib

universe u v w

/-- A task that has finished holds its result. -/
structure PooledTask (α : Type u) (β : Type v) where
  item : α
  result : Option β
  deriving DecidableEq, Repr

structure TaskPool (α : Type u) (β : Type v) (γ : Type w) where
  waiting : List α
  live : List (PooledTask α β)
  collected : γ
  deriving DecidableEq, Repr

/-- What runs in a task, and what becomes of its result. -/
structure PooledJob (α : Type u) (β : Type v) (γ : Type w) where
  limit : Nat
  run : α → β
  collect : γ → β → γ

inductive PoolAction where
  | spawn
  | finish (index : Nat)
  | join (index : Nat)
  deriving DecidableEq, Repr

namespace TaskPool

variable {α : Type u} {β : Type v} {γ : Type w}

def start (items : List α) (empty : γ) : TaskPool α β γ :=
  ⟨items, [], empty⟩

/-- The loop waits for a task. -/
def joins (job : PooledJob α β γ) (pool : TaskPool α β γ) : Bool :=
  pool.waiting.isEmpty || pool.live.length == job.limit

def idle (pool : TaskPool α β γ) : Bool :=
  pool.waiting.isEmpty && pool.live.isEmpty

/-- A step, with the items that were run. -/
def step (job : PooledJob α β γ) (pool : TaskPool α β γ) :
    PoolAction → Option (TaskPool α β γ × List α)
  | .spawn =>
      match pool.waiting with
      | [] => none
      | item :: rest =>
          if pool.live.length = job.limit then none
          else some ({ pool with waiting := rest, live := pool.live ++ [⟨item, none⟩] }, [])
  | .finish index =>
      match pool.live[index]? with
      | some ⟨item, none⟩ =>
          some ({ pool with live := pool.live.set index ⟨item, some (job.run item)⟩ }, [item])
      | _ => none
  | .join index =>
      match pool.live[index]? with
      | some ⟨_, some result⟩ =>
          if pool.joins job then
            some ({ pool with
              live := pool.live.eraseIdx index
              collected := job.collect pool.collected result }, [])
          else none
      | _ => none

/-- The steps of a pool, with what they need. -/
inductive Step (job : PooledJob α β γ) (pool : TaskPool α β γ) :
    TaskPool α β γ → List α → Prop
  | spawn (item : α) (rest : List α) (next : pool.waiting = item :: rest)
      (room : pool.live.length ≠ job.limit) :
      Step job pool { pool with waiting := rest, live := pool.live ++ [⟨item, none⟩] } []
  | finish (before after : List (PooledTask α β)) (item : α)
      (running : pool.live = before ++ ⟨item, none⟩ :: after) :
      Step job pool { pool with live := before ++ ⟨item, some (job.run item)⟩ :: after } [item]
  | join (before after : List (PooledTask α β)) (item : α) (result : β)
      (finished : pool.live = before ++ ⟨item, some result⟩ :: after) :
      Step job pool { pool with
        live := before ++ after, collected := job.collect pool.collected result } []

variable {job : PooledJob α β γ} {pool pool' : TaskPool α β γ} {action : PoolAction}
  {ran : List α}

theorem split_at {δ : Type*} {values : List δ} {index : Nat} {value : δ}
    (found : values[index]? = some value) :
    values = values.take index ++ value :: values.drop (index + 1) := by
  obtain ⟨within, same⟩ := List.getElem?_eq_some_iff.mp found
  rw [← same, ← List.drop_eq_getElem_cons within, List.take_append_drop]

theorem step_cases (taken : pool.step job action = some (pool', ran)) :
    Step job pool pool' ran := by
  cases action with
  | spawn =>
      simp only [step] at taken
      split at taken
      · cases taken
      · rename_i item rest next
        obtain ⟨room, same⟩ := Option.ite_none_left_eq_some.mp taken
        cases same
        exact .spawn item rest next room
  | finish index =>
      simp only [step] at taken
      split at taken
      · rename_i item found
        cases taken
        have within := (List.getElem?_eq_some_iff.mp found).1
        rw [List.set_eq_take_append_cons_drop, if_pos within]
        exact .finish _ _ item (split_at found)
      · cases taken
  | join index =>
      simp only [step] at taken
      split at taken
      · rename_i item result found
        obtain ⟨_, same⟩ := Option.ite_none_right_eq_some.mp taken
        cases same
        rw [List.eraseIdx_eq_take_drop_succ]
        exact .join _ _ item result (split_at found)
      · cases taken

/-! ## What a pool has done -/

/-- `items` are the items of the pool and `ran` those that were run. -/
structure Gathers (job : PooledJob α β γ) (empty : γ) (items : List α)
    (pool : TaskPool α β γ) (ran : List α) : Prop where
  bounded : pool.live.length ≤ job.limit
  results : ∀ task ∈ pool.live, ∀ result, task.result = some result →
    result = job.run task.item
  joined : ∃ joined : List α,
    pool.collected = (joined.map job.run).foldl job.collect empty ∧
    (joined ++ pool.live.map PooledTask.item ++ pool.waiting).Perm items ∧
    (joined ++ (pool.live.filter fun task => task.result.isSome).map PooledTask.item).Perm ran

variable {empty : γ} {items : List α} {earlier : List α}

theorem Gathers.start (job : PooledJob α β γ) (empty : γ) (items : List α) :
    Gathers job empty items (.start items empty) [] where
  bounded := Nat.zero_le _
  results := by
    intro task member
    cases member
  joined := ⟨[], rfl, .refl _, .refl _⟩

theorem Gathers.step (gathers : Gathers job empty items pool earlier)
    (step : Step job pool pool' ran) : Gathers job empty items pool' (earlier ++ ran) := by
  obtain ⟨joined, collected, arranged, called⟩ := gathers.joined
  cases step with
  | spawn item rest next room =>
      refine ⟨?_, ?_, joined, collected, ?_, ?_⟩
      · have bounded := gathers.bounded
        rw [List.length_append, List.length_singleton]
        omega
      · intro task member result finished
        rcases List.mem_append.mp member with old | new
        · exact gathers.results task old result finished
        · rw [List.mem_singleton.mp new] at finished
          cases finished
      · rw [next] at arranged
        simpa using arranged
      · simpa using called
  | finish before after item running =>
      refine ⟨?_, ?_, joined, collected, ?_, ?_⟩
      · have bounded := gathers.bounded
        rw [running] at bounded
        simpa using bounded
      · intro task member result finished
        rcases List.mem_append.mp member with old | here
        · exact gathers.results task (by simp [running, old]) result finished
        · rcases List.mem_cons.mp here with same | old
          · subst same
            exact (Option.some.inj finished).symm
          · exact gathers.results task (by simp [running, old]) result finished
      · rw [running] at arranged
        simpa using arranged
      · rw [running] at called
        have moved : (joined ++ ((before ++ ⟨item, some (job.run item)⟩ :: after).filter
            fun task => task.result.isSome).map PooledTask.item).Perm
            (item :: (joined ++ ((before ++ ⟨item, none⟩ :: after).filter
              fun task => task.result.isSome).map PooledTask.item)) := by
          simp only [List.filter_append, List.filter_cons, Option.isSome_some, Option.isSome_none,
            Bool.false_eq_true, if_true, if_false, List.map_append, List.map_cons]
          rw [← List.append_assoc, ← List.append_assoc]
          exact List.perm_middle
        exact moved.trans ((called.cons item).trans (List.perm_append_singleton item earlier).symm)
  | join before after item result finished =>
      have same : result = job.run item :=
        gathers.results ⟨item, some result⟩ (by simp [finished]) result rfl
      subst same
      refine ⟨?_, ?_, joined ++ [item], ?_, ?_, ?_⟩
      · have bounded := gathers.bounded
        rw [finished] at bounded
        simp only [List.length_append, List.length_cons] at bounded ⊢
        omega
      · intro task member
        refine gathers.results task ?_
        rw [finished]
        rcases List.mem_append.mp member with old | old
        · exact List.mem_append_left _ old
        · exact List.mem_append_right _ (List.mem_cons_of_mem _ old)
      · rw [List.map_append, List.foldl_append, ← collected]
        rfl
      · rw [finished] at arranged
        refine List.Perm.trans ?_ arranged
        simp only [List.map_append, List.map_cons, List.append_assoc, List.cons_append,
          List.nil_append]
        exact List.Perm.append_left joined List.perm_middle.symm
      · rw [finished] at called
        rw [List.append_nil]
        refine List.Perm.trans ?_ called
        simp only [List.filter_append, List.filter_cons, Option.isSome_some, if_true,
          List.map_append, List.map_cons, List.append_assoc, List.singleton_append]
        exact List.Perm.append_left joined List.perm_middle.symm

/-- A pool that is idle has collected a result for each of its items, and run each once. -/
theorem Gathers.of_idle (gathers : Gathers job empty items pool ran) (idle : pool.idle) :
    ∃ joined : List α, joined.Perm items ∧ joined.Perm ran ∧
      pool.collected = (joined.map job.run).foldl job.collect empty := by
  obtain ⟨joined, collected, arranged, called⟩ := gathers.joined
  simp only [TaskPool.idle, Bool.and_eq_true, List.isEmpty_iff] at idle
  rw [idle.1, idle.2] at arranged
  rw [idle.2] at called
  exact ⟨joined, by simpa using arranged, by simpa using called, collected⟩

/-- Only an idle pool waits without a live task. -/
theorem idle_of_joins (positive : 0 < job.limit) (waits : pool.joins job = true)
    (unlive : pool.live.isEmpty = true) : pool.idle = true := by
  have none : pool.live.length = 0 := by rw [List.isEmpty_iff.mp unlive, List.length_nil]
  rcases Bool.or_eq_true_iff.mp waits with last | full
  · exact Bool.and_eq_true_iff.mpr ⟨last, unlive⟩
  · have full : pool.live.length = job.limit := beq_iff_eq.mp full
    omega

/-! ## Every schedule comes to an end -/

/-- The steps a task has before it. -/
def taskWork (task : PooledTask α β) : Nat :=
  if task.result.isSome then 1 else 2

/-- The steps a pool has before it. -/
def work (pool : TaskPool α β γ) : Nat :=
  3 * pool.waiting.length + (pool.live.map taskWork).sum

theorem Step.work_lt (step : Step job pool pool' ran) : pool'.work < pool.work := by
  cases step with
  | spawn item rest next room =>
      simp only [work, next, List.length_cons, List.map_append, List.sum_append, List.map_cons,
        List.map_nil, List.sum_cons, List.sum_nil, taskWork]
      simp
      omega
  | finish before after item running =>
      simp [work, running, taskWork]
  | join before after item result finished =>
      simp [work, finished, taskWork]

/-- A pool with something left to do can take a step. -/
theorem exists_step (job : PooledJob α β γ) (positive : 0 < job.limit) (busy : pool.idle = false) :
    ∃ action pool' ran, pool.step job action = some (pool', ran) := by
  cases found : pool.live with
  | nil =>
      cases waits : pool.waiting with
      | nil => simp [idle, found, waits] at busy
      | cons item rest =>
          refine ⟨.spawn, { pool with waiting := rest, live := [⟨item, none⟩] }, [], ?_⟩
          have room : ¬ 0 = job.limit := by omega
          simp [step, waits, found, room]
  | cons task others =>
      obtain ⟨item, result⟩ := task
      have first : pool.live[0]? = some ⟨item, result⟩ := by rw [found, List.getElem?_cons_zero]
      cases result with
      | none => exact ⟨.finish 0, _, _, by simp only [step, first]; rfl⟩
      | some result =>
          cases joining : pool.joins job with
          | true => exact ⟨.join 0, _, _, by simp only [step, first, joining, if_true]; rfl⟩
          | false =>
              simp only [joins, Bool.or_eq_false_iff, beq_eq_false_iff_ne] at joining
              cases waits : pool.waiting with
              | nil => simp [waits] at joining
              | cons next rest =>
                  exact ⟨.spawn, _, _, by simp only [step, waits]; rw [if_neg joining.2]⟩

end TaskPool

end RustZero.Lib
