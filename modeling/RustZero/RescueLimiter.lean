import RustZero.LimiterPeriods

/-!
# The bounded limiter beside the unbounded one

`BoundedPeriodLimiter` of `core/src/limit.rs`, the rescue limiter of `RedisPeriodLimiter`, taken
from on any keys at times that do not go back.  It forgets windows that have ended, but only when
it is full and a new key comes; `PeriodLimiter` forgets nothing.

* `Follows` is what the two have in common: of the current window they hold what was granted in
  it, and whatever else they hold is older.
* `Crowded` is the one case in which they differ: a new key comes while as many keys as there may
  be were granted something in the current window.
* `reference` is `PeriodLimiter` on the history without those takes, and `Refines` what holds of
  the bounded limiter in every state it reaches.
-/

namespace RustZero.PeriodLimiter

open Lib RedisLimiter

/-! ## Entries by key -/

section Entries

variable {windows : Windows} {key other : String} {window : PeriodWindow}

theorem lookup_insert (windows : Windows) (key : String) (window : PeriodWindow) :
    (fun name => (windows.insert key window).lookup name) =
      Function.update (fun name => windows.lookup name) key (some window) := by
  funext name
  by_cases same : name = key
  · subst same
    rw [Function.update_self, Windows.insert, List.lookup_cons_self]
  · have differs : (name == key) = false := beq_eq_false_iff_ne.mpr same
    rw [Function.update_of_ne same, Windows.insert, List.lookup_cons, differs]
    dsimp only
    induction windows with
    | nil => rfl
    | cons entry windows ih =>
        obtain ⟨first, held⟩ := entry
        by_cases isKey : first = key
        · have skipped : (name == first) = false := by rw [isKey, differs]
          rw [List.filter_cons_of_neg (by simpa using isKey), ih, List.lookup_cons, skipped]
        · rw [List.filter_cons_of_pos (by simpa using isKey), List.lookup_cons, List.lookup_cons,
            ih]

theorem lookup_eq_some (distinct : (windows.map Prod.fst).Nodup) :
    windows.lookup key = some window ↔ (key, window) ∈ windows := by
  refine ⟨fun found => ?_, fun member => ?_⟩
  · obtain ⟨before, after, parts, _⟩ := List.lookup_eq_some_iff.mp found
    rw [parts]
    exact List.mem_append_right _ List.mem_cons_self
  · induction windows with
    | nil => cases member
    | cons entry windows ih =>
        obtain ⟨name, held⟩ := entry
        obtain ⟨absent, distinct⟩ := List.nodup_cons.mp distinct
        rcases List.mem_cons.mp member with same | later
        · cases same
          exact List.lookup_cons_self
        · have differs : (key == name) = false :=
            beq_eq_false_iff_ne.mpr fun same => absent (List.mem_map.mpr ⟨_, later, same⟩)
          rw [List.lookup_cons, differs]
          exact ih distinct later

theorem lookup_filter (distinct : (windows.map Prod.fst).Nodup) (keep : PeriodWindow → Bool)
    (key : String) :
    (windows.filter fun entry => keep entry.2).lookup key = (windows.lookup key).filter keep := by
  have distinct' : ((windows.filter fun entry => keep entry.2).map Prod.fst).Nodup :=
    distinct.sublist (List.filter_sublist.map _)
  ext held
  rw [lookup_eq_some distinct', List.mem_filter, Option.filter_eq_some_iff,
    lookup_eq_some distinct]

theorem nodup_insert (distinct : (windows.map Prod.fst).Nodup) :
    ((windows.insert key window).map Prod.fst).Nodup := by
  rw [Windows.insert, List.map_cons, List.nodup_cons]
  refine ⟨?_, distinct.sublist (List.filter_sublist.map _)⟩
  intro member
  obtain ⟨entry, inside, same⟩ := List.mem_map.mp member
  exact absurd same (by simpa using (List.mem_filter.mp inside).2)

/-- An entry takes the place of the one of its key. -/
theorem length_insert_le {most : Nat} (bound : windows.length ≤ most)
    (room : (windows.lookup key).isSome = true ∨ windows.length < most) :
    (windows.insert key window).length ≤ most := by
  have shorter := List.length_filter_le (fun entry => entry.1 ≠ key) windows
  rw [Windows.insert, List.length_cons]
  rcases room with held | short
  · have lost : (windows.filter fun entry => entry.1 ≠ key).length < windows.length := by
      rw [List.length_filter_lt_length_iff_exists]
      obtain ⟨entry, member, same⟩ := List.lookup_isSome_iff.mp held
      exact ⟨entry, member, by simpa using (eq_of_beq same).symm⟩
    omega
  · omega

end Entries

/-! ## Histories -/

/-- One take: what was decided, and whether it is one of the refused new keys. -/
structure KeyTaken where
  now : Nat
  key : String
  decision : LimitDecision
  leftOut : Bool
  deriving DecidableEq, Repr

/-- What a key was granted in a window. -/
def grantsOf (config : Config) (history : List KeyTaken) (window : Nat) (key : String) :
    List KeyTaken :=
  history.filter fun taken =>
    taken.now / config.period.asMillis = window ∧ taken.key = key ∧ isAllowed taken.decision = true

/-- The keys that were granted something in a window. -/
def grantedKeys (config : Config) (history : List KeyTaken) (window : Nat) : List String :=
  ((history.filter fun taken => taken.now / config.period.asMillis = window ∧
    isAllowed taken.decision = true).map KeyTaken.key).dedup

/-- A key that was granted nothing in the current window comes when `maxKeys` keys were. -/
def Crowded (config : Config) (maxKeys : Nat) (history : List KeyTaken) (now : Nat)
    (key : String) : Prop :=
  key ∉ grantedKeys config history (now / config.period.asMillis) ∧
    maxKeys ≤ (grantedKeys config history (now / config.period.asMillis)).length

instance decidableCrowded (config : Config) (maxKeys : Nat) (history : List KeyTaken) (now : Nat)
    (key : String) : Decidable (Crowded config maxKeys history now key) :=
  inferInstanceAs (Decidable (_ ∧ _))

/-- The windows of `PeriodLimiter` after a history without the refused new keys. -/
def reference (config : Config) (history : List KeyTaken) : String → Option PeriodWindow :=
  history.foldl (fun windows taken =>
    if taken.leftOut then windows else (take config windows taken.now taken.key).2) fun _ => none

/-- The bounded limiter, and what it was asked. -/
structure Rescue where
  windows : Windows
  history : List KeyTaken
  clock : Nat

def boundedLimiter (config : Config) (maxKeys : Nat) : BoundedPeriodLimiter :=
  ⟨config.period, config.quota, maxKeys⟩

/-- One take, at a time that is not before the last. -/
def Rescue.advance (config : Config) (maxKeys : Nat) (rescue : Rescue) (action : Nat × String) :
    Option Rescue :=
  if rescue.clock ≤ action.1 then
    ((boundedLimiter config maxKeys).take rescue.windows action.1 action.2).map fun taken =>
      { windows := taken.2, clock := action.1,
        history := rescue.history ++ [⟨action.1, action.2, taken.1,
          decide (Crowded config maxKeys rescue.history action.1 action.2)⟩] }
  else none

/-- Takes on any keys, from no window. -/
def rescueRuns (config : Config) (maxKeys : Nat) : Lts Rescue (Nat × String) where
  init := ⟨[], [], 0⟩
  step := Rescue.advance config maxKeys

section Grants

variable {config : Config} {history : List KeyTaken} {window now : Nat} {key other : String}
  {taken : KeyTaken}

theorem grantsOf_append (config : Config) (history : List KeyTaken) (taken : KeyTaken)
    (window : Nat) (key : String) :
    (grantsOf config (history ++ [taken]) window key).length =
      (grantsOf config history window key).length +
        if taken.now / config.period.asMillis = window ∧ taken.key = key ∧
          isAllowed taken.decision = true then 1 else 0 := by
  rw [grantsOf, List.filter_append, List.length_append, ← grantsOf]
  split
  · rw [List.filter_singleton, decide_eq_true ‹_›]
    rfl
  · rw [List.filter_singleton, decide_eq_false ‹_›]
    rfl

theorem mem_grantedKeys :
    key ∈ grantedKeys config history window ↔ grantsOf config history window key ≠ [] := by
  rw [grantedKeys, List.mem_dedup, List.mem_map, grantsOf, Ne, List.filter_eq_nil_iff]
  simp only [List.mem_filter, decide_eq_true_eq]
  constructor
  · intro granted none
    obtain ⟨taken, ⟨member, here, allowed⟩, same⟩ := granted
    exact none taken member ⟨here, same, allowed⟩
  · intro some_
    rw [not_forall] at some_
    obtain ⟨taken, some_⟩ := some_
    rw [Classical.not_imp, not_not] at some_
    obtain ⟨member, here, same, allowed⟩ := some_
    exact ⟨taken, ⟨member, here, allowed⟩, same⟩

/-- Nothing was granted yet in a window that has yet to begin. -/
theorem grantsOf_later (past : ∀ taken ∈ history, taken.now ≤ now)
    (after : now / config.period.asMillis < window) (key : String) :
    grantsOf config history window key = [] := by
  rw [grantsOf, List.filter_eq_nil_iff]
  intro taken member
  have before := Nat.div_le_div_right (past taken member) (c := config.period.asMillis)
  simp only [decide_eq_true_eq]
  omega

end Grants

/-! ## What the two limiters hold -/

/-- The entry of a key that was granted so much in a window. -/
def entryAt (count window : Nat) : Option PeriodWindow :=
  if count = 0 then none else some ⟨count, window⟩

/-- Of the current window exactly what was granted in it is held, and everything else that is held
is older. -/
structure Follows (config : Config) (history : List KeyTaken) (now : Nat)
    (stored : String → Option PeriodWindow) : Prop where
  current : ∀ key, (stored key).filter (·.window = now / config.period.asMillis) =
    entryAt (grantsOf config history (now / config.period.asMillis) key).length
      (now / config.period.asMillis)
  older : ∀ key entry, stored key = some entry → entry.window ≤ now / config.period.asMillis

section Follows

variable {config : Config} {history : List KeyTaken} {now next : Nat} {key other : String}
  {stored : String → Option PeriodWindow} {taken : KeyTaken}

theorem Follows.nothing (config : Config) : Follows config [] 0 fun _ => none := by
  refine ⟨fun key => rfl, ?_⟩
  intro key entry none
  cases none

/-- What is held at a time is what is held at any later time. -/
theorem Follows.later (follows : Follows config history now stored)
    (past : ∀ taken ∈ history, taken.now ≤ now) (order : now ≤ next) :
    Follows config history next stored := by
  have monotone := Nat.div_le_div_right order (c := config.period.asMillis)
  refine ⟨?_, ?_⟩
  · intro key
    rcases monotone.eq_or_lt with same | after
    · rw [← same]
      exact follows.current key
    · rw [grantsOf_later past after key]
      refine Option.filter_eq_none_iff.mpr ?_
      intro entry held
      have bound := follows.older key entry held
      simp only [decide_eq_true_eq]
      omega
  · intro key entry held
    exact (follows.older key entry held).trans monotone

/-- The entry that a take works on. -/
theorem Follows.currentEntry (follows : Follows config history now stored) (key : String) :
    currentEntry (stored key) (now / config.period.asMillis) =
      ⟨(grantsOf config history (now / config.period.asMillis) key).length,
        now / config.period.asMillis⟩ := by
  have current := follows.current key
  rw [PeriodLimiter.currentEntry]
  generalize (grantsOf config history (now / config.period.asMillis) key).length = count
    at current ⊢
  cases held : stored key with
  | none =>
      rw [held, Option.filter_none, entryAt] at current
      split at current
      case isTrue zero =>
        rw [zero]
        simp
      case isFalse => cases current
  | some entry =>
      rw [held, Option.filter_some, entryAt] at current
      rw [Option.getD_some]
      by_cases here : entry.window = now / config.period.asMillis
      · rw [if_pos (decide_eq_true here)] at current
        split at current
        case isTrue => cases current
        case isFalse => rw [if_pos here, Option.some.inj current]
      · rw [if_neg (by simpa using here)] at current
        split at current
        case isTrue zero => rw [if_neg here, zero]
        case isFalse => cases current

/-- A take that grants nothing leaves what is held. -/
theorem Follows.refused (follows : Follows config history now stored)
    (denied : isAllowed taken.decision = false) :
    Follows config (history ++ [taken]) now stored := by
  refine ⟨?_, follows.older⟩
  intro key
  rw [grantsOf_append, denied]
  simpa using follows.current key

theorem isAllowed_spend (quota : Nat) (entry : PeriodWindow) (retryAfter : Duration) :
    isAllowed (spend quota entry retryAfter).1 = decide (entry.used < quota) := by
  rw [spend]
  by_cases full : quota ≤ entry.used
  · rw [if_pos full, decide_eq_false (by omega)]
    rfl
  · rw [if_neg full, decide_eq_true (by omega)]
    dsimp only
    split
    · rfl
    · rfl

/-- A take adds what it grants to the entry. -/
theorem spend_entry (quota count window : Nat) (retryAfter : Duration) :
    (spend quota ⟨count, window⟩ retryAfter).2 =
      ⟨count + if isAllowed (spend quota ⟨count, window⟩ retryAfter).1 = true then 1 else 0,
        window⟩ := by
  rw [isAllowed_spend, spend]
  by_cases full : quota ≤ count
  · rw [if_pos full, if_neg (by simpa using full), Nat.add_zero]
  · rw [if_neg full]
    dsimp only
    rw [decide_eq_true (not_le.mp full), if_pos rfl]

/-- A take puts what it makes of the entry back. -/
theorem Follows.spent (follows : Follows config history now stored) (at_ : taken.now = now)
    (decided : taken.decision = (spend config.quota
      (PeriodLimiter.currentEntry (stored taken.key) (now / config.period.asMillis))
      (retryAfter config.period now)).1) :
    Follows config (history ++ [taken]) now (Function.update stored taken.key (some
      (spend config.quota
        (PeriodLimiter.currentEntry (stored taken.key) (now / config.period.asMillis))
        (retryAfter config.period now)).2)) := by
  have some_ := config.quota_pos
  have entry := follows.currentEntry taken.key
  rw [entry] at decided ⊢
  rw [spend_entry, ← decided]
  have allowed := isAllowed_spend config.quota
    ⟨(grantsOf config history (now / config.period.asMillis) taken.key).length,
      now / config.period.asMillis⟩ (retryAfter config.period now)
  rw [← decided] at allowed
  refine ⟨?_, ?_⟩
  · intro key
    rw [grantsOf_append, at_]
    by_cases same : taken.key = key
    · subst same
      have positive : (grantsOf config history (now / config.period.asMillis) taken.key).length +
          (if isAllowed taken.decision = true then 1 else 0) ≠ 0 := by
        rw [allowed]
        simp only [decide_eq_true_eq]
        split
        · omega
        · omega
      simp only [true_and, Function.update_self, Option.filter_some, decide_true, if_true]
      rw [entryAt, if_neg positive]
    · rw [Function.update_of_ne (Ne.symm same)]
      simpa [same] using follows.current key
  · intro key held found
    by_cases same : key = taken.key
    · subst same
      rw [Function.update_self] at found
      cases found
      exact le_rfl
    · rw [Function.update_of_ne same] at found
      exact follows.older key held found

/-- There are as many entries of the current window as keys that were granted something in it. -/
theorem Follows.length_current {windows : Windows} (distinct : (windows.map Prod.fst).Nodup)
    (follows : Follows config history now fun key => windows.lookup key) :
    (windows.filter fun entry => entry.2.window = now / config.period.asMillis).length =
      (grantedKeys config history (now / config.period.asMillis)).length := by
  have distinct' : ((windows.filter fun entry =>
      entry.2.window = now / config.period.asMillis).map Prod.fst).Nodup :=
    distinct.sublist (List.filter_sublist.map _)
  have perm : ((windows.filter fun entry =>
      entry.2.window = now / config.period.asMillis).map Prod.fst).Perm
        (grantedKeys config history (now / config.period.asMillis)) := by
    have keys : (grantedKeys config history (now / config.period.asMillis)).Nodup :=
      List.nodup_dedup _
    rw [List.perm_ext_iff_of_nodup distinct' keys]
    intro key
    have current := follows.current key
    rw [← lookup_filter distinct] at current
    rw [mem_grantedKeys, ← List.length_pos_iff, List.mem_map]
    constructor
    · intro held
      obtain ⟨⟨name, entry⟩, member, same⟩ := held
      cases same
      rw [(lookup_eq_some distinct').mpr member, entryAt] at current
      split at current
      case isTrue => cases current
      case isFalse some_ => exact Nat.pos_of_ne_zero some_
    · intro granted
      rw [entryAt, if_neg granted.ne', lookup_eq_some distinct'] at current
      exact ⟨_, current, rfl⟩
  rw [← perm.length_eq, List.length_map]

/-- Forgetting the windows that have ended leaves what is held of the current one. -/
theorem Follows.purged {windows : Windows} (distinct : (windows.map Prod.fst).Nodup)
    (follows : Follows config history now fun key => windows.lookup key) :
    Follows config history now fun key => (windows.filter fun entry =>
      entry.2.window = now / config.period.asMillis).lookup key := by
  refine ⟨?_, ?_⟩
  · intro key
    rw [lookup_filter distinct fun entry => entry.window = now / config.period.asMillis,
      Option.filter_filter]
    simpa using follows.current key
  · intro key entry held
    rw [lookup_filter distinct fun entry => entry.window = now / config.period.asMillis] at held
    exact follows.older key entry (Option.filter_eq_some_iff.mp held).1

end Follows

/-! ## One take -/

/-- What the takes so far have made of the bounded limiter. -/
structure Held (config : Config) (maxKeys : Nat) (history : List KeyTaken) (now : Nat)
    (windows : Windows) : Prop where
  distinct : (windows.map Prod.fst).Nodup
  bound : windows.length ≤ maxKeys
  follows : Follows config history now fun key => windows.lookup key

section Takes

variable {config : Config} {maxKeys now : Nat} {history : List KeyTaken} {windows : Windows}
  {key : String} {stored : String → Option PeriodWindow}

theorem Held.use (held : Held config maxKeys history now windows)
    (room : (windows.lookup key).isSome = true ∨ windows.length < maxKeys)
    (follows : Follows config history now stored) (leftOut : Bool) :
    ∃ later, (boundedLimiter config maxKeys).use windows key (now / config.period.asMillis)
        (retryAfter config.period now) = ((take config stored now key).1, later) ∧
      Held config maxKeys
        (history ++ [⟨now, key, (take config stored now key).1, leftOut⟩]) now later := by
  have same : currentEntry (windows.lookup key) (now / config.period.asMillis) =
      currentEntry (stored key) (now / config.period.asMillis) :=
    (held.follows.currentEntry key).trans (follows.currentEntry key).symm
  rw [use_eq_spend, take_eq_spend, ← same]
  refine ⟨_, rfl, nodup_insert held.distinct, length_insert_le held.bound room, ?_⟩
  rw [lookup_insert]
  exact held.follows.spent rfl rfl

theorem Held.purged (held : Held config maxKeys history now windows) :
    Held config maxKeys history now
      (windows.filter fun entry => entry.2.window = now / config.period.asMillis) :=
  ⟨held.distinct.sublist (List.filter_sublist.map _),
    (List.length_filter_le _ _).trans held.bound, held.follows.purged held.distinct⟩

/-- What is granted in the current window is held. -/
theorem Held.granted (held : Held config maxKeys history now windows)
    (member : key ∈ grantedKeys config history (now / config.period.asMillis)) :
    windows.lookup key = some
      ⟨(grantsOf config history (now / config.period.asMillis) key).length,
        now / config.period.asMillis⟩ := by
  have current := held.follows.current key
  have some_ : (grantsOf config history (now / config.period.asMillis) key).length ≠ 0 := by
    rw [Ne, List.length_eq_zero_iff]
    exact mem_grantedKeys.mp member
  rw [entryAt, if_neg some_] at current
  exact (Option.filter_eq_some_iff.mp current).1

/-- While a key is held or another fits, the limiter is not crowded. -/
theorem Held.not_crowded (held : Held config maxKeys history now windows)
    (room : (windows.lookup key).isSome = true ∨ windows.length < maxKeys) :
    ¬Crowded config maxKeys history now key := by
  intro crowded
  obtain ⟨fresh, many⟩ := crowded
  rw [← held.follows.length_current held.distinct] at many
  have bound := held.bound
  have shorter := List.length_filter_le
    (fun entry => decide (entry.2.window = now / config.period.asMillis)) windows
  rcases room with stale | short
  · obtain ⟨entry, found⟩ := Option.isSome_iff_exists.mp stale
    have member := (lookup_eq_some held.distinct).mp found
    have old : entry.window ≠ now / config.period.asMillis := by
      intro here
      have current := held.follows.current key
      rw [found, Option.filter_some, if_pos (decide_eq_true here), entryAt] at current
      split at current
      case isTrue => cases current
      case isFalse some_ =>
        refine fresh (mem_grantedKeys.mpr ?_)
        intro none
        exact some_ (List.length_eq_zero_iff.mpr none)
    have lost : (windows.filter fun entry =>
        entry.2.window = now / config.period.asMillis).length < windows.length := by
      rw [List.length_filter_lt_length_iff_exists]
      exact ⟨_, member, by simpa using old⟩
    omega
  · omega

/-- The bounded limiter forgets what has ended only when it is full and a new key comes. -/
theorem boundedLimiter_take (windows : Windows) (now : Nat) (key : String) :
    (boundedLimiter config maxKeys).take windows now key =
      if (windows.lookup key).isNone = true ∧ maxKeys ≤ windows.length then
        if maxKeys ≤ (windows.filter fun entry =>
            entry.2.window = now / config.period.asMillis).length then
          some (.overQuota (retryAfter config.period now), windows.filter fun entry =>
            entry.2.window = now / config.period.asMillis)
        else
          some ((boundedLimiter config maxKeys).use (windows.filter fun entry =>
            entry.2.window = now / config.period.asMillis) key (now / config.period.asMillis)
              (retryAfter config.period now))
      else
        some ((boundedLimiter config maxKeys).use windows key (now / config.period.asMillis)
          (retryAfter config.period now)) := by
  have positive : (boundedLimiter config maxKeys).period.asMillis ≠ 0 := config.period_pos.ne'
  rw [BoundedPeriodLimiter.take]
  simp only [positive, if_false]
  rfl

/-- A take of the bounded limiter is that of the other one, unless the limiter is crowded. -/
theorem Held.take (held : Held config maxKeys history now windows)
    (follows : Follows config history now stored) (key : String) (leftOut : Bool) :
    ∃ decision later,
      (boundedLimiter config maxKeys).take windows now key = some (decision, later) ∧
      decision = (if Crowded config maxKeys history now key then
        .overQuota (retryAfter config.period now)
        else (PeriodLimiter.take config stored now key).1) ∧
      Held config maxKeys (history ++ [⟨now, key, decision, leftOut⟩]) now later := by
  have used {kept : Windows} (held : Held config maxKeys history now kept)
      (room : (kept.lookup key).isSome = true ∨ kept.length < maxKeys) :
      ∃ decision later, some ((boundedLimiter config maxKeys).use kept key
          (now / config.period.asMillis) (retryAfter config.period now)) = some (decision, later) ∧
        decision = (if Crowded config maxKeys history now key then
          .overQuota (retryAfter config.period now)
          else (PeriodLimiter.take config stored now key).1) ∧
        Held config maxKeys (history ++ [⟨now, key, decision, leftOut⟩]) now later := by
    obtain ⟨later, taken, held'⟩ := held.use room follows leftOut
    rw [if_neg (held.not_crowded room), taken]
    exact ⟨_, _, rfl, rfl, held'⟩
  rw [boundedLimiter_take]
  by_cases full : (windows.lookup key).isNone = true ∧ maxKeys ≤ windows.length
  · rw [if_pos full]
    by_cases many : maxKeys ≤ (windows.filter fun entry =>
        entry.2.window = now / config.period.asMillis).length
    · have crowded : Crowded config maxKeys history now key := by
        refine ⟨?_, ?_⟩
        · intro granted
          have found := held.granted granted
          rw [Option.isNone_iff_eq_none.mp full.1] at found
          cases found
        · rw [← held.follows.length_current held.distinct]
          exact many
      rw [if_pos crowded]
      refine ⟨.overQuota (retryAfter config.period now), _, if_pos many, rfl, ?_⟩
      exact ⟨held.purged.distinct, held.purged.bound, held.purged.follows.refused rfl⟩
    · obtain ⟨decision, later, taken, rest⟩ := used held.purged (.inr (not_le.mp many))
      exact ⟨decision, later, (if_neg many).trans taken, rest⟩
  · rw [if_neg full]
    refine used held ?_
    rw [not_and_or, Bool.not_eq_true, Option.isNone_eq_false_iff, not_le] at full
    exact full

end Takes

/-! ## Runs -/

/-- What holds of the bounded limiter after any takes, at any later time. -/
structure Refines (config : Config) (maxKeys : Nat) (rescue : Rescue) : Prop where
  /-- It holds at most `maxKeys` keys, each once. -/
  few : rescue.windows.length ≤ maxKeys ∧ (rescue.windows.map Prod.fst).Nodup
  /-- It has counted all that was granted in the current window. -/
  remembers : ∀ now, rescue.clock ≤ now →
    ∀ key ∈ grantedKeys config rescue.history (now / config.period.asMillis),
      rescue.windows.lookup key =
        some ⟨(grantsOf config rescue.history (now / config.period.asMillis) key).length,
          now / config.period.asMillis⟩
  /-- It decides as the unbounded limiter does, unless it is crowded. -/
  decides : ∀ now, rescue.clock ≤ now → ∀ key, ∃ decision later,
    (boundedLimiter config maxKeys).take rescue.windows now key = some (decision, later) ∧
      decision = if Crowded config maxKeys rescue.history now key then
        .overQuota (retryAfter config.period now)
      else (take config (reference config rescue.history) now key).1
  /-- No key is granted more than the quota in one window. -/
  atMost : ∀ window key, (grantsOf config rescue.history window key).length ≤ config.quota

/-- What every take keeps. -/
structure Follow (config : Config) (maxKeys : Nat) (rescue : Rescue) : Prop where
  past : ∀ taken ∈ rescue.history, taken.now ≤ rescue.clock
  held : Held config maxKeys rescue.history rescue.clock rescue.windows
  unbounded : Follows config rescue.history rescue.clock (reference config rescue.history)
  atMost : ∀ window key, (grantsOf config rescue.history window key).length ≤ config.quota

section Runs

variable {config : Config} {maxKeys now : Nat} {rescue next : Rescue} {history : List KeyTaken}
  {taken : KeyTaken}

theorem reference_append (config : Config) (history : List KeyTaken) (taken : KeyTaken) :
    reference config (history ++ [taken]) =
      if taken.leftOut then reference config history
      else (take config (reference config history) taken.now taken.key).2 := by
  rw [reference, List.foldl_append]
  rfl

theorem Held.later {windows : Windows} {next : Nat} (held : Held config maxKeys history now windows)
    (past : ∀ taken ∈ history, taken.now ≤ now) (order : now ≤ next) :
    Held config maxKeys history next windows :=
  ⟨held.distinct, held.bound, held.follows.later past order⟩

theorem Follow.refines (follow : Follow config maxKeys rescue) : Refines config maxKeys rescue := by
  refine ⟨⟨follow.held.bound, follow.held.distinct⟩, ?_, ?_, follow.atMost⟩
  · intro now order key member
    exact (follow.held.later follow.past order).granted member
  · intro now order key
    obtain ⟨decision, later, taken, decided, _⟩ := (follow.held.later follow.past order).take
      (follow.unbounded.later follow.past order) key false
    exact ⟨decision, later, taken, decided⟩

/-- The unbounded limiter after a take that is not left out. -/
theorem Follows.reference (follows : Follows config history now (reference config history))
    (at_ : taken.now = now) (decided : taken.decision =
      if taken.leftOut then .overQuota (retryAfter config.period now)
      else (take config (PeriodLimiter.reference config history) now taken.key).1) :
    Follows config (history ++ [taken]) now
      (PeriodLimiter.reference config (history ++ [taken])) := by
  rw [reference_append]
  cases out : taken.leftOut with
  | true =>
      rw [out, if_pos rfl] at decided
      rw [if_pos rfl]
      exact follows.refused (by rw [decided]; rfl)
  | false =>
      rw [out, if_neg Bool.false_ne_true, take_eq_spend] at decided
      rw [if_neg Bool.false_ne_true, take_eq_spend, at_]
      exact follows.spent at_ decided

/-- A grant leaves the key within its quota. -/
theorem atMost_append (follows : Follows config history now (reference config history))
    (atMost : ∀ window key, (grantsOf config history window key).length ≤ config.quota)
    (at_ : taken.now = now) (decided : taken.decision =
      if taken.leftOut then .overQuota (retryAfter config.period now)
      else (take config (reference config history) now taken.key).1) (window : Nat) (key : String) :
    (grantsOf config (history ++ [taken]) window key).length ≤ config.quota := by
  rw [grantsOf_append]
  split
  case isFalse => exact atMost window key
  case isTrue granted =>
    obtain ⟨here, same, allowed⟩ := granted
    subst same
    rw [at_] at here
    subst here
    rw [decided] at allowed
    split at allowed
    · cases allowed
    · rw [take_eq_spend, isAllowed_spend, follows.currentEntry, decide_eq_true_eq] at allowed
      exact allowed

theorem follow_step {action : Nat × String} (follow : Follow config maxKeys rescue)
    (taken : rescue.advance config maxKeys action = some next) : Follow config maxKeys next := by
  obtain ⟨now, key⟩ := action
  rw [Rescue.advance] at taken
  split at taken
  case isFalse => cases taken
  case isTrue order =>
    dsimp only at order taken
    have unbounded := follow.unbounded.later follow.past order
    obtain ⟨decision, later, ran, decided, held⟩ :=
      (follow.held.later follow.past order).take unbounded key
        (decide (Crowded config maxKeys rescue.history now key))
    rw [ran] at taken
    cases taken
    have decided' : decision =
        if decide (Crowded config maxKeys rescue.history now key) = true then
          .overQuota (retryAfter config.period now)
        else (take config (reference config rescue.history) now key).1 := by
      simpa using decided
    refine ⟨?_, held, unbounded.reference rfl decided', ?_⟩
    · intro earlier member
      rcases List.mem_append.mp member with old | new
      · exact (follow.past earlier old).trans order
      · rw [List.mem_singleton.mp new]
    · exact atMost_append unbounded follow.atMost rfl decided'

end Runs

/-- The bounded limiter refines the unbounded one, after any takes on any keys at times that do not
go back. -/
theorem rescue_refines (config : Config) (maxKeys : Nat) {rescue : Rescue}
    (reach : (rescueRuns config maxKeys).Reachable rescue) : Refines config maxKeys rescue := by
  have start : Follow config maxKeys ⟨[], [], 0⟩ := by
    refine ⟨?_, ⟨List.nodup_nil, Nat.zero_le _, Follows.nothing config⟩, Follows.nothing config, ?_⟩
    · intro taken member
      cases member
    · intro window key
      exact Nat.zero_le _
  have follow : Follow config maxKeys rescue := by
    refine reach.invariant (I := Follow config maxKeys) start ?_
    intro before action after follow _ taken
    exact follow_step follow taken
  exact follow.refines

/-- Two keys and room for one: the second is refused until the window of the first has ended. -/
theorem one_key_refines : ∃ rescue, (rescueRuns twoPerSecond 1).Reachable rescue ∧
    rescue.history.map KeyTaken.decision = [.allowed, .hitQuota,
      .overQuota (Duration.fromMillis 500), .allowed] ∧ Refines twoPerSecond 1 rescue := by
  have run : ((rescueRuns twoPerSecond 1).exec (rescueRuns twoPerSecond 1).init
      [(7000, "a"), (7000, "a"), (7500, "b"), (8000, "b")]).map
        (fun rescue => rescue.history.map KeyTaken.decision) =
      some [.allowed, .hitQuota, .overQuota (Duration.fromMillis 500), .allowed] := by
    decide +kernel
  obtain ⟨rescue, executed, decisions⟩ := Option.map_eq_some_iff.mp run
  have reach := Lts.reachable_of_exec _ executed
  exact ⟨rescue, reach, decisions, rescue_refines twoPerSecond 1 reach⟩

end RustZero.PeriodLimiter
