import RustZero.CacheLru

/-!
# What the in-memory cache holds, told by its history

`system` is a cache called at non-decreasing times, and its runs are noted as
`Event`s, newest first.  From the notes alone one reads off

* `InsertedAt`: the last insertion of a key that no later call took back, and
* `UsedSince`: which of two keys was inserted or hit last.

`Told` is the invariant that ties both to the list that represents the cache:
its items are the insertions not taken back and not expired, its order is the
order of the last uses.
-/

namespace RustZero.Cache.MemoryCache

open RustZero.Lib (Lts)
open RustZero.Lib.Lru (Item Call Outcome keys answer used refresh mem_keys)

variable {K V : Type} [DecidableEq K]

/-- A cache and the time of its last call. -/
structure Clocked (K V : Type) where
  clock : Nat
  cache : MemoryCache K V

def system (capacity : Nat) (positive : 0 < capacity) : Lts (Clocked K V) (Nat × Call K V) where
  init := ⟨0, .new capacity positive⟩
  step := fun state timed =>
    if state.clock ≤ timed.1 then some ⟨timed.1, (state.cache.call timed.1 timed.2).1⟩ else none

/-- A call, what it returned, and the cache around it. -/
structure Event (K V : Type) where
  now : Nat
  request : Call K V
  outcome : Outcome V
  before : MemoryCache K V
  after : MemoryCache K V

def event (cache : MemoryCache K V) (now : Nat) (request : Call K V) : Event K V :=
  ⟨now, request, (cache.call now request).2, cache, (cache.call now request).1⟩

def note (state : Clocked K V) (timed : Nat × Call K V) (_ : Clocked K V) : List (Event K V) :=
  [event state.cache timed.1 timed.2]

/-! ## Reading a history -/

/-- An insertion of the value, to be held until `expiresAt`. -/
def Event.Inserts (noted : Event K V) (key : K) (value : V) (expiresAt : Nat) : Prop :=
  ∃ ttl, noted.request = .insert key value ttl ∧ noted.outcome = .done ∧
    expiresAt = noted.now + ttl

def Event.Evicts (noted : Event K V) (key : K) : Prop :=
  key ∈ noted.before.entries ∧ key ∉ noted.after.entries

/-- The calls after which a value inserted earlier is no longer due: it was
replaced, evicted by the insertion of another key, removed or cleared. -/
def Event.Ends (noted : Event K V) (key : K) (value : V) : Prop :=
  match noted.request with
  | .insert inserted _ _ => if inserted = key then noted.outcome = .done else noted.Evicts key
  | .get _ => False
  | .remove removed => removed = key
  | .removeWhere predicate => predicate key value = true
  | .clear => True
  | .len => False

/-- The key an event inserted or hit. -/
def Event.used (noted : Event K V) : Option K :=
  Lib.Lru.used noted.request noted.outcome

/-- The value was inserted for the key, to expire at `expiresAt`, and no later
call ended that. -/
def InsertedAt (history : List (Event K V)) (key : K) (value : V) (expiresAt : Nat) : Prop :=
  ∃ newer noted older, history = newer ++ noted :: older ∧ noted.Inserts key value expiresAt ∧
    ∀ later ∈ newer, ¬ later.Ends key value

/-- `other` was inserted or hit after the last insertion or hit of `key`. -/
def UsedSince (history : List (Event K V)) (key other : K) : Prop :=
  ∃ newer noted older, history = newer ++ noted :: older ∧ noted.used = some other ∧
    ∀ later ∈ newer, later.used ≠ some key

section History

variable {history : List (Event K V)} {noted : Event K V} {key other : K} {value : V}
  {expiresAt : Nat}

theorem insertedAt_cons :
    InsertedAt (noted :: history) key value expiresAt ↔
      noted.Inserts key value expiresAt ∨
        ¬ noted.Ends key value ∧ InsertedAt history key value expiresAt := by
  refine ⟨?_, ?_⟩
  · intro inserted
    obtain ⟨newer, found, older, split, inserts, lasts⟩ := inserted
    cases newer with
    | nil =>
        cases split
        exact .inl inserts
    | cons latest newer =>
        cases split
        refine .inr ⟨lasts _ List.mem_cons_self, newer, found, older, rfl, inserts, ?_⟩
        intro later member
        exact lasts later (List.mem_cons_of_mem _ member)
  · intro given
    rcases given with inserts | ⟨survives, newer, found, older, split, inserts, lasts⟩
    · exact ⟨[], noted, history, rfl, inserts, by simp⟩
    · refine ⟨noted :: newer, found, older, by rw [split, List.cons_append], inserts, ?_⟩
      intro later member
      rcases List.mem_cons.mp member with here | member
      · rwa [here]
      · exact lasts later member

omit [DecidableEq K] in
theorem UsedSince.cons (since : UsedSince history key other) (unused : noted.used ≠ some key) :
    UsedSince (noted :: history) key other := by
  obtain ⟨newer, found, older, split, uses, none⟩ := since
  refine ⟨noted :: newer, found, older, by rw [split, List.cons_append], uses, ?_⟩
  intro later member
  rcases List.mem_cons.mp member with here | member
  · rwa [here]
  · exact none later member

omit [DecidableEq K] in
theorem UsedSince.now (uses : noted.used = some other) : UsedSince (noted :: history) key other :=
  ⟨[], noted, history, rfl, uses, by simp⟩

/-- The order of last uses follows the key an event uses to the end. -/
theorem pairwise_refresh (noted : Event K V) {order : List K} (distinct : order.Nodup)
    (ordered : order.Pairwise (UsedSince history)) :
    (refresh order noted.used).Pairwise (UsedSince (noted :: history)) := by
  cases uses : noted.used with
  | none =>
      refine ordered.imp ?_
      intro first second since
      exact since.cons (by simp [uses])
  | some latest =>
      rw [refresh, List.pairwise_append]
      refine ⟨?_, List.pairwise_singleton _ _, ?_⟩
      · refine (ordered.sublist List.erase_sublist).imp_of_mem ?_
        intro first second held _ since
        refine since.cons ?_
        rw [uses]
        intro same
        cases same
        exact distinct.not_mem_erase held
      · intro first _ second last
        rw [List.mem_singleton.mp last]
        exact UsedSince.now uses

end History

/-! ## One call -/

section Step

variable {cache : MemoryCache K V} {items : List (Item K V)} {now : Nat} {request : Call K V}

variable (now request) in
theorem event_outcome (represents : Represents cache items) :
    (event cache now request).outcome = (answer cache.capacity now items request).2 :=
  (represents.answers now request).outcome

theorem event_used (represents : Represents cache items) :
    (event cache now request).used =
      used request (answer cache.capacity now items request).2 := by
  rw [← event_outcome now request represents]
  rfl

/-- Whatever the list holds after a call was inserted by it, or was held before
and not ended. -/
theorem born (represents : Represents cache items) {item : Item K V}
    (held : item ∈ (answer cache.capacity now items request).1) :
    (event cache now request).Inserts item.key item.value item.expiresAt ∨
      ¬ (event cache now request).Ends item.key item.value ∧ item ∈ items := by
  have outcome := event_outcome now request represents
  have after := (represents.answers now request).represents.agrees
  cases request with
  | insert key value ttl =>
      by_cases zero : ttl = 0
      · subst zero
        refine .inr ⟨?_, held⟩
        intro ends
        rw [Event.Ends] at ends
        rw [Lib.Lru.answer_insert_zero] at outcome
        simp only [event] at ends outcome
        split at ends
        · rw [outcome] at ends
          cases ends
        · exact ends.2 ends.1
      · have kept : item.key ∈ (event cache now (.insert key value ttl)).after.entries :=
          after.mem_iff.mpr (mem_keys.mpr ⟨item, held, rfl⟩)
        rw [Lib.Lru.answer_insert zero] at held outcome
        rcases Lib.Lru.mem_of_mem_newest held with added | ⟨older, ne⟩
        · subst added
          exact .inl ⟨ttl, rfl, outcome, rfl⟩
        · refine .inr ⟨?_, older⟩
          intro ends
          rw [Event.Ends] at ends
          simp only [event, if_neg (Ne.symm ne)] at ends
          exact ends.2 kept
  | get key =>
      exact .inr ⟨id, (Lib.Lru.mem_answer_get represents.agrees.distinct key item).1 held⟩
  | remove key =>
      obtain ⟨older, ne⟩ := Lib.Lru.mem_without.mp held
      exact .inr ⟨fun same => ne same.symm, older⟩
  | removeWhere predicate =>
      obtain ⟨older, refused⟩ := List.mem_filter.mp held
      refine .inr ⟨?_, older⟩
      intro accepted
      have accepted : predicate item.key item.value = true := accepted
      rw [accepted] at refused
      cases refused
  | clear => cases held
  | len => exact .inr ⟨id, (List.mem_filter.mp held).1⟩

/-- An item that a call does not end stays, unless it has expired. -/
theorem kept (represents : Represents cache items) {item : Item K V} (held : item ∈ items)
    (survives : ¬ (event cache now request).Ends item.key item.value) :
    item ∈ (answer cache.capacity now items request).1 ∨ item.expiresAt ≤ now := by
  have outcome := event_outcome now request represents
  have after := (represents.answers now request).represents.agrees
  cases request with
  | insert key value ttl =>
      by_cases zero : ttl = 0
      · subst zero
        exact .inl held
      · rw [Lib.Lru.answer_insert zero] at outcome after ⊢
        have ne : key ≠ item.key := by
          intro same
          apply survives
          rw [Event.Ends]
          simp only [event, if_pos same]
          exact outcome
        -- the key is held before the call, so it still is: the call does not evict it
        have present : item.key ∈ (event cache now (.insert key value ttl)).after.entries := by
          by_contra absent
          apply survives
          rw [Event.Ends]
          simp only [event, if_neg ne]
          exact ⟨represents.agrees.mem_iff.mpr (mem_keys.mpr ⟨item, held, rfl⟩), absent⟩
        obtain ⟨other, member, same⟩ := mem_keys.mp (after.mem_iff.mp present)
        rcases Lib.Lru.mem_of_mem_newest member with added | ⟨older, -⟩
        · subst added
          exact absurd same ne
        · have equal : other = item :=
            List.inj_on_of_nodup_map represents.agrees.distinct older held same
          subst equal
          exact .inl member
  | get key => exact (Lib.Lru.mem_answer_get represents.agrees.distinct key item).2 held
  | remove key =>
      exact .inl (Lib.Lru.mem_without.mpr ⟨held, fun same => survives same.symm⟩)
  | removeWhere predicate =>
      refine .inl (List.mem_filter.mpr ⟨held, ?_⟩)
      cases accepted : predicate item.key item.value with
      | false => rfl
      | true => exact absurd accepted survives
  | clear => exact absurd trivial survives
  | len =>
      by_cases live : now < item.expiresAt
      · exact .inl (List.mem_filter.mpr ⟨held, by simpa using live⟩)
      · exact .inr (Nat.le_of_not_lt live)

theorem mem_of_inserts (represents : Represents cache items) {key : K} {value : V}
    {expiresAt : Nat} (inserts : (event cache now request).Inserts key value expiresAt) :
    ⟨key, value, expiresAt⟩ ∈ (answer cache.capacity now items request).1 := by
  obtain ⟨ttl, asked, done, expiry⟩ := inserts
  have asked : request = .insert key value ttl := asked
  subst asked
  rw [event_outcome _ _ represents] at done
  by_cases zero : ttl = 0
  · subst zero
    cases done
  · rw [Lib.Lru.answer_insert zero, expiry]
    exact Lib.Lru.mem_newest_last cache.capacity_pos

end Step

/-! ## Runs -/

/-- The list that answered the calls so far represents the cache; its items are
the insertions not ended, but for expired ones, and its order is that of the
last uses. -/
structure Told (capacity : Nat) (state : Clocked K V) (history : List (Event K V))
    (items : List (Item K V)) : Prop where
  represents : Represents state.cache items
  bound : state.cache.capacity = capacity
  answered : Lib.Lru.run capacity (history.map fun noted => (noted.now, noted.request)) =
    (items, history.map Event.outcome)
  ordered : (keys items).Pairwise (UsedSince history)
  inserted : ∀ item ∈ items, InsertedAt history item.key item.value item.expiresAt
  held : ∀ key value expiresAt, InsertedAt history key value expiresAt →
    ⟨key, value, expiresAt⟩ ∈ items ∨ expiresAt ≤ state.clock

theorem Told.init (capacity : Nat) (positive : 0 < capacity) :
    Told capacity (system (K := K) (V := V) capacity positive).init [] [] := by
  refine ⟨⟨⟨List.Perm.refl _, rfl⟩, Nat.zero_le _⟩, rfl, rfl, List.Pairwise.nil, by simp, ?_⟩
  intro key value expiresAt inserted
  obtain ⟨newer, noted, older, split, -⟩ := inserted
  exact absurd split.symm (by simp)

theorem Told.step {capacity now : Nat} {state : Clocked K V} {history : List (Event K V)}
    {items : List (Item K V)} (told : Told capacity state history items)
    (later : state.clock ≤ now) (request : Call K V) :
    Told capacity ⟨now, (state.cache.call now request).1⟩
      (event state.cache now request :: history)
      (answer capacity now items request).1 := by
  obtain ⟨represents, same, answered, ordered, inserted, held⟩ := told
  subst same
  have answers := represents.answers now request
  refine ⟨answers.represents, answers.capacity, ?_, ?_, ?_, ?_⟩
  · have outcome := answers.outcome
    rw [List.map_cons, Lib.Lru.run, answered, List.map_cons]
    exact Prod.ext rfl (congrArg (· :: _) outcome.symm)
  · have refreshed := pairwise_refresh (event state.cache now request)
      represents.agrees.distinct ordered
    rw [event_used represents] at refreshed
    exact refreshed.sublist (Lib.Lru.keys_answer represents.agrees.distinct request)
  · intro item member
    rcases born represents member with inserts | ⟨survives, older⟩
    · exact insertedAt_cons.mpr (.inl inserts)
    · exact insertedAt_cons.mpr (.inr ⟨survives, inserted item older⟩)
  · intro key value expiresAt due
    rcases insertedAt_cons.mp due with inserts | ⟨survives, due⟩
    · exact .inl (mem_of_inserts represents inserts)
    · rcases held key value expiresAt due with member | expired
      · exact kept represents member survives
      · exact .inr (Nat.le_trans expired later)

theorem told_of_reachable {capacity : Nat} {positive : 0 < capacity} {state : Clocked K V}
    {history : List (Event K V)}
    (reach : ((system capacity positive).audit note).Reachable (state, history)) :
    ∃ items, Told capacity state history items := by
  refine reach.invariant (I := fun reached => ∃ items, Told capacity reached.1 reached.2 items)
    ⟨[], Told.init capacity positive⟩ ?_
  intro before timed after told _ step
  obtain ⟨items, told⟩ := told
  obtain ⟨state, history⟩ := after
  obtain ⟨taken, noted⟩ := Lts.audit_step step
  simp only [system] at taken
  split at taken
  · rename_i later
    cases taken
    subst noted
    exact ⟨_, told.step later timed.2⟩
  · cases taken

section Insertion

variable {cache : MemoryCache K V} {items : List (Item K V)} {now ttl : Nat} {key : K} {value : V}

/-- An insertion into a full cache of an absent key drops the first item only. -/
theorem lookup_insert_full {victim : Item K V} {rest : List (Item K V)}
    (represents : Represents cache (victim :: rest)) (lifetime : ttl ≠ 0)
    (absent : key ∉ cache.entries) (full : cache.entries.entries.length = cache.capacity) (k : K) :
    (cache.call now (.insert key value ttl)).1.entries.lookup k =
      if k = key then some ⟨value, now + ttl⟩
      else if k = victim.key then none
      else cache.entries.lookup k := by
  have answers := (represents.answers now (.insert key value ttl)).represents.agrees
  have fresh := mt represents.agrees.mem_iff.mpr absent
  have counted : rest.length + 1 = cache.capacity := represents.agrees.length.symm.trans full
  rw [Lib.Lru.answer_insert lifetime, Lib.Lru.without_eq_self fresh, List.cons_append,
    Lib.Lru.newest_cons (by rw [List.length_append, List.length_singleton, counted])] at answers
  split
  · rename_i same
    subst same
    exact answers.lookup_iff.mpr (List.mem_append_right _ List.mem_cons_self)
  · rename_i other
    split
    · rename_i evicted
      subst evicted
      rw [AList.lookup_eq_none, answers.mem_iff, Lib.Lru.keys_append, List.mem_append, not_or]
      exact ⟨(List.nodup_cons.mp represents.agrees.distinct).1, by simpa [keys] using other⟩
    · rename_i survives
      apply answers.lookup_congr represents.agrees
      intro value' expiresAt
      have neither : (⟨k, value', expiresAt⟩ : Item K V) ≠ victim :=
        fun same => survives (congrArg Item.key same)
      simp [neither, other]

/-- Any other insertion drops nothing. -/
theorem lookup_insert_fits (represents : Represents cache items) (lifetime : ttl ≠ 0)
    (fits : key ∈ cache.entries ∨ cache.entries.entries.length < cache.capacity) (k : K) :
    (cache.call now (.insert key value ttl)).1.entries.lookup k =
      if k = key then some ⟨value, now + ttl⟩ else cache.entries.lookup k := by
  have answers := (represents.answers now (.insert key value ttl)).represents.agrees
  have short : (Lib.Lru.without items key ++
      [(⟨key, value, now + ttl⟩ : Item K V)]).length ≤ cache.capacity := by
    rw [List.length_append, List.length_singleton]
    rcases fits with present | room
    · obtain ⟨item, member, same⟩ := mem_keys.mp (represents.agrees.mem_iff.mp present)
      subst same
      have moved := (Lib.Lru.perm_cons_without represents.agrees.distinct member).length_eq
      rw [← List.length_cons, ← moved]
      exact represents.fits
    · have fewer : (Lib.Lru.without items key).length ≤ items.length := List.length_filter_le _ _
      rw [represents.agrees.length] at room
      omega
  rw [Lib.Lru.answer_insert lifetime, Lib.Lru.newest_of_le short] at answers
  split
  · rename_i same
    subst same
    exact answers.lookup_iff.mpr (List.mem_append_right _ List.mem_cons_self)
  · rename_i other
    apply answers.lookup_congr represents.agrees
    intro value' expiresAt
    simp [other]

end Insertion

/-- `get` hits exactly the unexpired item of the key. -/
theorem get_eq_some_iff {cache : MemoryCache K V} {items : List (Item K V)} {now : Nat} {key : K}
    {value : V} (represents : Represents cache items) :
    (cache.get now key).2 = some value ↔
      ∃ expiresAt, ⟨key, value, expiresAt⟩ ∈ items ∧ now < expiresAt := by
  have looked : ∀ expiresAt, cache.entries.lookup key = some ⟨value, expiresAt⟩ ↔
      ⟨key, value, expiresAt⟩ ∈ items := fun _ => represents.agrees.lookup_iff
  unfold MemoryCache.get
  split
  · rename_i entry found
    obtain ⟨heldValue, heldExpiry⟩ := entry
    split
    · rename_i expired
      refine ⟨by simp, ?_⟩
      intro given
      obtain ⟨expiresAt, member, live⟩ := given
      rw [(looked expiresAt).mpr member] at found
      cases found
      exact absurd expired (Nat.not_le.mpr live)
    · rename_i live
      refine ⟨?_, ?_⟩
      · intro same
        cases same
        exact ⟨heldExpiry, (looked heldExpiry).mp found, Nat.lt_of_not_le live⟩
      · intro given
        obtain ⟨expiresAt, member, -⟩ := given
        rw [(looked expiresAt).mpr member] at found
        cases found
        rfl
  · rename_i missing
    refine ⟨by simp, ?_⟩
    intro given
    obtain ⟨expiresAt, member, -⟩ := given
    rw [(looked expiresAt).mpr member] at missing
    cases missing

/-- Over every sequence of calls at non-decreasing times: the recency list names
the held keys once each, at most `capacity` of them; an insertion of an absent key
into a full cache evicts the least recently inserted or hit key and no other, and
any other insertion evicts nothing; a lookup returns the value last inserted
unless that was taken back or has expired; and the results are those of the
ordered association list. -/
theorem memoryCache_refines_lru {capacity : Nat} {positive : 0 < capacity}
    {state : Clocked K V} {history : List (Event K V)}
    (reach : ((system capacity positive).audit note).Reachable (state, history)) :
    state.cache.leastToMostRecent.Nodup ∧
    state.cache.leastToMostRecent.Perm state.cache.entries.keys ∧
    state.cache.entries.entries.length ≤ capacity ∧
    (∀ now key value ttl, ttl ≠ 0 → key ∉ state.cache.entries →
      state.cache.entries.entries.length = capacity →
      ∃ victim ∈ state.cache.entries,
        (∀ other ∈ state.cache.entries, other ≠ victim → UsedSince history victim other) ∧
        ∀ k, (state.cache.call now (.insert key value ttl)).1.entries.lookup k =
          if k = key then some ⟨value, now + ttl⟩
          else if k = victim then none
          else state.cache.entries.lookup k) ∧
    (∀ now key value ttl, ttl ≠ 0 →
      key ∈ state.cache.entries ∨ state.cache.entries.entries.length < capacity →
      ∀ k, (state.cache.call now (.insert key value ttl)).1.entries.lookup k =
        if k = key then some ⟨value, now + ttl⟩ else state.cache.entries.lookup k) ∧
    (∀ now key value, state.clock ≤ now →
      ((state.cache.get now key).2 = some value ↔
        ∃ expiresAt, InsertedAt history key value expiresAt ∧ now < expiresAt)) ∧
    history.map Event.outcome =
      (Lib.Lru.run capacity (history.map fun noted => (noted.now, noted.request))).2 := by
  obtain ⟨items, told⟩ := told_of_reachable reach
  have agrees := told.represents.agrees
  have bound := told.bound
  refine ⟨?_, agrees.perm, ?_, ?_, ?_, ?_, ?_⟩
  · rw [agrees.recency]
    exact agrees.distinct
  · rw [agrees.length, ← bound]
    exact told.represents.fits
  · intro now key value ttl lifetime absent full
    rw [← bound] at full
    cases shape : items with
    | nil =>
        rw [agrees.length, shape] at full
        exact absurd full (Nat.ne_of_lt state.cache.capacity_pos)
    | cons victim rest =>
        have ordered := told.ordered
        have represents := told.represents
        rw [shape] at ordered represents
        refine ⟨victim.key, ?_, ?_, lookup_insert_full represents lifetime absent full⟩
        · exact represents.agrees.mem_iff.mpr List.mem_cons_self
        · intro other held ne
          rcases List.mem_cons.mp (represents.agrees.mem_iff.mp held) with same | later
          · exact absurd same ne
          · exact (List.pairwise_cons.mp ordered).1 other later
  · intro now key value ttl lifetime fits
    rw [← bound] at fits
    exact lookup_insert_fits told.represents lifetime fits
  · intro now key value later
    rw [get_eq_some_iff told.represents]
    refine ⟨?_, ?_⟩
    · intro given
      obtain ⟨expiresAt, member, live⟩ := given
      exact ⟨expiresAt, told.inserted _ member, live⟩
    · intro given
      obtain ⟨expiresAt, due, live⟩ := given
      rcases told.held key value expiresAt due with member | expired
      · exact ⟨expiresAt, member, live⟩
      · omega
  · rw [told.answered]

/-- A hit saves the older of two keys: the next insertion evicts the other one. -/
theorem memoryCache_evicts_the_key_not_hit :
    ∃ (state : Clocked Nat Nat) (history : List (Event Nat Nat)),
      ((system 2 (by decide)).audit note).Reachable (state, history) ∧
      state.cache.leastToMostRecent = [2, 1] ∧
      ∃ victim ∈ state.cache.entries,
        ∀ other ∈ state.cache.entries, other ≠ victim → UsedSince history victim other := by
  have run : ((system 2 (by decide)).exec (system (K := Nat) (V := Nat) 2 (by decide)).init
      [(1, .insert 1 10 9), (2, .insert 2 20 9), (3, .get 1)]).map
        (fun state => (state.cache.leastToMostRecent, state.cache.entries.keys)) =
      some ([2, 1], [2, 1]) := by decide +kernel
  obtain ⟨state, executed, ends⟩ := Option.map_eq_some_iff.mp run
  obtain ⟨recency, held⟩ := Prod.mk.inj ends
  have reached := Lts.reachable_of_exec _ executed
  obtain ⟨history, reach⟩ : ∃ history, ((system 2 (by decide)).audit note).Reach
      (fun reached action => Lts.Always reached.1 action) (state, history) :=
    Lts.reach_audit_iff.mp reached
  have whole := memoryCache_refines_lru (reach.weaken fun _ _ _ => trivial)
  have absent : 3 ∉ state.cache.entries := by
    rw [AList.mem_keys, held]
    decide
  have full : state.cache.entries.entries.length = 2 := by
    rw [← List.length_map Sigma.fst]
    exact congrArg List.length held
  obtain ⟨victim, member, least, -⟩ :=
    whole.2.2.2.1 4 3 30 9 (by decide) absent full
  exact ⟨state, history, reach.weaken fun _ _ _ => trivial, recency, victim, member, least⟩

end RustZero.Cache.MemoryCache
