import RustZero.ReadThroughCache
import RustZero.RedisModelCache

/-!
# Whether an invalidation sticks

The loaders of `ReadThroughCache` and `RedisModelCache` write what they fetched
after an await and check nothing, and late callers join an old flight.  So a call
that begins after a removal has returned may get a value whose fetch was started
before it.  Unlike the cache-aside store of `CachedStore` the two have no
generation.

* `removals_stick`: in the runs in which no value is written, and no flight joined,
  across a removal of its key, every call observes the removals before it.
* `slow_fetches_outlive_removals`: other runs of both caches in which a call does
  not.
-/

namespace RustZero.CacheInvalidation

open Lib Cache SingleFlight Staleness RedisModel

/-- In every run in which a fetched value is written only when its key was not
removed since the fetch was started, and a flight is joined only when its fetch was
not started before a removal the caller has to observe: a call that began after a
`remove` or `invalidate` of its key had returned returns no value whose fetch was
started before that removal. -/
theorem removals_stick {N C R K V E T B F : Type} [DecidableEq N] [DecidableEq C]
    [DecidableEq R] [DecidableEq K] (capacity : Nat) (positive : 0 < capacity)
    (setup : RedisModel.Setup N T B) :
    (∀ s : ReadThrough.System C R K V E,
      (ReadThrough.lts C R K V E capacity positive).Reach ReadThrough.Sticks s →
      ∀ call key began value, ReadThrough.Returns s call key began value →
      ∀ other removedAt removed, s.removes other = .removed key removedAt removed →
      removedAt < began → removedAt < value.startedAt) ∧
    (∀ s : RedisModel.System N C R T B F,
      (RedisModel.lts N C R F setup).Reach RedisModel.Sticks s →
      ∀ cache call key began value, RedisModel.Returns s cache call key began value →
      ∀ other removed deleted returnedAt deletedAt,
      s.invalidates other = .returned removed deleted returnedAt →
      (key, deletedAt) ∈ deleted → returnedAt < began → deletedAt < value.startedAt) := by
  constructor
  · intro s reach call key began value returns other removedAt removed eq before
    have fresh := (ReadThrough.Inv.reach reach).returns_fresh returns
    exact fresh key began rfl removedAt removedAt ⟨⟨other, removed, eq⟩, rfl⟩ before
  · intro s reach cache call key began value returns other removed deleted returnedAt deletedAt
      eq member before
    have fresh := (RedisModel.Inv.reach reach).returns_fresh returns
    exact fresh key began rfl deletedAt returnedAt ⟨other, removed, deleted, eq, member⟩ before

/-- Calls on one `ReadThroughCache` of numbers. -/
abbrev LocalSystem := ReadThrough.System Nat Unit Nat Nat Unit

/-- A document of the tagged representation of entries. -/
structure Document where
  state : String
  value : Option Nat

def documentCodec : RedisModel.Codec Nat Document where
  toVec
    | .value model => some ⟨"value", some model⟩
    | .notFound => some ⟨"not_found", none⟩
  fromSlice document :=
    if document.state = "value" then document.value.map .value
    else if document.state = "not_found" then some .notFound
    else none

/-- Two instances on one namespace. -/
def pairSetup : RedisModel.Setup Bool Nat Document :=
  ⟨fun _ => { ttl := 60000000000 }, documentCodec, "app:"⟩

abbrev SharedSystem := RedisModel.System Bool Nat Unit Nat Document Unit

/-- A key is removed and a `take` loads it afterwards. -/
def takeAfterRemove : List (ReadThrough.Action Nat Unit Nat Nat Unit) :=
  [.remove () 7, .take 0 7 60, .enter 0, .flight (.poll 0 .run), .flight (.poll 0 .run),
    .flight (.poll 0 (.fetch (.ok 43))), .flight (.poll 0 .run), .flight (.complete 0),
    .flight (.disarm 0)]

/-- One instance invalidates a key, and the other loads it afterwards. -/
def fetchAfterInvalidate : List (RedisModel.Action Bool Nat Unit Nat Document Unit) :=
  [.invalidate true () ["user:7"], .proceed true (), .proceed true (),
    .getOrFetch false 0 "user:7", .enter false 0, .flight false (.poll 0 .run),
    .flight false (.poll 0 .run), .flight false (.poll 0 (.fetch (.ok (some 43)))),
    .flight false (.poll 0 .run), .flight false (.poll 0 .run), .serve false 0,
    .flight false (.poll 0 .run), .flight false (.complete 0), .flight false (.disarm 0)]

theorem takeAfterRemove_sticks :
    (ReadThrough.lts Nat Unit Nat Nat Unit 8 (by decide)).Meets ReadThrough.Sticks
      (ReadThrough.System.new Nat Unit Nat Nat Unit 8 (by decide)) takeAfterRemove := by
  refine ⟨trivial, trivial, ?_, nofun, nofun, nofun, ?_, trivial, trivial, trivial⟩
  · intro key ttl began leader startedAt _ holds
    rcases holds with ⟨op, leading, _⟩ | ⟨value, finished, _⟩
    · cases leading
    · cases finished
  · rintro key ttl value leading removedAt ⟨call, removed, eq⟩
    cases leading
    cases eq
    decide

theorem fetchAfterInvalidate_sticks :
    (RedisModel.lts Bool Nat Unit Unit pairSetup).Meets RedisModel.Sticks
      (RedisModel.System.new Bool Nat Unit Nat Document Unit) fetchAfterInvalidate := by
  refine ⟨trivial, trivial, trivial, trivial, ?_, trivial, trivial, trivial, trivial, trivial,
    ?_, trivial, trivial, trivial, trivial⟩
  · intro key began leader startedAt _ holds
    rcases holds with ⟨op, leading, _⟩ | ⟨value, finished, _⟩
    · cases leading
    · cases finished
  · rintro key bytes millis sent deletedAt ⟨⟨cache, call⟩, member⟩
    cases sent
    -- the one `invalidate` has deleted the one key it was called with
    have deleted : ∀ cache : Bool, ∀ entry ∈ (Function.update (Function.update
        (Function.update (fun _ => InvalidateCall.idle) (true, ()) (.deleting ["user:7"] 0 []))
        (true, ()) (.deleting [] 0 [("user:7", 1)])) (true, ())
        (.returned 0 [("user:7", 1)] 2) (cache, ())).deleted, entry.2 = 1 := by
      decide
    have first : deletedAt = 1 := deleted cache _ member
    subst first
    exact (by decide : 1 < 6)

theorem removals_stick_before_loads :
    (∃ s : LocalSystem, (ReadThrough.lts Nat Unit Nat Nat Unit 8 (by decide)).Reach
        ReadThrough.Sticks s ∧
      ∃ value, ReadThrough.Returns s 0 7 1 value ∧ value.value = 43 ∧ 0 < value.startedAt) ∧
    (∃ s : SharedSystem, (RedisModel.lts Bool Nat Unit Unit pairSetup).Reach
        RedisModel.Sticks s ∧
      ∃ value, RedisModel.Returns s false 0 "user:7" 3 value ∧ value.value = some 43 ∧
        1 < value.startedAt) := by
  obtain ⟨localSticks, sharedSticks⟩ := removals_stick (N := Bool) (C := Nat) (R := Unit)
    (K := Nat) (V := Nat) (E := Unit) (F := Unit) 8 (by decide) pairSetup
  constructor
  · have reach := Lts.reach_of_exec takeAfterRemove takeAfterRemove_sticks rfl
    exact ⟨_, reach, _, .inr ⟨rfl, rfl⟩, rfl,
      localSticks _ reach 0 7 1 _ (.inr ⟨rfl, rfl⟩) () 0 _ rfl (by decide)⟩
  · have reach := Lts.reach_of_exec fetchAfterInvalidate fetchAfterInvalidate_sticks rfl
    exact ⟨_, reach, _, ⟨rfl, rfl⟩, rfl,
      sharedSticks _ reach false 0 "user:7" 3 _ ⟨rfl, rfl⟩ (true, ()) 0 _ 2 1 rfl (.head _)
        (by decide)⟩

/-- A fetch is started, the key is removed, and the fetched value is stored after
that: a call that begins later gets it from the cache. -/
theorem slow_fetches_outlive_removals :
    (∃ s : LocalSystem, (ReadThrough.lts Nat Unit Nat Nat Unit 8 (by decide)).Reachable s ∧
      ∃ began value removedAt removed, ReadThrough.Returns s 1 7 began value ∧
        s.removes () = .removed 7 removedAt removed ∧ removedAt < began ∧
        value.startedAt < removedAt) ∧
    (∃ s : SharedSystem, (RedisModel.lts Bool Nat Unit Unit pairSetup).Reachable s ∧
      ∃ began value removed deletedAt returnedAt, RedisModel.Returns s true 0 "user:7" began value ∧
        s.invalidates (true, ()) = .returned removed [("user:7", deletedAt)] returnedAt ∧
        returnedAt < began ∧ value.startedAt < deletedAt) :=
  ⟨⟨_, Lts.reachable_of_exec [.take 0 7 60, .enter 0, .flight (.poll 0 .run),
      .flight (.poll 0 .run), .remove () 7, .flight (.poll 0 (.fetch (.ok 42))),
      .flight (.poll 0 .run), .get 1 7] rfl,
    _, _, _, _, .inl rfl, rfl, by decide, by decide⟩,
  ⟨_, Lts.reachable_of_exec [.getOrFetch false 0 "user:7", .enter false 0,
      .flight false (.poll 0 .run), .flight false (.poll 0 .run),
      .invalidate true () ["user:7"], .proceed true (), .proceed true (),
      .flight false (.poll 0 (.fetch (.ok (some 42)))), .flight false (.poll 0 .run),
      .flight false (.poll 0 .run), .serve false 0, .getOrFetch true 0 "user:7", .enter true 0,
      .flight true (.poll 0 .run), .flight true (.complete 0), .flight true (.disarm 0)] rfl,
    _, _, _, _, _, ⟨rfl, rfl⟩, rfl, by decide, by decide⟩⟩

end RustZero.CacheInvalidation
