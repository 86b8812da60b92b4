import Mathlib
import RustZero.Lib.Arrangement
import RustZero.Lib.Rotation
import RustZero.Gateway

/-!
# Selection of a gateway upstream

`gateway/src/lib.rs`, `GatewayRouter`: which lists of routes `new` rejects, and how `select`
and `select_target` choose a route and one of its upstreams.  The counter of a route is the
state; each selection on the route advances it, whether an upstream is healthy or not.

* `new` compares neighbours after a sort by length.  Whether equal prefixes meet depends on
  the other prefixes of their length, and on a sort that promises nothing about them.
* The rotation is over the positions of the list, and an unhealthy one passes its turn on to
  the next, so the upstream after it gets two.
-/

namespace RustZero.Gateway

open Lib

/-! ## Duplicate prefixes -/

/-- `new` rejects the list exactly if two of its prefixes are the same. -/
def RejectsExactly (sorting : UnstableSort RoutePool RoutePool.length)
    (routes : List GatewayRoute) : Prop :=
  (∃ pathPrefix, GatewayRouter.new sorting routes = .error (.duplicatePrefix pathPrefix)) ↔
    ¬(routes.map GatewayRoute.pathPrefix).Nodup

/-- The length `new` sorts by. -/
def GatewayRoute.length (route : GatewayRoute) : Nat := route.pathPrefix.utf8ByteSize

/-- A prefix that more than half of the routes of its length have. -/
def Crowded (routes : List GatewayRoute) : Prop :=
  ∃ pathPrefix : String,
    (keyed GatewayRoute.length pathPrefix.utf8ByteSize routes).length + 1 <
      2 * named GatewayRoute.pathPrefix pathPrefix routes

/-- Two routes with one prefix and no other route of that length between them. -/
def Touching (routes : List GatewayRoute) : Prop :=
  ∃ size, ¬Apart GatewayRoute.pathPrefix (keyed GatewayRoute.length size routes)

section Duplicates

variable {sorting : UnstableSort RoutePool RoutePool.length} {routes : List GatewayRoute}

def RoutePool.pathPrefix (pool : RoutePool) : String := pool.route.pathPrefix

theorem adjacentDuplicate_eq_none {pools : List RoutePool} :
    adjacentDuplicate pools = none ↔ Apart RoutePool.pathPrefix pools := by
  induction pools with
  | nil => exact ⟨fun _ => .nil, fun _ => rfl⟩
  | cons first rest ih =>
      cases rest with
      | nil => exact ⟨fun _ => .singleton _, fun _ => rfl⟩
      | cons second rest =>
          rw [adjacentDuplicate, Apart, List.isChain_cons_cons, ← Apart, ← ih]
          split
          · rename_i same
            simp [RoutePool.pathPrefix, same]
          · rename_i differ
            simp [RoutePool.pathPrefix, differ]

theorem rejects_iff :
    (∃ pathPrefix, GatewayRouter.new sorting routes = .error (.duplicatePrefix pathPrefix)) ↔
      ¬Apart RoutePool.pathPrefix (sorting.sort (routes.map RoutePool.new)) := by
  rw [← adjacentDuplicate_eq_none]
  simp only [GatewayRouter.new]
  cases adjacentDuplicate (sorting.sort (routes.map RoutePool.new)) with
  | none => simp
  | some pathPrefix => simp

theorem nodup_sort : ((sorting.sort (routes.map RoutePool.new)).map RoutePool.pathPrefix).Nodup ↔
    (routes.map GatewayRoute.pathPrefix).Nodup := by
  rw [((sorting.perm _).map _).nodup_iff, List.map_map]
  rfl

/-- A list without duplicates is accepted. -/
theorem rejectsExactly_iff :
    RejectsExactly sorting routes ↔ (routes.map GatewayRoute.pathPrefix).Nodup ∨
      ¬Apart RoutePool.pathPrefix (sorting.sort (routes.map RoutePool.new)) := by
  rw [RejectsExactly, rejects_iff]
  by_cases distinct : (routes.map GatewayRoute.pathPrefix).Nodup
  · have nodup : ((sorting.sort (routes.map RoutePool.new)).map RoutePool.pathPrefix).Nodup :=
      nodup_sort.mpr distinct
    have apart := Apart.of_nodup _ nodup
    simp [distinct, apart]
  · simp [distinct]

theorem keyed_pools (size : Nat) : keyed RoutePool.length size (routes.map RoutePool.new) =
    (keyed GatewayRoute.length size routes).map RoutePool.new := by
  rw [keyed, List.filter_map]
  rfl

theorem apart_pools {routes : List GatewayRoute} :
    Apart RoutePool.pathPrefix (routes.map RoutePool.new) ↔
      Apart GatewayRoute.pathPrefix routes := by
  rw [Apart, List.isChain_map]
  rfl

theorem length_of_prefix (left right : RoutePool) (same : left.pathPrefix = right.pathPrefix) :
    left.length = right.length :=
  congrArg String.utf8ByteSize same

theorem named_keyed_pools (size : Nat) (own : String) :
    named RoutePool.pathPrefix own (keyed RoutePool.length size (routes.map RoutePool.new)) =
      if own.utf8ByteSize = size then named GatewayRoute.pathPrefix own routes else 0 := by
  rw [keyed_pools, named, List.countP_map, keyed, List.countP_filter, named]
  split
  · rename_i mine
    refine List.countP_congr ?_
    intro route _
    constructor
    · intro held
      exact decide_eq_true (of_decide_eq_true (Bool.and_eq_true_iff.mp held).1)
    · intro held
      have same : route.pathPrefix = own := of_decide_eq_true held
      have alike : route.length = size := by rw [GatewayRoute.length, same, mine]
      exact Bool.and_eq_true_iff.mpr ⟨decide_eq_true same, decide_eq_true alike⟩
  · rename_i other
    rw [List.countP_eq_zero]
    intro route _ held
    obtain ⟨same, alike⟩ := Bool.and_eq_true_iff.mp held
    have same : route.pathPrefix = own := of_decide_eq_true same
    have alike : route.length = size := of_decide_eq_true alike
    rw [← same] at other
    exact other alike

theorem exists_apart_iff :
    (∃ sorting : UnstableSort RoutePool RoutePool.length,
      Apart RoutePool.pathPrefix (sorting.sort (routes.map RoutePool.new))) ↔ ¬Crowded routes := by
  rw [exists_sort_apart_iff length_of_prefix, Crowded]
  push Not
  constructor
  · intro fits own
    have fewer := fits own.utf8ByteSize own
    rwa [named_keyed_pools, if_pos rfl, keyed_pools, List.length_map] at fewer
  · intro fits size own
    rw [named_keyed_pools, keyed_pools, List.length_map]
    split
    · rename_i mine
      exact mine ▸ fits own
    · exact Nat.zero_le _

/-- Whatever the sort does within its promise, `new` rejects exactly the lists with a
duplicate only where no arrangement could keep it apart.  The insertion sort, which the
standard library takes for up to twenty routes, is stable. -/
theorem new_rejects_exactly_iff (routes : List GatewayRoute) :
    ((∀ sorting, RejectsExactly sorting routes) ↔
      (routes.map GatewayRoute.pathPrefix).Nodup ∨ Crowded routes) ∧
    (RejectsExactly (.stable RoutePool RoutePool.length) routes ↔
      (routes.map GatewayRoute.pathPrefix).Nodup ∨ Touching routes) := by
  simp only [rejectsExactly_iff]
  constructor
  · rw [forall_or_left, ← not_exists, exists_apart_iff, not_not]
  · rw [apart_stable_iff length_of_prefix, Touching]
    push Not
    simp only [keyed_pools, apart_pools]

end Duplicates

/-- A duplicate with another route of its length between. -/
theorem new_accepts_separated_duplicate :
    ¬RejectsExactly (.stable RoutePool RoutePool.length)
      [⟨"/aa", ["http://one"], []⟩, ⟨"/ab", ["http://two"], []⟩,
        ⟨"/aa", ["http://three"], []⟩] := by
  intro exact
  obtain ⟨_, rejected⟩ := exact.mpr (by decide)
  have accepted : (GatewayRouter.new (.stable RoutePool RoutePool.length)
      [⟨"/aa", ["http://one"], []⟩, ⟨"/ab", ["http://two"], []⟩,
        ⟨"/aa", ["http://three"], []⟩]).toOption.isSome = true := by
    decide +kernel
  rw [rejected] at accepted
  cases accepted

/-! ## Selection -/

/-- `len` is the divisor of a remainder. -/
inductive Panic where
  | remainderByZero
  deriving DecidableEq, Repr

/-- What `find_map` looks for; the two lists have one length. -/
def RoutePool.healthyUpstream (pool : RoutePool) (index : Nat) : Option String :=
  if pool.healthy[index]? = some true then pool.route.upstreams[index]? else none

def RoutePool.selectHealthy (pool : RoutePool) : Except Panic (Option String) × RoutePool :=
  let len := pool.route.upstreams.length
  let selected :=
    if len = 0 then .error .remainderByZero
    else
      .ok ((List.range len).findSome? fun offset =>
        pool.healthyUpstream ((pool.nextUpstream % len + offset) % len))
  (selected, { pool with nextUpstream := (pool.nextUpstream + 1) % 2 ^ 64 })

/-- `find`, and then a method of what was found. -/
def onFirst {α β : Type} (hits : α → Bool) (missing : β) (method : α → β × α) :
    List α → β × List α
  | [] => (missing, [])
  | value :: rest =>
      if hits value then ((method value).1, (method value).2 :: rest)
      else ((onFirst hits missing method rest).1, value :: (onFirst hits missing method rest).2)

def GatewayRouter.select (router : GatewayRouter) (path : String) :
    Except Panic (Option String) × GatewayRouter :=
  let selected := onFirst (fun pool => matchesPrefix path pool.route.pathPrefix) (.ok none)
    RoutePool.selectHealthy router.routes
  (selected.1, ⟨selected.2⟩)

/-- `split('?').next()`. -/
def beforeQuery (pathAndQuery : String) : String :=
  String.ofList (pathAndQuery.toList.takeWhile (· != '?'))

/-- `str::trim_end_matches('/')`. -/
def trimEndSlashes (text : String) : String :=
  String.ofList (text.toList.reverse.dropWhile (· == '/')).reverse

def targetUrl (upstream pathAndQuery : String) : String :=
  trimEndSlashes upstream ++
    if startsWithSlash pathAndQuery then pathAndQuery else "/" ++ pathAndQuery

def GatewayRouter.selectTargetWithMiddleware (router : GatewayRouter) (pathAndQuery : String) :
    Except Panic (Option (String × List String)) × GatewayRouter :=
  let path := beforeQuery pathAndQuery
  let selected := onFirst (fun pool => matchesPrefix path pool.route.pathPrefix) (.ok none)
    (fun pool =>
      (pool.selectHealthy.1.map fun healthy => healthy.map fun upstream =>
        (targetUrl upstream pathAndQuery, pool.route.middleware), pool.selectHealthy.2))
    router.routes
  (selected.1, ⟨selected.2⟩)

def GatewayRouter.selectTarget (router : GatewayRouter) (pathAndQuery : String) :
    Except Panic (Option String) × GatewayRouter :=
  let selected := router.selectTargetWithMiddleware pathAndQuery
  (selected.1.map fun target => target.map Prod.fst, selected.2)

def RoutePool.setHealth (upstream : String) (healthy : Bool) (pool : RoutePool) :
    Except GatewayError Unit × RoutePool :=
  match pool.route.upstreams.idxOf? upstream with
  | none => (.error (.unknownUpstream upstream), pool)
  | some index => (.ok (), { pool with healthy := pool.healthy.set index healthy })

def GatewayRouter.setUpstreamHealth (router : GatewayRouter) (pathPrefix upstream : String)
    (healthy : Bool) : Except GatewayError Unit × GatewayRouter :=
  let stored := onFirst (fun pool => pool.route.pathPrefix == pathPrefix)
    (.error (.unknownPrefix pathPrefix)) (RoutePool.setHealth upstream healthy) router.routes
  (stored.1, ⟨stored.2⟩)

/-! ## What it is for -/

/-- A prefix matches on whole segments. -/
def Covers (pathPrefix path : String) : Prop :=
  pathPrefix = "/" ∨ path = pathPrefix ∨ ∃ rest, path = pathPrefix ++ "/" ++ rest

/-- The route of the longest prefix that matches. -/
structure Chosen (routes : List GatewayRoute) (path : String) (route : GatewayRoute) : Prop where
  member : route ∈ routes
  covers : Covers route.pathPrefix path
  longest : ∀ other ∈ routes, Covers other.pathPrefix path →
    other.pathPrefix.utf8ByteSize ≤ route.pathPrefix.utf8ByteSize

/-- A router of some routes, whatever was selected and marked since it was built. -/
structure GatewayRouter.Serves (router : GatewayRouter)
    (sorting : UnstableSort RoutePool RoutePool.length) (routes : List GatewayRoute) : Prop where
  built : ∃ fresh, GatewayRouter.new sorting routes = .ok fresh ∧
    router.routes.map RoutePool.route = fresh.routes.map RoutePool.route
  flags : ∀ pool ∈ router.routes, pool.healthy.length = pool.route.upstreams.length
  counters : ∀ pool ∈ router.routes, pool.nextUpstream < 2 ^ 64

/-- A selection for a path: what it answers, and of which route. -/
structure GatewayRouter.Selects (router : GatewayRouter) (routes : List GatewayRoute)
    (path : String) : Prop where
  unique : ∀ left right, Chosen routes path left → Chosen routes path right → left = right
  returns : ∀ panic, (router.select path).1 ≠ .error panic
  none_iff : (router.select path).1 = .ok none ↔ (∀ route ∈ routes, ¬Covers route.pathPrefix path) ∨
    ∃ pool ∈ router.routes, Chosen routes path pool.route ∧ true ∉ pool.healthy
  healthy : ∀ upstream, (router.select path).1 = .ok (some upstream) →
    ∃ pool ∈ router.routes, Chosen routes path pool.route ∧
      ∃ index : Nat, pool.healthy[index]? = some true ∧ pool.route.upstreams[index]? = some upstream

/-- What `select_target` makes of an answer of `select`: it and its route's middleware. -/
structure GatewayRouter.Agrees (router : GatewayRouter) (routes : List GatewayRoute)
    (pathAndQuery : String) : Prop where
  state : (router.selectTarget pathAndQuery).2 = (router.select (beforeQuery pathAndQuery)).2
  target : (router.selectTarget pathAndQuery).1 =
    (router.select (beforeQuery pathAndQuery)).1.map fun answer =>
      answer.map fun upstream => targetUrl upstream pathAndQuery
  middleware : ∀ target middleware,
    (router.selectTargetWithMiddleware pathAndQuery).1 = .ok (some (target, middleware)) →
      ∃ route, Chosen routes (beforeQuery pathAndQuery) route ∧ middleware = route.middleware

/-- The answers of the selections in a run that fall to a route. -/
def GatewayRouter.answersOf (route : GatewayRoute) :
    GatewayRouter → List String → List (Except Panic (Option String))
  | _, [] => []
  | router, path :: rest =>
      let later := (router.select path).2.answersOf route rest
      if (router.find path).any fun pool => pool.route = route then
        (router.select path).1 :: later
      else later

/-- The healthy positions of a route. -/
def RoutePool.isHealthy (pool : RoutePool) (index : Nat) : Bool := pool.healthy[index]? == some true

/-- As many selections on a route as it has upstreams, whatever other routes are asked in
between.  The counter does not wrap. -/
structure GatewayRouter.Turn (router : GatewayRouter) (pool : RoutePool) (paths : List String) :
    Prop where
  length : (router.answersOf pool.route paths).length = pool.route.upstreams.length
  counter : pool.nextUpstream + pool.route.upstreams.length ≤ 2 ^ 64

/-- A turn takes each healthy position once, and once more for each unhealthy one directly
before it. -/
structure GatewayRouter.Rotates (router : GatewayRouter) (pool : RoutePool)
    (paths : List String) : Prop where
  shares : true ∈ pool.healthy → ∃ positions : List Nat,
    router.answersOf pool.route paths =
      positions.map (fun index => .ok pool.route.upstreams[index]?) ∧
    (∀ index ∈ positions, pool.isHealthy index = true) ∧
    ∀ index, pool.isHealthy index = true → positions.count index =
      closedBefore pool.isHealthy pool.route.upstreams.length index + 1
  each : false ∉ pool.healthy → (router.answersOf pool.route paths).Perm
    (pool.route.upstreams.map fun upstream => .ok (some upstream))

/-! ## Selecting -/

section OnFirst

variable {α β : Type} {hits : α → Bool} {missing : β} {method : α → β × α} {values : List α}

theorem onFirst_of_find_none (none : values.find? hits = none) :
    onFirst hits missing method values = (missing, values) := by
  induction values with
  | nil => rfl
  | cons first rest ih =>
      rw [List.find?_cons] at none
      split at none
      · cases none
      · rename_i missed
        rw [onFirst, missed, ih none]
        rfl

theorem onFirst_of_find (missing : β) (method : α → β × α) {value : α}
    (found : values.find? hits = some value) :
    ∃ before after, values = before ++ value :: after ∧ (∀ other ∈ before, hits other = false) ∧
      onFirst hits missing method values =
        ((method value).1, before ++ (method value).2 :: after) := by
  induction values with
  | nil => cases found
  | cons first rest ih =>
      rw [List.find?_cons] at found
      split at found
      · rename_i hit
        cases found
        refine ⟨[], rest, rfl, by simp, ?_⟩
        rw [onFirst, if_pos hit]
        rfl
      · rename_i missed
        obtain ⟨before, after, split, others, result⟩ := ih found
        refine ⟨first :: before, after, by rw [split]; rfl, ?_, ?_⟩
        · intro other member
          rcases List.mem_cons.mp member with same | later
          · rw [same]
            exact missed
          · exact others other later
        · rw [onFirst, if_neg (by simp [missed]), result]
          rfl

theorem onFirst_snd_congr {γ : Type} {missing' : γ} {method' : α → γ × α}
    (same : ∀ value, (method value).2 = (method' value).2) :
    (onFirst hits missing method values).2 = (onFirst hits missing' method' values).2 := by
  induction values with
  | nil => rfl
  | cons first rest ih =>
      simp only [onFirst]
      split
      · rw [same]
      · rw [ih]

theorem onFirst_map_snd {γ : Type} {view : α → γ}
    (same : ∀ value, view (method value).2 = view value) :
    (onFirst hits missing method values).2.map view = values.map view := by
  induction values with
  | nil => rfl
  | cons first rest ih =>
      simp only [onFirst]
      split
      · rw [List.map_cons, List.map_cons, same]
      · rw [List.map_cons, List.map_cons, ih]

theorem onFirst_find?_self (same : ∀ value, hits (method value).2 = hits value) :
    (onFirst hits missing method values).2.find? hits =
      (values.find? hits).map fun value => (method value).2 := by
  induction values with
  | nil => rfl
  | cons first rest ih =>
      cases hit : hits first with
      | true => simp [onFirst, hit, same]
      | false => simp [onFirst, hit, ih]

theorem onFirst_find?_other {other : α → Bool}
    (same : ∀ value, other (method value).2 = other value)
    (apart : ∀ value, hits value = true → other value = false) :
    (onFirst hits missing method values).2.find? other = values.find? other := by
  induction values with
  | nil => rfl
  | cons first rest ih =>
      cases hit : hits first with
      | true => simp [onFirst, hit, same, apart first hit]
      | false => simp [onFirst, hit, List.find?_cons, ih]

theorem onFirst_forall {holds : α → Prop} (all : ∀ value ∈ values, holds value)
    (keeps : ∀ value, holds value → holds (method value).2) :
    ∀ value ∈ (onFirst hits missing method values).2, holds value := by
  induction values with
  | nil => exact all
  | cons first rest ih =>
      obtain ⟨here, later⟩ := List.forall_mem_cons.mp all
      simp only [onFirst]
      split
      · exact List.forall_mem_cons.mpr ⟨keeps first here, later⟩
      · exact List.forall_mem_cons.mpr ⟨here, ih later⟩

end OnFirst

theorem covers_iff {path pathPrefix : String} :
    matchesPrefix path pathPrefix = true ↔ Covers pathPrefix path := by
  have longer : (stripPrefix path pathPrefix).any startsWithSlash = true ↔
      ∃ rest, path = pathPrefix ++ "/" ++ rest := by
    rw [Option.any_eq_true]
    constructor
    · intro held
      obtain ⟨tail, stripped, slash⟩ := held
      obtain ⟨rest, split⟩ := slash_begins slash
      refine ⟨String.ofList rest, String.toList_inj.mp ?_⟩
      rw [stripPrefix_eq_some stripped, ← split]
      simp
    · intro held
      obtain ⟨rest, same⟩ := held
      refine ⟨"/" ++ rest, ?_, by simp [startsWithSlash]⟩
      have text : path.toList = pathPrefix.toList ++ ("/" ++ rest).toList := by
        rw [same]
        simp
      rw [stripPrefix, if_pos ⟨_, text.symm⟩, text, List.drop_left]
      simp
  rw [matchesPrefix, coversPath, Bool.or_eq_true, Bool.or_eq_true, beq_iff_eq, beq_iff_eq, longer,
    Covers]

section Pools

variable {pool : RoutePool}

/-- What a selection that starts at some position answers. -/
def RoutePool.answerAt (pool : RoutePool) (start : Nat) : Option String :=
  (firstFrom pool.isHealthy pool.route.upstreams.length start).bind fun index =>
    pool.route.upstreams[index]?

theorem findSome?_healthy (indices : List Nat)
    (bounded : ∀ index ∈ indices, index < pool.route.upstreams.length) :
    indices.findSome? pool.healthyUpstream =
      (indices.find? pool.isHealthy).bind fun index => pool.route.upstreams[index]? := by
  induction indices with
  | nil => rfl
  | cons first rest ih =>
      rw [List.findSome?_cons, List.find?_cons]
      cases flagged : pool.isHealthy first with
      | true =>
          have flag : pool.healthy[first]? = some true := by
            simpa [RoutePool.isHealthy] using flagged
          have inside := bounded first List.mem_cons_self
          simp [RoutePool.healthyUpstream, flag, inside]
      | false =>
          have flag : pool.healthy[first]? ≠ some true := by
            simpa [RoutePool.isHealthy] using flagged
          simp only [RoutePool.healthyUpstream, if_neg flag]
          exact ih fun index member => bounded index (List.mem_cons_of_mem _ member)

theorem selectHealthy_fst (some : pool.route.upstreams ≠ []) :
    pool.selectHealthy.1 = .ok (pool.answerAt pool.nextUpstream) := by
  have positive := List.length_pos_iff.mpr some
  have mapped := findSome?_healthy
    ((List.range pool.route.upstreams.length).map fun offset =>
      (pool.nextUpstream + offset) % pool.route.upstreams.length) (by
      intro index member
      obtain ⟨offset, _, same⟩ := List.mem_map.mp member
      rw [← same]
      exact Nat.mod_lt _ positive)
  rw [List.findSome?_map, List.find?_map] at mapped
  simp only [RoutePool.selectHealthy, if_neg (Nat.ne_of_gt positive), Nat.mod_add_mod]
  rw [RoutePool.answerAt, firstFrom]
  exact congrArg Except.ok mapped

theorem isHealthy_lt (flags : pool.healthy.length = pool.route.upstreams.length) {index : Nat}
    (opened : pool.isHealthy index = true) : index < pool.route.upstreams.length := by
  rw [RoutePool.isHealthy, beq_iff_eq] at opened
  rw [← flags]
  exact (List.getElem?_eq_some_iff.mp opened).1

theorem answerAt_eq_some {start : Nat} {upstream : String}
    (answered : pool.answerAt start = some upstream) :
    ∃ index : Nat, pool.healthy[index]? = some true ∧
      pool.route.upstreams[index]? = some upstream := by
  obtain ⟨index, first, here⟩ := Option.bind_eq_some_iff.mp answered
  obtain ⟨_, _, _, opened, _⟩ := firstFrom_eq_some.mp first
  exact ⟨index, by simpa [RoutePool.isHealthy] using opened, here⟩

/-- A healthy position is enough for an answer. -/
theorem answerAt_ne_none {index : Nat} (below : index < pool.route.upstreams.length)
    (opened : pool.isHealthy index = true) (start : Nat) : pool.answerAt start ≠ none := by
  intro missed
  cases first : firstFrom pool.isHealthy pool.route.upstreams.length start with
  | none =>
      have shut := firstFrom_eq_none.mp first index below
      rw [opened] at shut
      cases shut
  | some taken =>
      have inside := firstFrom_lt first
      rw [RoutePool.answerAt, first, Option.bind_some, List.getElem?_eq_none_iff] at missed
      omega

theorem answerAt_eq_none (flags : pool.healthy.length = pool.route.upstreams.length) (start : Nat) :
    pool.answerAt start = none ↔ true ∉ pool.healthy := by
  constructor
  · intro missed member
    obtain ⟨index, here⟩ := List.mem_iff_getElem?.mp member
    have opened : pool.isHealthy index = true := by simp [RoutePool.isHealthy, here]
    exact answerAt_ne_none (isHealthy_lt flags opened) opened start missed
  · intro shut
    rw [RoutePool.answerAt, Option.bind_eq_none_iff]
    intro index first
    obtain ⟨_, _, _, opened, _⟩ := firstFrom_eq_some.mp first
    rw [RoutePool.isHealthy, beq_iff_eq] at opened
    exact absurd (List.mem_of_getElem? opened) shut

end Pools

section Served

variable {sorting : UnstableSort RoutePool RoutePool.length} {routes : List GatewayRoute}
  {router : GatewayRouter} {path : String}

/-- The prefixes as the configuration promises them: normalised, and each but once. -/
structure Normal (routes : List GatewayRoute) : Prop where
  normalized : ∀ route ∈ routes, normalizePrefix route.pathPrefix = .ok route.pathPrefix
  distinct : (routes.map GatewayRoute.pathPrefix).Nodup
  upstreams : ∀ route ∈ routes, route.upstreams ≠ []

theorem Normal.slash (normal : Normal routes) {route : GatewayRoute} (member : route ∈ routes) :
    startsWithSlash route.pathPrefix = true := by
  have normalized := normal.normalized route member
  unfold normalizePrefix at normalized
  split at normalized
  · assumption
  · cases normalized

theorem Normal.eq_of_prefix (normal : Normal routes) {left right : GatewayRoute}
    (leftMember : left ∈ routes) (rightMember : right ∈ routes)
    (same : left.pathPrefix = right.pathPrefix) : left = right :=
  List.inj_on_of_nodup_map normal.distinct leftMember rightMember same

theorem Chosen.unique (normal : Normal routes) {left right : GatewayRoute}
    (one : Chosen routes path left) (other : Chosen routes path right) : left = right := by
  refine normal.eq_of_prefix one.member other.member ?_
  refine eq_of_matches (normal.slash one.member) (normal.slash other.member)
    (covers_iff.mpr one.covers) (covers_iff.mpr other.covers) (Nat.le_antisymm ?_ ?_)
  · exact other.longest left one.member one.covers
  · exact one.longest right other.member other.covers

theorem new_routes {fresh : GatewayRouter} (built : GatewayRouter.new sorting routes = .ok fresh) :
    fresh.routes = sorting.sort (routes.map RoutePool.new) := by
  unfold GatewayRouter.new at built
  dsimp only at built
  split at built
  · cases built
  · cases built
    rfl

theorem GatewayRouter.Serves.perm (serves : router.Serves sorting routes) :
    (router.routes.map RoutePool.route).Perm routes := by
  obtain ⟨fresh, built, same⟩ := serves.built
  rw [same, new_routes built]
  have sorted := (sorting.perm (routes.map RoutePool.new)).map RoutePool.route
  rw [List.map_map] at sorted
  exact sorted.trans (.of_eq (List.map_id _))

theorem GatewayRouter.Serves.mem (serves : router.Serves sorting routes) {pool : RoutePool}
    (member : pool ∈ router.routes) : pool.route ∈ routes :=
  serves.perm.mem_iff.mp (List.mem_map_of_mem member)

theorem GatewayRouter.Serves.eq_of_route (serves : router.Serves sorting routes)
    (normal : Normal routes) {left right : RoutePool} (leftMember : left ∈ router.routes)
    (rightMember : right ∈ router.routes) (same : left.route = right.route) : left = right := by
  have distinct : (router.routes.map RoutePool.route).Nodup :=
    serves.perm.nodup_iff.mpr normal.distinct.of_map
  exact List.inj_on_of_nodup_map distinct leftMember rightMember same

theorem find_route (left right : GatewayRouter)
    (same : left.routes.map RoutePool.route = right.routes.map RoutePool.route) (path : String) :
    (left.find path).map RoutePool.route = (right.find path).map RoutePool.route := by
  have mapped (router : GatewayRouter) : (router.find path).map RoutePool.route =
      (router.routes.map RoutePool.route).find? fun route =>
        matchesPrefix path route.pathPrefix := by
    rw [List.find?_map]
    rfl
  rw [mapped, mapped, same]

/-- The first match is the longest. -/
theorem GatewayRouter.Serves.chosen_of_find (serves : router.Serves sorting routes)
    {pool : RoutePool} (found : router.find path = some pool) :
    pool ∈ router.routes ∧ Chosen routes path pool.route := by
  have member := List.mem_of_find?_eq_some found
  have hit : matchesPrefix path pool.route.pathPrefix = true := by
    simpa using List.find?_some found
  refine ⟨member, serves.mem member, covers_iff.mp hit, ?_⟩
  intro other otherMember covers
  obtain ⟨fresh, built, same⟩ := serves.built
  obtain ⟨first, here, _, _, longest⟩ :=
    GatewayRouter.find_longest built otherMember (covers_iff.mpr covers)
  have routes := find_route router fresh same path
  rw [found, here] at routes
  rwa [← Option.some.inj routes] at longest

theorem GatewayRouter.Serves.uncovered_of_find (serves : router.Serves sorting routes)
    (missed : router.find path = none) : ∀ route ∈ routes, ¬Covers route.pathPrefix path := by
  intro route member covers
  obtain ⟨pool, here, same⟩ := List.mem_map.mp (serves.perm.mem_iff.mpr member)
  have hit := List.find?_eq_none.mp missed pool here
  rw [same] at hit
  exact hit (covers_iff.mpr covers)

/-- The answer and the routers of a selection. -/
theorem select_of_find_none (missed : router.find path = none) :
    router.select path = (.ok none, router) := by
  unfold GatewayRouter.select
  rw [onFirst_of_find_none missed]

theorem select_of_find {pool : RoutePool} (found : router.find path = some pool) :
    ∃ before after, router.routes = before ++ pool :: after ∧
      router.select path =
        (pool.selectHealthy.1, ⟨before ++ pool.selectHealthy.2 :: after⟩) := by
  obtain ⟨before, after, split, _, result⟩ :=
    onFirst_of_find (.ok none) RoutePool.selectHealthy found
  refine ⟨before, after, split, ?_⟩
  unfold GatewayRouter.select
  rw [result]

/-- The answer of a selection of a target. -/
theorem selectTargetWithMiddleware_of_find_none {pathAndQuery : String}
    (missed : router.find (beforeQuery pathAndQuery) = none) :
    router.selectTargetWithMiddleware pathAndQuery = (.ok none, router) := by
  unfold GatewayRouter.selectTargetWithMiddleware
  dsimp only
  rw [onFirst_of_find_none missed]

theorem selectTargetWithMiddleware_of_find {pathAndQuery : String} {pool : RoutePool}
    (found : router.find (beforeQuery pathAndQuery) = some pool) :
    (router.selectTargetWithMiddleware pathAndQuery).1 =
      pool.selectHealthy.1.map fun healthy => healthy.map fun upstream =>
        (targetUrl upstream pathAndQuery, pool.route.middleware) := by
  obtain ⟨_, _, _, _, result⟩ := onFirst_of_find (.ok none)
    (fun pool : RoutePool =>
      (pool.selectHealthy.1.map fun healthy => healthy.map fun upstream =>
        (targetUrl upstream pathAndQuery, pool.route.middleware), pool.selectHealthy.2)) found
  unfold GatewayRouter.selectTargetWithMiddleware
  dsimp only
  rw [result]

theorem GatewayRouter.Serves.selects (serves : router.Serves sorting routes)
    (normal : Normal routes) (path : String) : router.Selects routes path := by
  have unique (left right : GatewayRoute) (one : Chosen routes path left)
      (other : Chosen routes path right) : left = right := one.unique normal other
  cases found : router.find path with
  | none =>
      have uncovered := serves.uncovered_of_find found
      have answer : (router.select path).1 = .ok none := by rw [select_of_find_none found]
      refine ⟨unique, ?_, ?_, ?_⟩
      · intro panic failed
        rw [answer] at failed
        cases failed
      · exact ⟨fun _ => .inl uncovered, fun _ => answer⟩
      · intro upstream answered
        rw [answer] at answered
        cases answered
  | some pool =>
      obtain ⟨member, chosen⟩ := serves.chosen_of_find found
      obtain ⟨before, after, split, result⟩ := select_of_find found
      have answer : (router.select path).1 = .ok (pool.answerAt pool.nextUpstream) := by
        rw [result]
        exact selectHealthy_fst (normal.upstreams _ chosen.member)
      refine ⟨unique, ?_, ?_, ?_⟩
      · intro panic failed
        rw [answer] at failed
        cases failed
      · rw [answer, Except.ok.injEq, answerAt_eq_none (serves.flags pool member)]
        constructor
        · intro shut
          exact .inr ⟨pool, member, chosen, shut⟩
        · intro held
          rcases held with uncovered | ⟨other, otherMember, otherChosen, shut⟩
          · exact absurd chosen.covers (uncovered _ chosen.member)
          · have same := serves.eq_of_route normal member otherMember
              (chosen.unique normal otherChosen)
            rw [same]
            exact shut
      · intro upstream answered
        rw [answer, Except.ok.injEq] at answered
        exact ⟨pool, member, chosen, answerAt_eq_some answered⟩

theorem GatewayRouter.Serves.agrees (serves : router.Serves sorting routes)
    (pathAndQuery : String) : router.Agrees routes pathAndQuery := by
  refine ⟨?_, ?_, ?_⟩
  · exact congrArg GatewayRouter.mk (onFirst_snd_congr fun _ => rfl)
  · unfold GatewayRouter.selectTarget
    dsimp only
    cases found : router.find (beforeQuery pathAndQuery) with
    | none =>
        rw [selectTargetWithMiddleware_of_find_none found, select_of_find_none found]
        rfl
    | some pool =>
        obtain ⟨_, _, _, result⟩ := select_of_find found
        rw [selectTargetWithMiddleware_of_find found, result]
        cases pool.selectHealthy.1 with
        | error panic => rfl
        | ok healthy => cases healthy <;> rfl
  · intro target middleware answered
    cases found : router.find (beforeQuery pathAndQuery) with
    | none =>
        rw [selectTargetWithMiddleware_of_find_none found] at answered
        cases answered
    | some pool =>
        refine ⟨pool.route, (serves.chosen_of_find found).2, ?_⟩
        rw [selectTargetWithMiddleware_of_find found] at answered
        cases selected : pool.selectHealthy.1 with
        | error panic =>
            rw [selected] at answered
            cases answered
        | ok healthy =>
            cases healthy with
            | none =>
                rw [selected] at answered
                cases answered
            | some upstream =>
                rw [selected] at answered
                cases answered
                rfl

/-! ## A turn -/

theorem selectHealthy_route (pool : RoutePool) : pool.selectHealthy.2.route = pool.route := rfl

theorem answerAt_selectHealthy (pool : RoutePool) (start : Nat) :
    pool.selectHealthy.2.answerAt start = pool.answerAt start := rfl

theorem selectHealthy_nextUpstream {pool : RoutePool} (room : pool.nextUpstream + 1 < 2 ^ 64) :
    pool.selectHealthy.2.nextUpstream = pool.nextUpstream + 1 :=
  Nat.mod_eq_of_lt room

theorem GatewayRouter.Serves.select (serves : router.Serves sorting routes) (path : String) :
    (router.select path).2.Serves sorting routes := by
  obtain ⟨fresh, built, same⟩ := serves.built
  refine ⟨⟨fresh, built, (onFirst_map_snd selectHealthy_route).trans same⟩, ?_, ?_⟩
  · exact onFirst_forall serves.flags fun pool flags => flags
  · exact onFirst_forall serves.counters fun pool _ => Nat.mod_lt _ (Nat.two_pow_pos 64)

theorem setHealth_route (upstream : String) (healthy : Bool) (pool : RoutePool) :
    (pool.setHealth upstream healthy).2.route = pool.route := by
  unfold RoutePool.setHealth
  split <;> rfl

theorem GatewayRouter.Serves.setUpstreamHealth (serves : router.Serves sorting routes)
    (pathPrefix upstream : String) (healthy : Bool) :
    (router.setUpstreamHealth pathPrefix upstream healthy).2.Serves sorting routes := by
  obtain ⟨fresh, built, same⟩ := serves.built
  refine ⟨⟨fresh, built, (onFirst_map_snd (setHealth_route upstream healthy)).trans same⟩, ?_, ?_⟩
  · refine onFirst_forall serves.flags ?_
    intro pool flags
    unfold RoutePool.setHealth
    split
    · exact flags
    · exact (List.length_set ..).trans flags
  · refine onFirst_forall serves.counters ?_
    intro pool counter
    unfold RoutePool.setHealth
    split
    · exact counter
    · exact counter

theorem GatewayRouter.Serves.fresh (built : GatewayRouter.new sorting routes = .ok router) :
    router.Serves sorting routes := by
  have pools (pool : RoutePool) (member : pool ∈ router.routes) :
      ∃ route, RoutePool.new route = pool := by
    rw [new_routes built, sorting.mem_sort] at member
    obtain ⟨route, _, same⟩ := List.mem_map.mp member
    exact ⟨route, same⟩
  refine ⟨⟨router, built, rfl⟩, ?_, ?_⟩
  · intro pool member
    obtain ⟨route, same⟩ := pools pool member
    rw [← same]
    exact List.length_map _
  · intro pool member
    obtain ⟨route, same⟩ := pools pool member
    rw [← same]
    exact Nat.two_pow_pos 64

/-- A selection leaves the other pools. -/
theorem mem_select_of_ne {pool : RoutePool} (member : pool ∈ router.routes)
    (apart : router.find path ≠ some pool) : pool ∈ (router.select path).2.routes := by
  cases found : router.find path with
  | none =>
      rw [select_of_find_none found]
      exact member
  | some other =>
      obtain ⟨before, after, split, result⟩ := select_of_find found
      rw [result]
      rw [split] at member
      rcases List.mem_append.mp member with earlier | here
      · simp [earlier]
      · rcases List.mem_cons.mp here with same | later
        · exact absurd (same ▸ found) apart
        · simp [later]

/-- The answers of a route go around its list from its counter. -/
theorem GatewayRouter.Serves.answersOf_eq (normal : Normal routes) (paths : List String)
    (serves : router.Serves sorting routes) {pool : RoutePool} (member : pool ∈ router.routes)
    (room : pool.nextUpstream + (router.answersOf pool.route paths).length ≤ 2 ^ 64) :
    router.answersOf pool.route paths =
      (List.range (router.answersOf pool.route paths).length).map fun offset =>
        .ok (pool.answerAt (pool.nextUpstream + offset)) := by
  induction paths generalizing router pool with
  | nil => rfl
  | cons path rest ih =>
      cases mine : (router.find path).any fun other => other.route = pool.route with
      | true =>
          obtain ⟨other, found, same⟩ := (Option.any_eq_true _ _).mp mine
          have same := of_decide_eq_true same
          have same := serves.eq_of_route normal (serves.chosen_of_find found).1 member same
          subst same
          obtain ⟨before, after, _, result⟩ := select_of_find found
          have first : (router.select path).1 = .ok (other.answerAt other.nextUpstream) := by
            rw [result]
            exact selectHealthy_fst (normal.upstreams _ (serves.mem member))
          have stays : other.selectHealthy.2 ∈ (router.select path).2.routes := by
            rw [result]
            simp
          have unfolded : router.answersOf other.route (path :: rest) =
              (router.select path).1 :: (router.select path).2.answersOf other.route rest := by
            rw [GatewayRouter.answersOf, if_pos mine]
          rw [unfolded, List.length_cons] at room ⊢
          rw [List.range_succ_eq_map, List.map_cons, List.map_map, first, Nat.add_zero]
          congr 1
          rcases Nat.eq_zero_or_pos
            ((router.select path).2.answersOf other.route rest).length with none | positive
          · rw [none, List.length_eq_zero_iff.mp none]
            rfl
          · have moved : other.selectHealthy.2.nextUpstream = other.nextUpstream + 1 :=
              selectHealthy_nextUpstream (by omega)
            refine (ih (serves.select path) stays (by
              rw [moved, selectHealthy_route]
              omega)).trans (List.map_congr_left ?_)
            intro offset _
            rw [answerAt_selectHealthy, moved, Function.comp_apply,
              show other.nextUpstream + 1 + offset = other.nextUpstream + offset.succ by omega]
      | false =>
          have unfolded : router.answersOf pool.route (path :: rest) =
              (router.select path).2.answersOf pool.route rest := by
            rw [GatewayRouter.answersOf, if_neg (by simp [mine])]
          have stays : pool ∈ (router.select path).2.routes := by
            refine mem_select_of_ne member ?_
            intro found
            rw [found] at mine
            simp at mine
          rw [unfolded] at room ⊢
          exact ih (serves.select path) stays room

theorem GatewayRouter.Serves.rotates (serves : router.Serves sorting routes)
    (normal : Normal routes) {pool : RoutePool} (member : pool ∈ router.routes)
    {paths : List String} (turn : router.Turn pool paths) : router.Rotates pool paths := by
  have answers := serves.answersOf_eq normal paths member (turn.length ▸ turn.counter)
  rw [turn.length] at answers
  have flags := serves.flags pool member
  refine ⟨?_, ?_⟩
  · intro some
    have first (start : Nat) : ∃ index,
        firstFrom pool.isHealthy pool.route.upstreams.length start = .some index := by
      have answered := (answerAt_eq_none flags start).not.mpr (not_not.mpr some)
      obtain ⟨upstream, answered⟩ := Option.ne_none_iff_exists'.mp answered
      obtain ⟨index, first, _⟩ := Option.bind_eq_some_iff.mp answered
      exact ⟨index, first⟩
    choose taken takes using first
    refine ⟨(List.range pool.route.upstreams.length).map fun offset =>
      taken (pool.nextUpstream + offset), ?_, ?_, ?_⟩
    · rw [answers, List.map_map]
      refine List.map_congr_left ?_
      intro offset _
      rw [Function.comp_apply, RoutePool.answerAt, takes, Option.bind_some]
    · intro index held
      obtain ⟨offset, _, same⟩ := List.mem_map.mp held
      obtain ⟨_, _, _, opened, _⟩ := firstFrom_eq_some.mp (takes (pool.nextUpstream + offset))
      exact same ▸ opened
    · intro index opened
      have below := isHealthy_lt flags opened
      rw [← countP_firstFrom below opened,
        ← (turn_perm pool.route.upstreams.length pool.nextUpstream).countP_eq, List.countP_map,
        List.count, List.countP_map]
      refine List.countP_congr ?_
      intro offset _
      rw [Function.comp_apply, Function.comp_apply, beq_iff_eq, decide_eq_true_eq, firstFrom_mod,
        takes, Option.some.injEq]
  · intro all
    rw [answers]
    have opens : ∀ index < pool.route.upstreams.length, pool.isHealthy index = true := by
      intro index below
      have here := List.getElem?_eq_getElem (flags.symm ▸ below : index < pool.healthy.length)
      have flag : pool.healthy[index]? = some true := by
        rw [here]
        cases held : pool.healthy[index] with
        | true => rfl
        | false => exact absurd (held ▸ List.getElem_mem _) all
      simp [RoutePool.isHealthy, flag]
    have around := (turn_perm pool.route.upstreams.length pool.nextUpstream).map fun index =>
      (.ok pool.route.upstreams[index]? : Except Panic (Option String))
    rw [List.map_map] at around
    refine (List.Perm.of_eq (List.map_congr_left ?_)).trans (around.trans (.of_eq ?_))
    · intro offset inside
      have positive : 0 < pool.route.upstreams.length :=
        Nat.lt_of_le_of_lt (Nat.zero_le _) (List.mem_range.mp inside)
      have below := Nat.mod_lt (pool.nextUpstream + offset) positive
      rw [RoutePool.answerAt, ← firstFrom_mod, firstFrom_self below (opens _ below)]
      rfl
    · refine List.ext_getElem (by simp) ?_
      intro index _ _
      simp

/-- A router built from normal prefixes chooses by the longest prefix on segment boundaries,
answers nothing exactly where there is nothing healthy to answer, and goes around the
positions of a route. -/
theorem select_rotates (sorting : UnstableSort RoutePool RoutePool.length)
    (routes : List GatewayRoute) (normal : Normal routes) (router : GatewayRouter)
    (serves : router.Serves sorting routes) :
    (∀ path, router.Selects routes path) ∧
      (∀ pathAndQuery, router.Agrees routes pathAndQuery) ∧
      ∀ pool ∈ router.routes, ∀ paths, router.Turn pool paths → router.Rotates pool paths :=
  ⟨serves.selects normal, serves.agrees,
    fun _ member _ turn => serves.rotates normal member turn⟩

end Served

def sampleRoute : GatewayRoute := ⟨"/api", ["http://a", "http://b", "http://c"], []⟩

/-- The second of three upstreams is down, and one selection was made. -/
def sampleRouter : GatewayRouter := ⟨[⟨sampleRoute, 1, [true, false, true]⟩]⟩

theorem sampleRouter_serves : sampleRouter.Serves (.stable _ _) [sampleRoute] := by
  refine ⟨⟨⟨[.new sampleRoute]⟩, rfl, rfl⟩, ?_, ?_⟩
  · intro pool member
    rw [List.mem_singleton.mp member]
    rfl
  · intro pool member
    rw [List.mem_singleton.mp member]
    decide

theorem sampleRoute_normal : Normal [sampleRoute] := by
  refine ⟨?_, by decide, ?_⟩
  · intro route member
    rw [List.mem_singleton.mp member]
    rfl
  · intro route member
    rw [List.mem_singleton.mp member]
    decide

/-- Two upstreams are healthy, and two selections both answer the second of them. -/
theorem two_selections_skip_a_healthy_upstream :
    sampleRouter.Serves (.stable _ _) [sampleRoute] ∧ Normal [sampleRoute] ∧
      ∃ pool ∈ sampleRouter.routes, pool.nextUpstream + pool.healthy.count true ≤ 2 ^ 64 ∧
        (sampleRouter.answersOf pool.route ["/api", "/api"]).length = pool.healthy.count true ∧
        pool.isHealthy 0 = true ∧ pool.route.upstreams[0]? = some "http://a" ∧
        sampleRouter.answersOf pool.route ["/api", "/api"] =
          [.ok (some "http://c"), .ok (some "http://c")] := by
  refine ⟨sampleRouter_serves, sampleRoute_normal, _, List.mem_singleton_self _, by decide,
    rfl, rfl, rfl, rfl⟩

/-- Of three selections the upstream after the unhealthy one gets two. -/
theorem select_rotates_sample :
    sampleRouter.Selects [sampleRoute] "/api/items" ∧
      sampleRouter.Agrees [sampleRoute] "/api/items?page=2" ∧
      ∃ positions : List Nat,
        sampleRouter.answersOf sampleRoute ["/api", "/api", "/api"] =
          positions.map (fun index => .ok sampleRoute.upstreams[index]?) ∧
        positions.count 2 = 2 := by
  obtain ⟨selects, agrees, rotates⟩ :=
    select_rotates (.stable _ _) [sampleRoute] sampleRoute_normal sampleRouter sampleRouter_serves
  refine ⟨selects _, agrees _, ?_⟩
  obtain ⟨positions, answers, _, shares⟩ := (rotates _ (List.mem_singleton_self _)
    ["/api", "/api", "/api"] ⟨rfl, by decide⟩).shares (by decide)
  exact ⟨positions, answers, shares 2 rfl⟩

end RustZero.Gateway
