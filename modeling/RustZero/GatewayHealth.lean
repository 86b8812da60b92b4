import Mathlib
import RustZero.Lib.Lts
import RustZero.GatewaySelection

/-!
# Health of a gateway upstream

`gateway/src/lib.rs`, `set_upstream_health`.  Health is kept for the positions of a list of
upstreams and set for one of its strings: the first position of the string takes the mark.
An upstream that is listed again, for its weight, stays selectable at its other positions.

A run is any order of selections and marks; the history holds the marks that were taken.
-/

namespace RustZero.Gateway

open Lib

inductive RouterCall where
  | select (path : String)
  | selectTarget (pathAndQuery : String)
  | setUpstreamHealth (pathPrefix upstream : String) (healthy : Bool)

/-- A mark that was taken. -/
structure Mark where
  pathPrefix : String
  upstream : String
  healthy : Bool
  deriving DecidableEq, Repr

def GatewayRouter.call (router : GatewayRouter) : RouterCall → Option (GatewayRouter × List Mark)
  | .select path => some ((router.select path).2, [])
  | .selectTarget pathAndQuery => some ((router.selectTarget pathAndQuery).2, [])
  | .setUpstreamHealth pathPrefix upstream healthy =>
      let stored := router.setUpstreamHealth pathPrefix upstream healthy
      some (stored.2, if stored.1.toOption.isSome then [⟨pathPrefix, upstream, healthy⟩] else [])

/-- The calls on a router. -/
def routing (fresh : GatewayRouter) : Lts (GatewayRouter × List Mark) RouterCall :=
  .emitting fresh GatewayRouter.call

/-- The last mark that an upstream of a route got. -/
def lastMark (pathPrefix upstream : String) (history : List Mark) : Option Bool :=
  (history.reverse.find? fun mark =>
    mark.pathPrefix == pathPrefix && mark.upstream == upstream).map Mark.healthy

/-- No selection answers an upstream whose last mark on the selected route says unhealthy. -/
def NeverSelectsDown (fresh : GatewayRouter) : Prop :=
  ∀ router history, (routing fresh).Reachable (router, history) →
    ∀ path pool upstream, router.find path = some pool →
      (router.select path).1 = .ok (some upstream) →
        lastMark pool.route.pathPrefix upstream history ≠ some false

/-! ## The flags of a route -/

section Flags

variable {fresh router : GatewayRouter} {history : List Mark}

/-- Every router of a run serves the routes it was built from. -/
theorem serves_of_reachable {sorting : UnstableSort RoutePool RoutePool.length}
    {routes : List GatewayRoute} (built : GatewayRouter.new sorting routes = .ok fresh)
    (reach : (routing fresh).Reachable (router, history)) : router.Serves sorting routes := by
  refine reach.emitting_invariant (I := fun router _ => router.Serves sorting routes)
    (.fresh built) ?_
  intro router history call router' marks serves _ taken
  cases call with
  | select path =>
      cases taken
      exact serves.select path
  | selectTarget pathAndQuery =>
      cases taken
      exact (serves.agrees pathAndQuery).state ▸ serves.select _
  | setUpstreamHealth pathPrefix upstream healthy =>
      cases taken
      exact serves.setUpstreamHealth pathPrefix upstream healthy

/-- The route that a prefix names. -/
def GatewayRouter.ofPrefix (router : GatewayRouter) (pathPrefix : String) : Option RoutePool :=
  router.routes.find? fun pool => pool.route.pathPrefix == pathPrefix

/-- The flags follow the marks at the first position of a string and are untouched at others. -/
def RoutePool.Follows (pool : RoutePool) (history : List Mark) : Prop :=
  ∀ index upstream, pool.route.upstreams[index]? = some upstream →
    pool.healthy[index]? = some (
      if pool.route.upstreams.idxOf? upstream = some index then
        (lastMark pool.route.pathPrefix upstream history).getD true
      else true)

theorem lastMark_own (mark : Mark) :
    lastMark mark.pathPrefix mark.upstream (history ++ [mark]) = some mark.healthy := by
  simp [lastMark]

theorem lastMark_other {pathPrefix upstream : String} {mark : Mark}
    (other : ¬(mark.pathPrefix = pathPrefix ∧ mark.upstream = upstream)) :
    lastMark pathPrefix upstream (history ++ [mark]) = lastMark pathPrefix upstream history := by
  have missed : (mark.pathPrefix == pathPrefix && mark.upstream == upstream) = false := by
    simpa using other
  rw [lastMark, List.reverse_append, List.reverse_singleton, List.singleton_append,
    List.find?_cons, missed]
  rfl

/-- A route found by its path is the first of its prefix. -/
theorem ofPrefix_of_find {path : String} {pool : RoutePool}
    (found : router.find path = some pool) :
    router.ofPrefix pool.route.pathPrefix = some pool := by
  obtain ⟨hit, before, after, split, misses⟩ := List.find?_eq_some_iff_append.mp found
  refine List.find?_eq_some_iff_append.mpr ⟨beq_self_eq_true _, before, after, split, ?_⟩
  intro other member
  have missed := misses other member
  rw [Bool.not_eq_true'] at missed ⊢
  rw [beq_eq_false_iff_ne]
  intro same
  rw [same, hit] at missed
  cases missed

theorem pathPrefix_of_ofPrefix {pathPrefix : String} {pool : RoutePool}
    (found : router.ofPrefix pathPrefix = some pool) : pool.route.pathPrefix = pathPrefix := by
  simpa using List.find?_some found

/-- What a selection leaves as it is. -/
def RoutePool.view (pool : RoutePool) : GatewayRoute × List Bool := (pool.route, pool.healthy)

theorem exists_ofPrefix_of_view {after : GatewayRouter}
    (same : after.routes.map RoutePool.view = router.routes.map RoutePool.view)
    {pathPrefix : String} {pool : RoutePool} (found : after.ofPrefix pathPrefix = some pool) :
    ∃ old, router.ofPrefix pathPrefix = some old ∧ old.view = pool.view := by
  have mapped (router : GatewayRouter) : (router.ofPrefix pathPrefix).map RoutePool.view =
      (router.routes.map RoutePool.view).find? fun view => view.1.pathPrefix == pathPrefix := by
    rw [List.find?_map]
    rfl
  have views := mapped after
  rw [same, ← mapped, found] at views
  exact Option.map_eq_some_iff.mp views.symm

theorem RoutePool.Follows.of_view {old pool : RoutePool} (same : old.view = pool.view)
    (follows : old.Follows history) : pool.Follows history := by
  obtain ⟨route, healthy⟩ := Prod.mk.inj same
  unfold RoutePool.Follows at follows ⊢
  rwa [route, healthy] at follows

theorem RoutePool.Follows.other {pool : RoutePool} {mark : Mark} (follows : pool.Follows history)
    (apart : mark.pathPrefix ≠ pool.route.pathPrefix) : pool.Follows (history ++ [mark]) := by
  intro index upstream here
  rw [lastMark_other fun same => apart same.1]
  exact follows index upstream here

/-- A mark that is taken sets the flag of the first position. -/
theorem RoutePool.Follows.mark {pool : RoutePool} {upstream : String} {healthy : Bool}
    {first : Nat} (follows : pool.Follows history)
    (position : pool.route.upstreams.idxOf? upstream = some first) :
    ({ pool with healthy := pool.healthy.set first healthy } : RoutePool).Follows
      (history ++ [⟨pool.route.pathPrefix, upstream, healthy⟩]) := by
  intro index other here
  have old := follows index other here
  have inside := (List.getElem?_eq_some_iff.mp old).1
  by_cases same : other = upstream
  · subst same
    by_cases mine : first = index
    · subst mine
      rw [List.getElem?_set_self inside, if_pos position,
        lastMark_own ⟨pool.route.pathPrefix, other, healthy⟩]
      rfl
    · have later : pool.route.upstreams.idxOf? other ≠ some index := by
        rw [position]
        simpa using mine
      rw [List.getElem?_set_ne mine, old, if_neg later, if_neg later]
  · have apart : first ≠ index := by
      intro mine
      subst mine
      obtain ⟨_, there, _⟩ := List.idxOf?_eq_some_iff.mp position
      rw [List.getElem?_eq_some_iff] at here
      exact same (here.2.symm.trans there)
    rw [List.getElem?_set_ne apart, old, lastMark_other fun held => same held.2.symm]

theorem ofPrefix_setUpstreamHealth (router : GatewayRouter) (own upstream : String)
    (healthy : Bool) (pathPrefix : String) :
    (router.setUpstreamHealth own upstream healthy).2.ofPrefix pathPrefix =
      if pathPrefix = own then
        (router.ofPrefix own).map fun pool => (pool.setHealth upstream healthy).2
      else router.ofPrefix pathPrefix := by
  have keeps (own : String) (pool : RoutePool) :
      ((pool.setHealth upstream healthy).2.route.pathPrefix == own) =
        (pool.route.pathPrefix == own) := by
    rw [setHealth_route]
  split
  · rename_i same
    subst same
    exact onFirst_find?_self (keeps pathPrefix)
  · rename_i other
    refine onFirst_find?_other (keeps pathPrefix) ?_
    intro pool hit
    rw [beq_iff_eq] at hit
    rw [beq_eq_false_iff_ne, hit]
    exact Ne.symm other

/-- `set_upstream_health` on every route: the named one takes the mark. -/
theorem setUpstreamHealth_cases (router : GatewayRouter) (own upstream : String) (healthy : Bool)
    (pathPrefix : String) :
    (∃ pool first, router.ofPrefix own = some pool ∧
      pool.route.upstreams.idxOf? upstream = some first ∧
      (router.setUpstreamHealth own upstream healthy).1 = .ok () ∧
      (router.setUpstreamHealth own upstream healthy).2.ofPrefix pathPrefix =
        if pathPrefix = own then some { pool with healthy := pool.healthy.set first healthy }
        else router.ofPrefix pathPrefix) ∨
    ((∀ pool, router.ofPrefix own = some pool → upstream ∉ pool.route.upstreams) ∧
      (∃ error, (router.setUpstreamHealth own upstream healthy).1 = .error error) ∧
      (router.setUpstreamHealth own upstream healthy).2.ofPrefix pathPrefix =
        router.ofPrefix pathPrefix) := by
  rw [ofPrefix_setUpstreamHealth]
  unfold GatewayRouter.setUpstreamHealth
  cases named : router.ofPrefix own with
  | none =>
      right
      rw [onFirst_of_find_none named]
      refine ⟨by simp, ⟨_, rfl⟩, ?_⟩
      split
      · rename_i same
        rw [same, named]
        rfl
      · rfl
  | some pool =>
      obtain ⟨_, _, _, _, result⟩ := onFirst_of_find (.error (.unknownPrefix own))
        (RoutePool.setHealth upstream healthy) named
      rw [result]
      cases position : pool.route.upstreams.idxOf? upstream with
      | none =>
          right
          have kept :
              pool.setHealth upstream healthy = (.error (.unknownUpstream upstream), pool) := by
            simp only [RoutePool.setHealth, position]
          rw [Option.map_some, kept]
          refine ⟨by simpa using position, ⟨_, rfl⟩, ?_⟩
          split
          · rename_i same
            rw [same, named]
          · rfl
      | some first =>
          left
          have stored : pool.setHealth upstream healthy =
              (.ok (), { pool with healthy := pool.healthy.set first healthy }) := by
            simp only [RoutePool.setHealth, position]
          rw [Option.map_some, stored]
          exact ⟨pool, first, rfl, position, rfl, rfl⟩

theorem follows_setUpstreamHealth {own upstream : String} {healthy : Bool} {pathPrefix : String}
    {pool : RoutePool}
    (follows : ∀ pathPrefix pool, router.ofPrefix pathPrefix = some pool → pool.Follows history)
    (found : (router.setUpstreamHealth own upstream healthy).2.ofPrefix pathPrefix = some pool) :
    pool.Follows (history ++
      if (router.setUpstreamHealth own upstream healthy).1.toOption.isSome then
        [⟨own, upstream, healthy⟩] else []) := by
  rcases setUpstreamHealth_cases router own upstream healthy pathPrefix with
    ⟨old, first, named, position, ok, after⟩ | ⟨_, ⟨error, failed⟩, after⟩
  · rw [ok]
    rw [found] at after
    split at after
    · rename_i same
      cases after
      rw [← same] at named ⊢
      have mine := pathPrefix_of_ofPrefix named
      exact mine ▸ (follows pathPrefix old named).mark position
    · rename_i other
      refine (follows pathPrefix pool after.symm).other ?_
      rw [pathPrefix_of_ofPrefix after.symm]
      exact Ne.symm other
  · rw [failed]
    rw [after] at found
    exact (List.append_nil history).symm ▸ follows pathPrefix pool found

theorem ofPrefix_route {left right : GatewayRouter}
    (same : left.routes.map RoutePool.route = right.routes.map RoutePool.route)
    (pathPrefix : String) :
    (left.ofPrefix pathPrefix).map RoutePool.route =
      (right.ofPrefix pathPrefix).map RoutePool.route := by
  have mapped (router : GatewayRouter) : (router.ofPrefix pathPrefix).map RoutePool.route =
      (router.routes.map RoutePool.route).find? fun route => route.pathPrefix == pathPrefix := by
    rw [List.find?_map]
    rfl
  rw [mapped, mapped, same]

theorem follows_of_reachable (reach : (routing fresh).Reachable (router, history))
    (start : ∀ pool ∈ fresh.routes, pool.healthy = pool.route.upstreams.map fun _ => true)
    {pathPrefix : String} {pool : RoutePool} (found : router.ofPrefix pathPrefix = some pool) :
    pool.Follows history := by
  refine reach.emitting_invariant (I := fun router history => ∀ pathPrefix pool,
    router.ofPrefix pathPrefix = some pool → pool.Follows history) ?_ ?_ pathPrefix pool found
  · intro pathPrefix pool found index upstream here
    rw [start pool (List.mem_of_find?_eq_some found), List.getElem?_map, here]
    split <;> rfl
  · intro router history call router' marks follows _ taken pathPrefix pool found
    have selected (views : router'.routes.map RoutePool.view = router.routes.map RoutePool.view) :
        pool.Follows (history ++ []) := by
      obtain ⟨old, before, same⟩ := exists_ofPrefix_of_view views found
      rw [List.append_nil]
      exact (follows pathPrefix old before).of_view same
    cases call with
    | select path =>
        cases taken
        exact selected (onFirst_map_snd fun _ => rfl)
    | selectTarget pathAndQuery =>
        cases taken
        exact selected (onFirst_map_snd fun _ => rfl)
    | setUpstreamHealth own upstream healthy =>
        cases taken
        exact follows_setUpstreamHealth follows found

theorem lastMark_of_down {pathPrefix upstream : String} {marked : List String}
    (member : upstream ∈ marked) :
    lastMark pathPrefix upstream (marked.map fun other => ⟨pathPrefix, other, false⟩) =
      some false := by
  have found : ((marked.map fun other => (⟨pathPrefix, other, false⟩ : Mark)).reverse.find?
      fun mark => mark.pathPrefix == pathPrefix && mark.upstream == upstream).isSome = true := by
    rw [List.find?_isSome]
    exact ⟨⟨pathPrefix, upstream, false⟩, by simpa using member, by simp⟩
  obtain ⟨mark, here⟩ := Option.isSome_iff_exists.mp found
  have listed := List.mem_of_find?_eq_some here
  rw [List.mem_reverse] at listed
  obtain ⟨other, _, same⟩ := List.mem_map.mp listed
  rw [lastMark, here, ← same]
  rfl

/-- All strings of a route can be marked unhealthy. -/
theorem exists_marked {pathPrefix : String} {marked : List String} {pool : RoutePool}
    (named : fresh.ofPrefix pathPrefix = some pool) (listed : marked ⊆ pool.route.upstreams) :
    ∃ router, (routing fresh).Reachable
      (router, marked.map fun upstream => ⟨pathPrefix, upstream, false⟩) ∧
      router.routes.map RoutePool.route = fresh.routes.map RoutePool.route := by
  induction marked using List.reverseRecOn with
  | nil => exact ⟨fresh, .init, rfl⟩
  | append_singleton earlier upstream ih =>
      obtain ⟨router, reach, routes⟩ := ih fun other member => listed (by simp [member])
      have here := ofPrefix_route routes pathPrefix
      rw [named] at here
      obtain ⟨pool', named', same⟩ := Option.map_eq_some_iff.mp here
      have present : upstream ∈ pool'.route.upstreams := by
        rw [same]
        exact listed (by simp)
      rcases setUpstreamHealth_cases router pathPrefix upstream false pathPrefix with
        ⟨_, _, _, _, ok, _⟩ | ⟨absent, _, _⟩
      · refine ⟨(router.setUpstreamHealth pathPrefix upstream false).2,
          reach.tail (a := .setUpstreamHealth pathPrefix upstream false) trivial ?_, ?_⟩
        · simp [routing, Lts.emitting, GatewayRouter.call, ok, Except.toOption]
        · exact (onFirst_map_snd (setHealth_route upstream false)).trans routes
      · exact absurd present (absent pool' named')

theorem nodup_of_idxOf {strings : List String}
    (first : ∀ index string, strings[index]? = some string → strings.idxOf? string = some index) :
    strings.Nodup := by
  rw [List.nodup_iff_getElem?_ne_getElem?]
  intro earlier later before below same
  have there := List.getElem?_eq_getElem below
  have one := first later _ there
  have other := first earlier _ (same.trans there)
  rw [one] at other
  exact absurd (Option.some.inj other) (Nat.ne_of_gt before)

theorem idxOf_of_nodup {strings : List String} (distinct : strings.Nodup) {index : Nat}
    {string : String} (here : strings[index]? = some string) :
    strings.idxOf? string = some index := by
  obtain ⟨below, same⟩ := List.getElem?_eq_some_iff.mp here
  refine List.idxOf?_eq_some_iff.mpr ⟨below, same, ?_⟩
  intro earlier before equal
  exact absurd ((distinct.getElem_inj_iff).mp (equal.trans same.symm)) (Nat.ne_of_lt before)

/-- Where no string is listed twice, a mark stands for its upstream. -/
theorem never_selects_down_iff (sorting : UnstableSort RoutePool RoutePool.length)
    (routes : List GatewayRoute) (fresh : GatewayRouter)
    (built : GatewayRouter.new sorting routes = .ok fresh) :
    NeverSelectsDown fresh ↔
      ∀ path pool, fresh.find path = some pool → pool.route.upstreams.Nodup := by
  have start : ∀ pool ∈ fresh.routes, pool.healthy = pool.route.upstreams.map fun _ => true := by
    intro pool member
    rw [new_routes built, sorting.mem_sort] at member
    obtain ⟨route, _, same⟩ := List.mem_map.mp member
    rw [← same]
    rfl
  constructor
  · intro never path pool found
    refine nodup_of_idxOf ?_
    intro index string here
    by_contra again
    obtain ⟨router, reach, same⟩ :=
      exists_marked (ofPrefix_of_find found) (List.Subset.refl pool.route.upstreams)
    have found' := find_route router fresh same path
    rw [found] at found'
    obtain ⟨pool', found', equal⟩ := Option.map_eq_some_iff.mp found'
    have flag := follows_of_reachable reach start (ofPrefix_of_find found') index string
      (equal ▸ here)
    rw [if_neg (equal ▸ again)] at flag
    have opened : pool'.isHealthy index = true := by simp [RoutePool.isHealthy, flag]
    have below : index < pool'.route.upstreams.length := by
      rw [equal]
      exact (List.getElem?_eq_some_iff.mp here).1
    obtain ⟨_, _, _, result⟩ := select_of_find found'
    obtain ⟨upstream, answered⟩ :=
      Option.ne_none_iff_exists'.mp (answerAt_ne_none below opened pool'.nextUpstream)
    have selected : (router.select path).1 = .ok (some upstream) := by
      rw [result, ← answered]
      exact selectHealthy_fst (List.ne_nil_of_length_pos (Nat.lt_of_le_of_lt (Nat.zero_le _) below))
    obtain ⟨position, _, listed⟩ := answerAt_eq_some answered
    have member : upstream ∈ pool.route.upstreams := equal ▸ List.mem_of_getElem? listed
    refine never router _ reach path pool' upstream found' selected ?_
    rw [equal]
    exact lastMark_of_down member
  · intro distinct router history reach path pool upstream found selected down
    obtain ⟨_, _, _, result⟩ := select_of_find found
    rw [result] at selected
    have some : pool.route.upstreams ≠ [] := by
      intro none
      simp [RoutePool.selectHealthy, none] at selected
    rw [selectHealthy_fst some, Except.ok.injEq] at selected
    obtain ⟨index, flag, here⟩ := answerAt_eq_some selected
    obtain ⟨fresh', built', same⟩ := (serves_of_reachable built reach).built
    have equal := built.symm.trans built'
    cases equal
    have found' := find_route router fresh same path
    rw [found] at found'
    obtain ⟨old, found', equal⟩ := Option.map_eq_some_iff.mp found'.symm
    have position := idxOf_of_nodup (equal ▸ distinct path old found') here
    have follows := follows_of_reachable reach start (ofPrefix_of_find found) index upstream here
    rw [flag, if_pos position, down] at follows
    cases follows

end Flags

/-- Three upstreams, none of them listed twice. -/
theorem never_selects_down_sample : NeverSelectsDown ⟨[.new sampleRoute]⟩ := by
  refine (never_selects_down_iff (.stable _ _) [sampleRoute] _ rfl).mpr ?_
  intro path pool found
  rw [List.mem_singleton.mp (List.mem_of_find?_eq_some found)]
  decide

/-- The route of an upstream that is listed twice. -/
def weightedRoute : GatewayRoute := ⟨"/api", ["http://a", "http://a"], []⟩

/-- The upstream is marked unhealthy, and the next selection answers it. -/
theorem selects_marked_upstream :
    GatewayRouter.new (.stable _ _) [weightedRoute] = .ok ⟨[.new weightedRoute]⟩ ∧
      ¬NeverSelectsDown ⟨[.new weightedRoute]⟩ := by
  refine ⟨rfl, ?_⟩
  intro never
  have run : (routing ⟨[.new weightedRoute]⟩).exec (routing ⟨[.new weightedRoute]⟩).init
      [.setUpstreamHealth "/api" "http://a" false] =
        some (⟨[⟨weightedRoute, 0, [false, true]⟩]⟩, [⟨"/api", "http://a", false⟩]) := rfl
  exact never _ _ (Lts.reachable_of_exec _ run) "/api" ⟨weightedRoute, 0, [false, true]⟩ "http://a"
    rfl rfl rfl

end RustZero.Gateway
