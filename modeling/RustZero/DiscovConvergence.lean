import RustZero.Discov

/-!
# Convergence of subscriptions

A change of the endpoint map and the event that announces it are two steps, so
the events of one endpoint may be sent in another order than its changes.  What
a subscription will hold after draining its receiver is decided by the last
event sent about each endpoint: it is right for every endpoint for which no
event is pending that will make it right.

* `Pending`: the announcement of the endpoint's present state is still to come.
* `NoLateRemoval` is the condition that a removal is announced only while the
  endpoint is absent or its re-insertion is still to be announced.
* `subscriptions_converge`: along such runs, once every operation has finished
  a drained subscription holds the registry's endpoint set.
* `late_removal_diverges`: without the condition a published endpoint is lost
  for good.
-/

namespace RustZero.Discov

open Lib

/-! ## What a receiver will have folded in -/

/-- The endpoint set after the given events are folded in. -/
def replay (service : String) (endpoints : Finset String) (events : List ServiceEvent) :
    Finset String :=
  events.foldl (fun endpoints event => (applyEvent service endpoints event).1) endpoints

theorem replay_concat (service : String) (endpoints : Finset String)
    (events : List ServiceEvent) (event : ServiceEvent) :
    replay service endpoints (events ++ [event]) =
      (applyEvent service (replay service endpoints events) event).1 :=
  List.foldl_concat _ _ _ _

theorem mem_applyEvent_added {service uri service' uri' : String} {endpoints : Finset String} :
    uri ∈ (applyEvent service endpoints (.added service' uri')).1 ↔
      service' = service ∧ uri' = uri ∨ uri ∈ endpoints := by
  unfold applyEvent ServiceEvent.service
  by_cases here : service' = service
  · simp only [here, ↓reduceIte, Finset.mem_insert, true_and]
    rw [eq_comm]
  · simp [here]

theorem mem_applyEvent_removed {service uri service' uri' : String}
    {endpoints : Finset String} :
    uri ∈ (applyEvent service endpoints (.removed service' uri')).1 ↔
      ¬ (service' = service ∧ uri' = uri) ∧ uri ∈ endpoints := by
  unfold applyEvent ServiceEvent.service
  by_cases here : service' = service
  · simp only [here, ↓reduceIte, Finset.mem_erase, true_and]
    rw [ne_comm]
  · simp [here]

/-! ## Pending announcements -/

section Pending

variable {ι κ : Type}

/-- The announcement that will make the log right about an endpoint is still to
be sent. -/
def Pending (s : System ι κ) (service uri : String) : Prop :=
  ∃ lease, s.leases lease =
    if uri ∈ s.services.endpoints service then .adding service uri else .removing service uri

/-- A removal is announced only while the endpoint is absent or its re-insertion
is still to be announced. -/
def NoLateRemoval (s : System ι κ) : Action ι κ → Prop
  | .sendRemoved lease => ∀ service uri, s.leases lease = .removing service uri →
      uri ∈ s.services.endpoints service → ∃ other, s.leases other = .adding service uri
  | _ => True

/-- Draining the receiver makes the subscription right about an endpoint. -/
def Agrees (s : System ι κ) (service uri : String) (endpoints : Finset String)
    (cursor : Nat) : Prop :=
  uri ∈ replay service endpoints (s.changes.drop cursor) ↔ uri ∈ s.services.endpoints service

/-- What a step that keeps the subscriptions does to one endpoint: it leaves an
announcement pending, it leaves the endpoint and what is said about it alone, or
it announces the present state. -/
inductive Effect (s s' : System ι κ) (service uri : String) : Prop where
  | pending (open_ : Pending s' service uri)
  | silent (events : List ServiceEvent)
      (same : uri ∈ s'.services.endpoints service ↔ uri ∈ s.services.endpoints service)
      (pending : Pending s service uri → Pending s' service uri)
      (log : s'.changes = s.changes ++ events)
      (unheard : ∀ endpoints, uri ∈ replay service endpoints events ↔ uri ∈ endpoints)
  | announced (event : ServiceEvent)
      (log : s'.changes = s.changes ++ [event])
      (right : ∀ endpoints, uri ∈ (applyEvent service endpoints event).1 ↔
        uri ∈ s'.services.endpoints service)

theorem Effect.agrees {s s' : System ι κ} {service uri : String} {endpoints : Finset String}
    {cursor : Nat} (effect : Effect s s' service uri) (bound : cursor ≤ s.changes.length)
    (before : (uri ∈ s'.services.endpoints service ↔ uri ∈ s.services.endpoints service) →
      ¬ Pending s service uri → Agrees s service uri endpoints cursor)
    (settled : ¬ Pending s' service uri) : Agrees s' service uri endpoints cursor := by
  cases effect with
  | pending still => exact absurd still settled
  | silent events same pending log unheard =>
      have old := before same fun open_ => settled (pending open_)
      unfold Agrees at old ⊢
      rw [log, List.drop_append_of_le_length bound, same, ← old]
      unfold replay
      rw [List.foldl_append]
      exact unheard _
  | announced event log right =>
      unfold Agrees
      rw [log, List.drop_append_of_le_length bound, replay_concat]
      exact right _

end Pending

/-! ## The invariant -/

/-- The lease is counted in the references of an endpoint. -/
def Lease.Holds (service uri : String) (lease : Lease) : Prop :=
  lease = .adding service uri ∨ lease = .active service uri

section Invariant

variable {ι κ : Type}

/-- References count the leases, and whatever starts out right about an endpoint
with nothing pending is right about it after draining. -/
structure Tracks (s : System ι κ) : Prop where
  counted : s.services.Counted
  holders : ∀ service uri, ∃ S : Finset ι, Census S s.leases (Lease.Holds service uri) ∧
    S.card = s.services.references service uri
  announced : ∀ service uri endpoints cursor, ¬ Pending s service uri →
    (uri ∈ endpoints ↔ uri ∈ s.services.endpoints service) →
    Agrees s service uri endpoints cursor
  received : ∀ subscription service cursor,
    s.subscriptions subscription = .receiving service cursor → cursor ≤ s.changes.length
  followed : ∀ subscription service endpoints cursor,
    s.subscriptions subscription = .live service endpoints cursor → cursor ≤ s.changes.length ∧
      ∀ uri, ¬ Pending s service uri → Agrees s service uri endpoints cursor

variable {s s' : System ι κ}

/-- A lease that is counted keeps its endpoint published. -/
theorem Tracks.mem_of_holds (tracks : Tracks s) {lease : ι} {service uri : String}
    (holds : Lease.Holds service uri (s.leases lease)) : uri ∈ s.services.endpoints service := by
  obtain ⟨S, census, count⟩ := tracks.holders service uri
  have := census.pos holds
  rw [tracks.counted.mem_endpoints]
  omega

theorem length_le_of_log
    (log : s'.changes = s.changes ∨ ∃ event, s'.changes = s.changes ++ [event]) :
    s.changes.length ≤ s'.changes.length := by
  rcases log with log | ⟨event, log⟩ <;> simp [log]

/-- A step of a publisher or a lease keeps the invariant when it counts the
references right and has one of the three effects on every endpoint. -/
theorem Tracks.of_effect (tracks : Tracks s) (counted : s'.services.Counted)
    (holders : ∀ service uri, ∃ S : Finset ι, Census S s'.leases (Lease.Holds service uri) ∧
      S.card = s'.services.references service uri)
    (subscriptions : s'.subscriptions = s.subscriptions)
    (log : s'.changes = s.changes ∨ ∃ event, s'.changes = s.changes ++ [event])
    (effect : ∀ service uri, Effect s s' service uri) : Tracks s' where
  counted := counted
  holders := holders
  announced := by
    intro service uri endpoints cursor settled starts
    by_cases bound : cursor ≤ s.changes.length
    · refine (effect service uri).agrees bound (fun same old => ?_) settled
      exact tracks.announced service uri endpoints cursor old (starts.trans same)
    · -- nothing is left to read
      unfold Agrees
      have past : s'.changes.length ≤ cursor := by
        rcases log with log | ⟨event, log⟩ <;> rw [log]
        · omega
        · rw [List.length_append, List.length_singleton]
          omega
      rw [List.drop_eq_nil_of_le past]
      exact starts
  received := by
    intro subscription service cursor receiving
    rw [subscriptions] at receiving
    exact Nat.le_trans (tracks.received subscription service cursor receiving)
      (length_le_of_log log)
  followed := by
    intro subscription service endpoints cursor live
    rw [subscriptions] at live
    obtain ⟨bound, agrees⟩ := tracks.followed subscription service endpoints cursor live
    refine ⟨Nat.le_trans bound (length_le_of_log log), fun uri settled => ?_⟩
    exact (effect service uri).agrees bound (fun _ old => agrees uri old) settled

variable [DecidableEq ι]

/-- A lease moves in a step that neither changes, announces nor leaves pending
anything about this endpoint. -/
theorem Effect.of_silent {lease : ι} {next : Lease} {service uri : String}
    (events : List ServiceEvent) (leases : s'.leases = Function.update s.leases lease next)
    (log : s'.changes = s.changes ++ events)
    (same : uri ∈ s'.services.endpoints service ↔ uri ∈ s.services.endpoints service)
    (notAdding : s.leases lease ≠ .adding service uri)
    (notRemoving : s.leases lease ≠ .removing service uri)
    (unheard : ∀ endpoints, uri ∈ replay service endpoints events ↔ uri ∈ endpoints) :
    Effect s s' service uri := by
  refine .silent events same (fun pending => ?_) log unheard
  obtain ⟨other, phase⟩ := pending
  refine ⟨other, ?_⟩
  rw [leases]
  simp only [same]
  split at phase <;> rename_i present <;> simp only [present, ↓reduceIte]
  · exact phase_keep phase notAdding
  · exact phase_keep phase notRemoving

theorem Tracks.reject (tracks : Tracks s) {lease : ι} {error : DiscoveryError}
    (unused : s.leases lease = .unused) :
    Tracks { s with leases := Function.update s.leases lease (.rejected error) } := by
  refine tracks.of_effect tracks.counted (fun service uri => ?_) rfl (.inl rfl)
    fun service uri => ?_
  · obtain ⟨S, census, count⟩ := tracks.holders service uri
    exact ⟨S, census.keep (by simp [Lease.Holds, unused]), count⟩
  · exact .of_silent [] rfl (by simp) Iff.rfl (by simp [unused]) (by simp [unused])
      fun _ => Iff.rfl

/-- The census of the leases that hold an endpoint after one lease moved: it
changes at most at the endpoint of that lease. -/
theorem holders_other {leases : ι → Lease} {lease : ι} {next : Lease}
    {before after : Services} {service uri service' uri' : String}
    {entry : Option RegistryEndpoint} (sets : before.Sets after service uri entry)
    (other : service' ≠ service ∨ uri' ≠ uri)
    (was : ¬ Lease.Holds service' uri' (leases lease)) (is : ¬ Lease.Holds service' uri' next)
    (holders : ∃ S : Finset ι, Census S leases (Lease.Holds service' uri') ∧
      S.card = before.references service' uri') :
    ∃ S : Finset ι, Census S (Function.update leases lease next) (Lease.Holds service' uri') ∧
      S.card = after.references service' uri' := by
  obtain ⟨S, census, count⟩ := holders
  refine ⟨S, census.keep (iff_of_false is was), ?_⟩
  rw [count, sets.references_other other]

theorem Tracks.publish (tracks : Tracks s) {lease : ι} {service : String}
    {endpoint : DiscoveredEndpoint} {services : Services} {added : Bool}
    (unused : s.leases lease = .unused)
    (update : publishUpdate s.services service endpoint = .ok (services, added)) :
    Tracks { s with
      services := services
      leases := Function.update s.leases lease
        (if added then .adding service endpoint.uri else .active service endpoint.uri) } := by
  obtain ⟨entry, sets, references, inserted⟩ := publishUpdate_sets update
  have counted : services.Counted := by
    refine sets.counted tracks.counted fun e eq => ?_
    cases eq
    omega
  have here : services.references service endpoint.uri =
      s.services.references service endpoint.uri + 1 := by
    rw [sets.references_here]
    exact references
  have present : endpoint.uri ∈ services.endpoints service := by
    rw [counted.mem_endpoints]
    omega
  refine tracks.of_effect counted (fun service' uri' => ?_) rfl (.inl rfl)
    fun service' uri' => ?_
  · by_cases other : service' ≠ service ∨ uri' ≠ endpoint.uri
    · refine holders_other sets other (by simp [Lease.Holds, unused]) ?_
        (tracks.holders service' uri')
      intro holds
      rcases other with ne | ne <;> cases added <;> simp [Lease.Holds, Ne.symm ne] at holds
    · rw [not_or, not_not, not_not] at other
      obtain ⟨rfl, rfl⟩ := other
      obtain ⟨S, census, count⟩ := tracks.holders service' endpoint.uri
      refine ⟨insert lease S, census.enter (by cases added <;> simp [Lease.Holds]), ?_⟩
      rw [census.card_enter (by simp [Lease.Holds, unused]), count]
      exact here.symm
  · by_cases other : service' ≠ service ∨ uri' ≠ endpoint.uri
    · exact .of_silent [] rfl (by simp) (sets.mem_other tracks.counted counted other)
        (by simp [unused]) (by simp [unused]) fun _ => Iff.rfl
    · rw [not_or, not_not, not_not] at other
      obtain ⟨rfl, rfl⟩ := other
      cases added with
      | true =>
          refine .pending ⟨lease, ?_⟩
          simp [present]
      | false =>
          -- a further reference to an endpoint that is already announced
          have old : endpoint.uri ∈ s.services.endpoints service' := by
            rw [tracks.counted.mem_endpoints]
            cases found : s.services.lookup service' endpoint.uri with
            | none => exact absurd (inserted.mpr found) Bool.false_ne_true
            | some entry =>
                unfold Services.references
                rw [found]
                exact tracks.counted _ _ _ found
          exact .of_silent [] rfl (by simp) (iff_of_true present old)
            (by simp [unused]) (by simp [unused]) fun _ => Iff.rfl

theorem Tracks.sendAdded (tracks : Tracks s) {lease : ι} {service uri : String}
    (adding : s.leases lease = .adding service uri) :
    Tracks { s with
      changes := s.changes ++ [.added service uri]
      leases := Function.update s.leases lease (.active service uri) } := by
  have present : uri ∈ s.services.endpoints service :=
    tracks.mem_of_holds (.inl adding)
  refine tracks.of_effect tracks.counted (fun service' uri' => ?_) rfl (.inr ⟨_, rfl⟩)
    fun service' uri' => ?_
  · obtain ⟨S, census, count⟩ := tracks.holders service' uri'
    exact ⟨S, census.keep (by simp [Lease.Holds, adding]), count⟩
  · by_cases here : service = service' ∧ uri = uri'
    · obtain ⟨rfl, rfl⟩ := here
      refine .announced _ rfl fun endpoints => ?_
      rw [mem_applyEvent_added]
      exact iff_of_true (.inl ⟨rfl, rfl⟩) present
    · refine .of_silent [.added service uri] rfl rfl Iff.rfl ?_ (by simp [adding]) ?_
      · rw [adding]
        simpa using here
      · intro endpoints
        exact mem_applyEvent_added.trans (by simp [here])

theorem Tracks.release (tracks : Tracks s) {lease : ι} {service uri : String}
    (active : s.leases lease = .active service uri) :
    Tracks { s with
      services := (releaseUpdate s.services service uri).1
      leases := Function.update s.leases lease
        (if (releaseUpdate s.services service uri).2 then .removing service uri
          else .released) } := by
  have present : uri ∈ s.services.endpoints service := tracks.mem_of_holds (.inr active)
  obtain ⟨entry, found⟩ : ∃ entry, s.services.lookup service uri = some entry := by
    rw [tracks.counted.mem_endpoints] at present
    unfold Services.references at present
    cases found : s.services.lookup service uri with
    | none =>
        rw [found] at present
        exact absurd present (Nat.lt_irrefl 0)
    | some entry => exact ⟨entry, rfl⟩
  have references : s.services.references service uri = entry.references := by
    unfold Services.references
    rw [found]
    rfl
  obtain ⟨removed, sets⟩ := releaseUpdate_sets found
  generalize releaseUpdate s.services service uri = update at removed sets ⊢
  obtain ⟨services, flag⟩ := update
  dsimp only at removed sets ⊢
  have counted : services.Counted := by
    refine sets.counted tracks.counted fun e eq => ?_
    split at eq
    · cases eq
    · cases eq
      show 0 < entry.references - 1
      omega
  have here : services.references service uri + 1 = s.services.references service uri := by
    have := tracks.counted _ _ _ found
    rw [sets.references_here, references]
    split
    · show 0 + 1 = entry.references
      omega
    · show entry.references - 1 + 1 = entry.references
      omega
  refine tracks.of_effect counted (fun service' uri' => ?_) rfl (.inl rfl)
    fun service' uri' => ?_
  · by_cases other : service' ≠ service ∨ uri' ≠ uri
    · refine holders_other sets other ?_ ?_ (tracks.holders service' uri')
      · rcases other with ne | ne <;> simp [Lease.Holds, active, Ne.symm ne]
      · cases flag <;> simp [Lease.Holds]
    · rw [not_or, not_not, not_not] at other
      obtain ⟨rfl, rfl⟩ := other
      obtain ⟨S, census, count⟩ := tracks.holders service' uri'
      refine ⟨S.erase lease, census.leave (by cases flag <;> simp [Lease.Holds]), ?_⟩
      have := census.card_leave (c := lease) (.inr active)
      dsimp only
      omega
  · by_cases other : service' ≠ service ∨ uri' ≠ uri
    · exact .of_silent [] rfl (by simp) (sets.mem_other tracks.counted counted other)
        (by simp [active]) (by simp [active]) fun _ => Iff.rfl
    · rw [not_or, not_not, not_not] at other
      obtain ⟨rfl, rfl⟩ := other
      by_cases last : entry.references ≤ 1
      · have absent : uri' ∉ services.endpoints service' := by
          rw [counted.mem_endpoints]
          omega
        refine .pending ⟨lease, ?_⟩
        simp [removed, last, absent]
      · have still : uri' ∈ services.endpoints service' := by
          rw [counted.mem_endpoints]
          omega
        exact .of_silent [] rfl (by simp) (iff_of_true still present)
          (by simp [active]) (by simp [active]) fun _ => Iff.rfl

theorem Tracks.sendRemoved (tracks : Tracks s) {lease : ι} {service uri : String}
    (removing : s.leases lease = .removing service uri)
    (inTime : uri ∈ s.services.endpoints service →
      ∃ other, s.leases other = .adding service uri) :
    Tracks { s with
      changes := s.changes ++ [.removed service uri]
      leases := Function.update s.leases lease .released } := by
  refine tracks.of_effect tracks.counted (fun service' uri' => ?_) rfl (.inr ⟨_, rfl⟩)
    fun service' uri' => ?_
  · obtain ⟨S, census, count⟩ := tracks.holders service' uri'
    exact ⟨S, census.keep (by simp [Lease.Holds, removing]), count⟩
  · by_cases here : service = service' ∧ uri = uri'
    · obtain ⟨rfl, rfl⟩ := here
      by_cases present : uri ∈ s.services.endpoints service
      · -- the re-insertion overtook this removal and is announced after it
        obtain ⟨other, adding⟩ := inTime present
        refine .pending ⟨other, ?_⟩
        simp only [present, ↓reduceIte]
        exact phase_keep adding (by simp [removing])
      · refine .announced _ rfl fun endpoints => ?_
        rw [mem_applyEvent_removed]
        exact iff_of_false (fun both => both.1 ⟨rfl, rfl⟩) present
    · refine .of_silent [.removed service uri] rfl rfl Iff.rfl (by simp [removing]) ?_ ?_
      · rw [removing]
        simpa using here
      · intro endpoints
        exact mem_applyEvent_removed.trans (by simp [here])

end Invariant

/-- A subscription keeps the invariant: opening, the snapshot and `recv` only
move along what was announced. -/
theorem Tracks.follow {ι κ : Type} [DecidableEq κ] {s : System ι κ} (tracks : Tracks s)
    {subscription : κ} {after : Subscription}
    (follows : Subscription.Follows s (s.subscriptions subscription) after) :
    Tracks { s with
      subscriptions := Function.update s.subscriptions subscription after } where
  counted := tracks.counted
  holders := tracks.holders
  announced := tracks.announced
  received := by
    intro other service cursor receiving
    rcases phase_of_update receiving with ⟨rfl, rfl⟩ | ⟨_, old⟩
    · rcases follows with ⟨_, eq⟩ | ⟨_, eq⟩ | ⟨_, _, _, eq⟩ | ⟨_, _, _, _, _, _, eq⟩
      · cases eq
      · cases eq
        exact Nat.le_refl _
      · cases eq
      · cases eq
    · exact tracks.received other service cursor old
  followed := by
    intro other service endpoints cursor live
    rcases phase_of_update live with ⟨rfl, rfl⟩ | ⟨_, old⟩
    · rcases follows with ⟨_, eq⟩ | ⟨_, eq⟩ | ⟨_, _, before, eq⟩ |
        ⟨_, endpoints, position, event, before, read, eq⟩
      · cases eq
      · cases eq
      · cases eq
        refine ⟨?_, fun uri settled => tracks.announced _ _ _ _ settled Iff.rfl⟩
        rcases before with receiving | ⟨_, live⟩
        · exact tracks.received _ _ _ receiving
        · exact (tracks.followed _ _ _ _ live).1
      · cases eq
        obtain ⟨inLog, event_eq⟩ := List.getElem?_eq_some_iff.mp read
        refine ⟨inLog, fun uri settled => ?_⟩
        have agrees := (tracks.followed _ _ _ _ before).2 uri settled
        unfold Agrees at agrees ⊢
        rw [← agrees, List.drop_eq_getElem_cons inLog, event_eq]
        rfl
    · exact tracks.followed other service endpoints cursor old

section Runs

variable {ι κ : Type} [DecidableEq ι] [DecidableEq κ] {s s' : System ι κ} {a : Action ι κ}

theorem Tracks.init : Tracks (lts ι κ).init where
  counted := by
    intro service uri entry found
    cases found
  holders := by
    intro service uri
    exact ⟨∅, Census.empty (by simp [lts, Lease.Holds]), rfl⟩
  announced := by
    intro service uri endpoints cursor _ starts
    unfold Agrees
    rw [List.drop_eq_nil_of_le (Nat.zero_le cursor)]
    exact starts
  received := by
    intro subscription service cursor receiving
    cases receiving
  followed := by
    intro subscription service endpoints cursor live
    cases live

theorem Tracks.step (tracks : Tracks s) (inTime : NoLateRemoval s a)
    (step : Discov.step s a = some s') : Tracks s' := by
  rcases step_cases step with ⟨lease, error, unused, rfl⟩ |
    ⟨lease, service, endpoint, services, added, unused, update, rfl⟩ |
    ⟨lease, service, uri, adding, rfl⟩ | ⟨lease, service, uri, active, rfl⟩ |
    ⟨lease, service, uri, rfl, removing, rfl⟩ | ⟨subscription, after, follows, rfl⟩
  · exact tracks.reject unused
  · exact tracks.publish unused update
  · exact tracks.sendAdded adding
  · exact tracks.release active
  · exact tracks.sendRemoved removing (inTime service uri removing)
  · exact tracks.follow follows

theorem Tracks.reach (reach : (lts ι κ).Reach NoLateRemoval s) : Tracks s :=
  reach.invariant Tracks.init fun _ _ _ tracks inTime step => tracks.step inTime step

/-- Every publish, release and subscribe call has finished. -/
def Quiescent (s : System ι κ) : Prop :=
  (∀ lease service uri, s.leases lease ≠ .adding service uri ∧
    s.leases lease ≠ .removing service uri) ∧
  ∀ subscription service cursor, s.subscriptions subscription ≠ .receiving service cursor

/-- In every run that announces no removal late: once every operation has
finished, a subscription that has drained its receiver holds exactly the
registry's endpoints of its service. -/
theorem subscriptions_converge (subscription : κ) {service : String}
    {endpoints : Finset String} {cursor : Nat}
    (reach : (lts ι κ).Reach NoLateRemoval s) (quiescent : Quiescent s)
    (live : s.subscriptions subscription = .live service endpoints cursor)
    (drained : cursor = s.changes.length) :
    endpoints = s.services.endpoints service := by
  ext uri
  have settled : ¬ Pending s service uri := by
    rintro ⟨lease, phase⟩
    split at phase
    · exact (quiescent.1 lease service uri).1 phase
    · exact (quiescent.1 lease service uri).2 phase
  have agrees := ((Tracks.reach reach).followed subscription service endpoints cursor live).2
    uri settled
  unfold Agrees at agrees
  rw [drained, List.drop_eq_nil_of_le (Nat.le_refl _)] at agrees
  exact agrees

end Runs

/-! ## Two runs -/

/-- An endpoint of weight one without metadata. -/
def plainEndpoint : DiscoveredEndpoint where
  uri := "http://users-a"
  weight := 1
  metadata := []
  uri_valid := by decide
  weight_valid := by decide

/-- A publish, release and re-publish of one endpoint next to a subscription
that ends up with it. -/
theorem subscriptions_converge_republished :
    ∃ (s : System (Fin 2) (Fin 1)) (endpoints : Finset String),
      s.subscriptions 0 = .live "users" endpoints s.changes.length ∧
      "http://users-a" ∈ s.services.endpoints "users" ∧
      endpoints = s.services.endpoints "users" := by
  have inTime : (lts (Fin 2) (Fin 1)).Meets NoLateRemoval (lts (Fin 2) (Fin 1)).init
      [.publish 0 "users" plainEndpoint, .sendAdded 0, .subscribe 0 "users", .snapshot 0,
        .release 0, .sendRemoved 0, .publish 1 "users" plainEndpoint, .sendAdded 1, .recv 0,
        .recv 0] := by
    refine ⟨trivial, trivial, trivial, trivial, trivial, ?_, trivial, trivial, trivial, trivial,
      trivial⟩
    intro service uri removing present
    cases removing
    exact absurd present (by decide)
  have reach := Lts.reach_of_exec _ inTime rfl
  refine ⟨_, _, rfl, by decide, subscriptions_converge 0 reach ⟨?_, ?_⟩ rfl rfl⟩
  · intro lease service uri
    match lease with
    | 0 => exact ⟨nofun, nofun⟩
    | 1 => exact ⟨nofun, nofun⟩
  · intro subscription service cursor
    match subscription with
    | 0 => exact nofun

/-- The removal of the first lease is announced after the re-insertion: every
operation has finished, the subscription has read the whole log and misses an
endpoint that is published. -/
theorem late_removal_diverges :
    ∃ (s : System (Fin 2) (Fin 1)) (endpoints : Finset String),
      (lts (Fin 2) (Fin 1)).Reachable s ∧ Quiescent s ∧
      s.subscriptions 0 = .live "users" endpoints s.changes.length ∧
      endpoints ≠ s.services.endpoints "users" := by
  have reach : (lts (Fin 2) (Fin 1)).Reachable _ :=
    Lts.reachable_of_exec [.publish 0 "users" plainEndpoint, .sendAdded 0,
      .subscribe 0 "users", .snapshot 0, .release 0, .publish 1 "users" plainEndpoint,
      .sendAdded 1, .sendRemoved 0, .recv 0, .recv 0] rfl
  refine ⟨_, ∅, reach, ⟨?_, ?_⟩, rfl, by decide⟩
  · intro lease service uri
    match lease with
    | 0 => exact ⟨nofun, nofun⟩
    | 1 => exact ⟨nofun, nofun⟩
  · intro subscription service cursor
    match subscription with
    | 0 => exact nofun

end RustZero.Discov
