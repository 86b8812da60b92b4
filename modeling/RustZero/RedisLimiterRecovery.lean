import RustZero.RedisLimiter

/-!
# Recovery probes of the Redis-backed limiters

The monitor's state `probing` stands for a recovery probe that will report.  Two
things can go wrong with that.

* Only code behind the await takes the monitor out of `probing`.  Along runs
  that never drop the last sent take while the monitor is probing
  (`Attended`), a probing monitor has a take that will still report
  (`probing_attended`), so a limiter at rest asks Redis again as soon as a probe
  is due (`recovery_never_stuck`).  A dropped probe leaves the limiter on its
  rescue path for good (`abandoned_probe_sticks`).
* `redis_success` and `redis_failure` overwrite the state whatever it is.  Along
  runs in which no take reports while the probe of another is out
  (`Undisturbed`), a probe that is out keeps the monitor probing and is the only
  one (`one_probe_at_a_time`); late reports of ordinary takes let a second probe
  out (`late_reports_disturb_probe`).
-/

namespace RustZero.RedisLimiter

open Lib

variable {ι Req R : Type} [DecidableEq ι] {limiter : Limiter Req R} {rescue : R}
  {s s' : System ι Req R} {a : Action ι Req}

/-! ## Recovery is never stuck -/

/-- Not started, or over. -/
def Take.AtRest : Take Req → Prop
  | .idle | .returned _ | .panicked | .dropped => True
  | _ => False

theorem Take.AtRest.unsent {take : Take Req} (rest : take.AtRest) : take.sent = none := by
  cases take with
  | awaiting request probe => exact rest.elim
  | succeeded decision probe => exact rest.elim
  | failed request probe => exact rest.elim
  | rearmed request probe => exact rest.elim
  | _ => rfl

/-- A take sent to Redis is dropped only when the monitor is not probing or some
other take that was sent is still to report. -/
def Attended (s : System ι Req R) : Action ι Req → Prop
  | .drop call => s.monitor.backendState = .probing →
      ∃ other, other ≠ call ∧ (s.takes other).sent ≠ none
  | _ => True

/-- A probing monitor has a take that will report. -/
def ProbingAttended (state : BackendState) (takes : ι → Take Req) : Prop :=
  state = .probing → ∃ call, (takes call).sent ≠ none

theorem sent_of_update {takes : ι → Take Req} {call moved : ι} {take : Take Req}
    (sent : (takes call).sent ≠ none) (kept : call = moved → take.sent ≠ none) :
    (Function.update takes moved take call).sent ≠ none := by
  by_cases mine : call = moved
  · rw [mine, Function.update_self]
    exact kept mine
  · rw [Function.update_of_ne mine]
    exact sent

theorem probing_attended (held : ProbingAttended s.monitor.backendState s.takes)
    (attended : Attended s a) (taken : step limiter s a = some s') :
    ProbingAttended s'.monitor.backendState s'.takes := by
  have effect := step_effect taken
  generalize s'.monitor.backendState = state' at effect
  generalize s'.takes = takes' at effect
  cases effect with
  | quiet _ call take same =>
      intro probing
      obtain ⟨other, sent⟩ := held probing
      refine ⟨other, sent_of_update sent ?_⟩
      intro mine
      rw [same, ← mine]
      exact sent
  | clock => exact held
  | launch call request idle trusted =>
      intro probing
      rcases trusted with never | available
      · rw [never] at probing
        cases probing
      · rw [available] at probing
        cases probing
  | probe call request due unavailable =>
      intro _
      refine ⟨call, ?_⟩
      rw [Function.update_self]
      exact Option.some_ne_none true
  | success call decision probe sent =>
      intro probing
      cases probing
  | failure call request probe sent =>
      intro probing
      cases probing
  | drop call request probe sent =>
      intro probing
      obtain ⟨other, another, reporting⟩ := attended probing
      refine ⟨other, sent_of_update reporting ?_⟩
      intro mine
      exact absurd mine another

theorem probing_attended_reach (reach : (lts ι limiter rescue).Reach Attended s) :
    ProbingAttended s.monitor.backendState s.takes :=
  reach.invariant (I := fun t => ProbingAttended t.monitor.backendState t.takes)
    (fun probing => by cases probing) fun _ _ _ held attended taken =>
      probing_attended held attended taken

/-- The steps of one take. -/
def Own (call : ι) (_ : System ι Req R) (a : Action ι Req) : Prop :=
  (∃ request, a = .begin call request) ∨ a = .readClock call ∨ a = .loadProbeTime call ∨
    a = .compareExchange call

/-- A take whose `should_attempt_redis` runs without interruption and answers
`true` gets to await Redis. -/
theorem sent_of_shouldAttemptRedis {call : ι} {request : Req} (idle : s.takes call = .idle)
    (proceed : limiter.entry request = .proceed)
    (should : (s.monitor.shouldAttemptRedis s.clocks.wall).1 = true) :
    ∃ s' probe, (lts ι limiter rescue).Steps (Own call) s s' ∧
      s'.takes call = .awaiting request probe := by
  have begun : (lts ι limiter rescue).step s (.begin call request) =
      some (begin limiter s call request) := by
    simp only [lts, step, idle]
  have first := Lts.Steps.single (P := Own call) (.inl ⟨request, rfl⟩) begun
  unfold begin at first
  rw [proceed] at first
  cases state : s.monitor.backendState with
  | notObserved =>
      rw [state] at first
      exact ⟨_, false, first, Function.update_self ..⟩
  | available =>
      rw [state] at first
      exact ⟨_, false, first, Function.update_self ..⟩
  | probing =>
      simp only [RedisLimiterMonitor.shouldAttemptRedis, state] at should
      cases should
  | unavailable =>
      rw [state] at first
      have due : s.monitor.nextProbeAtMs ≤ unixMillisU64 s.clocks.wall := by
        simp only [RedisLimiterMonitor.shouldAttemptRedis, state] at should
        by_contra early
        rw [if_neg early] at should
        cases should
      let timed := (s.move call (.observed request)).move call
        (.timed request (unixMillisU64 s.clocks.wall))
      let ready := timed.move call (.due request)
      have second : (lts ι limiter rescue).step (s.move call (.observed request))
          (.readClock call) = some timed := by
        simp only [lts, step, System.move, Function.update_self]
        rfl
      have third : (lts ι limiter rescue).step timed (.loadProbeTime call) = some ready := by
        simp only [lts, step, timed, System.move, Function.update_self]
        exact if_pos due
      have last : (lts ι limiter rescue).step ready (.compareExchange call) =
          some (compareExchange ready call request) := by
        simp only [lts, step, ready, System.move, Function.update_self]
      have run := ((first.tail (.inr (.inl rfl)) second).tail
        (.inr (.inr (.inl rfl))) third).tail (.inr (.inr (.inr rfl))) last
      refine ⟨_, true, run, ?_⟩
      have still : ready.monitor.backendState = .unavailable := state
      simp only [compareExchange, still, if_true]
      exact Function.update_self ..

/-- **Redis limiter recovery never gets stuck**, along every run that does not
drop the last sent take of a probing monitor: at rest with a probe due,
`should_attempt_redis` answers `true` and the next take is sent to Redis. -/
theorem recovery_never_stuck (limiter : Limiter Req R) (rescue : R) (s : System ι Req R)
    (reach : (lts ι limiter rescue).Reach Attended s) (rest : ∀ call, (s.takes call).AtRest)
    (due : s.monitor.nextProbeAtMs ≤ unixMillisU64 s.clocks.wall) :
    (s.monitor.shouldAttemptRedis s.clocks.wall).1 = true ∧
    ∀ call request, s.takes call = .idle → limiter.entry request = .proceed →
      ∃ s' probe, (lts ι limiter rescue).Steps (Own call) s s' ∧
        s'.takes call = .awaiting request probe := by
  have notProbing : s.monitor.backendState ≠ .probing := by
    intro probing
    obtain ⟨call, sent⟩ := probing_attended_reach reach probing
    exact sent (rest call).unsent
  have should : (s.monitor.shouldAttemptRedis s.clocks.wall).1 = true := by
    unfold RedisLimiterMonitor.shouldAttemptRedis
    cases state : s.monitor.backendState with
    | notObserved => rfl
    | available => rfl
    | unavailable => exact congrArg Prod.fst (if_pos due)
    | probing => exact absurd state notProbing
  refine ⟨should, ?_⟩
  intro call request idle proceed
  exact sent_of_shouldAttemptRedis idle proceed should

/-- A probing monitor without a take that will report stays so: every later take
goes to the rescue limiter. -/
theorem abandoned_probe_sticks (run : (lts ι limiter rescue).Steps Lts.Always s s')
    (probing : s.monitor.backendState = .probing) (silent : ∀ call, (s.takes call).sent = none) :
    s'.monitor.backendState = .probing ∧ ∀ call, (s'.takes call).sent = none := by
  refine run.preserved (I := fun t => t.monitor.backendState = .probing ∧
    ∀ call, (t.takes call).sent = none) ?_ ⟨probing, silent⟩
  intro t a t' stuck _ taken
  obtain ⟨probing, unsent⟩ := stuck
  have effect := step_effect taken
  generalize t'.monitor.backendState = state' at effect
  generalize t'.takes = takes' at effect
  cases effect with
  | quiet _ call take same =>
      refine ⟨probing, ?_⟩
      intro other
      by_cases mine : other = call
      · rw [mine, Function.update_self, same]
        exact unsent call
      · rw [Function.update_of_ne mine]
        exact unsent other
  | clock => exact ⟨probing, unsent⟩
  | launch call request idle trusted =>
      rw [probing] at trusted
      rcases trusted with never | available
      · cases never
      · cases available
  | probe call request due unavailable =>
      rw [probing] at unavailable
      cases unavailable
  | success call decision probe sent =>
      have := unsent call
      rw [sent] at this
      cases this
  | failure call request probe sent =>
      have := unsent call
      rw [sent] at this
      cases this
  | drop call request probe sent =>
      have := unsent call
      rw [sent] at this
      cases this

/-- A token limiter of burst 10 that probes once a second, with a rescue bucket
that always has room. -/
def sampleLimiter : Limiter Nat Unit :=
  RedisTokenLimiter 10 1000 fun bucket _ _ => some (.allowed, bucket)

/-- Redis fails one take; the probe a second later is answered. -/
theorem recovery_never_stuck_recovered :
    ∃ s : System Bool Nat Unit, s.monitor.backendState = .available ∧
      s.monitor.backendRecoveries = 1 ∧ (s.monitor.shouldAttemptRedis s.clocks.wall).1 = true := by
  have meets : (lts Bool sampleLimiter ()).Meets Attended (lts Bool sampleLimiter ()).init
      [.begin false 1, .reply false (.error "timeout"), .storeProbeTime false,
        .storeUnavailable false, .rescue false, .setClock 1000, .begin true 1, .readClock true,
        .loadProbeTime true, .compareExchange true, .reply true (.ok [0, 0]),
        .redisSuccess true] :=
    ⟨trivial, trivial, trivial, trivial, trivial, trivial, trivial, trivial, trivial, trivial,
      trivial, trivial, trivial⟩
  have reach := Lts.reach_of_exec _ meets rfl
  refine ⟨_, rfl, rfl, (recovery_never_stuck _ _ _ reach ?_ ?_).1⟩
  · intro call
    cases call with
    | false => trivial
    | true => trivial
  · decide

/-- Redis fails one take and the future of the probe is dropped.  From then on
nothing is ever sent to Redis again, however long it has been reachable. -/
theorem dropped_probe_sticks :
    ∃ s : System Bool Nat Unit, (lts Bool sampleLimiter ()).Reachable s ∧
      (∀ call, (s.takes call).AtRest) ∧ s.monitor.nextProbeAtMs ≤ unixMillisU64 s.clocks.wall ∧
      ∀ s', (lts Bool sampleLimiter ()).Steps Lts.Always s s' →
        (s'.monitor.shouldAttemptRedis s'.clocks.wall).1 = false ∧
        ∀ call, (s'.takes call).sent = none := by
  have abandoned : ∃ s : System Bool Nat Unit, (lts Bool sampleLimiter ()).Reachable s ∧
      (∀ call, (s.takes call).AtRest) ∧ s.monitor.nextProbeAtMs ≤ unixMillisU64 s.clocks.wall ∧
      s.monitor.backendState = .probing := by
    refine ⟨_, Lts.reachable_of_exec [.begin false 1, .reply false (.error "timeout"),
      .storeProbeTime false, .storeUnavailable false, .rescue false, .setClock 1000,
      .begin true 1, .readClock true, .loadProbeTime true, .compareExchange true,
      .drop true] rfl, ?_, by decide, rfl⟩
    intro call
    cases call with
    | false => trivial
    | true => trivial
  obtain ⟨s, reach, rest, due, probing⟩ := abandoned
  refine ⟨s, reach, rest, due, ?_⟩
  intro s' run
  obtain ⟨stuck, unsent⟩ := abandoned_probe_sticks run probing (fun call => (rest call).unsent)
  refine ⟨?_, unsent⟩
  simp only [RedisLimiterMonitor.shouldAttemptRedis, stuck]

/-! ## One probe at a time -/

/-- A take reports to the monitor only when no other take's probe is out. -/
def Undisturbed (s : System ι Req R) : Action ι Req → Prop
  | .redisSuccess call => ∀ other, other ≠ call → (s.takes other).sent ≠ some true
  | .storeUnavailable call => ∀ other, other ≠ call → (s.takes other).sent ≠ some true
  | _ => True

/-- A probe that is out keeps the monitor probing and is the only one. -/
structure SoleProbe (state : BackendState) (takes : ι → Take Req) : Prop where
  probing : ∀ call, (takes call).sent = some true → state = .probing
  sole : ∀ left right, (takes left).sent = some true → (takes right).sent = some true →
    left = right

section SoleProbe

variable {state state' : BackendState} {takes : ι → Take Req} {call : ι} {take : Take Req}

/-- A step that puts no probe out and leaves the state alone. -/
theorem SoleProbe.keep (held : SoleProbe state takes)
    (old : take.sent = some true → (takes call).sent = some true) :
    SoleProbe state (Function.update takes call take) := by
  have before : ∀ other, (Function.update takes call take other).sent = some true →
      (takes other).sent = some true := by
    intro other sent
    rcases phase_of_update (x := Function.update takes call take other) rfl with
      ⟨mine, new⟩ | ⟨_, same⟩
    · rw [mine]
      apply old
      rw [new]
      exact sent
    · rw [same]
      exact sent
  constructor
  · intro other sent
    exact held.probing other (before other sent)
  · intro left right sentLeft sentRight
    exact held.sole left right (before left sentLeft) (before right sentRight)

omit [DecidableEq ι] in
/-- With no probe out, any state will do. -/
theorem SoleProbe.of_none (none : ∀ other, (takes other).sent ≠ some true) :
    SoleProbe state takes where
  probing := fun other sent => absurd sent (none other)
  sole := fun left _ sent _ => absurd sent (none left)

/-- A report that ends the only take whose probe may be out. -/
theorem SoleProbe.report (unsent : take.sent = none)
    (others : ∀ other, other ≠ call → (takes other).sent ≠ some true) :
    SoleProbe state (Function.update takes call take) := by
  apply SoleProbe.of_none
  intro other sent
  by_cases mine : other = call
  · rw [mine, Function.update_self, unsent] at sent
    cases sent
  · rw [Function.update_of_ne mine] at sent
    exact others other mine sent

end SoleProbe

theorem soleProbe_step (held : SoleProbe s.monitor.backendState s.takes)
    (undisturbed : Undisturbed s a) (taken : step limiter s a = some s') :
    SoleProbe s'.monitor.backendState s'.takes := by
  have effect := step_effect taken
  generalize s'.monitor.backendState = state' at effect
  generalize s'.takes = takes' at effect
  cases effect with
  | quiet _ call take same =>
      apply held.keep
      intro sent
      rw [← same]
      exact sent
  | clock => exact held
  | launch call request idle trusted =>
      apply held.keep
      intro sent
      cases sent
  | probe call request due unavailable =>
      -- the monitor was not probing, so no probe was out
      have none : ∀ other, (s.takes other).sent ≠ some true := by
        intro other sent
        have probing := held.probing other sent
        rw [unavailable] at probing
        cases probing
      constructor
      · intro _ _
        rfl
      · have mine : ∀ other, (Function.update s.takes call (.awaiting request true) other).sent =
            some true → other = call := by
          intro other sent
          by_contra another
          rw [Function.update_of_ne another] at sent
          exact none other sent
        intro left right sentLeft sentRight
        rw [mine left sentLeft, mine right sentRight]
  | success call decision probe sent => exact .report rfl undisturbed
  | failure call request probe sent => exact .report rfl undisturbed
  | drop call request probe sent =>
      apply held.keep
      intro impossible
      cases impossible

theorem soleProbe_reach (reach : (lts ι limiter rescue).Reach Undisturbed s) :
    SoleProbe s.monitor.backendState s.takes :=
  reach.invariant (I := fun t => SoleProbe t.monitor.backendState t.takes)
    (.of_none fun _ sent => by cases sent)
    fun _ _ _ held undisturbed taken => soleProbe_step held undisturbed taken

/-- A step that sends a take finds the monitor not probing. -/
theorem not_probing_of_send {call : ι} (taken : step limiter s a = some s')
    (before : (s.takes call).sent = none) (after : (s'.takes call).sent ≠ none) :
    s.monitor.backendState ≠ .probing := by
  have effect := step_effect taken
  generalize s'.monitor.backendState = state' at effect
  generalize s'.takes = takes' at effect after
  have unsent : ∀ moved take, take.sent = none ∨ take.sent = (s.takes moved).sent →
      (Function.update s.takes moved take call).sent = none := by
    intro moved take old
    by_cases mine : call = moved
    · subst mine
      rw [Function.update_self]
      rcases old with none | same
      · exact none
      · rw [same, before]
    · rw [Function.update_of_ne mine]
      exact before
  cases effect with
  | quiet _ moved take same => exact absurd (unsent moved take (.inr same)) after
  | clock => exact absurd before after
  | launch moved request idle trusted =>
      intro probing
      rw [probing] at trusted
      rcases trusted with never | available
      · cases never
      · cases available
  | probe moved request due unavailable =>
      intro probing
      rw [probing] at unavailable
      cases unavailable
  | success moved decision probe sent => exact absurd (unsent moved _ (.inl rfl)) after
  | failure moved request probe sent => exact absurd (unsent moved _ (.inl rfl)) after
  | drop moved request probe sent => exact absurd (unsent moved _ (.inl rfl)) after

/-- **One recovery probe at a time**, along every run in which no take reports
while the probe of another is out: at most one probe awaits Redis, and while it
does no step sends another take. -/
theorem one_probe_at_a_time (limiter : Limiter Req R) (rescue : R) (s : System ι Req R)
    (reach : (lts ι limiter rescue).Reach Undisturbed s) :
    (∀ left right first second, s.takes left = .awaiting first true →
      s.takes right = .awaiting second true → left = right) ∧
    (∀ probe request, s.takes probe = .awaiting request true →
      ∀ a s' call, (lts ι limiter rescue).step s a = some s' →
        (s.takes call).sent = none → (s'.takes call).sent = none) := by
  have held := soleProbe_reach reach
  have out : ∀ call request, s.takes call = .awaiting request true →
      (s.takes call).sent = some true := by
    intro call request awaiting
    rw [awaiting]
    rfl
  constructor
  · intro left right first second awaitingLeft awaitingRight
    exact held.sole left right (out left first awaitingLeft) (out right second awaitingRight)
  · intro probe request awaiting a s' call taken before
    by_contra after
    exact not_probing_of_send taken before after (held.probing probe (out probe request awaiting))

/-- A probe that is out while another take goes to the rescue limiter. -/
theorem one_probe_at_a_time_rescued :
    ∃ s : System Nat Nat Unit, s.takes 1 = .awaiting 1 true ∧ s.takes 2 = .returned .allowed ∧
      ∀ left right first second, s.takes left = .awaiting first true →
        s.takes right = .awaiting second true → left = right := by
  have meets : (lts Nat sampleLimiter ()).Meets Undisturbed (lts Nat sampleLimiter ()).init
      [.begin 0 1, .reply 0 (.error "timeout"), .storeProbeTime 0, .storeUnavailable 0, .rescue 0,
        .setClock 1000, .begin 1 1, .readClock 1, .loadProbeTime 1, .compareExchange 1,
        .begin 2 1, .rescue 2] := by
    refine ⟨trivial, trivial, trivial, ?_, trivial, trivial, trivial, trivial, trivial, trivial,
      trivial, trivial, trivial⟩
    intro other another sent
    cases other with
    | zero => exact absurd rfl another
    | succ other => cases sent
  have reach := Lts.reach_of_exec _ meets rfl
  exact ⟨_, rfl, rfl, (one_probe_at_a_time _ _ _ reach).1⟩

/-- Redis fails take 0 and take 2 is the probe when the ordinary take 1 reports
late.  A failure makes the monitor unavailable again and lets take 3 out as a
second probe; a success makes it available and sends take 3 beside the probe. -/
theorem late_reports_disturb_probe :
    (∃ s : System Nat Nat Unit, (lts Nat sampleLimiter ()).Reachable s ∧
      s.takes 2 = .awaiting 1 true ∧ s.takes 3 = .awaiting 1 true) ∧
    (∃ s s' : System Nat Nat Unit, (lts Nat sampleLimiter ()).Reachable s ∧
      s.takes 2 = .awaiting 1 true ∧ (lts Nat sampleLimiter ()).step s (.begin 3 1) = some s' ∧
      s.takes 3 = .idle ∧ s'.takes 3 = .awaiting 1 false) := by
  constructor
  · exact ⟨_, Lts.reachable_of_exec [.begin 0 1, .begin 1 1, .reply 0 (.error "timeout"),
      .storeProbeTime 0, .storeUnavailable 0, .rescue 0, .setClock 1000, .begin 2 1, .readClock 2,
      .loadProbeTime 2, .compareExchange 2, .reply 1 (.error "timeout"), .storeProbeTime 1,
      .storeUnavailable 1, .setClock 2000, .begin 3 1, .readClock 3, .loadProbeTime 3,
      .compareExchange 3] rfl, rfl, rfl⟩
  · exact ⟨_, _, Lts.reachable_of_exec [.begin 0 1, .begin 1 1, .reply 0 (.error "timeout"),
      .storeProbeTime 0, .storeUnavailable 0, .rescue 0, .setClock 1000, .begin 2 1, .readClock 2,
      .loadProbeTime 2, .compareExchange 2, .reply 1 (.ok [0, 0]), .redisSuccess 1] rfl, rfl, rfl,
      rfl, rfl⟩

end RustZero.RedisLimiter
