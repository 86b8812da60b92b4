import RustZero.Metric

/-!
# HTTP metrics

`rest/src/metrics.rs`: the metrics of the REST server.  A layer of the server makes its
updates one by one; an `Update` is one of them with its label values.
-/

namespace RustZero.Http

open RustZero.Metric

structure HttpMetrics where
  requests : CounterVec
  duration : HistogramVec
  inFlight : GaugeVec
  protectionDecisions : CounterVec

def HttpMetrics.new : HttpMetrics where
  requests := .register ["method", "path", "status"]
  duration := ⟨defaultHistogramBuckets, .register ["method", "path", "status"]⟩
  inFlight := .register ["method", "path"]
  protectionDecisions := .register ["mechanism", "decision"]

inductive Update where
  | request (method path status : String)
  | duration (seconds : ℚ) (method path status : String)
  | enter (method path : String)
  | leave (method path : String)
  | protection (mechanism decision : String)
  deriving DecidableEq

/-- The label set an update adds an observation to. -/
def Update.observed : Update → Option (List String)
  | .duration _ method path status => some [method, path, status]
  | _ => none

/-- `HttpMetrics::record`. -/
def record (method path : String) (status : Nat) (elapsedSeconds : ℚ) : List Update :=
  [.request method path (toString status), .duration elapsedSeconds method path (toString status)]

/-- One update; its caller panics where it fails. -/
def HttpMetrics.post (metrics : HttpMetrics) : Update → Except MetricsError HttpMetrics
  | .request method path status => do
      pure { metrics with
        requests := ← CounterVec.inc metrics.requests [method, path, status] }
  | .duration seconds method path status => do
      pure { metrics with
        duration := ← metrics.duration.observe seconds [method, path, status] }
  | .enter method path => do
      pure { metrics with inFlight := ← GaugeVec.inc metrics.inFlight [method, path] }
  | .leave method path => do
      pure { metrics with inFlight := ← GaugeVec.dec metrics.inFlight [method, path] }
  | .protection mechanism decision => do
      pure { metrics with
        protectionDecisions := ←
          CounterVec.inc metrics.protectionDecisions [mechanism, decision] }

/-- The vectors have the labels of `HttpMetrics::new`. -/
structure HttpMetrics.Fixed (metrics : HttpMetrics) : Prop where
  requests : metrics.requests.labels.length = 3
  duration : metrics.duration.family.labels.length = 3
  inFlight : metrics.inFlight.labels.length = 2
  protectionDecisions : metrics.protectionDecisions.labels.length = 2

theorem HttpMetrics.fixed_new : HttpMetrics.new.Fixed :=
  ⟨rfl, rfl, rfl, rfl⟩

/-- An update does not fail, and the counter or the observations of its labels alone grow. -/
theorem HttpMetrics.post_spec {metrics : HttpMetrics} (fixed : metrics.Fixed) (update : Update) :
    ∃ metrics', metrics.post update = .ok metrics' ∧ metrics'.Fixed ∧
      (∀ method path status, metrics'.requests.read 0 [method, path, status] =
        metrics.requests.read 0 [method, path, status] +
          if update = .request method path status then 1 else 0) ∧
      ∀ labels, (metrics'.duration.stored labels).length =
        (metrics.duration.stored labels).length +
          if update.observed = some labels then 1 else 0 := by
  cases update with
  | request method path status =>
      have done : CounterVec.inc metrics.requests [method, path, status] = _ :=
        CounterVec.inc_ok fixed.requests.symm
      refine ⟨{ metrics with
          requests := metrics.requests.update 0 [method, path, status] (· + 1) },
        by rw [post, done]; rfl,
        ⟨fixed.requests, fixed.duration, fixed.inFlight, fixed.protectionDecisions⟩, ?_,
        by simp [Update.observed]⟩
      intro method' path' status'
      rw [MetricFamily.read_update]
      by_cases same : [method, path, status] = [method', path', status']
      · simp_all
      · rw [if_neg same, if_neg (by simpa using same), add_zero]
  | duration seconds method path status =>
      have done : metrics.duration.observe seconds [method, path, status] = _ :=
        HistogramVec.observe_ok seconds fixed.duration.symm
      refine ⟨{ metrics with duration := { metrics.duration with
          family := metrics.duration.family.update [] [method, path, status] (· ++ [seconds]) } },
        by rw [post, done]; rfl,
        ⟨fixed.requests, fixed.duration, fixed.inFlight, fixed.protectionDecisions⟩, by simp, ?_⟩
      intro labels
      simp only [HistogramVec.stored, MetricFamily.read_update, Update.observed,
        Option.some.injEq]
      by_cases same : [method, path, status] = labels
      · simp [same]
      · simp [same]
  | enter method path =>
      have done : GaugeVec.inc metrics.inFlight [method, path] = _ :=
        GaugeVec.inc_ok fixed.inFlight.symm
      refine ⟨{ metrics with inFlight := metrics.inFlight.update 0 [method, path] (· + 1) },
        by rw [post, done]; rfl,
        ⟨fixed.requests, fixed.duration, fixed.inFlight, fixed.protectionDecisions⟩,
        by simp, by simp [Update.observed]⟩
  | leave method path =>
      have done : GaugeVec.dec metrics.inFlight [method, path] = _ :=
        GaugeVec.dec_ok fixed.inFlight.symm
      refine ⟨{ metrics with inFlight := metrics.inFlight.update 0 [method, path] (· + -1) },
        by rw [post, done]; rfl,
        ⟨fixed.requests, fixed.duration, fixed.inFlight, fixed.protectionDecisions⟩,
        by simp, by simp [Update.observed]⟩
  | protection mechanism decision =>
      have done : CounterVec.inc metrics.protectionDecisions [mechanism, decision] = _ :=
        CounterVec.inc_ok fixed.protectionDecisions.symm
      refine ⟨{ metrics with protectionDecisions :=
          metrics.protectionDecisions.update 0 [mechanism, decision] (· + 1) },
        by rw [post, done]; rfl,
        ⟨fixed.requests, fixed.duration, fixed.inFlight, fixed.protectionDecisions⟩,
        by simp, by simp [Update.observed]⟩

/-- A counter and the observations of its labels grow by the number of their updates. -/
theorem HttpMetrics.post_all {metrics : HttpMetrics} (fixed : metrics.Fixed)
    (updates : List Update) :
    ∃ metrics', updates.foldlM HttpMetrics.post metrics = .ok metrics' ∧ metrics'.Fixed ∧
      (∀ method path status, metrics'.requests.read 0 [method, path, status] =
        metrics.requests.read 0 [method, path, status] +
          updates.count (.request method path status)) ∧
      ∀ labels, (metrics'.duration.stored labels).length =
        (metrics.duration.stored labels).length +
          updates.countP fun update => update.observed = some labels := by
  induction updates generalizing metrics with
  | nil => exact ⟨metrics, rfl, fixed, by simp, by simp⟩
  | cons update rest ih =>
      obtain ⟨mid, posted, fixedMid, counted, observed⟩ := post_spec fixed update
      obtain ⟨metrics', postedRest, fixed', countedRest, observedRest⟩ := ih fixedMid
      refine ⟨metrics', ?_, fixed', ?_, ?_⟩
      · rw [List.foldlM_cons, posted]
        exact postedRest
      · intro method path status
        rw [countedRest, counted, List.count_cons]
        by_cases same : update = .request method path status
        · simp [same]
          ring
        · simp [same]
      · intro labels
        rw [observedRest, observed, List.countP_cons]
        simp only [decide_eq_true_eq]
        omega

end RustZero.Http
