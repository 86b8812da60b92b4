import Mathlib

/-!
# Metric vectors

`core/src/metric.rs`: the counter, gauge and histogram vectors of a registry.  A
vector keeps one value for each label set it was updated with; an update checks the
number of labels.

Floating numbers are rationals here, so all of them are finite and sums are exact.
-/

namespace RustZero.Metric

open Std (ExtTreeMap)

inductive MetricsError where
  | labelCount (expected actual : Nat)
  | invalidCounterValue (value : ℚ)
  deriving DecidableEq

/-- A family with its label names. -/
structure MetricFamily (V : Type) where
  labels : List String
  values : ExtTreeMap (List String) V

abbrev CounterVec := MetricFamily ℚ

abbrev GaugeVec := MetricFamily ℚ

/-- The observations of each label set, in the order they were made. -/
structure HistogramVec where
  buckets : List ℚ
  family : MetricFamily (List ℚ)

def defaultHistogramBuckets : List ℚ :=
  [5 / 1000, 1 / 100, 25 / 1000, 5 / 100, 1 / 10, 25 / 100, 5 / 10, 1, 25 / 10, 5, 10]

section Family

variable {V : Type}

def MetricFamily.register (labels : List String) : MetricFamily V :=
  ⟨labels, ∅⟩

def MetricFamily.validateLabels (family : MetricFamily V) (labels : List String) :
    Except MetricsError (List String) :=
  if labels.length = family.labels.length then .ok labels
  else .error (.labelCount family.labels.length labels.length)

/-- What `values.entry(labels).or_default()` reads. -/
def MetricFamily.read (family : MetricFamily V) (default : V) (labels : List String) : V :=
  family.values[labels]?.getD default

def MetricFamily.update (family : MetricFamily V) (default : V) (labels : List String)
    (change : V → V) : MetricFamily V :=
  { family with values := family.values.insert labels (change (family.read default labels)) }

@[simp] theorem MetricFamily.read_register (names : List String) (default : V)
    (labels : List String) : (MetricFamily.register names : MetricFamily V).read default labels =
      default := by
  simp [MetricFamily.register, MetricFamily.read]

theorem MetricFamily.read_update (family : MetricFamily V) (default : V)
    (labels other : List String) (change : V → V) :
    (family.update default labels change).read default other =
      if labels = other then change (family.read default other)
      else family.read default other := by
  simp only [MetricFamily.update, MetricFamily.read, ExtTreeMap.getElem?_insert,
    Std.compare_eq_iff_eq]
  by_cases same : labels = other
  · simp [same]
  · simp [same]

theorem MetricFamily.mem_update {family : MetricFamily V} {default : V}
    {labels other : List String} {change : V → V}
    (member : other ∈ (family.update default labels change).values) :
    other = labels ∨ other ∈ family.values := by
  rw [MetricFamily.update, Std.ExtTreeMap.mem_insert, Std.compare_eq_iff_eq] at member
  rcases member with same | old
  · exact .inl same.symm
  · exact .inr old

theorem MetricFamily.validateLabels_ok {family : MetricFamily V} {labels : List String}
    (fits : labels.length = family.labels.length) : family.validateLabels labels = .ok labels :=
  if_pos fits

end Family

/-! ## Updates -/

def CounterVec.add (counter : CounterVec) (value : ℚ) (labels : List String) :
    Except MetricsError CounterVec :=
  if value < 0 then .error (.invalidCounterValue value)
  else do
    let labels ← counter.validateLabels labels
    pure (counter.update 0 labels (· + value))

def CounterVec.inc (counter : CounterVec) (labels : List String) :
    Except MetricsError CounterVec :=
  CounterVec.add counter 1 labels

def GaugeVec.add (gauge : GaugeVec) (value : ℚ) (labels : List String) :
    Except MetricsError GaugeVec := do
  let labels ← gauge.validateLabels labels
  pure (gauge.update 0 labels (· + value))

def GaugeVec.inc (gauge : GaugeVec) (labels : List String) : Except MetricsError GaugeVec :=
  GaugeVec.add gauge 1 labels

def GaugeVec.dec (gauge : GaugeVec) (labels : List String) : Except MetricsError GaugeVec :=
  GaugeVec.add gauge (-1) labels

def HistogramVec.observe (histogram : HistogramVec) (value : ℚ) (labels : List String) :
    Except MetricsError HistogramVec := do
  let labels ← histogram.family.validateLabels labels
  pure { histogram with family := histogram.family.update [] labels (· ++ [value]) }

/-- The values stored for one label set. -/
def HistogramVec.stored (histogram : HistogramVec) (labels : List String) : List ℚ :=
  histogram.family.read [] labels

section Updates

variable {labels : List String}

theorem CounterVec.inc_ok {counter : CounterVec} (fits : labels.length = counter.labels.length) :
    CounterVec.inc counter labels = .ok (counter.update 0 labels (· + 1)) := by
  rw [CounterVec.inc, CounterVec.add, if_neg (by decide), MetricFamily.validateLabels_ok fits]
  rfl

theorem GaugeVec.inc_ok {gauge : GaugeVec} (fits : labels.length = gauge.labels.length) :
    GaugeVec.inc gauge labels = .ok (gauge.update 0 labels (· + 1)) := by
  rw [GaugeVec.inc, GaugeVec.add, MetricFamily.validateLabels_ok fits]
  rfl

theorem GaugeVec.dec_ok {gauge : GaugeVec} (fits : labels.length = gauge.labels.length) :
    GaugeVec.dec gauge labels = .ok (gauge.update 0 labels (· + -1)) := by
  rw [GaugeVec.dec, GaugeVec.add, MetricFamily.validateLabels_ok fits]
  rfl

theorem HistogramVec.observe_ok {histogram : HistogramVec} (value : ℚ)
    (fits : labels.length = histogram.family.labels.length) :
    histogram.observe value labels =
      .ok { histogram with family := histogram.family.update [] labels (· ++ [value]) } := by
  rw [HistogramVec.observe, MetricFamily.validateLabels_ok fits]
  rfl

end Updates

end RustZero.Metric
