import Mathlib
import RustZero.Lib.Checks
import RustZero.Lib.Lts
import RustZero.Lib.Utf8

/-!
# The metrics registry

`core/src/metric.rs`: the families of a registry and what changes them, with every check.

* `Floating` is what the registry uses of `f64`.
* A vector is the family under its name: a family is never removed, and never replaced by another
  one.
* `system` is a registry with the successful registrations and updates as its steps;
  `sound_of_reach` says which families there are.
-/

namespace RustZero.MetricsRegistry

open Lib
open Std (ExtTreeMap)

/-- What the registry uses of `f64`, where values that only differ in the payload of a NaN are
one. -/
class Floating (F : Type) extends Zero F, One F, Add F, Neg F where
  infinity : F
  /-- `== f64::INFINITY`. -/
  isInfinity : F → Bool
  isFinite : F → Bool
  le : F → F → Bool
  /-- `Iterator::sum`. -/
  sum : List F → F
  /-- `as f64`. -/
  ofNat : Nat → F
  /-- The number with these digits, so many of them behind the point. -/
  decimal : (digits places : Nat) → F
  /-- `to_string`. -/
  display : F → String
  /-- The value of a token. -/
  parse : String → Option F
  isInfinity_iff : ∀ value, isInfinity value = true ↔ value = infinity
  infinite : isFinite infinity = false
  le_total : ∀ first second, isFinite first = true → isFinite second = true →
    le first second = true ∨ le second first = true
  le_trans : ∀ first second third, le first second = true → le second third = true →
    le first third = true
  le_infinity : ∀ value, isFinite value = true → le value infinity = true
  line_free : ∀ value, '\n' ∉ (display value).toList
  parse_display : ∀ value, value ≠ infinity → parse (display value) = some value
  parse_infinity : parse "+Inf" = some infinity
  parse_repr : ∀ number, parse (Nat.repr number) = some (ofNat number)

/-- `<` of values that are not NaN. -/
def Floating.lt {F : Type} [Floating F] (first second : F) : Bool :=
  le first second && !le second first

/-- Whole numbers and the infinite one, which are written like such values of `f64`. -/
inductive Whole where
  | finite (number : Int)
  | infinity
  deriving DecidableEq

namespace Whole

instance : Zero Whole := ⟨finite 0⟩

instance : One Whole := ⟨finite 1⟩

instance : Add Whole where
  add
    | finite first, finite second => finite (first + second)
    | _, _ => infinity

instance : Neg Whole where
  neg
    | finite number => finite (-number)
    | infinity => infinity

def le : Whole → Whole → Bool
  | finite first, finite second => first ≤ second
  | infinity, finite _ => false
  | _, infinity => true

def display : Whole → String
  | finite number => number.repr
  | infinity => "inf"

def parse (text : String) : Option Whole :=
  if text = "+Inf" then some infinity else text.toInt?.map finite

/-- A whole number is written in digits, behind its sign. -/
theorem not_mem_repr {char : Char} (other : char.isDigit = false) (unsigned : char ≠ '-')
    (number : Int) : char ∉ number.repr.toList := by
  cases number with
  | ofNat number => exact not_mem_toString other number
  | negSucc number =>
      have sign : "-".toList = ['-'] := rfl
      rw [Int.repr, String.toList_append, List.mem_append, not_or, sign, List.mem_singleton]
      exact ⟨unsigned, not_mem_toString other (number + 1)⟩

theorem parse_of_digits {text : String} {number : Int} (digits : 'I' ∉ text.toList)
    (read : text.toInt? = some number) : parse text = some (finite number) := by
  have other : text ≠ "+Inf" := by
    intro same
    subst same
    exact digits (by decide)
  rw [parse, if_neg other, read]
  rfl

instance : Floating Whole where
  infinity := infinity
  isInfinity value := value = infinity
  isFinite value := value ≠ infinity
  le := le
  sum values := values.foldl (· + ·) 0
  ofNat number := finite number
  decimal digits places := finite (digits / 10 ^ places)
  display := display
  parse := parse
  isInfinity_iff value := decide_eq_true_iff
  infinite := rfl
  le_total first second finite_first finite_second := by
    cases first with
    | infinity => cases finite_first
    | finite first =>
        cases second with
        | infinity => cases finite_second
        | finite second =>
            simp only [le, decide_eq_true_iff]
            exact Int.le_total first second
  le_trans first second third least below := by
    cases first <;> cases second <;> cases third <;> simp_all [le]
    omega
  le_infinity value _ := by
    cases value <;> rfl
  line_free value := by
    cases value with
    | finite number => exact not_mem_repr (by decide) (by decide) number
    | infinity => decide
  parse_display value other := by
    cases value with
    | finite number =>
        exact parse_of_digits (not_mem_repr (by decide) (by decide) number) (Int.toInt?_repr number)
    | infinity => exact (other rfl).elim
  parse_infinity := rfl
  parse_repr number :=
    parse_of_digits (not_mem_toString (by decide) number) (Nat.toInt?_repr number)

end Whole

inductive MetricsError (F : Type) where
  | invalidMetricName (name : String)
  | invalidLabelName (name : String)
  | duplicateLabel (name : String)
  | duplicateMetric (name : String)
  | labelCount (expected actual : Nat)
  | invalidCounterValue (value : F)
  | invalidGaugeValue (value : F)
  | invalidObservation (value : F)
  | invalidHistogramBuckets (name : String)

inductive MetricKind where
  | counter
  | gauge
  | histogram
  deriving DecidableEq

def MetricKind.prometheusName : MetricKind → String
  | counter => "counter"
  | gauge => "gauge"
  | histogram => "histogram"

/-- The values of each label set; those of a histogram are all its observations. -/
inductive MetricValues (F : Type) where
  | counter (values : ExtTreeMap (List String) F)
  | gauge (values : ExtTreeMap (List String) F)
  | histogram (buckets : List F) (observations : ExtTreeMap (List String) (List F))

structure MetricFamily (F : Type) where
  name : String
  help : String
  labels : List String
  kind : MetricKind
  values : MetricValues F

structure Metrics (F : Type) where
  families : ExtTreeMap String (MetricFamily F)

/-- The values that `register` begins with. -/
def MetricKind.newValues {F : Type} : MetricKind → MetricValues F
  | counter => .counter ∅
  | gauge => .gauge ∅
  -- `unreachable!`: histograms use `histogram_vec`.
  | histogram => .histogram [] ∅

structure VectorOptions where
  nameSpace : String
  subsystem : String
  name : String
  help : String
  labels : List String

/-- `VectorOptions::name`. -/
def VectorOptions.fullName (options : VectorOptions) : String :=
  "_".intercalate ([options.nameSpace, options.subsystem, options.name].filter fun part =>
    !part.isEmpty)

structure HistogramOptions (F : Type) where
  vector : VectorOptions
  buckets : List F

/-! ## Registration -/

def isValidIdentifier (value : String) : Bool :=
  match value.toList with
  | [] => false
  | first :: rest => (first == '_' || first.isAlpha) &&
      rest.all fun character => character == '_' || character.isAlphanum

section Registration

variable {F : Type}

/-- The loop of `validate_options`, with the labels seen. -/
def validateLabelNames (seen : List String) : List String → Except (MetricsError F) Unit
  | [] => .ok ()
  | label :: labels =>
      if !isValidIdentifier label then .error (.invalidLabelName label)
      else if label ∈ seen then .error (.duplicateLabel label)
      else validateLabelNames (label :: seen) labels

def validateOptions (options : VectorOptions) (name : String) : Except (MetricsError F) Unit :=
  if !isValidIdentifier name then .error (.invalidMetricName name)
  else validateLabelNames [] options.labels

namespace Metrics

def insert (metrics : Metrics F) (name : String) (family : MetricFamily F) :
    Except (MetricsError F) (Metrics F) :=
  if metrics.families.contains name then .error (.duplicateMetric name)
  else .ok ⟨metrics.families.insert name family⟩

def register (metrics : Metrics F) (options : VectorOptions) (kind : MetricKind) :
    Except (MetricsError F) (Metrics F) := do
  let name := options.fullName
  validateOptions options name
  metrics.insert name ⟨name, options.help, options.labels, kind, kind.newValues⟩

def counterVec (metrics : Metrics F) (options : VectorOptions) :
    Except (MetricsError F) (Metrics F) :=
  metrics.register options .counter

def gaugeVec (metrics : Metrics F) (options : VectorOptions) :
    Except (MetricsError F) (Metrics F) :=
  metrics.register options .gauge

end Metrics

variable [Floating F]

def defaultHistogramBuckets : List F :=
  [(5, 3), (1, 2), (25, 3), (5, 2), (1, 1), (25, 2), (5, 1), (1, 0), (25, 1), (5, 0), (10, 0)].map
    fun bucket => Floating.decimal bucket.1 bucket.2

/-- Some bucket is not below the next one. -/
def unsorted : List F → Bool
  | first :: second :: rest => Floating.le second first || unsorted (second :: rest)
  | _ => false

def invalidBuckets (buckets : List F) : Bool :=
  buckets.any (fun bucket => !Floating.isFinite bucket || Floating.le bucket 0) ||
    unsorted buckets

/-- The buckets that are registered. -/
def HistogramOptions.upperBounds (options : HistogramOptions F) : List F :=
  if options.buckets.isEmpty then defaultHistogramBuckets else options.buckets

def Metrics.histogramVec (metrics : Metrics F) (options : HistogramOptions F) :
    Except (MetricsError F) (Metrics F) := do
  let name := options.vector.fullName
  validateOptions options.vector name
  if invalidBuckets options.upperBounds then .error (.invalidHistogramBuckets name) else
    metrics.insert name ⟨name, options.vector.help, options.vector.labels, .histogram,
      .histogram options.upperBounds ∅⟩

end Registration

/-! ## Updates -/

section Updates

variable {F : Type}

def MetricFamily.validateLabels (family : MetricFamily F) (labels : List String) :
    Except (MetricsError F) (List String) :=
  if labels.length ≠ family.labels.length then
    .error (.labelCount family.labels.length labels.length)
  else .ok labels

variable [Floating F]

/-- `CounterVec::add`; `none` is an `unreachable!`. -/
def CounterVec.add (family : MetricFamily F) (value : F) (labels : List String) :
    Option (Except (MetricsError F) (MetricFamily F)) :=
  if !Floating.isFinite value || Floating.lt value 0 then some (.error (.invalidCounterValue value))
  else
    match family.validateLabels labels with
    | .error error => some (.error error)
    | .ok labels =>
        match family.values with
        | .counter values => some (.ok { family with
            values := .counter (values.insert labels (values[labels]?.getD 0 + value)) })
        | _ => none

/-- `GaugeVec::update`. -/
def GaugeVec.update (family : MetricFamily F) (value : F) (labels : List String)
    (update : F → F → F) : Option (Except (MetricsError F) (MetricFamily F)) :=
  if !Floating.isFinite value then some (.error (.invalidGaugeValue value))
  else
    match family.validateLabels labels with
    | .error error => some (.error error)
    | .ok labels =>
        match family.values with
        | .gauge values => some (.ok { family with
            values := .gauge (values.insert labels (update (values[labels]?.getD 0) value)) })
        | _ => none

/-- `HistogramVec::observe`. -/
def HistogramVec.observe (family : MetricFamily F) (value : F) (labels : List String) :
    Option (Except (MetricsError F) (MetricFamily F)) :=
  if !Floating.isFinite value then some (.error (.invalidObservation value))
  else
    match family.validateLabels labels with
    | .error error => some (.error error)
    | .ok labels =>
        match family.values with
        | .histogram buckets observations => some (.ok { family with
            values := .histogram buckets
              (observations.insert labels (observations[labels]?.getD [] ++ [value])) })
        | _ => none

/-- The methods of the three vectors. -/
inductive Update (F : Type) where
  | counterInc
  | counterAdd (value : F)
  | gaugeSet (value : F)
  | gaugeInc
  | gaugeDec
  | gaugeAdd (value : F)
  | gaugeSub (value : F)
  | observe (value : F)

namespace Update

/-- The vector that has the method. -/
def kind : Update F → MetricKind
  | counterInc | counterAdd _ => .counter
  | gaugeSet _ | gaugeInc | gaugeDec | gaugeAdd _ | gaugeSub _ => .gauge
  | observe _ => .histogram

def apply (family : MetricFamily F) (labels : List String) :
    Update F → Option (Except (MetricsError F) (MetricFamily F))
  | counterInc => CounterVec.add family 1 labels
  | counterAdd value => CounterVec.add family value labels
  | gaugeSet value => GaugeVec.update family value labels fun _ value => value
  | gaugeInc => GaugeVec.update family 1 labels (· + ·)
  | gaugeDec => GaugeVec.update family (-1) labels (· + ·)
  | gaugeAdd value => GaugeVec.update family value labels (· + ·)
  | gaugeSub value => GaugeVec.update family (-value) labels (· + ·)
  | observe value => HistogramVec.observe family value labels

end Update

/-! ## The registry as a system -/

inductive Action (F : Type) where
  | counterVec (options : VectorOptions)
  | gaugeVec (options : VectorOptions)
  | histogramVec (options : HistogramOptions F)
  /-- A method of the vector that was registered under the name. -/
  | update (name : String) (update : Update F) (labels : List String)

namespace Metrics

def step (metrics : Metrics F) : Action F → Option (Metrics F)
  | .counterVec options => (metrics.counterVec options).toOption
  | .gaugeVec options => (metrics.gaugeVec options).toOption
  | .histogramVec options => (metrics.histogramVec options).toOption
  | .update name update labels => do
      let family ← metrics.families[name]?
      if family.kind = update.kind then
        let result ← update.apply family labels
        let family ← result.toOption
        some ⟨metrics.families.insert name family⟩
      else none

def system : Lts (Metrics F) (Action F) where
  init := ⟨∅⟩
  step := step

end Metrics

end Updates

/-! ## The families there are -/

section Sound

variable {F : Type} [Floating F]

/-- Values of the kind, for label sets of the length. -/
def MetricValues.Sound (kind : MetricKind) (count : Nat) : MetricValues F → Prop
  | counter values => kind = .counter ∧ ∀ labels ∈ values, labels.length = count
  | gauge values => kind = .gauge ∧ ∀ labels ∈ values, labels.length = count
  | histogram buckets observations => kind = .histogram ∧
      (∀ bucket ∈ buckets, Floating.isFinite bucket = true) ∧
      buckets.Pairwise (fun bucket later => Floating.le later bucket = false) ∧
      ∀ (labels : List String) values, observations[labels]? = some values →
        labels.length = count ∧ ∀ value ∈ values, Floating.isFinite value = true

structure MetricFamily.Sound (family : MetricFamily F) : Prop where
  name : isValidIdentifier family.name = true
  labels : ∀ label ∈ family.labels, isValidIdentifier label = true
  distinct : family.labels.Nodup
  values : family.values.Sound family.kind family.labels.length

/-- Every family is under its name. -/
def Metrics.Sound (metrics : Metrics F) : Prop :=
  ∀ (name : String) family, metrics.families[name]? = some family →
    family.name = name ∧ family.Sound

omit [Floating F] in
theorem validateLabelNames_ok {seen labels : List String}
    (passed : validateLabelNames (F := F) seen labels = .ok ()) :
    (∀ label ∈ labels, isValidIdentifier label = true ∧ label ∉ seen) ∧ labels.Nodup := by
  induction labels generalizing seen with
  | nil => exact ⟨List.forall_mem_nil _, List.nodup_nil⟩
  | cons label labels ih =>
      rw [validateLabelNames] at passed
      split at passed
      case isTrue => cases passed
      case isFalse valid =>
        split at passed
        case isTrue => cases passed
        case isFalse fresh =>
          obtain ⟨rest, distinct⟩ := ih passed
          rw [Bool.not_eq_true, Bool.not_eq_false'] at valid
          refine ⟨List.forall_mem_cons.mpr ⟨⟨valid, fresh⟩, ?_⟩, List.nodup_cons.mpr ⟨?_, distinct⟩⟩
          · intro other member
            obtain ⟨valid, unseen⟩ := rest other member
            exact ⟨valid, fun before => unseen (List.mem_cons_of_mem _ before)⟩
          · intro again
            exact (rest label again).2 List.mem_cons_self

omit [Floating F] in
theorem validateOptions_ok {options : VectorOptions} {name : String}
    (passed : validateOptions (F := F) options name = .ok ()) : isValidIdentifier name = true ∧
      (∀ label ∈ options.labels, isValidIdentifier label = true) ∧ options.labels.Nodup := by
  rw [validateOptions] at passed
  split at passed
  case isTrue => cases passed
  case isFalse valid =>
    obtain ⟨labels, distinct⟩ := validateLabelNames_ok passed
    rw [Bool.not_eq_true, Bool.not_eq_false'] at valid
    exact ⟨valid, fun label member => (labels label member).1, distinct⟩

/-- Buckets that pass the check are finite, and each is below all later ones. -/
theorem invalidBuckets_eq_false {buckets : List F} (passed : invalidBuckets buckets = false) :
    (∀ bucket ∈ buckets, Floating.isFinite bucket = true) ∧
      buckets.Pairwise fun bucket later => Floating.le later bucket = false := by
  rw [invalidBuckets, Bool.or_eq_false_iff, List.any_eq_false] at passed
  obtain ⟨each, sorted⟩ := passed
  have finite : ∀ bucket ∈ buckets, Floating.isFinite bucket = true := by
    intro bucket member
    have valid := each bucket member
    rw [Bool.not_eq_true, Bool.or_eq_false_iff, Bool.not_eq_false'] at valid
    exact valid.1
  refine ⟨finite, ?_⟩
  clear each
  induction buckets with
  | nil => exact List.Pairwise.nil
  | cons first rest ih =>
      rw [List.forall_mem_cons] at finite
      cases rest with
      | nil => exact List.pairwise_singleton _ _
      | cons second rest =>
          rw [unsorted, Bool.or_eq_false_iff] at sorted
          have later := ih sorted.2 finite.2
          have below : Floating.le first second = true := by
            have total := Floating.le_total first second finite.1
              (finite.2 second List.mem_cons_self)
            rw [sorted.1] at total
            exact total.resolve_right Bool.false_ne_true
          refine List.pairwise_cons.mpr ⟨?_, later⟩
          intro bucket member
          rcases List.mem_cons.mp member with rfl | member
          · exact sorted.1
          · have apart := List.rel_of_pairwise_cons later member
            -- Otherwise the second bucket would be above the later one as well.
            rw [Bool.eq_false_iff] at apart ⊢
            intro least
            exact apart (Floating.le_trans _ _ _ least below)

variable {metrics metrics' : Metrics F} {family family' : MetricFamily F}

/-- What registers a family: it is sound, new, and without an observation. -/
structure Registers (metrics : Metrics F) (family : MetricFamily F) (metrics' : Metrics F) :
    Prop where
  fresh : family.name ∉ metrics.families
  sound : family.Sound
  empty : ∀ buckets observations, family.values = .histogram buckets observations →
    observations = ∅
  inserted : metrics' = ⟨metrics.families.insert family.name family⟩

omit [Floating F] in
theorem insert_ok {name : String}
    (inserted : metrics.insert name family = .ok metrics') :
    name ∉ metrics.families ∧ metrics' = ⟨metrics.families.insert name family⟩ := by
  rw [Metrics.insert] at inserted
  split at inserted
  case isTrue => cases inserted
  case isFalse fresh =>
    cases inserted
    rw [ExtTreeMap.contains_iff_mem] at fresh
    exact ⟨fresh, rfl⟩

theorem register_ok {options : VectorOptions} {kind : MetricKind} (vector : kind ≠ .histogram)
    (registered : metrics.register options kind = .ok metrics') :
    ∃ family, Registers metrics family metrics' := by
  obtain ⟨_, valid, inserted⟩ := bind_eq_ok registered
  obtain ⟨fresh, same⟩ := insert_ok inserted
  obtain ⟨name, labels, distinct⟩ := validateOptions_ok valid
  refine ⟨⟨options.fullName, options.help, options.labels, kind, kind.newValues⟩, fresh, ?_, ?_,
    same⟩
  · refine ⟨name, labels, distinct, ?_⟩
    cases kind with
    | counter => exact ⟨rfl, fun _ member => absurd member ExtTreeMap.not_mem_empty⟩
    | gauge => exact ⟨rfl, fun _ member => absurd member ExtTreeMap.not_mem_empty⟩
    | histogram => exact (vector rfl).elim
  · intro buckets observations values
    cases kind with
    | counter => cases values
    | gauge => cases values
    | histogram => exact (vector rfl).elim

theorem histogramVec_ok {options : HistogramOptions F}
    (registered : metrics.histogramVec options = .ok metrics') :
    ∃ family, Registers metrics family metrics' := by
  obtain ⟨_, valid, checked⟩ := bind_eq_ok registered
  split at checked
  case isTrue => cases checked
  case isFalse passed =>
    obtain ⟨fresh, same⟩ := insert_ok checked
    obtain ⟨name, labels, distinct⟩ := validateOptions_ok valid
    rw [Bool.not_eq_true] at passed
    obtain ⟨finite, sorted⟩ := invalidBuckets_eq_false passed
    refine ⟨⟨_, options.vector.help, options.vector.labels, .histogram,
      .histogram options.upperBounds ∅⟩, fresh, ?_, ?_, same⟩
    · refine ⟨name, labels, distinct, rfl, finite, sorted, ?_⟩
      intro labels values none
      rw [ExtTreeMap.getElem?_empty] at none
      cases none
    · intro buckets observations values
      cases values
      rfl

/-- What an update does to the values: an observation is stored behind those of its label set. -/
inductive Stores (values : MetricValues F) (labels : List String) :
    Update F → MetricValues F → Prop
  | observed {value : F} {buckets : List F}
      {observations : ExtTreeMap (List String) (List F)}
      (stored : values = .histogram buckets observations) :
      Stores values labels (.observe value) (.histogram buckets
        (observations.insert labels (observations[labels]?.getD [] ++ [value])))
  | counted {update : Update F} {values' : ExtTreeMap (List String) F}
      (counter : update.kind = .counter) : Stores values labels update (.counter values')
  | set {update : Update F} {values' : ExtTreeMap (List String) F}
      (gauge : update.kind = .gauge) : Stores values labels update (.gauge values')

/-- An update changes nothing of a family but its values, which stay sound. -/
structure Updates (family : MetricFamily F) (labels : List String) (update : Update F)
    (family' : MetricFamily F) : Prop where
  same : family' = { family with values := family'.values }
  sound : family.Sound → family'.Sound
  stores : Stores family.values labels update family'.values

omit [Floating F] in
theorem validateLabels_ok {labels passed : List String}
    (valid : family.validateLabels labels = .ok passed) :
    passed = labels ∧ labels.length = family.labels.length := by
  rw [MetricFamily.validateLabels] at valid
  split at valid
  case isTrue => cases valid
  case isFalse fits =>
    cases valid
    exact ⟨rfl, not_not.mp fits⟩

omit [Floating F] in
theorem length_of_mem_insert {values : ExtTreeMap (List String) F} {labels other : List String}
    {value : F} {count : Nat} (fits : labels.length = count)
    (others : ∀ labels : List String, labels ∈ values → labels.length = count)
    (member : other ∈ values.insert labels value) : other.length = count := by
  rw [ExtTreeMap.mem_insert, Std.compare_eq_iff_eq] at member
  rcases member with rfl | before
  · exact fits
  · exact others other before

theorem counterAdd_ok {value : F} {labels : List String} {update : Update F}
    (counter : update.kind = .counter)
    (added : CounterVec.add family value labels = some (.ok family')) :
    Updates family labels update family' := by
  rw [CounterVec.add] at added
  split at added
  case isTrue => cases added
  case isFalse =>
    split at added
    case h_1 => cases added
    case h_2 passed valid =>
      obtain ⟨rfl, fits⟩ := validateLabels_ok valid
      split at added
      case h_1 values found =>
        cases added
        refine ⟨rfl, fun sound => ⟨sound.name, sound.labels, sound.distinct, ?_⟩,
          .counted counter⟩
        have valued := sound.values
        rw [found] at valued
        exact ⟨valued.1, fun _ member => length_of_mem_insert fits valued.2 member⟩
      case h_2 => cases added

theorem gaugeUpdate_ok {value : F} {labels : List String} {change : F → F → F}
    {update : Update F} (gauge : update.kind = .gauge)
    (updated : GaugeVec.update family value labels change = some (.ok family')) :
    Updates family labels update family' := by
  rw [GaugeVec.update] at updated
  split at updated
  case isTrue => cases updated
  case isFalse =>
    split at updated
    case h_1 => cases updated
    case h_2 passed valid =>
      obtain ⟨rfl, fits⟩ := validateLabels_ok valid
      split at updated
      case h_1 values found =>
        cases updated
        refine ⟨rfl, fun sound => ⟨sound.name, sound.labels, sound.distinct, ?_⟩,
          .set gauge⟩
        have valued := sound.values
        rw [found] at valued
        exact ⟨valued.1, fun _ member => length_of_mem_insert fits valued.2 member⟩
      case h_2 => cases updated

theorem observe_ok {value : F} {labels : List String}
    (observed : HistogramVec.observe family value labels = some (.ok family')) :
    Updates family labels (.observe value) family' := by
  rw [HistogramVec.observe] at observed
  split at observed
  case isTrue => cases observed
  case isFalse finite =>
    rw [Bool.not_eq_true, Bool.not_eq_false'] at finite
    split at observed
    case h_1 => cases observed
    case h_2 passed valid =>
      obtain ⟨rfl, fits⟩ := validateLabels_ok valid
      split at observed
      case h_1 buckets observations found =>
        cases observed
        refine ⟨rfl, fun sound => ⟨sound.name, sound.labels, sound.distinct, ?_⟩,
          .observed found⟩
        have valued := sound.values
        rw [found] at valued
        obtain ⟨kind, buckets, sorted, each⟩ := valued
        refine ⟨kind, buckets, sorted, ?_⟩
        intro other values stored
        rw [ExtTreeMap.getElem?_insert] at stored
        split at stored
        case isTrue same =>
          cases stored
          rw [Std.compare_eq_iff_eq] at same
          refine ⟨same ▸ fits, ?_⟩
          intro seen member
          rcases List.mem_append.mp member with before | new
          · cases earlier : observations[passed]? with
            | none =>
                rw [earlier] at before
                cases before
            | some values =>
                rw [earlier] at before
                exact (each passed values earlier).2 seen before
          · rw [List.mem_singleton.mp new]
            exact finite
        case isFalse => exact each other values stored
      case h_2 => cases observed

theorem apply_ok {update : Update F} {labels : List String}
    (applied : update.apply family labels = some (.ok family')) :
    Updates family labels update family' := by
  cases update with
  | counterInc => exact counterAdd_ok rfl applied
  | counterAdd value => exact counterAdd_ok rfl applied
  | gaugeSet value =>
      rw [Update.apply] at applied
      exact gaugeUpdate_ok rfl applied
  | gaugeInc => exact gaugeUpdate_ok rfl applied
  | gaugeDec => exact gaugeUpdate_ok rfl applied
  | gaugeAdd value => exact gaugeUpdate_ok rfl applied
  | gaugeSub value => exact gaugeUpdate_ok rfl applied
  | observe value => exact observe_ok applied

/-- The action registers a vector. -/
def Action.Registration : Action F → Prop
  | .update _ _ _ => False
  | _ => True

/-- What a step does. -/
inductive Stepped (metrics : Metrics F) : Action F → Metrics F → Prop
  | registered {action : Action F} {family : MetricFamily F} {metrics' : Metrics F}
      (registration : action.Registration) (registers : Registers metrics family metrics') :
      Stepped metrics action metrics'
  | updated {name : String} {update : Update F} {labels : List String}
      {family family' : MetricFamily F} (found : metrics.families[name]? = some family)
      (updates : Updates family labels update family') :
      Stepped metrics (.update name update labels) ⟨metrics.families.insert name family'⟩

theorem toOption_eq_some {ε α : Type} {result : Except ε α} {value : α}
    (succeeded : result.toOption = some value) : result = .ok value := by
  cases result with
  | error error => cases succeeded
  | ok found =>
      cases succeeded
      rfl

theorem step_cases {action : Action F} (step : metrics.step action = some metrics') :
    Stepped metrics action metrics' := by
  cases action with
  | counterVec options =>
      obtain ⟨family, registers⟩ := register_ok (by decide) (toOption_eq_some step)
      exact .registered trivial registers
  | gaugeVec options =>
      obtain ⟨family, registers⟩ := register_ok (by decide) (toOption_eq_some step)
      exact .registered trivial registers
  | histogramVec options =>
      obtain ⟨family, registers⟩ := histogramVec_ok (toOption_eq_some step)
      exact .registered trivial registers
  | update name update labels =>
      obtain ⟨family, found, rest⟩ := Option.bind_eq_some_iff.mp step
      split at rest
      case isTrue =>
        obtain ⟨result, applied, rest⟩ := Option.bind_eq_some_iff.mp rest
        obtain ⟨family', ok, same⟩ := Option.bind_eq_some_iff.mp rest
        cases same
        rw [toOption_eq_some ok] at applied
        exact .updated found (apply_ok applied)
      case isFalse => cases rest

theorem sound_step {action : Action F} (sound : metrics.Sound)
    (step : metrics.step action = some metrics') : metrics'.Sound := by
  intro name family found
  cases step_cases step with
  | @registered _ new _ _ registers =>
      obtain ⟨_, valid, _, rfl⟩ := registers
      rw [ExtTreeMap.getElem?_insert] at found
      split at found
      case isTrue same =>
        cases found
        rw [Std.compare_eq_iff_eq] at same
        exact ⟨same, valid⟩
      case isFalse => exact sound name family found
  | @updated other _ _ before after stored updates =>
      rw [ExtTreeMap.getElem?_insert] at found
      split at found
      case isTrue same =>
        cases found
        rw [Std.compare_eq_iff_eq] at same
        obtain ⟨named, valid⟩ := sound other before stored
        refine ⟨?_, updates.sound valid⟩
        rw [updates.same]
        exact named.trans same
      case isFalse => exact sound name family found

theorem sound_of_reach (reach : (Metrics.system (F := F)).Reachable metrics) : metrics.Sound := by
  refine reach.invariant ?_ fun _ _ _ sound _ step => sound_step sound step
  intro name family none
  have empty : (∅ : ExtTreeMap String (MetricFamily F))[name]? = some family := none
  rw [ExtTreeMap.getElem?_empty] at empty
  cases empty

end Sound

end RustZero.MetricsRegistry
