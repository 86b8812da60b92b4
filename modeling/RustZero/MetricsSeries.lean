import Mathlib
import RustZero.MetricsExposition

/-!
# Series of an exposition

Whether two lines of an exposition can be one series.  A histogram writes samples under three
names of its own, and a label `le` of its own, which registration does not compare with anything.

* `neverRepeats_iff`: an exposition repeats nothing exactly if no histogram with a series has a
  label `le`, and a counter or gauge that bears a name of a histogram has no series, nor has the
  histogram.
-/

namespace RustZero.MetricsRegistry

open Lib
open Std (ExtTreeMap)

variable {F : Type} [Floating F]

/-- The sample lines among the lines. -/
def sampleLines (lines : List (Line F)) : List (Sample F) :=
  lines.filterMap fun
    | .sample sample => some sample
    | _ => none

/-- What a histogram appends to its name. -/
def suffixes : List String := ["_bucket", "_sum", "_count"]

/-- The names of the samples of a family with a name and a kind. -/
def MetricKind.sampleNames (kind : MetricKind) (name : String) : List String :=
  match kind with
  | histogram => suffixes.map (name ++ ·)
  | _ => [name]

def MetricFamily.sampleNames (family : MetricFamily F) : List String :=
  family.kind.sampleNames family.name

/-- No label set has a value. -/
def MetricValues.isEmpty : MetricValues F → Bool
  | counter values | gauge values => values.isEmpty
  | histogram _ observations => observations.isEmpty

/-- The family is registered. -/
def Metrics.Registered (metrics : Metrics F) (family : MetricFamily F) : Prop :=
  ∃ name : String, metrics.families[name]? = some family

/-- The two lines are one series. -/
def SameSeries (sample other : Sample F) : Prop :=
  sample.name = other.name ∧ ∀ pair, pair ∈ sample.labels ↔ pair ∈ other.labels

/-- What an exposition promises of its sample lines. -/
structure NeverRepeats (metrics : Metrics F) (lines : List (Line F)) : Prop where
  series : (sampleLines lines).Pairwise fun sample other => ¬SameSeries sample other
  labels : ∀ sample ∈ sampleLines lines, (sample.labels.map Prod.fst).Nodup
  families : ∀ sample ∈ sampleLines lines, ∀ family other, metrics.Registered family →
    metrics.Registered other → sample.name ∈ family.sampleNames →
      sample.name ∈ other.sampleNames → family.name = other.name

/-- The names and labels that histograms write are not used otherwise where there are series. -/
structure Apart (metrics : Metrics F) : Prop where
  bounds : ∀ family, metrics.Registered family → family.kind = .histogram →
    family.values.isEmpty = false → "le" ∉ family.labels
  names : ∀ family other, metrics.Registered family → metrics.Registered other →
    family.kind = .histogram → other.kind ≠ .histogram → other.name ∈ family.sampleNames →
      family.values.isEmpty = true ∧ other.values.isEmpty = true

/-! ## Names of samples -/

variable {metrics : Metrics F} {family other : MetricFamily F}

omit [Floating F] in
theorem suffix_eq {name name' suffix suffix' : String} (listed : suffix ∈ suffixes)
    (listed' : suffix' ∈ suffixes) (same : name ++ suffix = name' ++ suffix') :
    suffix = suffix' := by
  have long : ∀ suffix ∈ suffixes, 2 ≤ suffix.toList.reverse.length := by decide +kernel
  have ending (name : String) {suffix : String} (listed : suffix ∈ suffixes) :
      (name ++ suffix).toList.reverse.take 2 = suffix.toList.reverse.take 2 := by
    rw [String.toList_append, List.reverse_append,
      List.take_append_of_le_length (long suffix listed)]
  have endings : ∀ suffix ∈ suffixes, ∀ suffix' ∈ suffixes,
      suffix.toList.reverse.take 2 = suffix'.toList.reverse.take 2 → suffix = suffix' := by
    decide +kernel
  apply endings suffix listed suffix' listed'
  rw [← ending name listed, same, ending name' listed']

omit [Floating F] in
theorem mem_sampleNames_histogram {name : String} (histogram : family.kind = .histogram) :
    name ∈ family.sampleNames ↔ ∃ suffix ∈ suffixes, family.name ++ suffix = name := by
  rw [MetricFamily.sampleNames, histogram]
  exact List.mem_map

omit [Floating F] in
theorem mem_sampleNames_plain {name : String} (plain : family.kind ≠ .histogram) :
    name ∈ family.sampleNames ↔ name = family.name := by
  rw [MetricFamily.sampleNames, MetricKind.sampleNames]
  · exact List.mem_singleton
  · exact plain

omit [Floating F] in
/-- A name of two families is the name of one that is no histogram. -/
theorem names_clash {name : String} (differ : family.name ≠ other.name)
    (first : name ∈ family.sampleNames) (second : name ∈ other.sampleNames) :
    family.kind = .histogram ∧ other.kind ≠ .histogram ∧ other.name ∈ family.sampleNames ∨
      other.kind = .histogram ∧ family.kind ≠ .histogram ∧ family.name ∈ other.sampleNames := by
  by_cases histogram : family.kind = .histogram
  · by_cases histogram' : other.kind = .histogram
    · obtain ⟨suffix, listed, rfl⟩ := (mem_sampleNames_histogram histogram).mp first
      obtain ⟨suffix', listed', same⟩ := (mem_sampleNames_histogram histogram').mp second
      have equal := suffix_eq listed' listed same
      subst equal
      exact (differ (String.append_left_inj _ |>.mp same).symm).elim
    · have named := (mem_sampleNames_plain histogram').mp second
      subst named
      exact .inl ⟨histogram, histogram', first⟩
  · have named := (mem_sampleNames_plain histogram).mp first
    subst named
    by_cases histogram' : other.kind = .histogram
    · exact .inr ⟨histogram', histogram, second⟩
    · exact (differ ((mem_sampleNames_plain histogram').mp second)).elim

/-! ## Labels of a label set -/

omit [Floating F] in
/-- The pairs of a label set determine it. -/
theorem eq_of_same_pairs {names labels labels' : List String} (distinct : names.Nodup)
    (fits : labels.length = names.length) (fits' : labels'.length = names.length)
    (same : ∀ pair, pair ∈ names.zip labels ↔ pair ∈ names.zip labels') : labels = labels' := by
  induction names generalizing labels labels' with
  | nil => rw [List.eq_nil_of_length_eq_zero fits, List.eq_nil_of_length_eq_zero fits']
  | cons name names ih =>
      obtain ⟨absent, distinct⟩ := List.nodup_cons.mp distinct
      cases labels with
      | nil => cases fits
      | cons label labels =>
          cases labels' with
          | nil => cases fits'
          | cons label' labels' =>
              simp only [List.zip_cons_cons, List.mem_cons] at same
              have other {labels : List String} {pair : String × String}
                  (member : pair ∈ names.zip labels) {label : String} : pair ≠ (name, label) := by
                intro equal
                subst equal
                exact absent (List.of_mem_zip member).1
              have head : label = label' := by
                rcases (same (name, label)).mp (.inl rfl) with equal | member
                · exact (Prod.mk.inj equal).2
                · exact (other member rfl).elim
              have rest : labels = labels' := by
                apply ih distinct (Nat.succ.inj fits) (Nat.succ.inj fits')
                intro pair
                constructor
                · intro member
                  exact ((same pair).mp (.inr member)).resolve_left (other member)
                · intro member
                  exact ((same pair).mpr (.inr member)).resolve_left (other member)
              rw [head, rest]

theorem formatFloat_injective {value value' : F} (same : formatFloat value = formatFloat value') :
    value = value' := by
  have read := parse_formatFloat value
  rw [same, parse_formatFloat value'] at read
  exact (Option.some.inj read).symm

omit [Floating F] in
theorem map_fst_zip {labelNames labels : List String} (labelled : Labelled labelNames labels) :
    (labelNames.zip labels).map Prod.fst = labelNames :=
  List.map_fst_zip labelled.fits.ge

/-- Where no label is `le`, pairs with a bound determine the bound and the other pairs. -/
theorem bounded_pairs {labelNames labels labels' : List String} {bound bound' : String}
    (free : "le" ∉ labelNames)
    (same : ∀ pair, pair ∈ labelNames.zip labels ++ [("le", bound)] ↔
      pair ∈ labelNames.zip labels' ++ [("le", bound')]) :
    bound = bound' ∧ ∀ pair, pair ∈ labelNames.zip labels ↔ pair ∈ labelNames.zip labels' := by
  simp only [List.mem_append, List.mem_singleton] at same
  have other {labels : List String} {pair : String × String}
      (member : pair ∈ labelNames.zip labels) {bound : String} : pair ≠ ("le", bound) := by
    intro equal
    subst equal
    exact free (List.of_mem_zip member).1
  constructor
  · rcases (same ("le", bound)).mp (.inr rfl) with member | equal
    · exact (other member rfl).elim
    · exact (Prod.mk.inj equal).2
  · intro pair
    constructor
    · intro member
      exact ((same pair).mp (.inl member)).resolve_right (other member)
    · intro member
      exact ((same pair).mpr (.inl member)).resolve_right (other member)

/-! ## Samples of one family -/

/-- A sample of a label set of a histogram: a bucket, or its sum or count. -/
inductive Observed (name : String) (pairs : List (String × String)) : Sample F → Prop
  | bucket (bound : String) (value : F) :
      Observed name pairs ⟨name ++ "_bucket", pairs ++ [("le", bound)], value⟩
  | total {suffix : String} (listed : suffix ∈ ["_sum", "_count"]) (value : F) :
      Observed name pairs ⟨name ++ suffix, pairs, value⟩

theorem observed_of_mem {name : String} {buckets values : List F}
    {pairs : List (String × String)} {sample : Sample F}
    (member : sample ∈ observationSamples name buckets pairs values) :
    Observed name pairs sample := by
  rcases List.mem_append.mp member with bucket | total
  · obtain ⟨bound, _, rfl⟩ := List.mem_map.mp bucket
    exact .bucket _ _
  · rcases List.mem_cons.mp total with rfl | total
    · exact .total (by decide) _
    · rw [List.mem_singleton.mp total]
      exact .total (by decide) _

omit [Floating F] in
theorem suffix_ne_bucket {name suffix : String} (listed : suffix ∈ ["_sum", "_count"]) :
    name ++ "_bucket" ≠ name ++ suffix := by
  intro same
  have equal := suffix_eq (by decide) (List.mem_cons_of_mem _ listed) same
  subst equal
  exact absurd listed (by decide)

omit [Floating F] in
theorem Observed.same_pairs {name : String} {labelNames labels labels' : List String}
    {sample other : Sample F} (free : "le" ∉ labelNames)
    (first : Observed name (labelNames.zip labels) sample)
    (second : Observed name (labelNames.zip labels') other) (same : SameSeries sample other) :
    ∀ pair, pair ∈ labelNames.zip labels ↔ pair ∈ labelNames.zip labels' := by
  obtain ⟨named, pairs⟩ := same
  cases first with
  | bucket bound value =>
      cases second with
      | bucket bound' value' => exact (bounded_pairs free pairs).2
      | total listed value' => exact (suffix_ne_bucket listed named).elim
  | total listed value =>
      cases second with
      | bucket bound' value' => exact (suffix_ne_bucket listed named.symm).elim
      | total listed' value' => exact pairs

/-- The bounds of a histogram, with the infinite one, differ. -/
theorem bounds_nodup {buckets : List F}
    (finite : ∀ bucket ∈ buckets, Floating.isFinite bucket = true)
    (sorted : buckets.Pairwise fun bucket later => Floating.le later bucket = false) :
    (buckets ++ [Floating.infinity]).Nodup := by
  refine List.nodup_append.mpr ⟨?_, List.nodup_singleton _, ?_⟩
  · refine sorted.imp_of_mem fun {bucket later} member _ above same => ?_
    subst same
    rcases Floating.le_total bucket bucket (finite bucket member) (finite bucket member) with
      least | least
    · cases above.symm.trans least
    · cases above.symm.trans least
  · intro bucket member infinite listed same
    rw [List.mem_singleton] at listed
    subst same listed
    cases Floating.infinite.symm.trans (finite _ member)

theorem observationSamples_distinct {name : String} {buckets values : List F}
    {labelNames labels : List String} (free : "le" ∉ labelNames)
    (bounds : (buckets ++ [Floating.infinity]).Nodup) :
    (observationSamples name buckets (labelNames.zip labels) values).Pairwise
      fun sample other => ¬SameSeries sample other := by
  rw [observationSamples]
  refine List.pairwise_append.mpr ⟨?_, ?_, ?_⟩
  · refine List.pairwise_map.mpr (bounds.imp fun {bound bound'} differ same => ?_)
    exact differ (formatFloat_injective (bounded_pairs free same.2).1)
  · refine List.pairwise_pair.mpr fun same => ?_
    exact absurd (suffix_eq (by decide) (by decide) same.1) (by decide)
  · intro sample member other later same
    obtain ⟨bound, _, rfl⟩ := List.mem_map.mp member
    rcases List.mem_cons.mp later with rfl | last
    · exact suffix_ne_bucket (by decide) same.1
    · rw [List.mem_singleton.mp last] at same
      exact suffix_ne_bucket (by decide) same.1

omit [Floating F] in
/-- The label sets of a map differ. -/
theorem keys_differ {V : Type} (values : ExtTreeMap (List String) V) :
    values.toList.Pairwise fun entry later => entry.1 ≠ later.1 := by
  refine values.distinct_keys_toList.imp fun {entry later} differ same => ?_
  exact differ (Std.compare_eq_iff_eq.mpr same)

omit [Floating F] in
theorem isEmpty_of_mem {V : Type} {values : ExtTreeMap (List String) V}
    {entry : List String × V} (member : entry ∈ values.toList) : values.isEmpty = false := by
  have found := ExtTreeMap.mem_toList_iff_getElem?_eq_some.mp member
  rw [← Bool.not_eq_true, ExtTreeMap.isEmpty_iff]
  intro empty
  rw [empty, ExtTreeMap.getElem?_empty] at found
  cases found

omit [Floating F] in
theorem exists_of_not_isEmpty {V : Type} {values : ExtTreeMap (List String) V}
    (filled : values.isEmpty = false) : ∃ entry, entry ∈ values.toList := by
  cases listed : values.toList with
  | nil =>
      rw [ExtTreeMap.toList_eq_nil_iff] at listed
      rw [← Bool.not_eq_true, ExtTreeMap.isEmpty_iff] at filled
      exact (filled listed).elim
  | cons entry rest => exact ⟨entry, List.mem_cons_self⟩

omit [Floating F] in
theorem fits_of_mem {V : Type} {values : ExtTreeMap (List String) V} {count : Nat}
    (fits : ∀ labels : List String, labels ∈ values → labels.length = count)
    {entry : List String × V} (member : entry ∈ values.toList) : entry.1.length = count := by
  have found := ExtTreeMap.mem_toList_iff_getElem?_eq_some.mp member
  exact fits entry.1 (ExtTreeMap.mem_iff_isSome_getElem?.mpr (by rw [found]; rfl))

theorem entries_distinct (sound : family.Sound) {values : ExtTreeMap (List String) F}
    (fits : ∀ labels : List String, labels ∈ values → labels.length = family.labels.length) :
    (values.toList.map fun entry => (⟨family.name, family.labels.zip entry.1, entry.2⟩ :
      Sample F)).Pairwise fun sample other => ¬SameSeries sample other := by
  refine List.pairwise_map.mpr ((keys_differ values).imp_of_mem ?_)
  intro entry later member member' differ same
  exact differ (eq_of_same_pairs sound.distinct (fits_of_mem fits member)
    (fits_of_mem fits member') same.2)

/-- The samples of one family are different series. -/
theorem samples_distinct (sound : family.Sound)
    (free : family.kind = .histogram → family.values.isEmpty = false → "le" ∉ family.labels) :
    family.samples.Pairwise fun sample other => ¬SameSeries sample other := by
  have valued := sound.values
  rw [MetricFamily.samples]
  cases stored : family.values with
  | counter values =>
      rw [stored] at valued
      exact entries_distinct sound valued.2
  | gauge values =>
      rw [stored] at valued
      exact entries_distinct sound valued.2
  | histogram buckets observations =>
      rw [stored] at valued free
      obtain ⟨kind, finite, sorted, each⟩ := valued
      have free {entry : List String × List F} (member : entry ∈ observations.toList) :
          "le" ∉ family.labels := free kind (isEmpty_of_mem member)
      have fits {entry : List String × List F} (member : entry ∈ observations.toList) :
          entry.1.length = family.labels.length :=
        (each entry.1 entry.2 (ExtTreeMap.mem_toList_iff_getElem?_eq_some.mp member)).1
      refine List.pairwise_flatMap.mpr ⟨?_, (keys_differ observations).imp_of_mem ?_⟩
      · intro entry member
        exact observationSamples_distinct (free member) (bounds_nodup finite sorted)
      · intro entry later member member' differ sample inside other inside' same
        have pairs :=
          (observed_of_mem inside).same_pairs (free member) (observed_of_mem inside') same
        exact differ (eq_of_same_pairs sound.distinct (fits member) (fits member') pairs)

/-! ## Samples of a registry -/

theorem sampleLines_lines (metrics : Metrics F) :
    sampleLines metrics.lines = metrics.families.toList.flatMap fun entry => entry.2.samples := by
  rw [sampleLines, Metrics.lines, List.filterMap_flatMap]
  congr 1
  funext entry
  simp [MetricFamily.lines, List.filterMap_map]

theorem mem_sampleLines {sample : Sample F} : sample ∈ sampleLines metrics.lines ↔
    ∃ family, metrics.Registered family ∧ sample ∈ family.samples := by
  rw [sampleLines_lines, List.mem_flatMap]
  constructor
  · intro inside
    obtain ⟨entry, member, inside⟩ := inside
    exact ⟨entry.2, ⟨entry.1, ExtTreeMap.mem_toList_iff_getElem?_eq_some.mp member⟩, inside⟩
  · intro inside
    obtain ⟨family, ⟨name, found⟩, inside⟩ := inside
    exact ⟨(name, family), ExtTreeMap.mem_toList_iff_getElem?_eq_some.mpr found, inside⟩

/-- What a sample of a family is: its name is one of the family's, and its labels are those of the
family, and in a bucket the bound. -/
structure SampleOf (family : MetricFamily F) (sample : Sample F) : Prop where
  filled : family.values.isEmpty = false
  named : sample.name ∈ family.sampleNames
  labels : sample.labels.map Prod.fst = family.labels ∨
    family.kind = .histogram ∧ sample.labels.map Prod.fst = family.labels ++ ["le"]

theorem entry_sampleOf (sound : family.Sound) {values : ExtTreeMap (List String) F}
    (plain : family.kind ≠ .histogram) (filled : family.values.isEmpty = values.isEmpty)
    (fits : ∀ labels : List String, labels ∈ values → labels.length = family.labels.length)
    {sample : Sample F} (member : sample ∈ values.toList.map fun entry =>
      (⟨family.name, family.labels.zip entry.1, entry.2⟩ : Sample F)) :
    SampleOf family sample := by
  obtain ⟨entry, inside, rfl⟩ := List.mem_map.mp member
  refine ⟨filled.trans (isEmpty_of_mem inside), (mem_sampleNames_plain plain).mpr rfl, .inl ?_⟩
  exact map_fst_zip ⟨sound.labels, fits_of_mem fits inside⟩

theorem sampleOf_of_mem (sound : family.Sound) {sample : Sample F}
    (member : sample ∈ family.samples) : SampleOf family sample := by
  have valued := sound.values
  rw [MetricFamily.samples] at member
  cases stored : family.values with
  | counter values =>
      rw [stored] at valued member
      obtain ⟨kind, fits⟩ := valued
      exact entry_sampleOf sound (by rw [kind]; decide) (by rw [stored]; rfl) fits member
  | gauge values =>
      rw [stored] at valued member
      obtain ⟨kind, fits⟩ := valued
      exact entry_sampleOf sound (by rw [kind]; decide) (by rw [stored]; rfl) fits member
  | histogram buckets observations =>
      rw [stored] at valued member
      obtain ⟨kind, _, _, each⟩ := valued
      obtain ⟨entry, inside, member⟩ := List.mem_flatMap.mp member
      have found := ExtTreeMap.mem_toList_iff_getElem?_eq_some.mp inside
      have own := map_fst_zip ⟨sound.labels, (each entry.1 entry.2 found).1⟩
      have filled : family.values.isEmpty = false := by
        rw [stored]
        exact isEmpty_of_mem inside
      cases observed_of_mem member with
      | bucket bound value =>
          refine ⟨filled, (mem_sampleNames_histogram kind).mpr ⟨_, by decide, rfl⟩, .inr ⟨kind, ?_⟩⟩
          rw [List.map_append, own]
          rfl
      | total listed value =>
          refine ⟨filled, (mem_sampleNames_histogram kind).mpr
            ⟨_, List.mem_cons_of_mem _ listed, rfl⟩, .inl own⟩

/-- A family with a series writes a sample under each of its names, and a histogram a bucket. -/
theorem exists_sample (sound : family.Sound) (filled : family.values.isEmpty = false) :
    (∀ name ∈ family.sampleNames, ∃ sample ∈ family.samples, sample.name = name) ∧
      (family.kind = .histogram →
        ∃ sample ∈ family.samples, sample.labels.map Prod.fst = family.labels ++ ["le"]) := by
  have valued := sound.values
  rw [MetricFamily.samples]
  cases stored : family.values with
  | counter values =>
      rw [stored] at valued filled
      obtain ⟨entry, inside⟩ := exists_of_not_isEmpty filled
      have plain : family.kind ≠ .histogram := by
        rw [valued.1]
        decide
      refine ⟨?_, fun histogram => (plain histogram).elim⟩
      intro name named
      exact ⟨_, List.mem_map_of_mem inside, ((mem_sampleNames_plain plain).mp named).symm⟩
  | gauge values =>
      rw [stored] at valued filled
      obtain ⟨entry, inside⟩ := exists_of_not_isEmpty filled
      have plain : family.kind ≠ .histogram := by
        rw [valued.1]
        decide
      refine ⟨?_, fun histogram => (plain histogram).elim⟩
      intro name named
      exact ⟨_, List.mem_map_of_mem inside, ((mem_sampleNames_plain plain).mp named).symm⟩
  | histogram buckets observations =>
      rw [stored] at valued filled
      obtain ⟨kind, _, _, each⟩ := valued
      obtain ⟨entry, inside⟩ := exists_of_not_isEmpty filled
      have found := ExtTreeMap.mem_toList_iff_getElem?_eq_some.mp inside
      have own := map_fst_zip ⟨sound.labels, (each entry.1 entry.2 found).1⟩
      have written {sample : Sample F} (member : sample ∈ observationSamples family.name buckets
          (family.labels.zip entry.1) entry.2) :
          sample ∈ observations.toList.flatMap fun entry =>
            observationSamples family.name buckets (family.labels.zip entry.1) entry.2 :=
        List.mem_flatMap.mpr ⟨entry, inside, member⟩
      have bucket := written (List.mem_append_left _ (List.mem_map_of_mem
        (List.mem_append_right buckets (List.mem_singleton_self Floating.infinity))))
      have sum := written (List.mem_append_right _ List.mem_cons_self)
      have count := written (List.mem_append_right _ (List.mem_cons_of_mem _ List.mem_cons_self))
      constructor
      · intro name named
        obtain ⟨suffix, listed, rfl⟩ := (mem_sampleNames_histogram kind).mp named
        simp only [suffixes, List.mem_cons, List.not_mem_nil, or_false] at listed
        rcases listed with rfl | rfl | rfl
        · exact ⟨_, bucket, rfl⟩
        · exact ⟨_, sum, rfl⟩
        · exact ⟨_, count, rfl⟩
      · intro _
        refine ⟨_, bucket, ?_⟩
        rw [List.map_append, own]
        rfl

/-! ## Registries -/

theorem sound_family (sound : metrics.Sound) (registered : metrics.Registered family) :
    family.Sound := by
  obtain ⟨name, found⟩ := registered
  exact (sound name family found).2

omit [Floating F] in
theorem registered_eq (named : ∀ (name : String) family, metrics.families[name]? = some family →
      family.name = name)
    (registered : metrics.Registered family) (registered' : metrics.Registered other)
    (same : family.name = other.name) : family = other := by
  obtain ⟨name, found⟩ := registered
  obtain ⟨name', found'⟩ := registered'
  have equal : name = name' := by
    rw [← named name family found, ← named name' other found', same]
  subst equal
  exact Option.some.inj (found.symm.trans found')

omit [Floating F] in
/-- Where the registry is apart, no name of a family with a series is one of another family. -/
theorem Apart.own (apart : Apart metrics) (registered : metrics.Registered family)
    (registered' : metrics.Registered other) (filled : family.values.isEmpty = false)
    {name : String} (first : name ∈ family.sampleNames) (second : name ∈ other.sampleNames) :
    family.name = other.name := by
  by_contra differ
  rcases names_clash differ first second with ⟨kind, plain, named⟩ | ⟨kind, plain, named⟩
  · have silent := (apart.names family other registered registered' kind plain named).1
    cases filled.symm.trans silent
  · have silent := (apart.names other family registered' registered kind plain named).2
    cases filled.symm.trans silent

theorem Apart.neverRepeats (sound : metrics.Sound) (apart : Apart metrics) :
    NeverRepeats metrics metrics.lines where
  series := by
    rw [sampleLines_lines]
    have registered {entry : String × MetricFamily F} (member : entry ∈ metrics.families.toList) :
        metrics.families[entry.1]? = some entry.2 :=
      ExtTreeMap.mem_toList_iff_getElem?_eq_some.mp member
    refine List.pairwise_flatMap.mpr ⟨?_, metrics.families.distinct_keys_toList.imp_of_mem ?_⟩
    · intro entry member
      have own : metrics.Registered entry.2 := ⟨entry.1, registered member⟩
      exact samples_distinct (sound_family sound own) (apart.bounds entry.2 own)
    · intro entry later member member' differ sample inside other inside' same
      have own : metrics.Registered entry.2 := ⟨entry.1, registered member⟩
      have own' : metrics.Registered later.2 := ⟨later.1, registered member'⟩
      have facts := sampleOf_of_mem (sound_family sound own) inside
      have facts' := sampleOf_of_mem (sound_family sound own') inside'
      have named := apart.own own own' facts.filled facts.named (same.1 ▸ facts'.named)
      apply differ
      rw [Std.compare_eq_iff_eq, ← (sound entry.1 entry.2 (registered member)).1,
        ← (sound later.1 later.2 (registered member')).1, named]
  labels := by
    intro sample member
    obtain ⟨family, registered, inside⟩ := mem_sampleLines.mp member
    have valid := sound_family sound registered
    have facts := sampleOf_of_mem valid inside
    rcases facts.labels with own | ⟨kind, bounded⟩
    · rw [own]
      exact valid.distinct
    · have free := apart.bounds family registered kind facts.filled
      rw [bounded]
      refine List.nodup_append.mpr ⟨valid.distinct, List.nodup_singleton _, ?_⟩
      intro label member le listed same
      rw [List.mem_singleton] at listed
      subst same listed
      exact free member
  families := by
    intro sample member first second registered registered' named named'
    obtain ⟨family, own, inside⟩ := mem_sampleLines.mp member
    have facts := sampleOf_of_mem (sound_family sound own) inside
    have same := apart.own own registered facts.filled facts.named named
    have same' := apart.own own registered' facts.filled facts.named named'
    exact same.symm.trans same'

theorem apart_of_neverRepeats (sound : metrics.Sound) (never : NeverRepeats metrics metrics.lines) :
    Apart metrics where
  bounds := by
    intro family registered kind filled le
    obtain ⟨sample, inside, labels⟩ := (exists_sample (sound_family sound registered) filled).2 kind
    have distinct := never.labels sample (mem_sampleLines.mpr ⟨family, registered, inside⟩)
    rw [labels, List.nodup_append] at distinct
    exact distinct.2.2 "le" le "le" (List.mem_singleton_self _) rfl
  names := by
    intro family other registered registered' kind plain named
    have own : other.name ∈ other.sampleNames := (mem_sampleNames_plain plain).mpr rfl
    have differ : family.name ≠ other.name := by
      intro same
      have equal := registered_eq (fun name family found => (sound name family found).1) registered
        registered' same
      exact plain (equal ▸ kind)
    have silent {writer : MetricFamily F} (registered'' : metrics.Registered writer)
        (writes : other.name ∈ writer.sampleNames) : writer.values.isEmpty = true := by
      rw [← Bool.not_eq_false]
      intro filled
      obtain ⟨sample, inside, same⟩ :=
        (exists_sample (sound_family sound registered'') filled).1 other.name writes
      have listed := mem_sampleLines.mpr ⟨writer, registered'', inside⟩
      rw [← same] at named own
      exact differ (never.families sample listed family other registered registered' named own)
    exact ⟨silent registered named, silent registered' own⟩

/-- After every run the exposition is readable, and it repeats nothing exactly if the registry is
apart. -/
theorem neverRepeats_iff :
    ∀ metrics : Metrics F, Metrics.system.Reachable metrics →
      ∃ lines, parseText metrics.render = some lines ∧
        (NeverRepeats metrics lines ↔ Apart metrics) := by
  intro metrics reach
  have sound := sound_of_reach reach
  exact ⟨metrics.lines, parseText_render sound, apart_of_neverRepeats sound,
    fun apart => apart.neverRepeats sound⟩

/-- Options without a namespace. -/
def vectorOptions (name : String) (labels : List String) : VectorOptions :=
  ⟨"", "", name, "help", labels⟩

/-- A histogram `x` with an observation, and a counter `x_count` that counted once. -/
def countActions : List (Action Whole) :=
  [.histogramVec ⟨vectorOptions "x" [], [.finite 1]⟩, .counterVec (vectorOptions "x_count" []),
    .update "x" (.observe (.finite 1)) [], .update "x_count" .counterInc []]

/-- A histogram `x` with a label `le`, and an observation. -/
def boundActions : List (Action Whole) :=
  [.histogramVec ⟨vectorOptions "x" ["le"], [.finite 1]⟩,
    .update "x" (.observe (.finite 1)) ["1"]]

/-- What the registry of `countActions` renders. -/
def countText : String :=
  "# HELP x help\n# TYPE x histogram\n" ++
    "x_bucket\x7ble=\"1\"\x7d 1\nx_bucket\x7ble=\"+Inf\"\x7d 1\nx_sum 1\nx_count 1\n" ++
      "# HELP x_count help\n# TYPE x_count counter\nx_count 1\n"

/-- What the registry of `boundActions` renders. -/
def boundText : String :=
  "# HELP x help\n# TYPE x histogram\n" ++
    "x_bucket\x7ble=\"1\",le=\"1\"\x7d 1\nx_bucket\x7ble=\"1\",le=\"+Inf\"\x7d 1\n" ++
      "x_sum\x7ble=\"1\"\x7d 1\nx_count\x7ble=\"1\"\x7d 1\n"

theorem neverRepeats_iff_count : ∃ metrics,
    Metrics.system.exec Metrics.system.init countActions = some metrics ∧
      ∃ lines, parseText metrics.render = some lines ∧
        (NeverRepeats metrics lines ↔ Apart metrics) := by
  have run : (Metrics.system.exec Metrics.system.init countActions).isSome = true := by
    decide +kernel
  obtain ⟨metrics, reached⟩ := Option.isSome_iff_exists.mp run
  exact ⟨metrics, reached, neverRepeats_iff metrics (Lts.reachable_of_exec _ reached)⟩

/-- The count of the histogram and the counter are one series, and the label `le` stands twice in
a line. -/
theorem series_repeated :
    (∃ (metrics : Metrics Whole) (lines : List (Line Whole)), Metrics.system.Reachable metrics ∧
      metrics.render = countText ∧ parseText metrics.render = some lines ∧
        ¬NeverRepeats metrics lines) ∧
    ∃ (metrics : Metrics Whole) (lines : List (Line Whole)), Metrics.system.Reachable metrics ∧
      metrics.render = boundText ∧ parseText metrics.render = some lines ∧
        ¬NeverRepeats metrics lines := by
  constructor
  · have run : (Metrics.system.exec Metrics.system.init countActions).map (fun metrics =>
        (metrics.render, (sampleLines metrics.lines).map fun sample =>
          (sample.name, sample.labels))) =
        some (countText, [("x_bucket", [("le", "1")]), ("x_bucket", [("le", "+Inf")]),
          ("x_sum", []), ("x_count", []), ("x_count", [])]) := by
      decide +kernel
    obtain ⟨metrics, reached, facts⟩ := Option.map_eq_some_iff.mp run
    obtain ⟨text, samples⟩ := Prod.mk.inj facts
    have reach := Lts.reachable_of_exec _ reached
    refine ⟨metrics, _, reach, text, parseText_render (sound_of_reach reach), ?_⟩
    intro never
    have differ : ((sampleLines metrics.lines).map fun sample =>
        (sample.name, sample.labels)).Pairwise
          fun known other => ¬(known.1 = other.1 ∧ ∀ pair, pair ∈ known.2 ↔ pair ∈ other.2) :=
      List.pairwise_map.mpr never.series
    rw [samples] at differ
    simp at differ
  · have run : (Metrics.system.exec Metrics.system.init boundActions).map (fun metrics =>
        (metrics.render, (sampleLines metrics.lines).map fun sample =>
          sample.labels.map Prod.fst)) =
        some (boundText, [["le", "le"], ["le", "le"], ["le"], ["le"]]) := by
      decide +kernel
    obtain ⟨metrics, reached, facts⟩ := Option.map_eq_some_iff.mp run
    obtain ⟨text, samples⟩ := Prod.mk.inj facts
    have reach := Lts.reachable_of_exec _ reached
    refine ⟨metrics, _, reach, text, parseText_render (sound_of_reach reach), ?_⟩
    intro never
    have distinct : ∀ labels ∈ (sampleLines metrics.lines).map fun sample =>
        sample.labels.map Prod.fst, labels.Nodup := List.forall_mem_map.mpr never.labels
    rw [samples] at distinct
    exact absurd (distinct _ List.mem_cons_self) (by decide)

end RustZero.MetricsRegistry
