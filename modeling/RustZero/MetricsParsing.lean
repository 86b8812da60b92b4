import Mathlib
import RustZero.MetricsSeries

/-!
# Families read from an exposition

What a scraper makes of the lines of an exposition: a sample belongs to the family that has a
sample of its name.

* `exposition_parses`: where no two families share such a name, the families are read back in the
  order of their names, each with its samples, and the buckets of a histogram count its
  observations.
-/

namespace RustZero.MetricsRegistry

open Lib
open Std (ExtTreeMap)

variable {F : Type} [Floating F]

/-- A family as it is read. -/
structure Exposed (F : Type) where
  name : String
  help : String
  kind : MetricKind
  samples : List (Sample F)

/-- The kind in a `TYPE` line of the name. -/
def Line.kind (name : String) : Line F → Option MetricKind
  | type named kind => if named = name then some kind else none
  | _ => none

/-- The kind in the first `TYPE` line of the name. -/
def typeOf (lines : List (Line F)) (name : String) : Option MetricKind :=
  (lines.filterMap (Line.kind name)).head?

/-- The family in a `HELP` line: it has a `TYPE` line as well, and all samples with its names. -/
def Line.exposed (lines : List (Line F)) : Line F → Option (Exposed F)
  | help name text => (typeOf lines name).map fun kind =>
      ⟨name, text, kind, (sampleLines lines).filter fun sample =>
        sample.name ∈ kind.sampleNames name⟩
  | _ => none

def exposedFamilies (lines : List (Line F)) : List (Exposed F) :=
  lines.filterMap (Line.exposed lines)

def MetricFamily.exposed (family : MetricFamily F) : Exposed F :=
  ⟨family.name, family.help, family.kind, family.samples⟩

/-- No two families have samples of one name. -/
def NonClashing (metrics : Metrics F) : Prop :=
  ∀ family other, metrics.Registered family → metrics.Registered other →
    family.name ≠ other.name → ∀ name ∈ family.sampleNames, name ∉ other.sampleNames

/-- The bounds ascend, the infinite one last, and so do their counts; the last one is the number
of observations. -/
structure CountsObservations (buckets values : List F) : Prop where
  ascending : (buckets ++ [Floating.infinity]).Pairwise fun bound later =>
    Floating.le bound later = true ∧ atMost values bound ≤ atMost values later
  all : atMost values Floating.infinity = values.length

/-! ## Parts of a list -/

omit [Floating F] in
/-- Only one item of a list makes something. -/
theorem flatMap_eq_of_unique {α β : Type} {make : α → List β} {items : List α} {item : α}
    (distinct : items.Nodup) (member : item ∈ items)
    (others : ∀ other ∈ items, other ≠ item → make other = []) :
    items.flatMap make = make item := by
  induction items with
  | nil => cases member
  | cons first items ih =>
      obtain ⟨absent, distinct⟩ := List.nodup_cons.mp distinct
      rw [List.forall_mem_cons] at others
      rw [List.flatMap_cons]
      by_cases same : first = item
      · subst same
        have rest : items.flatMap make = [] := by
          rw [List.flatMap_eq_nil_iff]
          intro other later
          exact others.2 other later fun equal => absent (equal ▸ later)
        rw [rest, List.append_nil]
      · have later : item ∈ items := (List.mem_cons.mp member).resolve_left (Ne.symm same)
        rw [others.1 same, List.nil_append, ih distinct later others.2]

variable {metrics : Metrics F}

omit [Floating F] in
theorem toList_nodup (metrics : Metrics F) : metrics.families.toList.Nodup := by
  refine metrics.families.distinct_keys_toList.imp fun {entry later} differ same => ?_
  exact differ (Std.compare_eq_iff_eq.mpr (congrArg Prod.fst same))

/-- Another family has another name. -/
theorem name_ne (sound : metrics.Sound) {entry other : String × MetricFamily F}
    (member : entry ∈ metrics.families.toList) (member' : other ∈ metrics.families.toList)
    (differ : other ≠ entry) : other.2.name ≠ entry.2.name := by
  have found := ExtTreeMap.mem_toList_iff_getElem?_eq_some.mp member
  have found' := ExtTreeMap.mem_toList_iff_getElem?_eq_some.mp member'
  intro same
  rw [(sound _ _ found).1, (sound _ _ found').1] at same
  rw [← same, found'] at found
  exact differ (Prod.ext same (Option.some.inj found))

theorem typeOf_lines (sound : metrics.Sound) {entry : String × MetricFamily F}
    (member : entry ∈ metrics.families.toList) :
    typeOf metrics.lines entry.2.name = some entry.2.kind := by
  have each (family : MetricFamily F) : family.lines.filterMap (Line.kind entry.2.name) =
      if family.name = entry.2.name then [family.kind] else [] := by
    have none : (family.samples.map Line.sample).filterMap (Line.kind entry.2.name) = [] := by
      rw [List.filterMap_map, List.filterMap_eq_nil_iff]
      intro sample _
      rfl
    rw [MetricFamily.lines, List.filterMap_cons_none rfl]
    by_cases named : family.name = entry.2.name
    · have own : Line.kind (F := F) entry.2.name (.type family.name family.kind) =
          some family.kind := if_pos named
      rw [if_pos named, List.filterMap_cons_some own, none]
    · have other : Line.kind (F := F) entry.2.name (.type family.name family.kind) = Option.none :=
        if_neg named
      rw [if_neg named, List.filterMap_cons_none other, none]
  have only : metrics.lines.filterMap (Line.kind entry.2.name) = [entry.2.kind] := by
    rw [Metrics.lines, List.filterMap_flatMap, flatMap_eq_of_unique (toList_nodup metrics) member]
    · rw [each, if_pos rfl]
    · intro other member' differ
      rw [each, if_neg (name_ne sound member member' differ)]
  rw [typeOf, only]
  rfl

theorem filter_sampleLines (sound : metrics.Sound) (apart : NonClashing metrics)
    {entry : String × MetricFamily F} (member : entry ∈ metrics.families.toList) :
    (sampleLines metrics.lines).filter (fun sample => sample.name ∈ entry.2.sampleNames) =
      entry.2.samples := by
  have registered {entry : String × MetricFamily F} (member : entry ∈ metrics.families.toList) :
      metrics.Registered entry.2 :=
    ⟨entry.1, ExtTreeMap.mem_toList_iff_getElem?_eq_some.mp member⟩
  rw [sampleLines_lines, List.filter_flatMap, flatMap_eq_of_unique (toList_nodup metrics) member]
  · rw [List.filter_eq_self]
    intro sample inside
    exact decide_eq_true (sampleOf_of_mem (sound_family sound (registered member)) inside).named
  · intro other member' differ
    rw [List.filter_eq_nil_iff]
    intro sample inside listed
    have named := (sampleOf_of_mem (sound_family sound (registered member')) inside).named
    exact apart other.2 entry.2 (registered member') (registered member)
      (name_ne sound member member' differ) sample.name named (of_decide_eq_true listed)

theorem exposedFamilies_lines (sound : metrics.Sound) (apart : NonClashing metrics) :
    exposedFamilies metrics.lines =
      metrics.families.toList.map fun entry => entry.2.exposed := by
  have each {entry : String × MetricFamily F} (member : entry ∈ metrics.families.toList) :
      entry.2.lines.filterMap (Line.exposed metrics.lines) = [entry.2.exposed] := by
    have none : (Line.type entry.2.name entry.2.kind :: entry.2.samples.map Line.sample).filterMap
        (Line.exposed metrics.lines) = [] := by
      rw [List.filterMap_eq_nil_iff]
      intro line listed
      rcases List.mem_cons.mp listed with rfl | listed
      · rfl
      · obtain ⟨sample, _, rfl⟩ := List.mem_map.mp listed
        rfl
    have own : Line.exposed metrics.lines (.help entry.2.name entry.2.help) =
        some entry.2.exposed := by
      rw [Line.exposed, typeOf_lines sound member, Option.map_some, MetricFamily.exposed,
        ← filter_sampleLines sound apart member]
      rfl
    rw [MetricFamily.lines, List.filterMap_cons_some own, none]
  have parts : exposedFamilies metrics.lines = metrics.families.toList.flatMap fun entry =>
      entry.2.lines.filterMap (Line.exposed metrics.lines) := by
    rw [exposedFamilies]
    generalize Line.exposed metrics.lines = expose
    rw [Metrics.lines, List.filterMap_flatMap]
  rw [parts, List.map_eq_flatMap]
  exact List.flatMap_congr fun entry member => each member

theorem atMost_mono {values : List F} {bound later : F}
    (above : Floating.le bound later = true) : atMost values bound ≤ atMost values later := by
  apply List.countP_mono_left
  intro value _ least
  exact Floating.le_trans value bound later least above

/-- Buckets that ascend count what was observed. -/
theorem countsObservations {buckets values : List F}
    (finite : ∀ bucket ∈ buckets, Floating.isFinite bucket = true)
    (sorted : buckets.Pairwise fun bucket later => Floating.le later bucket = false)
    (observed : ∀ value ∈ values, Floating.isFinite value = true) :
    CountsObservations buckets values where
  ascending := by
    have above : (buckets ++ [Floating.infinity]).Pairwise fun bound later =>
        Floating.le bound later = true := by
      refine List.pairwise_append.mpr ⟨?_, List.pairwise_singleton _ _, ?_⟩
      · refine sorted.imp_of_mem fun {bucket later} member member' apart => ?_
        have total := Floating.le_total bucket later (finite bucket member) (finite later member')
        rw [apart] at total
        exact total.resolve_right Bool.false_ne_true
      · intro bucket member infinite listed
        rw [List.mem_singleton.mp listed]
        exact Floating.le_infinity bucket (finite bucket member)
    exact above.imp fun above => ⟨above, atMost_mono above⟩
  all := atMost_infinity observed

/-- The families are in the order of their names. -/
theorem names_ascend (sound : metrics.Sound) :
    (metrics.families.toList.map fun entry => entry.2.exposed).Pairwise fun family later =>
      family.name < later.name := by
  refine List.pairwise_map.mpr (metrics.families.ordered_keys_toList.imp_of_mem ?_)
  intro entry later member member' before
  have found := ExtTreeMap.mem_toList_iff_getElem?_eq_some.mp member
  have found' := ExtTreeMap.mem_toList_iff_getElem?_eq_some.mp member'
  have named : entry.2.exposed.name = entry.1 := (sound _ _ found).1
  have named' : later.2.exposed.name = later.1 := (sound _ _ found').1
  rw [named, named']
  exact compareOfLessAndEq_eq_lt.mp before

/-! ## What was observed -/

/-- A value that was observed of a label set of a family. -/
structure Observation (F : Type) where
  family : String
  labels : List String
  value : F

/-- What a step observes. -/
def observation (_ : Metrics F) : Action F → Metrics F → List (Observation F)
  | .update name (.observe value) labels, _ => [⟨name, labels, value⟩]
  | _, _ => []

/-- A registry beside the observations so far, newest first. -/
def observing : Lts (Metrics F × List (Observation F)) (Action F) :=
  Metrics.system.audit observation

/-- The values that were observed of a label set, oldest first. -/
def observedValues (history : List (Observation F)) (name : String) (labels : List String) :
    List F :=
  (history.reverse.filter fun seen => seen.family = name ∧ seen.labels = labels).map
    Observation.value

omit [Floating F] in
theorem observedValues_cons (seen : Observation F) (history : List (Observation F))
    (name : String) (labels : List String) :
    observedValues (seen :: history) name labels =
      observedValues history name labels ++
        if seen.family = name ∧ seen.labels = labels then [seen.value] else [] := by
  rw [observedValues, List.reverse_cons, List.filter_append, List.map_append, ← observedValues]
  split <;> simp_all

/-- The observations that are stored are those that were made. -/
structure Recorded (metrics : Metrics F) (history : List (Observation F)) : Prop where
  known : ∀ seen ∈ history, seen.family ∈ metrics.families
  stored : ∀ (name : String) family buckets observations,
    metrics.families[name]? = some family → family.values = .histogram buckets observations →
      ∀ labels : List String, observations[labels]?.getD [] = observedValues history name labels

omit [Floating F] in
/-- Nothing was observed of a family that is not registered. -/
theorem Recorded.unknown {history : List (Observation F)} (recorded : Recorded metrics history)
    {name : String} (fresh : name ∉ metrics.families) (labels : List String) :
    observedValues history name labels = [] := by
  rw [observedValues, List.map_eq_nil_iff, List.filter_eq_nil_iff]
  intro seen member listed
  have same := (of_decide_eq_true listed).1
  exact fresh (same ▸ recorded.known seen (List.mem_reverse.mp member))

theorem recorded_registered {metrics' : Metrics F} {family : MetricFamily F}
    {history : List (Observation F)} (recorded : Recorded metrics history)
    (registers : Registers metrics family metrics') : Recorded metrics' history := by
  obtain ⟨fresh, _, empty, rfl⟩ := registers
  constructor
  · intro seen member
    exact ExtTreeMap.mem_insert.mpr (.inr (recorded.known seen member))
  · intro name found buckets observations registered values labels
    rw [ExtTreeMap.getElem?_insert] at registered
    split at registered
    case isTrue same =>
      cases registered
      rw [Std.compare_eq_iff_eq] at same
      subst same
      rw [empty buckets observations values, recorded.unknown fresh]
      rfl
    case isFalse => exact recorded.stored name found buckets observations registered values labels

omit [Floating F] in
/-- What is not an observation leaves no histogram behind. -/
theorem recorded_plain {name : String} {family' : MetricFamily F}
    {history : List (Observation F)} (recorded : Recorded metrics history)
    (plain : ∀ buckets observations, family'.values ≠ .histogram buckets observations) :
    Recorded ⟨metrics.families.insert name family'⟩ history where
  known seen member := ExtTreeMap.mem_insert.mpr (.inr (recorded.known seen member))
  stored other found buckets observations registered values labels := by
    rw [ExtTreeMap.getElem?_insert] at registered
    split at registered
    case isTrue =>
      cases registered
      exact (plain buckets observations values).elim
    case isFalse => exact recorded.stored other found buckets observations registered values labels

omit [Floating F] in
/-- An observation is stored behind the earlier ones. -/
theorem recorded_observed {name : String} {family family' : MetricFamily F} {labels : List String}
    {value : F} {buckets : List F} {observations : ExtTreeMap (List String) (List F)}
    {history : List (Observation F)} (recorded : Recorded metrics history)
    (found : metrics.families[name]? = some family)
    (before : family.values = .histogram buckets observations)
    (after : family'.values = .histogram buckets
      (observations.insert labels (observations[labels]?.getD [] ++ [value]))) :
    Recorded ⟨metrics.families.insert name family'⟩ (⟨name, labels, value⟩ :: history) where
  known := by
    refine List.forall_mem_cons.mpr ⟨ExtTreeMap.mem_insert_self, ?_⟩
    intro seen member
    exact ExtTreeMap.mem_insert.mpr (.inr (recorded.known seen member))
  stored other known bounds values registered same set := by
    rw [ExtTreeMap.getElem?_insert] at registered
    rw [observedValues_cons]
    split at registered
    case isTrue here =>
      cases registered
      rw [Std.compare_eq_iff_eq] at here
      subst here
      rw [after] at same
      cases same
      rw [← recorded.stored name family buckets observations found before,
        ExtTreeMap.getElem?_insert]
      by_cases own : labels = set
      · subst own
        simp
      · have differ : ¬compare labels set = .eq := by
          rw [Std.compare_eq_iff_eq]
          exact own
        rw [if_neg differ, if_neg fun both => own both.2, List.append_nil]
    case isFalse elsewhere =>
      rw [Std.compare_eq_iff_eq] at elsewhere
      rw [if_neg fun both => elsewhere both.1, List.append_nil]
      exact recorded.stored other known bounds values registered same set

omit [Floating F] in
theorem recorded_updated {name : String} {family family' : MetricFamily F} {update : Update F}
    {labels : List String} {history : List (Observation F)} (recorded : Recorded metrics history)
    (found : metrics.families[name]? = some family)
    (stores : Stores family.values labels update family'.values) (metrics' : Metrics F) :
    Recorded ⟨metrics.families.insert name family'⟩
      (observation metrics (.update name update labels) metrics' ++ history) := by
  generalize after : family'.values = values at stores
  cases stores with
  | observed before => exact recorded_observed recorded found before after
  | counted counter =>
      have silent : observation metrics (.update name update labels) metrics' = [] := by
        cases update <;> first | rfl | cases counter
      rw [silent]
      refine recorded_plain recorded fun buckets observations histogram => ?_
      cases after.symm.trans histogram
  | set gauge =>
      have silent : observation metrics (.update name update labels) metrics' = [] := by
        cases update <;> first | rfl | cases gauge
      rw [silent]
      refine recorded_plain recorded fun buckets observations histogram => ?_
      cases after.symm.trans histogram

theorem recorded_of_reach {history : List (Observation F)}
    (reach : observing.Reachable (metrics, history)) : Recorded metrics history := by
  refine reach.invariant (I := fun seen => Recorded seen.1 seen.2) ?_ ?_
  · constructor
    · exact List.forall_mem_nil _
    · intro name family buckets observations registered
      have empty : (∅ : ExtTreeMap String (MetricFamily F))[name]? = some family := registered
      rw [ExtTreeMap.getElem?_empty] at empty
      cases empty
  · intro before action after recorded _ step
    obtain ⟨metrics, history⟩ := before
    obtain ⟨metrics', history'⟩ := after
    obtain ⟨taken, rfl⟩ := Lts.audit_step step
    cases step_cases taken with
    | registered registration registers =>
        have silent : observation metrics action metrics' = [] := by
          cases action with
          | update name update labels => exact registration.elim
          | counterVec options => rfl
          | gaugeVec options => rfl
          | histogramVec options => rfl
        rw [silent]
        exact recorded_registered recorded registers
    | updated found updates => exact recorded_updated recorded found updates.stores _

/-- The label sets of the histograms have the values that were observed of them, and their buckets
count these. -/
def SeriesCount (metrics : Metrics F) (history : List (Observation F)) : Prop :=
  ∀ family buckets observations, metrics.Registered family →
    family.values = .histogram buckets observations →
      ∀ (labels : List String) values, observations[labels]? = some values →
        values = observedValues history family.name labels ∧ CountsObservations buckets values

theorem seriesCount_of_reach {history : List (Observation F)} (sound : metrics.Sound)
    (recorded : Recorded metrics history) : SeriesCount metrics history := by
  intro family buckets observations registered values labels seen found
  obtain ⟨name, known⟩ := registered
  obtain ⟨named, valid⟩ := sound name family known
  have valued := valid.values
  rw [values] at valued
  obtain ⟨_, finite, sorted, each⟩ := valued
  refine ⟨?_, countsObservations finite sorted (each labels seen found).2⟩
  rw [named, ← recorded.stored name family buckets observations known values, found]
  rfl

/-- What is rendered is read back as the families that are registered, in the order of their
names and each with its samples, and the buckets count the observations. -/
theorem exposition_parses :
    ∀ (metrics : Metrics F) history, observing.Reachable (metrics, history) →
      NonClashing metrics → ∃ lines, parseText metrics.render = some lines ∧
        exposedFamilies lines = (metrics.families.toList.map fun entry => entry.2.exposed) ∧
        (exposedFamilies lines).Pairwise (fun family later => family.name < later.name) ∧
        SeriesCount metrics history := by
  intro metrics history reach apart
  have sound := sound_of_reach (Lts.reach_audit_iff.mpr ⟨history, reach⟩)
  have families := exposedFamilies_lines sound apart
  refine ⟨metrics.lines, parseText_render sound, families, ?_,
    seriesCount_of_reach sound (recorded_of_reach reach)⟩
  rw [families]
  exact names_ascend sound

/-- One histogram, with an observation of a label value that has to be escaped. -/
def quotedActions : List (Action Whole) :=
  [.histogramVec ⟨vectorOptions "latency" ["path"], [.finite 1, .finite 5]⟩,
    .update "latency" (.observe (.finite 3)) ["\"\\\n"]]

theorem exposition_parses_quoted : ∃ metrics history lines,
    observing.exec observing.init quotedActions = some (metrics, history) ∧
      parseText metrics.render = some lines ∧
      exposedFamilies lines = (metrics.families.toList.map fun entry => entry.2.exposed) ∧
      (exposedFamilies lines).Pairwise (fun family later => family.name < later.name) ∧
      SeriesCount metrics history := by
  have run : (observing.exec observing.init quotedActions).map (fun reached =>
      reached.1.families.toList.map Prod.fst) = some ["latency"] := by
    decide +kernel
  obtain ⟨⟨metrics, history⟩, reached, names⟩ := Option.map_eq_some_iff.mp run
  have apart : NonClashing metrics := by
    intro family other registered registered' differ
    obtain ⟨name, found⟩ := registered
    obtain ⟨name', found'⟩ := registered'
    have own {name : String} {family : MetricFamily Whole}
        (found : metrics.families[name]? = some family) : name = "latency" := by
      have listed := List.mem_map_of_mem (f := Prod.fst)
        (ExtTreeMap.mem_toList_iff_getElem?_eq_some.mpr found)
      rw [names] at listed
      exact List.mem_singleton.mp listed
    rw [own found] at found
    rw [own found', found] at found'
    cases found'
    exact (differ rfl).elim
  obtain ⟨lines, parsed⟩ := exposition_parses metrics history
    (Lts.reachable_of_exec _ reached) apart
  exact ⟨metrics, history, lines, reached, parsed⟩

end RustZero.MetricsRegistry
