import Mathlib

/-!
# Sliding windows of buckets

A window of at most `count` buckets that are `width` wide, oldest first, the newest of which
began at `started`.  Nothing moves by itself: a read or a record first rotates the window to its
own time, by whole widths, or starts it anew there when every bucket is too old.

* `run` is any sequence of reads and records; buckets are of any type, with an empty one and the
  effect of an observation on one.
* Run with buckets that hold their observations, it says which ones are retained; `run_eq_map`
  carries that to any other buckets.
* `Covers` is what every step keeps, and `Covers.retains` the law of the window: what is retained
  at a time is a part of the history, back for `count - 1` widths at least and `count` at most.
-/

namespace RustZero.Lib

/-- A read, or a record with what was observed, at a time. -/
structure WindowEvent (α : Type*) where
  now : Nat
  observed : Option α

def WindowEvent.map {α γ : Type*} (f : α → γ) (event : WindowEvent α) : WindowEvent γ :=
  ⟨event.now, event.observed.map f⟩

/-- When the newest bucket began, and all buckets. -/
structure SlidingWindow (β : Type*) where
  started : Nat
  buckets : List β

namespace SlidingWindow

variable {α β : Type*}

/-- What is observed changes the newest bucket. -/
def recordLast (change : β → β) (buckets : List β) : Option (List β) :=
  buckets.getLast?.map fun latest => buckets.dropLast ++ [change latest]

def rotate (count width : Nat) (empty : β) (window : SlidingWindow β) (now : Nat) :
    SlidingWindow β :=
  let elapsed := (now - window.started) / width
  if count ≤ elapsed then ⟨now, [empty]⟩
  else ⟨window.started + width * elapsed,
    (window.buckets ++ List.replicate elapsed empty).rtake count⟩

section Step

variable (count width : Nat) (empty : β) (add : Nat → α → β → β)

def step (window : SlidingWindow β) (event : WindowEvent α) : Option (SlidingWindow β) :=
  let window := window.rotate count width empty event.now
  match event.observed with
  | none => some window
  | some value => (recordLast (add event.now value) window.buckets).map (⟨window.started, ·⟩)

def run (created : Nat) (events : List (WindowEvent α)) : Option (SlidingWindow β) :=
  events.foldlM (step count width empty add) ⟨created, [empty]⟩

end Step

/-- The observations of a run, with their times. -/
def observations (events : List (WindowEvent α)) : List (Nat × α) :=
  events.filterMap fun event => event.observed.map (event.now, ·)

/-- The effect on a bucket that holds its observations. -/
def note (now : Nat) (value : α) (bucket : List (Nat × α)) : List (Nat × α) :=
  bucket ++ [(now, value)]

/-! ## Buckets of any type -/

def map {γ : Type*} (f : β → γ) (window : SlidingWindow β) : SlidingWindow γ :=
  ⟨window.started, window.buckets.map f⟩

/-- The bucket that has these observations. -/
def bucketOf (empty : β) (add : Nat → α → β → β) (noted : List (Nat × α)) : β :=
  noted.foldl (fun bucket observation => add observation.1 observation.2 bucket) empty

theorem recordLast_concat (change : β → β) (older : List β) (latest : β) :
    recordLast change (older ++ [latest]) = some (older ++ [change latest]) := by
  rw [recordLast, List.getLast?_concat, List.dropLast_concat]
  rfl

/-- A queue with buckets in it has a newest one. -/
theorem exists_concat {buckets : List β} (nonempty : buckets ≠ []) :
    ∃ older latest, buckets = older ++ [latest] :=
  ⟨_, _, (List.dropLast_append_getLast nonempty).symm⟩

section Images

variable {count width : Nat} {empty : β} {add : Nat → α → β → β}

theorem bucketOf_note (now : Nat) (value : α) (noted : List (Nat × α)) :
    bucketOf empty add (note now value noted) = add now value (bucketOf empty add noted) := by
  rw [note, bucketOf, List.foldl_append]
  rfl

theorem map_rotate (window : SlidingWindow (List (Nat × α))) (now : Nat) :
    (window.rotate count width [] now).map (bucketOf empty add) =
      (window.map (bucketOf empty add)).rotate count width empty now := by
  have begins : bucketOf empty add [] = empty := rfl
  rw [rotate, rotate, map, map]
  split
  case isTrue => rfl
  case isFalse =>
    dsimp only
    rw [List.rtake, List.rtake, List.map_drop, List.map_append, List.map_replicate, begins,
      List.length_append, List.length_append, List.length_map, List.length_replicate,
      List.length_replicate]

variable (empty add) in
theorem map_recordLast (now : Nat) (value : α) (buckets : List (List (Nat × α))) :
    (recordLast (note now value) buckets).map (List.map (bucketOf empty add)) =
      recordLast (add now value) (buckets.map (bucketOf empty add)) := by
  by_cases none_ : buckets = []
  · rw [none_]
    rfl
  · obtain ⟨older, latest, same⟩ := exists_concat none_
    rw [same, recordLast_concat, List.map_append, List.map_singleton, recordLast_concat,
      Option.map_some, List.map_append, List.map_singleton, bucketOf_note]

theorem map_step (window : SlidingWindow (List (Nat × α))) (event : WindowEvent α) :
    (step count width [] note window event).map (map (bucketOf empty add)) =
      step count width empty add (window.map (bucketOf empty add)) event := by
  rw [step, step, ← map_rotate]
  cases event.observed with
  | none => rfl
  | some value =>
    have recorded := map_recordLast empty add event.now value
      (window.rotate count width [] event.now).buckets
    rw [Option.map_map]
    rw [map]
    dsimp only
    rw [← recorded, Option.map_map]
    rfl

theorem run_append (created : Nat) (events : List (WindowEvent α)) (event : WindowEvent α) :
    run count width empty add created (events ++ [event]) =
      (run count width empty add created events).bind (step count width empty add · event) := by
  rw [run, List.foldlM_append, ← run]
  cases run count width empty add created events with
  | none => rfl
  | some window =>
    rw [Option.bind_eq_bind, Option.bind_some, List.foldlM_cons]
    exact bind_pure _

variable (count width empty add) in
/-- Buckets of any type are those of the retained observations. -/
theorem run_eq_map (created : Nat) (events : List (WindowEvent α)) :
    run count width empty add created events =
      (run count width [] note created events).map (map (bucketOf empty add)) := by
  induction events using List.reverseRecOn with
  | nil => rfl
  | append_singleton events event ih =>
    rw [run_append, run_append, ih]
    cases run count width [] note created events with
    | none => rfl
    | some window => exact (map_step window event).symm

end Images

/-! ## Other representations -/

/-- What a window keeps of its shape. -/
structure Fits (count created : Nat) (window : SlidingWindow β) : Prop where
  begun : created ≤ window.started
  nonempty : window.buckets ≠ []
  length_le : window.buckets.length ≤ count

section Simulation

variable {count width created : Nat} {empty : β} {add : Nat → α → β → β}
  {window later : SlidingWindow β} {event : WindowEvent α}

theorem Fits.rotate (fits : Fits count created window) (positive : 0 < count) (width : Nat)
    (empty : β) (now : Nat) : Fits count created (window.rotate count width empty now) := by
  obtain ⟨begun, nonempty, length_le⟩ := fits
  have divided := Nat.div_mul_le_self (now - window.started) width
  have some_ := List.length_pos_iff.mpr nonempty
  rw [SlidingWindow.rotate]
  split
  case isTrue all =>
    refine ⟨?_, List.cons_ne_nil _ _, positive⟩
    have some_ : 0 < (now - window.started) / width := positive.trans_le all
    have past : window.started < now := by
      by_contra before
      rw [Nat.sub_eq_zero_of_le (not_lt.mp before), Nat.zero_div] at some_
      exact absurd some_ (lt_irrefl 0)
    exact begun.trans past.le
  case isFalse =>
    refine ⟨begun.trans (Nat.le_add_right _ _), ?_, ?_⟩
    · apply List.ne_nil_of_length_pos
      rw [List.rtake, List.length_drop, List.length_append]
      omega
    · rw [List.rtake, List.length_drop]
      omega

theorem recordLast_length {change : β → β} {buckets changed : List β}
    (recorded : recordLast change buckets = some changed) :
    buckets ≠ [] ∧ changed.length = buckets.length := by
  have nonempty : buckets ≠ [] := by
    intro none_
    rw [none_] at recorded
    cases recorded
  obtain ⟨older, latest, same⟩ := exists_concat nonempty
  rw [same, recordLast_concat] at recorded
  cases recorded
  rw [same]
  exact ⟨List.concat_ne_nil _ _, by rw [List.length_append, List.length_append]; rfl⟩

theorem Fits.step (fits : Fits count created window) (positive : 0 < count)
    (stepped : step count width empty add window event = some later) :
    Fits count created later := by
  have rotated := fits.rotate positive width empty event.now
  rw [SlidingWindow.step] at stepped
  cases seen : event.observed with
  | none =>
    rw [seen] at stepped
    cases stepped
    exact rotated
  | some value =>
    rw [seen] at stepped
    obtain ⟨buckets, recorded, same⟩ := Option.map_eq_some_iff.mp stepped
    cases same
    obtain ⟨nonempty, length⟩ := recordLast_length recorded
    refine ⟨rotated.begun, ?_, ?_⟩
    · apply List.ne_nil_of_length_pos
      rw [length]
      exact List.length_pos_iff.mpr nonempty
    · rw [length]
      exact rotated.length_le

/-- A state that follows the window step by step follows it over a run. -/
theorem run_simulated {σ : Type*} {R : σ → SlidingWindow β → Prop} {P : WindowEvent α → Prop}
    {advance : σ → WindowEvent α → Option σ} {start : σ} (positive : 0 < count)
    (begins : R start ⟨created, [empty]⟩)
    (simulates : ∀ state window event later, R state window → Fits count created window →
      P event → step count width empty add window event = some later →
        ∃ next, advance state event = some next ∧ R next later)
    {events : List (WindowEvent α)} (meets : ∀ event ∈ events, P event)
    (ran : run count width empty add created events = some later) :
    ∃ state, events.foldlM advance start = some state ∧ R state later ∧
      Fits count created later := by
  induction events using List.reverseRecOn generalizing later with
  | nil =>
    cases ran
    exact ⟨start, rfl, begins, le_rfl, List.cons_ne_nil _ _, positive⟩
  | append_singleton events event ih =>
    rw [run_append] at ran
    obtain ⟨window, before, stepped⟩ := Option.bind_eq_some_iff.mp ran
    obtain ⟨state, reached, related, fits⟩ :=
      ih (fun event member => meets event (List.mem_append_left _ member)) before
    obtain ⟨next, advanced, follows⟩ := simulates state window event later related fits
      (meets event (List.mem_append_right _ List.mem_cons_self)) stepped
    refine ⟨next, ?_, follows, fits.step positive stepped⟩
    rw [List.foldlM_append, reached, Option.bind_eq_bind, Option.bind_some, List.foldlM_cons,
      advanced]
    rfl

/-- At a read after a run it has the buckets of what is retained. -/
theorem read_simulated {σ : Type*} (R : σ → SlidingWindow β → Prop) {P : WindowEvent α → Prop}
    (advance : σ → WindowEvent α → Option σ) (start : σ) {window : SlidingWindow (List (Nat × α))}
    {now : Nat} (positive : 0 < count) (begins : R start ⟨created, [empty]⟩)
    (simulates : ∀ state window event later, R state window → Fits count created window →
      P event → step count width empty add window event = some later →
        ∃ next, advance state event = some next ∧ R next later)
    {events : List (WindowEvent α)} (meets : ∀ event ∈ events ++ [⟨now, none⟩], P event)
    (ran : run count width [] note created (events ++ [⟨now, none⟩]) = some window) :
    ∃ state before next, events.foldlM advance start = some state ∧ R state before ∧
      Fits count created before ∧ advance state ⟨now, none⟩ = some next ∧
        R next (window.map (bucketOf empty add)) := by
  have image := run_eq_map count width empty add created (events ++ [⟨now, none⟩])
  rw [ran, Option.map_some, run_append] at image
  obtain ⟨before, earlier, stepped⟩ := Option.bind_eq_some_iff.mp image
  obtain ⟨state, reached, related, fits⟩ := run_simulated positive begins simulates
    (fun event member => meets event (List.mem_append_left _ member)) earlier
  obtain ⟨next, advanced, follows⟩ := simulates state before _ _ related fits
    (meets _ (List.mem_append_right _ List.mem_cons_self)) stepped
  exact ⟨state, before, next, reached, related, fits, advanced, follows⟩

end Simulation

/-! ## The law -/

/-- Every observation lies in the span of its bucket. -/
def Spaced (width started : Nat) : List (List (Nat × α)) → Prop
  | [] => True
  | bucket :: newer =>
      (∀ observation ∈ bucket, started ≤ observation.1 + newer.length * width ∧
        observation.1 + newer.length * width < started + width) ∧ Spaced width started newer

/-- What every step keeps. -/
structure Covers (count width : Nat) (history : List (Nat × α))
    (window : SlidingWindow (List (Nat × α))) : Prop where
  nonempty : window.buckets ≠ []
  length_le : window.buckets.length ≤ count
  spaced : Spaced width window.started window.buckets
  forgotten : ∃ old, history = old ++ window.buckets.flatten ∧
    ∀ observation ∈ old, observation.1 + count * width < window.started + width

/-- What is retained of a history at a time: its last part, which has all that is less than
`count - 1` widths old and nothing that is `count` widths old. -/
structure Retains (count width now : Nat) (history : List (Nat × α))
    (kept : List (List (Nat × α))) : Prop where
  size : 1 ≤ kept.length ∧ kept.length ≤ count
  recent : ∃ old, history = old ++ kept.flatten ∧
    ∀ observation ∈ old, ¬ now - observation.1 < (count - 1) * width
  stale : ∀ observation ∈ kept.flatten, ¬ count * width ≤ now - observation.1

section Spaced

variable {width started : Nat} {buckets : List (List (Nat × α))} {observation : Nat × α}

theorem Spaced.append_replicate (spaced : Spaced width started buckets) (elapsed : Nat) :
    Spaced width (started + width * elapsed) (buckets ++ List.replicate elapsed []) := by
  induction buckets with
  | nil =>
    rw [List.nil_append]
    induction elapsed with
    | zero => trivial
    | succ elapsed ih =>
      refine ⟨?_, ?_⟩
      · intro observation absent
        cases absent
      · clear ih
        generalize started + width * (elapsed + 1) = later
        induction elapsed with
        | zero => trivial
        | succ elapsed ih =>
          refine ⟨?_, ih⟩
          intro observation absent
          cases absent
  | cons bucket newer ih =>
    obtain ⟨within, rest⟩ := spaced
    rw [List.cons_append]
    refine ⟨?_, ih rest⟩
    intro observation member
    have bounds := within observation member
    rw [List.length_append, List.length_replicate, Nat.add_mul, Nat.mul_comm elapsed]
    omega

theorem Spaced.drop (spaced : Spaced width started buckets) (leaving : Nat) :
    Spaced width started (buckets.drop leaving) := by
  induction leaving generalizing buckets with
  | zero => exact spaced
  | succ leaving ih =>
    cases buckets with
    | nil => exact spaced
    | cons bucket newer => exact ih spaced.2

/-- Nothing is later than the newest bucket. -/
theorem Spaced.lt (spaced : Spaced width started buckets) (member : observation ∈ buckets.flatten) :
    observation.1 < started + width := by
  induction buckets with
  | nil => cases member
  | cons bucket newer ih =>
    rw [List.flatten_cons, List.mem_append] at member
    rcases member with here | later
    · have bounds := spaced.1 observation here
      omega
    · exact ih spaced.2 later

/-- What `count` buckets hold is less than `count` widths older than the end of the newest. -/
theorem Spaced.le {count : Nat} (spaced : Spaced width started buckets)
    (fits : buckets.length ≤ count) (member : observation ∈ buckets.flatten) :
    started + width ≤ observation.1 + count * width := by
  induction buckets with
  | nil => cases member
  | cons bucket newer ih =>
    rw [List.length_cons] at fits
    rw [List.flatten_cons, List.mem_append] at member
    rcases member with here | later
    · have bounds := spaced.1 observation here
      have more : (newer.length + 1) * width ≤ count * width := Nat.mul_le_mul_right _ fits
      rw [Nat.add_mul] at more
      omega
    · exact ih spaced.2 (by omega) later

/-- What leaves with the oldest buckets is older than all that stay. -/
theorem Spaced.leaving {count leaving : Nat} (spaced : Spaced width started buckets)
    (stay : count + leaving ≤ buckets.length)
    (member : observation ∈ (buckets.take leaving).flatten) :
    observation.1 + count * width < started + width := by
  induction leaving generalizing buckets with
  | zero => cases member
  | succ leaving ih =>
    cases buckets with
    | nil => cases member
    | cons bucket newer =>
      rw [List.length_cons] at stay
      rw [List.take_succ_cons, List.flatten_cons, List.mem_append] at member
      rcases member with here | later
      · have bounds := spaced.1 observation here
        have fewer : count * width ≤ newer.length * width :=
          Nat.mul_le_mul_right _ (by omega)
        omega
      · exact ih spaced.2 (by omega) later

theorem Spaced.concat {latest : List (Nat × α)} {older : List (List (Nat × α))}
    (spaced : Spaced width started (older ++ [latest])) {now : Nat}
    (current : started ≤ now ∧ now < started + width) (value : α) :
    Spaced width started (older ++ [note now value latest]) := by
  induction older with
  | nil =>
    refine ⟨?_, trivial⟩
    intro observation member
    rw [note, List.mem_append, List.mem_singleton] at member
    rcases member with here | same
    · exact spaced.1 observation here
    · rw [same, List.length_nil]
      omega
  | cons bucket older ih =>
    rw [List.cons_append] at spaced ⊢
    refine ⟨?_, ih spaced.2⟩
    intro observation member
    have bounds := spaced.1 observation member
    rw [List.length_append, List.length_singleton] at bounds ⊢
    exact bounds

end Spaced

section Law

variable {count width : Nat} {history : List (Nat × α)} {window : SlidingWindow (List (Nat × α))}
  {now created : Nat}

theorem covers_start (positive : 0 < count) (created : Nat) :
    Covers (α := α) count width [] ⟨created, [[]]⟩ := by
  refine ⟨List.cons_ne_nil _ _, positive, ⟨?_, trivial⟩, [], rfl, ?_⟩
  · intro observation absent
    cases absent
  · intro observation absent
    cases absent

/-- A window that is rotated to a time has that time in its newest bucket. -/
theorem rotate_current (count : Nat) (empty : β) {window : SlidingWindow β} (wide : 0 < width)
    (order : window.started ≤ now) :
    (window.rotate count width empty now).started ≤ now ∧
      now < (window.rotate count width empty now).started + width := by
  rw [rotate]
  split
  · exact ⟨Nat.le_refl _, Nat.lt_add_of_pos_right wide⟩
  · have divided := Nat.div_add_mod (now - window.started) width
    have rest := Nat.mod_lt (now - window.started) wide
    dsimp only
    omega

theorem Covers.rotate (covers : Covers count width history window) (positive : 0 < count)
    (order : window.started ≤ now) :
    Covers count width history (window.rotate count width [] now) := by
  obtain ⟨nonempty, length_le, spaced, old, same, gone⟩ := covers
  have divided := Nat.div_mul_le_self (now - window.started) width
  rw [SlidingWindow.rotate]
  split
  case isTrue all =>
    have past : count * width ≤ now - window.started :=
      (Nat.mul_le_mul_right _ all).trans divided
    refine ⟨List.cons_ne_nil _ _, positive, ⟨?_, trivial⟩, history, (List.append_nil _).symm, ?_⟩
    · intro observation absent
      cases absent
    · intro observation member
      dsimp only
      rw [same, List.mem_append] at member
      rcases member with before | here
      · have bound := gone observation before
        omega
      · have bound := spaced.lt here
        omega
  case isFalse recent =>
    generalize (now - window.started) / width = elapsed at recent divided
    have grown := spaced.append_replicate elapsed
    have length : (window.buckets ++ List.replicate elapsed []).length =
        window.buckets.length + elapsed := by
      rw [List.length_append, List.length_replicate]
    have some_ := List.length_pos_iff.mpr nonempty
    have parts := List.take_append_drop
      ((window.buckets ++ List.replicate elapsed []).length - count)
      (window.buckets ++ List.replicate elapsed [])
    have flat : (window.buckets ++ List.replicate elapsed []).flatten = window.buckets.flatten := by
      rw [List.flatten_append, List.flatten_replicate_nil, List.append_nil]
    refine ⟨?_, ?_, grown.drop _, old ++ ((window.buckets ++ List.replicate elapsed []).take
      ((window.buckets ++ List.replicate elapsed []).length - count)).flatten, ?_, ?_⟩
    · apply List.ne_nil_of_length_pos
      rw [List.rtake, List.length_drop]
      omega
    · rw [List.rtake, List.length_drop]
      omega
    · dsimp only
      rw [List.rtake, List.append_assoc, ← List.flatten_append, parts, flat, same]
    · intro observation member
      dsimp only
      rw [List.mem_append] at member
      rcases member with before | leaves
      · have bound := gone observation before
        omega
      · by_cases all : (window.buckets ++ List.replicate elapsed []).length ≤ count
        · rw [Nat.sub_eq_zero_of_le all] at leaves
          cases leaves
        · exact grown.leaving (by omega) leaves

theorem Covers.record (covers : Covers count width history window)
    (current : window.started ≤ now ∧ now < window.started + width) (value : α) :
    ∃ buckets, recordLast (note now value) window.buckets = some buckets ∧
      Covers count width (history ++ [(now, value)]) ⟨window.started, buckets⟩ := by
  obtain ⟨older, latest, parts⟩ := exists_concat covers.nonempty
  have length_le := covers.length_le
  have spaced := covers.spaced
  obtain ⟨old, same, gone⟩ := covers.forgotten
  rw [parts] at length_le spaced same ⊢
  refine ⟨_, recordLast_concat _ _ _, ?_, ?_, spaced.concat current value, old, ?_, gone⟩
  · exact List.concat_ne_nil _ _
  · rw [List.length_append] at length_le ⊢
    exact length_le
  · dsimp only
    rw [same, note, List.flatten_append, List.flatten_append, List.flatten_singleton,
      List.flatten_singleton, List.append_assoc, List.append_assoc]

theorem Covers.step {event : WindowEvent α} (covers : Covers count width history window)
    (positive : 0 < count) (wide : 0 < width) (order : window.started ≤ event.now) :
    ∃ later, step count width [] note window event = some later ∧
      Covers count width (history ++ observations [event]) later ∧
        later.started ≤ event.now ∧ event.now < later.started + width := by
  obtain ⟨now, observed⟩ := event
  have rotated := covers.rotate positive order
  have current := rotate_current count ([] : List (Nat × α)) wide order
  cases observed with
  | none =>
    refine ⟨_, rfl, ?_, current⟩
    have nothing : observations [(⟨now, none⟩ : WindowEvent α)] = [] := rfl
    rw [nothing, List.append_nil]
    exact rotated
  | some value =>
    obtain ⟨buckets, recorded, after⟩ := rotated.record current value
    rw [SlidingWindow.step]
    dsimp only
    rw [recorded]
    exact ⟨_, rfl, after, current⟩

/-- The law of a window that has been rotated to the time of the read. -/
theorem Covers.retains (covers : Covers count width history window)
    (current : window.started ≤ now ∧ now < window.started + width) :
    Retains count width now history window.buckets := by
  obtain ⟨old, same, gone⟩ := covers.forgotten
  refine ⟨⟨List.length_pos_iff.mpr covers.nonempty, covers.length_le⟩, ⟨old, same, ?_⟩, ?_⟩
  · intro observation member recent
    have bound := gone observation member
    rw [Nat.sub_mul, Nat.one_mul] at recent
    omega
  · intro observation member stale
    have bound := covers.spaced.le covers.length_le member
    have whole : 1 * width ≤ count * width :=
      Nat.mul_le_mul_right _ ((List.length_pos_iff.mpr covers.nonempty).trans_le covers.length_le)
    omega

/-- Times that do not go back. -/
def Ordered (created : Nat) (events : List (WindowEvent α)) : Prop :=
  (created :: events.map WindowEvent.now).Pairwise (· ≤ ·)

theorem Ordered.append {events : List (WindowEvent α)} {event : WindowEvent α}
    (ordered : Ordered created (events ++ [event])) :
    Ordered created events ∧ created ≤ event.now ∧ ∀ before ∈ events, before.now ≤ event.now := by
  rw [Ordered, List.map_append, ← List.cons_append, List.pairwise_append] at ordered
  obtain ⟨earlier, _, order⟩ := ordered
  have last : event.now ∈ [event].map WindowEvent.now := List.mem_singleton_self _
  refine ⟨earlier, order _ List.mem_cons_self _ last, ?_⟩
  intro before member
  exact order _ (List.mem_cons_of_mem _ (List.mem_map_of_mem member)) _ last

theorem observations_append (events : List (WindowEvent α)) (event : WindowEvent α) :
    observations (events ++ [event]) = observations events ++ observations [event] :=
  List.filterMap_append

/-- No read or record of a run fails, and the window covers what was observed. -/
theorem run_covers (positive : 0 < count) (wide : 0 < width) {events : List (WindowEvent α)}
    (ordered : Ordered created events) :
    ∃ window, run count width [] note created events = some window ∧
      Covers count width (observations events) window ∧
        ∀ later, created ≤ later → (∀ event ∈ events, event.now ≤ later) →
          window.started ≤ later := by
  induction events using List.reverseRecOn with
  | nil => exact ⟨_, rfl, covers_start positive created, fun later after _ => after⟩
  | append_singleton events event ih =>
    obtain ⟨earlier, first, order⟩ := ordered.append
    obtain ⟨window, ran, covers, bound⟩ := ih earlier
    obtain ⟨later, stepped, after, begun, _⟩ :=
      covers.step positive wide (bound event.now first order)
    refine ⟨later, ?_, ?_, ?_⟩
    · rw [run_append, ran]
      exact stepped
    · rw [observations_append]
      exact after
    · intro last _ past
      exact begun.trans (past event (List.mem_append_right _ List.mem_cons_self))

/-- The law at a read after any run. -/
theorem run_retains (positive : 0 < count) (wide : 0 < width) {events : List (WindowEvent α)}
    (ordered : Ordered created (events ++ [⟨now, none⟩])) :
    ∃ window, run count width [] note created (events ++ [⟨now, none⟩]) = some window ∧
      Retains count width now (observations events) window.buckets := by
  obtain ⟨earlier, first, order⟩ := ordered.append
  obtain ⟨window, ran, covers, bound⟩ := run_covers positive wide earlier
  have rotated := covers.rotate positive (bound now first order)
  have current := rotate_current count ([] : List (Nat × α)) wide (bound now first order)
  refine ⟨window.rotate count width [] now, ?_, rotated.retains current⟩
  rw [run_append, ran]
  rfl

end Law

end SlidingWindow

end RustZero.Lib
