import RustZero.Lib.Lts
import RustZero.Lib.Phases

/-!
# Dynamic configuration

`core/src/config_center.rs`.  A `DynamicConfig` is three shared cells: the
snapshot behind a read-write lock, the atomic generation counter and the watch
channel.  `update` writes them in three separate steps with no common lock,
after parsing its contents; concurrent calls interleave these steps freely.

* `System` holds the three cells and how far every `update` call has come.
* `InOrder` is the condition that no call replaces the snapshot, or the watch
  value, while a call with a smaller generation still has to (and that the
  64-bit counter does not wrap).
* `updates_atomic_and_monotone`: along such runs both cells move through the
  generations in order and agree whenever no update is in progress.
* `racing_updates_go_backwards`: without the condition two racing updates leave
  the older one installed.

`parse_config` ends in third-party deserialisers, so it is the parameter
`parseConfig`.
-/

namespace RustZero.ConfigCenter

open Lib

structure ConfigSnapshot (T : Type) where
  generation : Nat
  raw : String
  value : T
  deriving DecidableEq, Repr

/-- How far an `update` call has come. -/
inductive UpdateCall (T ε : Type) where
  | idle
  | rejected (error : ε)
  /-- The contents are parsed, the generation is not yet drawn. -/
  | parsed (contents : String) (value : T)
  /-- The snapshot is built, the shared snapshot is not yet replaced. -/
  | numbered (snapshot : ConfigSnapshot T)
  /-- The shared snapshot is replaced, the watch value is not. -/
  | installed (snapshot : ConfigSnapshot T)
  | returned (snapshot : ConfigSnapshot T)
  deriving DecidableEq, Repr

/-- `DynamicConfigState` with the calls that are running on it. -/
structure System (ι T ε : Type) where
  snapshot : ConfigSnapshot T
  generation : Nat
  updates : ConfigSnapshot T
  calls : ι → UpdateCall T ε

inductive Action (ι : Type) where
  | parse (call : ι) (contents : String)
  | fetchAdd (call : ι)
  | writeSnapshot (call : ι)
  | sendReplace (call : ι)

/-- The state a successful `DynamicConfig::new` starts from. -/
def start (ι : Type) {T : Type} (ε : Type) (contents : String) (value : T) : System ι T ε where
  snapshot := ⟨1, contents, value⟩
  generation := 1
  updates := ⟨1, contents, value⟩
  calls := fun _ => .idle

/-- `DynamicConfig::new`. -/
def DynamicConfig.new (ι : Type) {T ε : Type} (parseConfig : String → Except ε T)
    (contents : String) : Except ε (System ι T ε) :=
  (parseConfig contents).map (start ι ε contents)

section Step

variable {ι T ε : Type} [DecidableEq ι]

/-- One step of `DynamicConfig::update`. -/
def step (parseConfig : String → Except ε T) (s : System ι T ε) :
    Action ι → Option (System ι T ε)
  | .parse call contents =>
      match s.calls call with
      | .idle =>
          match parseConfig contents with
          | .error error => some { s with calls := Function.update s.calls call (.rejected error) }
          | .ok value =>
              some { s with calls := Function.update s.calls call (.parsed contents value) }
      | _ => none
  | .fetchAdd call =>
      match s.calls call with
      | .parsed contents value =>
          let generation := (s.generation + 1) % 2 ^ 64
          some { s with
            generation := generation
            calls := Function.update s.calls call (.numbered ⟨generation, contents, value⟩) }
      | _ => none
  | .writeSnapshot call =>
      match s.calls call with
      | .numbered snapshot =>
          some { s with
            snapshot := snapshot
            calls := Function.update s.calls call (.installed snapshot) }
      | _ => none
  | .sendReplace call =>
      match s.calls call with
      | .installed snapshot =>
          some { s with
            updates := snapshot
            calls := Function.update s.calls call (.returned snapshot) }
      | _ => none

/-- Every interleaving of `update` calls on a configuration built from
`contents`. -/
def lts (ι : Type) [DecidableEq ι] {T ε : Type} (parseConfig : String → Except ε T)
    (contents : String) (value : T) : Lts (System ι T ε) (Action ι) where
  init := start ι ε contents value
  step := step parseConfig

variable {parseConfig : String → Except ε T} {s s' : System ι T ε} {a : Action ι}

/-- What a step can be: a rejected parse, or one of the four steps of an
accepted update. -/
theorem step_cases (h : step parseConfig s a = some s') :
    (∃ call contents next, a = .parse call contents ∧ s.calls call = .idle ∧
      ((∃ error, next = .rejected error) ∨ ∃ value, next = .parsed contents value) ∧
      s' = { s with calls := Function.update s.calls call next }) ∨
    (∃ call contents value, a = .fetchAdd call ∧ s.calls call = .parsed contents value ∧
      s' = { s with
        generation := (s.generation + 1) % 2 ^ 64
        calls := Function.update s.calls call
          (.numbered ⟨(s.generation + 1) % 2 ^ 64, contents, value⟩) }) ∨
    (∃ call snapshot, a = .writeSnapshot call ∧ s.calls call = .numbered snapshot ∧
      s' = { s with
        snapshot := snapshot
        calls := Function.update s.calls call (.installed snapshot) }) ∨
    (∃ call snapshot, a = .sendReplace call ∧ s.calls call = .installed snapshot ∧
      s' = { s with
        updates := snapshot
        calls := Function.update s.calls call (.returned snapshot) }) := by
  cases a with
  | parse call contents =>
      simp only [step] at h
      split at h
      · rename_i idle
        split at h
        · rename_i error _
          exact .inl ⟨call, contents, _, rfl, idle, .inl ⟨error, rfl⟩, (Option.some.inj h).symm⟩
        · rename_i value _
          exact .inl ⟨call, contents, _, rfl, idle, .inr ⟨value, rfl⟩, (Option.some.inj h).symm⟩
      · cases h
  | fetchAdd call =>
      simp only [step] at h
      split at h
      · rename_i contents value parsed
        exact .inr (.inl ⟨call, contents, value, rfl, parsed, (Option.some.inj h).symm⟩)
      · cases h
  | writeSnapshot call =>
      simp only [step] at h
      split at h
      · rename_i snapshot numbered
        exact .inr (.inr (.inl ⟨call, snapshot, rfl, numbered, (Option.some.inj h).symm⟩))
      · cases h
  | sendReplace call =>
      simp only [step] at h
      split at h
      · rename_i snapshot installed
        exact .inr (.inr (.inr ⟨call, snapshot, rfl, installed, (Option.some.inj h).symm⟩))
      · cases h

end Step

/-! ## Updates that do not overtake one another -/

/-- The counter does not wrap, and a call replaces the snapshot (the watch
value) only when no call with a smaller generation still has to. -/
def InOrder {ι T ε : Type} (s : System ι T ε) : Action ι → Prop
  | .fetchAdd _ => s.generation + 1 < 2 ^ 64
  | .writeSnapshot call =>
      ∀ mine other theirs, s.calls call = .numbered mine → s.calls other = .numbered theirs →
        mine.generation ≤ theirs.generation
  | .sendReplace call =>
      ∀ mine other theirs, s.calls call = .installed mine →
        s.calls other = .numbered theirs ∨ s.calls other = .installed theirs →
        mine.generation ≤ theirs.generation
  | .parse _ _ => True

/-- The snapshot a call has built. -/
def UpdateCall.built {T ε : Type} : UpdateCall T ε → Option (ConfigSnapshot T)
  | .numbered snapshot => some snapshot
  | .installed snapshot => some snapshot
  | .returned snapshot => some snapshot
  | _ => none

/-- No update is in progress. -/
def Quiescent {ι T ε : Type} (s : System ι T ε) : Prop :=
  ∀ call, s.calls call = .idle ∨ (∃ error, s.calls call = .rejected error) ∨
    ∃ snapshot, s.calls call = .returned snapshot

/-- The watch value, the snapshot and the counter are three points of one line
of generations; between two of them sit exactly the calls that have not yet
moved the lower one. -/
structure Inv {ι T ε : Type} (first : ConfigSnapshot T) (s : System ι T ε) : Prop where
  order : s.updates.generation ≤ s.snapshot.generation ∧ s.snapshot.generation ≤ s.generation
  distinct : ∀ i j left right, (s.calls i).built = some left → (s.calls j).built = some right →
    left.generation = right.generation → i = j
  numbered : ∀ call built, s.calls call = .numbered built →
    s.snapshot.generation < built.generation ∧ built.generation ≤ s.generation
  installed : ∀ call built, s.calls call = .installed built →
    s.updates.generation < built.generation ∧ built.generation ≤ s.snapshot.generation
  returned : ∀ call built, s.calls call = .returned built →
    built.generation ≤ s.updates.generation
  toInstall : ∀ n, s.snapshot.generation < n → n ≤ s.generation →
    ∃ call built, s.calls call = .numbered built ∧ built.generation = n
  toSend : ∀ n, s.updates.generation < n → n ≤ s.snapshot.generation →
    ∃ call built, s.calls call = .installed built ∧ built.generation = n
  last : ∀ call built, s.calls call = .installed built →
    built.generation = s.snapshot.generation → built = s.snapshot
  agree : s.updates.generation = s.snapshot.generation → s.updates = s.snapshot
  origin : s.updates = first ∨ ∃ call, s.calls call = .returned s.updates

section Invariant

variable {ι T ε : Type} {first : ConfigSnapshot T}

theorem inv_start (contents : String) (value : T) :
    Inv ⟨1, contents, value⟩ (start ι ε contents value) where
  order := ⟨Nat.le_refl _, Nat.le_refl _⟩
  distinct := by
    intro i j left right builtLeft
    cases builtLeft
  numbered := by
    intro call built phase
    cases phase
  installed := by
    intro call built phase
    cases phase
  returned := by
    intro call built phase
    cases phase
  toInstall := by
    intro n above below
    exact absurd below (Nat.not_le.mpr above)
  toSend := by
    intro n above below
    exact absurd below (Nat.not_le.mpr above)
  last := by
    intro call built phase
    cases phase
  agree := fun _ => rfl
  origin := .inl rfl

variable {s s' : System ι T ε} {call : ι}

/-- The oldest call that still has to replace the snapshot carries the next
generation. -/
theorem next_to_install {mine : ConfigSnapshot T} (inv : Inv first s)
    (numbered : s.calls call = .numbered mine)
    (oldest : ∀ other theirs, s.calls other = .numbered theirs →
      mine.generation ≤ theirs.generation) :
    mine.generation = s.snapshot.generation + 1 := by
  have range := inv.numbered call mine numbered
  rcases inv.toInstall (s.snapshot.generation + 1) (Nat.lt_succ_self _) (by omega) with
    ⟨other, theirs, otherNumbered, generation⟩
  have := oldest other theirs otherNumbered
  omega

theorem next_to_send {mine : ConfigSnapshot T} (inv : Inv first s)
    (installed : s.calls call = .installed mine)
    (oldest : ∀ other theirs, s.calls other = .numbered theirs ∨ s.calls other = .installed theirs →
      mine.generation ≤ theirs.generation) :
    mine.generation = s.updates.generation + 1 := by
  have range := inv.installed call mine installed
  rcases inv.toSend (s.updates.generation + 1) (Nat.lt_succ_self _) (by omega) with
    ⟨other, theirs, otherInstalled, generation⟩
  have := oldest other theirs (.inr otherInstalled)
  omega

/-- With no update in progress both cells have caught up with the counter. -/
theorem Inv.caught_up (inv : Inv first s) (quiescent : Quiescent s) :
    s.updates.generation = s.snapshot.generation := by
  rcases Nat.lt_or_ge s.updates.generation s.snapshot.generation with behind | caught
  · obtain ⟨call, built, phase, _⟩ := inv.toSend s.snapshot.generation behind (Nat.le_refl _)
    rcases quiescent call with idle | ⟨error, rejected⟩ | ⟨other, returned⟩
    · rw [phase] at idle
      cases idle
    · rw [phase] at rejected
      cases rejected
    · rw [phase] at returned
      cases returned
  · exact Nat.le_antisymm inv.order.1 caught

variable [DecidableEq ι]

/-- Moving one call keeps the built generations distinct when it keeps its own
snapshot or builds one no other call has. -/
theorem distinct_update {calls : ι → UpdateCall T ε} {phase : UpdateCall T ε}
    (distinct : ∀ i j left right, (calls i).built = some left → (calls j).built = some right →
      left.generation = right.generation → i = j)
    (new : ∀ i left right, phase.built = some left → (calls i).built = some right →
      left.generation = right.generation → i = call) :
    ∀ i j left right, (Function.update calls call phase i).built = some left →
      (Function.update calls call phase j).built = some right →
      left.generation = right.generation → i = j := by
  have origin : ∀ i built, (Function.update calls call phase i).built = some built →
      i = call ∧ phase.built = some built ∨ (calls i).built = some built := by
    intro i built after
    rcases phase_of_update (x := Function.update calls call phase i) rfl with
      ⟨mine, new⟩ | ⟨_, old⟩
    · exact .inl ⟨mine, new ▸ after⟩
    · exact .inr (old ▸ after)
  intro i j left right builtLeft builtRight same
  rcases origin i left builtLeft with ⟨mineLeft, newLeft⟩ | oldLeft <;>
  rcases origin j right builtRight with ⟨mineRight, newRight⟩ | oldRight
  · rw [mineLeft, mineRight]
  · rw [mineLeft, new j left right newLeft oldRight same]
  · rw [mineRight, new i right left newRight oldLeft same.symm]
  · exact distinct i j left right oldLeft oldRight same

/-- A step that leaves the cells alone and moves a call that has built nothing
to a phase that has built nothing. -/
theorem inv_unbuilt {phase : UpdateCall T ε} (inv : Inv first s)
    (before : (s.calls call).built = none) (after : phase.built = none) :
    Inv first { s with calls := Function.update s.calls call phase } := by
  have keep : ∀ i built, Function.update s.calls call phase i = .numbered built ∨
      Function.update s.calls call phase i = .installed built ∨
      Function.update s.calls call phase i = .returned built →
      Function.update s.calls call phase i = s.calls i := by
    intro i built moved
    rcases phase_of_update (x := Function.update s.calls call phase i) rfl with
      ⟨rfl, new⟩ | ⟨_, old⟩
    · rw [← new] at moved
      rcases moved with rfl | rfl | rfl <;> cases after
    · exact old.symm
  have stays : ∀ i x, s.calls i = x → x.built ≠ none →
      Function.update s.calls call phase i = x := by
    intro i x old built
    refine phase_keep old fun same => built ?_
    rw [← same, before]
  refine ⟨inv.order, distinct_update inv.distinct ?_, ?_, ?_, ?_, ?_, ?_, ?_, inv.agree, ?_⟩
  · intro i left right builtLeft
    rw [after] at builtLeft
    cases builtLeft
  · intro i built moved
    exact inv.numbered i built ((keep i built (.inl moved)).symm.trans moved)
  · intro i built moved
    exact inv.installed i built ((keep i built (.inr (.inl moved))).symm.trans moved)
  · intro i built moved
    exact inv.returned i built ((keep i built (.inr (.inr moved))).symm.trans moved)
  · intro n above below
    obtain ⟨i, built, old, generation⟩ := inv.toInstall n above below
    exact ⟨i, built, stays i _ old nofun, generation⟩
  · intro n above below
    obtain ⟨i, built, old, generation⟩ := inv.toSend n above below
    exact ⟨i, built, stays i _ old nofun, generation⟩
  · intro i built moved
    exact inv.last i built ((keep i built (.inr (.inl moved))).symm.trans moved)
  · rcases inv.origin with first | ⟨i, old⟩
    · exact .inl first
    · exact .inr ⟨i, stays i _ old nofun⟩

theorem inv_fetchAdd {contents : String} {value : T} (inv : Inv first s)
    (parsed : s.calls call = .parsed contents value) :
    Inv first { s with
      generation := s.generation + 1
      calls := Function.update s.calls call
        (.numbered ⟨s.generation + 1, contents, value⟩) } := by
  have stays : ∀ i x, s.calls i = x → x.built ≠ none →
      Function.update s.calls call (.numbered ⟨s.generation + 1, contents, value⟩) i = x := by
    intro i x old built
    refine phase_keep old fun same => built ?_
    rw [← same, parsed]
    rfl
  have belowCounter : ∀ i built, (s.calls i).built = some built →
      built.generation ≤ s.generation := by
    intro i built old
    have order := inv.order
    cases phase : s.calls i with
    | numbered other =>
        rw [phase] at old
        cases old
        exact (inv.numbered i built phase).2
    | installed other =>
        rw [phase] at old
        cases old
        have := (inv.installed i built phase).2
        omega
    | returned other =>
        rw [phase] at old
        cases old
        have := inv.returned i built phase
        omega
    | idle => rw [phase] at old; cases old
    | rejected error => rw [phase] at old; cases old
    | parsed text parsedValue => rw [phase] at old; cases old
  refine ⟨⟨inv.order.1, Nat.le_succ_of_le inv.order.2⟩, distinct_update inv.distinct ?_, ?_, ?_, ?_,
    ?_, ?_, ?_, inv.agree, ?_⟩
  · intro i left right builtLeft old same
    cases builtLeft
    have := belowCounter i right old
    dsimp only at same
    omega
  · intro i built moved
    rcases phase_of_update moved with ⟨_, new⟩ | ⟨_, old⟩
    · cases new
      exact ⟨Nat.lt_succ_of_le inv.order.2, Nat.le_refl _⟩
    · have := inv.numbered i built old
      exact ⟨this.1, Nat.le_succ_of_le this.2⟩
  · intro i built moved
    rcases phase_of_update moved with ⟨_, new⟩ | ⟨_, old⟩
    · cases new
    · exact inv.installed i built old
  · intro i built moved
    rcases phase_of_update moved with ⟨_, new⟩ | ⟨_, old⟩
    · cases new
    · exact inv.returned i built old
  · intro n above below
    rcases Nat.lt_or_ge s.generation n with top | lower
    · exact ⟨call, _, Function.update_self .., by dsimp only at below ⊢; omega⟩
    · obtain ⟨i, built, old, generation⟩ := inv.toInstall n above lower
      exact ⟨i, built, stays i _ old nofun, generation⟩
  · intro n above below
    obtain ⟨i, built, old, generation⟩ := inv.toSend n above below
    exact ⟨i, built, stays i _ old nofun, generation⟩
  · intro i built moved
    rcases phase_of_update moved with ⟨_, new⟩ | ⟨_, old⟩
    · cases new
    · exact inv.last i built old
  · rcases inv.origin with first | ⟨i, old⟩
    · exact .inl first
    · exact .inr ⟨i, stays i _ old nofun⟩

theorem inv_writeSnapshot {mine : ConfigSnapshot T} (inv : Inv first s)
    (numbered : s.calls call = .numbered mine)
    (oldest : ∀ other theirs, s.calls other = .numbered theirs →
      mine.generation ≤ theirs.generation) :
    Inv first { s with
      snapshot := mine
      calls := Function.update s.calls call (.installed mine) } := by
  have next := next_to_install inv numbered oldest
  have range := inv.numbered call mine numbered
  have order := inv.order
  refine ⟨⟨by dsimp only; omega, range.2⟩, distinct_update inv.distinct ?_, ?_, ?_, ?_, ?_, ?_, ?_,
    ?_, ?_⟩
  · intro i left right builtLeft old same
    cases builtLeft
    exact inv.distinct i call right mine old (by rw [numbered]; rfl) same.symm
  · intro i built moved
    rcases phase_of_update moved with ⟨_, new⟩ | ⟨other, old⟩
    · cases new
    · have least := oldest i built old
      have differ : built.generation ≠ mine.generation := by
        intro same
        exact other (inv.distinct i call built mine (by rw [old]; rfl) (by rw [numbered]; rfl) same)
      exact ⟨by dsimp only; omega, (inv.numbered i built old).2⟩
  · intro i built moved
    rcases phase_of_update moved with ⟨_, new⟩ | ⟨_, old⟩
    · cases new
      exact ⟨by dsimp only; omega, Nat.le_refl _⟩
    · have := inv.installed i built old
      exact ⟨this.1, by dsimp only; omega⟩
  · intro i built moved
    rcases phase_of_update moved with ⟨_, new⟩ | ⟨_, old⟩
    · cases new
    · exact inv.returned i built old
  · intro n above below
    dsimp only at above
    obtain ⟨i, built, old, generation⟩ := inv.toInstall n (by omega) below
    refine ⟨i, built, phase_keep old fun same => ?_, generation⟩
    rw [numbered] at same
    cases same
    omega
  · intro n above below
    dsimp only at above below
    by_cases new : n = mine.generation
    · exact ⟨call, mine, Function.update_self .., new.symm⟩
    · obtain ⟨i, built, old, generation⟩ := inv.toSend n above (by omega)
      exact ⟨i, built, phase_keep old (by rw [numbered]; exact nofun), generation⟩
  · intro i built moved top
    rcases phase_of_update moved with ⟨_, new⟩ | ⟨_, old⟩
    · cases new
      rfl
    · have := (inv.installed i built old).2
      dsimp only at top
      omega
  · intro same
    dsimp only at same
    omega
  · rcases inv.origin with first | ⟨i, old⟩
    · exact .inl first
    · exact .inr ⟨i, phase_keep old (by rw [numbered]; exact nofun)⟩

theorem inv_sendReplace {mine : ConfigSnapshot T} (inv : Inv first s)
    (installed : s.calls call = .installed mine)
    (oldest : ∀ other theirs, s.calls other = .numbered theirs ∨ s.calls other = .installed theirs →
      mine.generation ≤ theirs.generation) :
    Inv first { s with
      updates := mine
      calls := Function.update s.calls call (.returned mine) } := by
  have next := next_to_send inv installed oldest
  have range := inv.installed call mine installed
  refine ⟨⟨range.2, inv.order.2⟩, distinct_update inv.distinct ?_, ?_, ?_, ?_, ?_, ?_, ?_, ?_,
    .inr ⟨call, Function.update_self ..⟩⟩
  · intro i left right builtLeft old same
    cases builtLeft
    exact inv.distinct i call right mine old (by rw [installed]; rfl) same.symm
  · intro i built moved
    rcases phase_of_update moved with ⟨_, new⟩ | ⟨_, old⟩
    · cases new
    · exact inv.numbered i built old
  · intro i built moved
    rcases phase_of_update moved with ⟨_, new⟩ | ⟨other, old⟩
    · cases new
    · have least := oldest i built (.inr old)
      have differ : built.generation ≠ mine.generation := by
        intro same
        exact other
          (inv.distinct i call built mine (by rw [old]; rfl) (by rw [installed]; rfl) same)
      exact ⟨by dsimp only; omega, (inv.installed i built old).2⟩
  · intro i built moved
    rcases phase_of_update moved with ⟨_, new⟩ | ⟨_, old⟩
    · cases new
      exact Nat.le_refl _
    · have := inv.returned i built old
      dsimp only
      omega
  · intro n above below
    obtain ⟨i, built, old, generation⟩ := inv.toInstall n above below
    exact ⟨i, built, phase_keep old (by rw [installed]; exact nofun), generation⟩
  · intro n above below
    dsimp only at above
    obtain ⟨i, built, old, generation⟩ := inv.toSend n (by omega) below
    refine ⟨i, built, phase_keep old fun same => ?_, generation⟩
    rw [installed] at same
    cases same
    omega
  · intro i built moved
    rcases phase_of_update moved with ⟨_, new⟩ | ⟨_, old⟩
    · cases new
    · exact inv.last i built old
  · intro same
    exact inv.last call mine installed same

variable {parseConfig : String → Except ε T} {a : Action ι}

/-- One step in order keeps the invariant and lowers neither cell. -/
theorem inv_step (inv : Inv first s) (inOrder : InOrder s a)
    (step : step parseConfig s a = some s') :
    Inv first s' ∧ s.snapshot.generation ≤ s'.snapshot.generation ∧
      s.updates.generation ≤ s'.updates.generation := by
  rcases step_cases step with ⟨call, contents, next, rfl, idle, accepted, rfl⟩ |
    ⟨call, contents, value, rfl, parsed, rfl⟩ | ⟨call, mine, rfl, numbered, rfl⟩ |
    ⟨call, mine, rfl, installed, rfl⟩
  · have unbuilt : next.built = none := by
      rcases accepted with ⟨error, rfl⟩ | ⟨value, rfl⟩ <;> rfl
    exact ⟨inv_unbuilt inv (by rw [idle]; rfl) unbuilt, Nat.le_refl _, Nat.le_refl _⟩
  · have fits : s.generation + 1 < 2 ^ 64 := inOrder
    rw [Nat.mod_eq_of_lt fits]
    exact ⟨inv_fetchAdd inv parsed, Nat.le_refl _, Nat.le_refl _⟩
  · have oldest : ∀ other theirs, s.calls other = .numbered theirs →
        mine.generation ≤ theirs.generation :=
      fun other theirs pending => inOrder mine other theirs numbered pending
    have next := next_to_install inv numbered oldest
    exact ⟨inv_writeSnapshot inv numbered oldest, by dsimp only; omega, Nat.le_refl _⟩
  · have oldest : ∀ other theirs,
        s.calls other = .numbered theirs ∨ s.calls other = .installed theirs →
        mine.generation ≤ theirs.generation :=
      fun other theirs pending => inOrder mine other theirs installed pending
    have next := next_to_send inv installed oldest
    exact ⟨inv_sendReplace inv installed oldest, Nat.le_refl _, by dsimp only; omega⟩

theorem inv_reach {contents : String} {value : T}
    (reach : (lts ι parseConfig contents value).Reach InOrder s) :
    Inv ⟨1, contents, value⟩ s :=
  reach.invariant (inv_start contents value)
    fun _ _ _ inv inOrder step => (inv_step inv inOrder step).1

end Invariant

/-! ## Atomicity and monotonicity -/

/-- The call an action belongs to. -/
def Action.call {ι : Type} : Action ι → ι
  | .parse call _ => call
  | .fetchAdd call => call
  | .writeSnapshot call => call
  | .sendReplace call => call

/-- Along every run whose updates do not overtake one another, the generations
that `snapshot` and a subscriber see never decrease, and whenever no update is
in progress the watch channel holds the very snapshot `snapshot` returns, the
one with the greatest generation.  In every state, contents that fail to parse
end their call without touching any of the three cells. -/
theorem updates_atomic_and_monotone {ι T ε : Type} [DecidableEq ι]
    (parseConfig : String → Except ε T) (contents : String) (value : T) :
    (∀ s, (lts ι parseConfig contents value).Reach InOrder s →
      (∀ s', (lts ι parseConfig contents value).Steps InOrder s s' →
        s.snapshot.generation ≤ s'.snapshot.generation ∧
        s.updates.generation ≤ s'.updates.generation) ∧
      (Quiescent s →
        s.updates = s.snapshot ∧
        (∀ call built, s.calls call = .returned built →
          built.generation ≤ s.snapshot.generation) ∧
        (s.snapshot = ⟨1, contents, value⟩ ∨ ∃ call, s.calls call = .returned s.snapshot))) ∧
    (∀ (s s' : System ι T ε) call invalid error, parseConfig invalid = .error error →
      (lts ι parseConfig contents value).step s (.parse call invalid) = some s' →
      s'.snapshot = s.snapshot ∧ s'.generation = s.generation ∧ s'.updates = s.updates ∧
        ∀ a : Action ι, a.call = call →
          (lts ι parseConfig contents value).step s' a = none) := by
  refine ⟨fun s reach => ⟨fun s' run => ?_, fun quiescent => ?_⟩,
    fun s s' call invalid error fails step => ?_⟩
  · have inv := inv_reach reach
    exact ⟨run.monotone (f := fun t => t.snapshot.generation)
        (fun _ _ _ held cond last =>
          have next := inv_step held cond last
          ⟨next.1, next.2.1⟩) inv,
      run.monotone (f := fun t => t.updates.generation)
        (fun _ _ _ held cond last =>
          have next := inv_step held cond last
          ⟨next.1, next.2.2⟩) inv⟩
  · have inv := inv_reach reach
    have same := inv.agree (inv.caught_up quiescent)
    refine ⟨same, fun call built returned => ?_, ?_⟩
    · rw [← inv.caught_up quiescent]
      exact inv.returned call built returned
    · rw [← same]
      exact inv.origin
  · simp only [lts, ConfigCenter.step] at step
    split at step
    · rw [fails] at step
      cases step
      refine ⟨rfl, rfl, rfl, fun a mine => ?_⟩
      subst mine
      cases a <;> simp only [lts, ConfigCenter.step, Action.call, Function.update_self]
    · cases step

/-- The two texts the runs below push, as `requests` of the source's tests. -/
def parseRequests (contents : String) : Except Unit Nat :=
  if contents = "requests = 20" then .ok 20
  else if contents = "requests = 30" then .ok 30
  else .error ()

/-- One update, run to its end while the other caller stays idle. -/
theorem updates_atomic_and_monotone_single :
    ∃ s : System (Fin 2) Nat Unit, s.calls 0 = .returned ⟨2, "requests = 20", 20⟩ ∧
      s.updates = s.snapshot :=
  have meets : (lts (Fin 2) parseRequests "requests = 10" 10).Meets InOrder
      (start (Fin 2) Unit "requests = 10" 10)
      [.parse 0 "requests = 20", .fetchAdd 0, .writeSnapshot 0, .sendReplace 0] := by
    refine ⟨trivial, (by decide : 1 + 1 < 2 ^ 64), ?_, ?_, trivial⟩
    · intro mine other theirs numbered pending
      match other with
      | 0 => exact Nat.le_of_eq (by cases numbered; cases pending; rfl)
      | 1 => cases pending
    · intro mine other theirs installed pending
      match other with
      | 0 =>
          rcases pending with pending | pending
          · cases pending
          · exact Nat.le_of_eq (by cases installed; cases pending; rfl)
      | 1 => rcases pending with pending | pending <;> cases pending
  have reach := Lts.reach_of_exec _ meets rfl
  ⟨_, rfl, (((updates_atomic_and_monotone parseRequests "requests = 10" 10).1 _ reach).2
    (fun call => match call with
      | 0 => .inr (.inr ⟨_, rfl⟩)
      | 1 => .inl rfl)).1⟩

/-- Updates `0` and `1` draw generations 2 and 3.  If `1` replaces the snapshot
first, `snapshot` goes from generation 3 back to 2; if `0` is first to replace
the snapshot and last to send, the watch channel is left at generation 2 while
`snapshot` returns generation 3. -/
theorem racing_updates_go_backwards :
    (∃ s s', (lts (Fin 2) parseRequests "requests = 10" 10).Reachable s ∧
      (lts (Fin 2) parseRequests "requests = 10" 10).Steps Lts.Always s s' ∧
      s.snapshot.generation = 3 ∧ s'.snapshot.generation = 2 ∧
      s.updates.generation = 3 ∧ s'.updates.generation = 2) ∧
    (∃ s, (lts (Fin 2) parseRequests "requests = 10" 10).Reachable s ∧ Quiescent s ∧
      s.snapshot.generation = 3 ∧ s.updates.generation = 2) := by
  refine ⟨⟨_, _, Lts.reachable_of_exec [.parse 0 "requests = 20", .fetchAdd 0,
      .parse 1 "requests = 30", .fetchAdd 1, .writeSnapshot 1, .sendReplace 1] rfl,
      Lts.steps_of_exec [.writeSnapshot 0, .sendReplace 0] (Lts.meets_always _ _) rfl,
      rfl, rfl, rfl, rfl⟩,
    ⟨_, Lts.reachable_of_exec [.parse 0 "requests = 20", .fetchAdd 0,
      .parse 1 "requests = 30", .fetchAdd 1, .writeSnapshot 0, .writeSnapshot 1, .sendReplace 1,
      .sendReplace 0] rfl, fun call => ?_, rfl, rfl⟩⟩
  match call with
  | 0 => exact .inr (.inr ⟨_, rfl⟩)
  | 1 => exact .inr (.inr ⟨_, rfl⟩)

end RustZero.ConfigCenter
