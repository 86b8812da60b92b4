import Mathlib

/-!
# Glob patterns

Patterns with stars, single wildcards, classes and escapes, over any alphabet: `kind` says which
symbol opens what, and how a class is read is a parameter.  `Matches` is the meaning.

* `Literal` texts match themselves and what follows them, `matches_literal_append`.
* Only they do, `literal_of_initial`: a text that, with a star after it, matches exactly its own
  continuations has no symbol with a meaning of its own.
-/

namespace RustZero.Lib

universe u

/-- What a symbol of a pattern stands for. -/
inductive GlobKind where
  | literal
  | star
  | any
  | bracket
  | escape
  deriving DecidableEq

/-- A pattern language.  `inClass` and `afterClass` read the class that a bracket opens. -/
structure Glob (α : Type u) where
  kind : α → GlobKind
  inClass : List α → α → Prop
  afterClass : List α → List α
  afterClass_suffix : ∀ pattern, afterClass pattern <:+ pattern
  afterClass_lt : ∀ pattern, pattern ≠ [] → (afterClass pattern).length < pattern.length

namespace Glob

variable {α : Type u}

/-- The whole text matches the whole pattern. -/
inductive Matches (glob : Glob α) : List α → List α → Prop
  | nil : Matches glob [] []
  | literal {symbol : α} {pattern text : List α} (kind : glob.kind symbol = .literal)
      (rest : Matches glob pattern text) : Matches glob (symbol :: pattern) (symbol :: text)
  | star {symbol : α} {pattern text : List α} (kind : glob.kind symbol = .star)
      (skipped : List α) (rest : Matches glob pattern text) :
      Matches glob (symbol :: pattern) (skipped ++ text)
  | any {symbol : α} {pattern text : List α} (kind : glob.kind symbol = .any) (read : α)
      (rest : Matches glob pattern text) : Matches glob (symbol :: pattern) (read :: text)
  | bracket {symbol : α} {pattern text : List α} (kind : glob.kind symbol = .bracket) {read : α}
      (listed : glob.inClass pattern read) (rest : Matches glob (glob.afterClass pattern) text) :
      Matches glob (symbol :: pattern) (read :: text)
  | escape {symbol : α} {pattern text : List α} (kind : glob.kind symbol = .escape) (escaped : α)
      (rest : Matches glob pattern text) :
      Matches glob (symbol :: escaped :: pattern) (escaped :: text)
  | escapeLast {symbol : α} (kind : glob.kind symbol = .escape) : Matches glob [symbol] [symbol]

variable {glob : Glob α} {symbol : α} {pattern text : List α}

/-! ## A pattern by its first symbol -/

theorem matches_nil : glob.Matches [] text ↔ text = [] := by
  constructor
  · intro matched
    cases matched
    rfl
  · intro empty
    rw [empty]
    exact .nil

theorem matches_literal (kind : glob.kind symbol = .literal) :
    glob.Matches (symbol :: pattern) text ↔
      ∃ rest, text = symbol :: rest ∧ glob.Matches pattern rest := by
  constructor
  · intro matched
    cases matched with
    | literal _ rest => exact ⟨_, rfl, rest⟩
    | star other | any other | bracket other | escape other | escapeLast other =>
        cases kind.symm.trans other
  · intro matched
    obtain ⟨rest, rfl, further⟩ := matched
    exact .literal kind further

theorem matches_star (kind : glob.kind symbol = .star) :
    glob.Matches (symbol :: pattern) text ↔
      ∃ skipped rest, text = skipped ++ rest ∧ glob.Matches pattern rest := by
  constructor
  · intro matched
    cases matched with
    | star _ skipped rest => exact ⟨skipped, _, rfl, rest⟩
    | literal other | any other | bracket other | escape other | escapeLast other =>
        cases kind.symm.trans other
  · intro matched
    obtain ⟨skipped, rest, rfl, further⟩ := matched
    exact .star kind skipped further

theorem matches_any (kind : glob.kind symbol = .any) :
    glob.Matches (symbol :: pattern) text ↔
      ∃ read rest, text = read :: rest ∧ glob.Matches pattern rest := by
  constructor
  · intro matched
    cases matched with
    | any _ read rest => exact ⟨read, _, rfl, rest⟩
    | literal other | star other | bracket other | escape other | escapeLast other =>
        cases kind.symm.trans other
  · intro matched
    obtain ⟨read, rest, rfl, further⟩ := matched
    exact .any kind read further

theorem matches_bracket (kind : glob.kind symbol = .bracket) :
    glob.Matches (symbol :: pattern) text ↔
      ∃ read rest, text = read :: rest ∧ glob.inClass pattern read ∧
        glob.Matches (glob.afterClass pattern) rest := by
  constructor
  · intro matched
    cases matched with
    | bracket _ listed rest => exact ⟨_, _, rfl, listed, rest⟩
    | literal other | star other | any other | escape other | escapeLast other =>
        cases kind.symm.trans other
  · intro matched
    obtain ⟨read, rest, rfl, listed, further⟩ := matched
    exact .bracket kind listed further

theorem matches_escape (kind : glob.kind symbol = .escape) {escaped : α} :
    glob.Matches (symbol :: escaped :: pattern) text ↔
      ∃ rest, text = escaped :: rest ∧ glob.Matches pattern rest := by
  constructor
  · intro matched
    cases matched with
    | escape _ _ rest => exact ⟨_, rfl, rest⟩
    | literal other | star other | any other | bracket other =>
        cases kind.symm.trans other
  · intro matched
    obtain ⟨rest, rfl, further⟩ := matched
    exact .escape kind escaped further

/-- A star at the end matches everything. -/
theorem matches_last_star (kind : glob.kind symbol = .star) (text : List α) :
    glob.Matches [symbol] text := by
  have all : glob.Matches [symbol] (text ++ []) := .star kind text .nil
  rwa [List.append_nil] at all

/-! ## Literal texts -/

def Literal (glob : Glob α) (text : List α) : Prop :=
  ∀ symbol ∈ text, glob.kind symbol = .literal

/-- A literal text matches itself and nothing else. -/
theorem matches_literal_append {initial : List α} (literal : glob.Literal initial) :
    glob.Matches (initial ++ pattern) text ↔
      ∃ rest, text = initial ++ rest ∧ glob.Matches pattern rest := by
  induction initial generalizing text with
  | nil =>
      constructor
      · intro matched
        exact ⟨text, rfl, matched⟩
      · intro matched
        obtain ⟨rest, rfl, further⟩ := matched
        exact further
  | cons symbol initial ih =>
      obtain ⟨here, later⟩ := List.forall_mem_cons.mp literal
      rw [List.cons_append, matches_literal here]
      constructor
      · intro matched
        obtain ⟨rest, rfl, further⟩ := matched
        obtain ⟨tail, rfl, final⟩ := (ih later).mp further
        exact ⟨tail, rfl, final⟩
      · intro matched
        obtain ⟨tail, rfl, further⟩ := matched
        exact ⟨initial ++ tail, rfl, (ih later).mpr ⟨tail, rfl, further⟩⟩

/-! ## A pattern for the continuations of a text -/

/-- With a star after it, the pattern matches the continuations of `initial`. -/
def Continues (glob : Glob α) (star : α) (pattern initial : List α) : Prop :=
  ∀ text, glob.Matches (pattern ++ [star]) text ↔ initial <+: text

variable {star : α} {initial : List α}

theorem Continues.self (continues : glob.Continues star pattern initial) :
    glob.Matches (pattern ++ [star]) initial :=
  (continues initial).mpr List.prefix_rfl

/-- Two texts with one tail and different heads have no common first symbol. -/
theorem not_prefix_of_ne {read other : α} {rest : List α} (ne : other ≠ read) :
    ¬read :: rest <+: other :: rest := by
  intro inside
  exact ne (List.cons_prefix_cons.mp inside).1.symm

/-- A wildcard would also match another symbol. -/
theorem Continues.not_any [Nontrivial α] (kind : glob.kind symbol = .any) :
    ¬glob.Continues star (symbol :: pattern) initial := by
  intro continues
  obtain ⟨read, rest, rfl, further⟩ := (matches_any kind).mp continues.self
  obtain ⟨other, ne⟩ := exists_ne read
  exact not_prefix_of_ne ne ((continues _).mp (.any kind other further))

/-- A star would also match something in front. -/
theorem Continues.not_star [Nontrivial α] (kind : glob.kind symbol = .star)
    (long : initial ≠ []) : ¬glob.Continues star (symbol :: pattern) initial := by
  intro continues
  obtain ⟨skipped, rest, whole, further⟩ := (matches_star kind).mp continues.self
  -- What the star did not skip matches alone, so nothing was skipped.
  have inside : initial <+: rest := (continues rest).mp (.star kind [] further)
  obtain ⟨read, tail, rfl⟩ := List.exists_cons_of_ne_nil long
  obtain ⟨other, ne⟩ := exists_ne read
  have same : rest = read :: tail := by
    have lengths := congrArg List.length whole
    rw [List.length_append] at lengths
    exact (inside.eq_of_length (by have := inside.length_le; omega)).symm
  rw [same] at further
  have shifted : read :: tail <+: other :: read :: tail :=
    (continues _).mp (.star kind [other] further)
  exact ne (List.cons_prefix_cons.mp shifted).1.symm

/-- Where a pattern reads one symbol and goes on with `further`, so do the continuations. -/
theorem Continues.tail {read : α} {rest further : List α}
    (reads : ∀ text, glob.Matches (pattern ++ [star]) (read :: text) ↔
      glob.Matches (further ++ [star]) text)
    (continues : glob.Continues star pattern (read :: rest)) :
    glob.Continues star further rest := by
  intro text
  rw [← reads, continues, List.cons_prefix_cons]
  exact and_iff_right rfl

/-- The pattern does not end after one symbol. -/
theorem Continues.not_single {read : α} {rest : List α}
    (single : ∀ text, glob.Matches (pattern ++ [star]) (read :: text) → text = []) :
    ¬glob.Continues star pattern (read :: rest) := by
  intro continues
  have longer : read :: rest <+: read :: (rest ++ [read]) := ⟨[read], rfl⟩
  have empty := single _ ((continues _).mpr longer)
  exact List.append_ne_nil_of_right_ne_nil rest (List.cons_ne_nil read []) empty

theorem Continues.tail_literal (kind : glob.kind symbol = .literal)
    (continues : glob.Continues star (symbol :: pattern) initial) :
    ∃ rest, initial = symbol :: rest ∧ glob.Continues star pattern rest := by
  obtain ⟨rest, rfl, _⟩ := (matches_literal kind).mp continues.self
  refine ⟨rest, rfl, continues.tail fun text => ?_⟩
  rw [List.cons_append, matches_literal kind]
  constructor
  · intro matched
    obtain ⟨_, same, further⟩ := matched
    cases same
    exact further
  · intro matched
    exact ⟨text, rfl, matched⟩

/-- A class reads one symbol for at least one of its own besides the bracket. -/
theorem Continues.tail_bracket (kind : glob.kind symbol = .bracket)
    (continues : glob.Continues star (symbol :: pattern) initial) :
    ∃ read rest further, initial = read :: rest ∧ further.length < pattern.length ∧
      glob.Continues star further rest := by
  have shorter := glob.afterClass_lt (pattern ++ [star])
    (List.append_ne_nil_of_right_ne_nil pattern (List.cons_ne_nil star []))
  have self := continues.self
  rw [List.cons_append, matches_bracket kind] at self
  obtain ⟨read, rest, rfl, listed, _⟩ := self
  rcases List.suffix_concat_iff.mp (glob.afterClass_suffix (pattern ++ [star]))
    with none | ⟨further, after, _⟩
  · refine (Continues.not_single ?_ continues).elim
    intro text matched
    rw [List.cons_append, matches_bracket kind] at matched
    obtain ⟨_, _, same, _, ends⟩ := matched
    cases same
    rw [none] at ends
    exact matches_nil.mp ends
  · rw [after, List.length_append, List.length_append] at shorter
    refine ⟨read, rest, further, rfl, Nat.lt_of_add_lt_add_right shorter,
      continues.tail fun text => ?_⟩
    rw [List.cons_append, matches_bracket kind, after]
    constructor
    · intro matched
      obtain ⟨_, _, same, _, further⟩ := matched
      cases same
      exact further
    · intro matched
      exact ⟨read, text, rfl, listed, matched⟩

/-- An escape reads one symbol for two of the pattern. -/
theorem Continues.tail_escape (kind : glob.kind symbol = .escape)
    (continues : glob.Continues star (symbol :: pattern) initial) :
    ∃ read rest further, initial = read :: rest ∧ further.length < pattern.length ∧
      glob.Continues star further rest := by
  rcases pattern with _ | ⟨escaped, further⟩
  · obtain ⟨rest, rfl, _⟩ := (matches_escape kind).mp continues.self
    refine (Continues.not_single ?_ continues).elim
    intro text matched
    obtain ⟨_, same, ends⟩ := (matches_escape kind).mp matched
    cases same
    exact matches_nil.mp ends
  · obtain ⟨rest, rfl, _⟩ := (matches_escape kind).mp continues.self
    refine ⟨escaped, rest, further, rfl, Nat.lt_succ_self _, continues.tail fun text => ?_⟩
    rw [List.cons_append, List.cons_append, matches_escape kind]
    constructor
    · intro matched
      obtain ⟨_, same, further⟩ := matched
      cases same
      exact further
    · intro matched
      exact ⟨text, rfl, matched⟩

/-- Only a literal text, as a pattern, stands for its own continuations: any other pattern asks
for less than its own length. -/
theorem Continues.literal [Nontrivial α] (isStar : glob.kind star = .star)
    (continues : glob.Continues star pattern initial) (le : pattern.length ≤ initial.length) :
    initial = pattern ∧ glob.Literal pattern := by
  induction size : pattern.length using Nat.strongRecOn generalizing pattern initial with
  | ind size ih =>
      subst size
      rcases pattern with _ | ⟨symbol, pattern⟩
      · have empty : initial <+: [] := (continues []).mp (matches_last_star isStar [])
        refine ⟨List.prefix_nil.mp empty, ?_⟩
        intro symbol member
        cases member
      -- A class or an escape leaves less of the pattern than of the text.
      have shrinks : ∀ read rest further, initial = read :: rest →
          further.length < pattern.length → ¬glob.Continues star further rest := by
        intro read rest further whole less remains
        subst whole
        have longer : pattern.length ≤ rest.length := Nat.le_of_succ_le_succ le
        obtain ⟨same, _⟩ := ih further.length (less.trans (Nat.lt_succ_self _)) remains
          (less.le.trans longer) rfl
        rw [same] at longer
        exact Nat.not_lt.mpr longer less
      cases kind : glob.kind symbol with
      | star =>
          refine (Continues.not_star kind ?_ continues).elim
          intro empty
          rw [empty] at le
          cases le
      | any => exact (Continues.not_any kind continues).elim
      | literal =>
          obtain ⟨rest, rfl, further⟩ := continues.tail_literal kind
          obtain ⟨rfl, literal⟩ := ih _ (Nat.lt_succ_self _) further (Nat.le_of_succ_le_succ le) rfl
          exact ⟨rfl, List.forall_mem_cons.mpr ⟨kind, literal⟩⟩
      | bracket =>
          obtain ⟨read, rest, further, whole, less, remains⟩ := continues.tail_bracket kind
          exact (shrinks read rest further whole less remains).elim
      | escape =>
          obtain ⟨read, rest, further, whole, less, remains⟩ := continues.tail_escape kind
          exact (shrinks read rest further whole less remains).elim

/-- The continuations of a text are what it matches with a star exactly if it is literal. -/
theorem continues_self_iff [Nontrivial α] (isStar : glob.kind star = .star) :
    glob.Continues star initial initial ↔ glob.Literal initial := by
  constructor
  · intro continues
    exact (continues.literal isStar le_rfl).2
  · intro literal text
    rw [matches_literal_append literal]
    constructor
    · intro matched
      obtain ⟨rest, rfl, _⟩ := matched
      exact List.prefix_append initial rest
    · intro inside
      obtain ⟨rest, rfl⟩ := inside
      exact ⟨rest, rfl, matches_last_star isStar rest⟩

end Glob

end RustZero.Lib
