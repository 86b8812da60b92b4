import RustZero.Lib.Escapes
import RustZero.Lib.Tokens

/-!
# Environment references in configuration

`expand_environment` of `core/src/config.rs`; the environment is what `env::var` answers for each
name.

* `references` is the grammar of its input: characters, `${name}` and `$name`.
* `expandCharacters_reads`: the loop puts the values of the tokens behind each other, and fails at
  the first name that has none, or at a reference that nothing ends.
-/

namespace RustZero.Config

open Lib

inductive ConfigError
  | invalidEnvironmentReference
  | missingEnvironmentVariable (name : String)
  deriving DecidableEq, Repr

/-! ## The loop -/

def isNameCharacter (character : Char) : Bool :=
  character.isAlphanum || character = '_'

/-- The name up to the first closing brace. -/
def readBraced (name : List Char) : List Char → Except ConfigError (List Char × List Char)
  | [] => .error .invalidEnvironmentReference
  | character :: characters =>
      if character = '}' then .ok (name, characters)
      else readBraced (name ++ [character]) characters

/-- The name as long as it goes on. -/
def readUnbraced (name : List Char) : List Char → List Char × List Char
  | [] => (name, [])
  | character :: characters =>
      if isNameCharacter character then readUnbraced (name ++ [character]) characters
      else (name, character :: characters)

/-- The name behind a dollar sign, and what follows it. -/
def readName : List Char → Except ConfigError (List Char × List Char)
  | '{' :: characters => readBraced [] characters
  | characters => .ok (readUnbraced [] characters)

theorem readBraced_length {name characters found rest : List Char}
    (read : readBraced name characters = .ok (found, rest)) : rest.length ≤ characters.length := by
  induction characters generalizing name with
  | nil => cases read
  | cons character characters ih =>
      rw [readBraced] at read
      split at read
      · cases read
        exact Nat.le_succ _
      · exact (ih read).trans (Nat.le_succ _)

theorem readUnbraced_length (name characters : List Char) :
    (readUnbraced name characters).2.length ≤ characters.length := by
  induction characters generalizing name with
  | nil => exact le_rfl
  | cons character characters ih =>
      rw [readUnbraced]
      split
      · exact (ih _).trans (Nat.le_succ _)
      · exact le_rfl

theorem readName_length {characters found rest : List Char}
    (read : readName characters = .ok (found, rest)) : rest.length ≤ characters.length := by
  rw [readName.eq_def] at read
  split at read
  · exact (readBraced_length read).trans (Nat.le_succ _)
  · have same := congrArg Prod.snd (Except.ok.inj read)
    dsimp only at same
    rw [← same]
    exact readUnbraced_length [] characters

/-- What is written for a name. -/
def expandName (var : String → Option String) (name : List Char) :
    Except ConfigError (List Char) :=
  if name = [] then .ok ['$']
  else
    match var (String.ofList name) with
    | some value => .ok value.toList
    | none => .error (.missingEnvironmentVariable (String.ofList name))

def expandCharacters (var : String → Option String) (expanded : List Char) :
    List Char → Except ConfigError (List Char)
  | [] => .ok expanded
  | character :: characters =>
      if character ≠ '$' then expandCharacters var (expanded ++ [character]) characters
      else
        match _ : readName characters with
        | .error error => .error error
        | .ok (name, rest) =>
            match expandName var name with
            | .error error => .error error
            | .ok value => expandCharacters var (expanded ++ value) rest
termination_by characters => characters.length
decreasing_by
  · exact Nat.lt_succ_self _
  · exact Nat.lt_succ_of_le (readName_length ‹_›)

def expandEnvironment (var : String → Option String) (input : String) :
    Except ConfigError String :=
  (expandCharacters var [] input.toList).map String.ofList

/-! ## The grammar -/

inductive Token
  | literal (character : Char)
  | braced (name : List Char)
  | unbraced (name : List Char)
  deriving DecidableEq, Repr

namespace Token

def spell : Token → List Char
  | literal character => [character]
  | braced name => '$' :: '{' :: (name ++ ['}'])
  | unbraced name => '$' :: name

/-- A name in braces goes up to the first closing one, and a name without them as far as it can. -/
def Stands : Token → List Char → Prop
  | literal character, _ => character ≠ '$'
  | braced name, _ => '}' ∉ name
  | unbraced name, rest =>
      (∀ character ∈ name, isNameCharacter character = true) ∧
        (∀ character ∈ rest.head?, isNameCharacter character = false) ∧
        (name = [] → rest.head? ≠ some '{')

/-- The name that is referred to. -/
def name? : Token → Option (List Char)
  | literal _ => none
  | braced name => some name
  | unbraced name => some name

/-- What a token is replaced by. -/
def substituted (var : String → Option String) : Token → List Char
  | literal character => [character]
  | braced name => value name
  | unbraced name => value name
where
  value (name : List Char) : List Char :=
    if name = [] then ['$'] else ((var (String.ofList name)).getD "").toList

theorem spell_braced_append (name rest : List Char) :
    (braced name).spell ++ rest = '$' :: '{' :: (name ++ '}' :: rest) := by
  simp [spell]

theorem spell_unbraced_append (name rest : List Char) :
    (unbraced name).spell ++ rest = '$' :: (name ++ rest) :=
  rfl

theorem substituted_reference {token : Token} {name : List Char}
    (named : token.name? = some name) (var : String → Option String) :
    token.substituted var = substituted.value var name := by
  cases token with
  | literal character => cases named
  | braced name => exact congrArg (substituted.value var) (Option.some.inj named)
  | unbraced name => exact congrArg (substituted.value var) (Option.some.inj named)

theorem eq_literal {token : Token} (unnamed : token.name? = none) :
    ∃ character, token = .literal character := by
  cases token with
  | literal character => exact ⟨character, rfl⟩
  | braced name => cases unnamed
  | unbraced name => cases unnamed

end Token

section Readers

variable {name more rest : List Char}

theorem readBraced_ended (free : '}' ∉ more) :
    readBraced name (more ++ '}' :: rest) = .ok (name ++ more, rest) := by
  induction more generalizing name with
  | nil => rw [List.nil_append, readBraced, if_pos rfl, List.append_nil]
  | cons character more ih =>
      rw [List.mem_cons, not_or] at free
      rw [List.cons_append, readBraced, if_neg (Ne.symm free.1), ih free.2, List.append_assoc]
      rfl

theorem readBraced_endless (free : '}' ∉ more) :
    readBraced name more = .error .invalidEnvironmentReference := by
  induction more generalizing name with
  | nil => rfl
  | cons character more ih =>
      rw [List.mem_cons, not_or] at free
      rw [readBraced, if_neg (Ne.symm free.1), ih free.2]

theorem readUnbraced_append (inside : ∀ character ∈ more, isNameCharacter character = true)
    (ends : ∀ character ∈ rest.head?, isNameCharacter character = false) :
    readUnbraced name (more ++ rest) = (name ++ more, rest) := by
  induction more generalizing name with
  | nil =>
      rw [List.nil_append, List.append_nil]
      cases rest with
      | nil => rfl
      | cons character rest =>
          have stops := ends character rfl
          rw [readUnbraced, stops, if_neg Bool.false_ne_true]
  | cons character more ih =>
      rw [List.cons_append, readUnbraced, if_pos (inside character List.mem_cons_self),
        ih fun character member => inside character (List.mem_cons_of_mem _ member),
        List.append_assoc]
      rfl

theorem readName_braced (stands : Token.Stands (.braced name) rest) :
    readName ('{' :: (name ++ '}' :: rest)) = .ok (name, rest) :=
  readBraced_ended stands

/-- A name without braces does not begin with one. -/
theorem head?_unbraced (stands : Token.Stands (.unbraced name) rest) :
    (name ++ rest).head? ≠ some '{' := by
  obtain ⟨inside, _, begins⟩ := stands
  cases name with
  | nil => exact begins rfl
  | cons character name =>
      intro brace
      have letter := inside character List.mem_cons_self
      rw [Option.some.inj brace] at letter
      cases letter

theorem readName_unbraced (stands : Token.Stands (.unbraced name) rest) :
    readName (name ++ rest) = .ok (name, rest) := by
  have begins := head?_unbraced stands
  rw [readName.eq_def]
  split
  case h_1 characters same =>
    rw [same] at begins
    exact absurd rfl begins
  case h_2 => rw [readUnbraced_append stands.1 stands.2.1, List.nil_append]

end Readers

/-- A reference is read as its name. -/
theorem Token.readName_spell {token : Token} {name rest : List Char}
    (named : token.name? = some name) (stands : token.Stands rest) :
    ∃ characters, token.spell ++ rest = '$' :: characters ∧
      readName characters = .ok (name, rest) := by
  cases token with
  | literal character => cases named
  | braced name =>
      cases named
      exact ⟨_, spell_braced_append name rest, readName_braced stands⟩
  | unbraced name =>
      cases named
      exact ⟨_, spell_unbraced_append name rest, readName_unbraced stands⟩

theorem Token.unambiguous {token other : Token} {rest rest' : List Char}
    (stands : token.Stands rest) (stands' : other.Stands rest')
    (same : token.spell ++ rest = other.spell ++ rest') : token = other ∧ rest = rest' := by
  cases token with
  | literal character =>
      cases other with
      | literal character' =>
          obtain ⟨rfl, rfl⟩ := List.cons.inj same
          exact ⟨rfl, rfl⟩
      | braced name' => exact absurd (List.cons.inj same).1 stands
      | unbraced name' => exact absurd (List.cons.inj same).1 stands
  | braced name =>
      rw [spell_braced_append] at same
      cases other with
      | literal character' => exact absurd (List.cons.inj same).1.symm stands'
      | braced name' =>
          rw [spell_braced_append] at same
          have read := readName_braced stands
          rw [(List.cons.inj same).2, readName_braced stands'] at read
          cases read
          exact ⟨rfl, rfl⟩
      | unbraced name' =>
          rw [spell_unbraced_append] at same
          have begins := head?_unbraced stands'
          rw [← (List.cons.inj same).2] at begins
          exact absurd rfl begins
  | unbraced name =>
      rw [spell_unbraced_append] at same
      cases other with
      | literal character' => exact absurd (List.cons.inj same).1.symm stands'
      | braced name' =>
          rw [spell_braced_append] at same
          have begins := head?_unbraced stands
          rw [(List.cons.inj same).2] at begins
          exact absurd rfl begins
      | unbraced name' =>
          rw [spell_unbraced_append] at same
          have read := readName_unbraced stands
          rw [(List.cons.inj same).2, readName_unbraced stands'] at read
          cases read
          exact ⟨rfl, rfl⟩

/-- Characters, `${name}` and `$name`. -/
def references : Tokens Token Char where
  spell := Token.spell
  Stands := Token.Stands
  nonempty token := by
    cases token with
    | literal character => exact List.cons_ne_nil _ _
    | braced name => exact List.cons_ne_nil _ _
    | unbraced name => exact List.cons_ne_nil _ _
  unambiguous := Token.unambiguous

/-- Every name that is referred to and is not empty is set. -/
def Defined (var : String → Option String) (tokens : List Token) : Prop :=
  ∀ name ∈ tokens.filterMap Token.name?, name ≠ [] → (var (String.ofList name)).isSome

/-- A brace is opened, and nothing closes it. -/
def Unterminated (input : String) : Prop :=
  ∃ tokens rest, references.Reads tokens input.toList ('$' :: '{' :: rest) ∧ '}' ∉ rest

/-- Every dollar sign as a reference to the empty name. -/
def escaped (text : String) : String :=
  String.ofList (replaceAll '$' ['$', '{', '}'] text.toList)

section References

variable {var : String → Option String} {tokens : List Token} {list rest : List Char}

theorem stuck_iff : references.Stuck list ↔
    list = [] ∨ ∃ rest, list = '$' :: '{' :: rest ∧ '}' ∉ rest := by
  refine ⟨?_, ?_⟩
  · intro stuck
    cases list with
    | nil => exact .inl rfl
    | cons character rest =>
        by_cases plain : character = '$'
        · subst plain
          by_cases brace : rest.head? = some '{'
          · obtain ⟨rest, rfl⟩ := List.head?_eq_some_iff.mp brace
            refine .inr ⟨rest, rfl, ?_⟩
            intro member
            obtain ⟨name, after, rfl, free⟩ := List.eq_append_cons_of_mem member
            exact stuck (.braced name) after free (Token.spell_braced_append name after).symm
          · refine (stuck (.unbraced (rest.takeWhile isNameCharacter))
              (rest.dropWhile isNameCharacter) ⟨?_, ?_, ?_⟩ ?_).elim
            · intro character member
              exact List.mem_takeWhile_imp member
            · intro character first
              have stops := List.head?_dropWhile_not isNameCharacter rest
              rw [first] at stops
              exact stops
            · intro empty
              have whole := List.takeWhile_append_dropWhile (p := isNameCharacter) (l := rest)
              rw [empty, List.nil_append] at whole
              rw [whole]
              exact brace
            · have whole := Token.spell_unbraced_append (rest.takeWhile isNameCharacter)
                (rest.dropWhile isNameCharacter)
              rw [List.takeWhile_append_dropWhile] at whole
              exact whole.symm
        · exact absurd rfl (stuck (.literal character) rest plain)
  · intro ended
    rcases ended with rfl | ⟨rest, rfl, free⟩
    · exact Tokens.stuck_nil
    · intro token after stands same
      cases token with
      | literal character => exact stands (List.cons.inj same).1.symm
      | braced name =>
          have closed := (List.cons.inj
            (List.cons.inj (same.trans (Token.spell_braced_append name after))).2).2
          refine free ?_
          rw [closed]
          exact List.mem_append_right _ List.mem_cons_self
      | unbraced name =>
          have begins := head?_unbraced stands
          rw [← (List.cons.inj (same.trans (Token.spell_unbraced_append name after))).2] at begins
          exact begins rfl

theorem expandName_eq_ok {name value : List Char} : expandName var name = .ok value ↔
    (name ≠ [] → (var (String.ofList name)).isSome) ∧ Token.substituted.value var name = value := by
  rw [expandName, Token.substituted.value]
  by_cases empty : name = []
  · rw [if_pos empty, if_pos empty, Except.ok.injEq]
    exact ⟨fun same => ⟨fun some_ => absurd empty some_, same⟩, And.right⟩
  · rw [if_neg empty, if_neg empty]
    cases var (String.ofList name) with
    | none =>
        refine iff_of_false (fun same => by cases same) ?_
        intro set
        exact Bool.noConfusion (set.1 empty)
    | some value' =>
        rw [Except.ok.injEq]
        exact ⟨fun same => ⟨fun _ => rfl, same⟩, And.right⟩

theorem expandCharacters_literal {character : Char} (plain : character ≠ '$')
    (expanded characters : List Char) : expandCharacters var expanded (character :: characters) =
      expandCharacters var (expanded ++ [character]) characters := by
  rw [expandCharacters, if_pos plain]

theorem expandCharacters_endless (expanded : List Char) (free : '}' ∉ rest) :
    expandCharacters var expanded ('$' :: '{' :: rest) = .error .invalidEnvironmentReference := by
  have read : readName ('{' :: rest) = .error .invalidEnvironmentReference :=
    readBraced_endless free
  rw [expandCharacters, if_neg (not_not.mpr rfl)]
  split
  case h_1 error failed =>
    rw [read] at failed
    cases failed
    rfl
  case h_2 name rest found =>
    rw [read] at found
    cases found

/-- The loop goes on behind a reference whose value there is. -/
theorem expandCharacters_reference {name characters out : List Char} (expanded : List Char)
    (read : readName characters = .ok (name, rest)) :
    expandCharacters var expanded ('$' :: characters) = .ok out ↔
      (name ≠ [] → (var (String.ofList name)).isSome) ∧
        expandCharacters var (expanded ++ Token.substituted.value var name) rest = .ok out := by
  rw [expandCharacters, if_neg (not_not.mpr rfl)]
  split
  case h_1 error failed =>
    rw [read] at failed
    cases failed
  case h_2 name' rest' found =>
    rw [read] at found
    cases found
    cases written : expandName var name with
    | error error =>
        refine iff_of_false (fun same => by cases same) ?_
        intro set
        rw [expandName_eq_ok.mpr ⟨set.1, rfl⟩] at written
        cases written
    | ok value =>
        obtain ⟨set, same⟩ := expandName_eq_ok.mp written
        rw [same]
        exact ⟨fun ran => ⟨set, ran⟩, And.right⟩

theorem defined_cons_reference {token : Token} {name : List Char}
    (named : token.name? = some name) :
    Defined var (token :: tokens) ↔
      (name ≠ [] → (var (String.ofList name)).isSome) ∧ Defined var tokens := by
  rw [Defined, List.filterMap_cons_some named, List.forall_mem_cons]
  rfl

/-- The loop succeeds if the tokens take it to the end and their names are set, and then puts
their values behind each other. -/
theorem expandCharacters_reads {expanded out : List Char}
    (reads : references.Reads tokens list rest) (stuck : references.Stuck rest) :
    expandCharacters var expanded list = .ok out ↔ rest = [] ∧ Defined var tokens ∧
      expanded ++ tokens.flatMap (Token.substituted var) = out := by
  induction reads generalizing expanded with
  | done rest =>
      rcases stuck_iff.mp stuck with rfl | ⟨rest, rfl, free⟩
      · rw [expandCharacters, Except.ok.injEq, List.flatMap_nil, List.append_nil]
        exact ⟨fun same => ⟨rfl, fun _ member => absurd member List.not_mem_nil, same⟩,
          fun ended => ended.2.2⟩
      · rw [expandCharacters_endless expanded free]
        exact iff_of_false (fun same => by cases same) fun ended => List.cons_ne_nil _ _ ended.1
  | @token token tokens after rest stands reads ih =>
      rw [List.flatMap_cons, ← List.append_assoc]
      cases named : token.name? with
      | none =>
          obtain ⟨character, rfl⟩ := Token.eq_literal named
          have names : Defined var (.literal character :: tokens) = Defined var tokens := by
            rw [Defined, List.filterMap_cons_none named]
            rfl
          rw [names, ← ih stuck]
          exact iff_of_eq (congrArg (· = .ok out) (expandCharacters_literal stands expanded after))
      | some name =>
          obtain ⟨characters, spelled, read⟩ := Token.readName_spell named stands
          have begins : references.spell token ++ after = '$' :: characters := spelled
          rw [begins, expandCharacters_reference expanded read, ih stuck,
            defined_cons_reference named, Token.substituted_reference named, and_left_comm,
            and_assoc]

theorem expandEnvironment_eq_ok {input out : String} :
    expandEnvironment var input = .ok out ↔ ∃ tokens, references.Cut tokens input.toList ∧
      Defined var tokens ∧ out.toList = tokens.flatMap (Token.substituted var) := by
  obtain ⟨tokens, rest, reads, stuck⟩ := references.exists_reads input.toList
  have expands {text : List Char} : expandCharacters var [] input.toList = .ok text ↔
      rest = [] ∧ Defined var tokens ∧ [] ++ tokens.flatMap (Token.substituted var) = text :=
    expandCharacters_reads reads stuck
  refine ⟨?_, ?_⟩
  · intro ran
    rw [expandEnvironment] at ran
    cases expanded : expandCharacters var [] input.toList with
    | error error =>
        rw [expanded] at ran
        cases ran
    | ok text =>
        rw [expanded] at ran
        cases ran
        obtain ⟨rfl, set, same⟩ := expands.mp expanded
        exact ⟨tokens, reads, set, by rw [String.toList_ofList, ← same, List.nil_append]⟩
  · intro substituted
    obtain ⟨others, cut, set, same⟩ := substituted
    obtain ⟨rfl, rfl⟩ := reads.unique stuck cut Tokens.stuck_nil
    rw [expandEnvironment, expands.mpr ⟨rfl, set, List.nil_append _⟩, ← same]
    exact congrArg Except.ok String.ofList_toList

/-- An input is cut into tokens, or a brace stays open. -/
theorem exists_cut_iff (input : String) :
    (∃ tokens, references.Cut tokens input.toList) ↔ ¬Unterminated input := by
  refine ⟨?_, ?_⟩
  · intro cuts open_
    obtain ⟨tokens, cut⟩ := cuts
    obtain ⟨others, rest, reads, free⟩ := open_
    have ended := (reads.unique (stuck_iff.mpr (.inr ⟨rest, rfl, free⟩)) cut Tokens.stuck_nil).2
    exact List.cons_ne_nil _ _ ended
  · intro closed
    obtain ⟨tokens, rest, reads, stuck⟩ := references.exists_reads input.toList
    rcases stuck_iff.mp stuck with rfl | ⟨rest, rfl, free⟩
    · exact ⟨tokens, reads⟩
    · exact (closed ⟨tokens, rest, reads, free⟩).elim

/-- The tokens of an escaped text: the empty name for each dollar sign. -/
def escapedTokens (text : List Char) : List Token :=
  text.map fun character => if character = '$' then .braced [] else .literal character

theorem escapedTokens_cut (text : List Char) :
    references.Cut (escapedTokens text) (replaceAll '$' ['$', '{', '}'] text) := by
  induction text with
  | nil => exact .done []
  | cons character text ih =>
      rw [escapedTokens, List.map_cons, replaceAll, List.flatMap_cons]
      split
      case isTrue =>
        have stands : references.Stands (.braced []) (replaceAll '$' ['$', '{', '}'] text) :=
          List.not_mem_nil
        exact .token stands ih
      case isFalse plain =>
        have stands : references.Stands (.literal character)
            (replaceAll '$' ['$', '{', '}'] text) := plain
        exact .token stands ih

variable (var) in
theorem escapedTokens_substituted (text : List Char) :
    Defined var (escapedTokens text) ∧
      (escapedTokens text).flatMap (Token.substituted var) = text := by
  induction text with
  | nil => exact ⟨fun _ member => absurd member List.not_mem_nil, rfl⟩
  | cons character text ih =>
      rw [escapedTokens, List.map_cons, ← escapedTokens, List.flatMap_cons, ih.2]
      split
      case isTrue dollar =>
        refine ⟨(defined_cons_reference rfl).mpr ⟨fun some_ => absurd rfl some_, ih.1⟩, ?_⟩
        rw [dollar]
        rfl
      case isFalse => exact ⟨ih.1, rfl⟩

/-- Expansion is one substitution: an input that is cut into tokens, which is in one way only, and
whose names are set becomes the values of its tokens, and an escaped text becomes itself. -/
theorem expand_environment_substitutes (var : String → Option String) (input : String) :
    ((∃ out, expandEnvironment var input = .ok out) ↔ ¬Unterminated input ∧
      ∀ tokens, references.Cut tokens input.toList → Defined var tokens) ∧
    (∀ out, expandEnvironment var input = .ok out → ∃ tokens,
      references.Cut tokens input.toList ∧
      (∀ others, references.Cut others input.toList → others = tokens) ∧
      out.toList = tokens.flatMap (Token.substituted var)) ∧
    ∀ text, expandEnvironment var (escaped text) = .ok text := by
  refine ⟨⟨?_, ?_⟩, ?_, ?_⟩
  · intro expands
    obtain ⟨out, ran⟩ := expands
    obtain ⟨tokens, cut, set, _⟩ := expandEnvironment_eq_ok.mp ran
    refine ⟨(exists_cut_iff input).mp ⟨tokens, cut⟩, ?_⟩
    intro others other
    rw [Tokens.Cut.unique other cut]
    exact set
  · intro closed
    obtain ⟨closed, set⟩ := closed
    obtain ⟨tokens, cut⟩ := (exists_cut_iff input).mpr closed
    refine ⟨String.ofList (tokens.flatMap (Token.substituted var)), ?_⟩
    exact expandEnvironment_eq_ok.mpr ⟨tokens, cut, set tokens cut, String.toList_ofList⟩
  · intro out ran
    obtain ⟨tokens, cut, _, same⟩ := expandEnvironment_eq_ok.mp ran
    exact ⟨tokens, cut, fun others other => Tokens.Cut.unique other cut, same⟩
  · intro text
    obtain ⟨set, same⟩ := escapedTokens_substituted var text.toList
    refine expandEnvironment_eq_ok.mpr ⟨escapedTokens text.toList, ?_, set, same.symm⟩
    rw [escaped, String.toList_ofList]
    exact escapedTokens_cut text.toList

end References

end RustZero.Config
