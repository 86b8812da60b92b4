import Mathlib
import RustZero.Lib.Json
import RustZero.Lib.Separated

/-!
# Generated OpenAPI route stubs

`generate_openapi` and `rust_identifier` of `cli/src/main.rs`.  A document is parsed by `serde_json`
or `serde_yaml`; what comes of it is a `Json` whose objects have each key once.

* `rustIdentifier` is the normalisation of a name, and `rustIdentifier_eq` what it comes to: the
  words of the name in lower case, joined.
* `NamesFit` is said of the names in the document; `compiles_iff_namesFit` says that the generated
  functions have names of their own exactly then.
* `generateOpenapi_deterministic`: the file says nothing of the order of the document.

How `{:?}` writes a path is a parameter.
-/

namespace RustZero.Openapi

open Lib

/-! ## Identifiers -/

/-- A character in the loop of `rust_identifier`, with `output` and `separator`. -/
def pushCharacter (state : List Char × Bool) (character : Char) : List Char × Bool :=
  let (output, separator) := state
  if character.isAlphanum then
    let begun := if output = [] ∧ character.isDigit then ['_'] else output
    (begun ++ [character.toLower], false)
  else if output ≠ [] ∧ ¬ separator then (output ++ ['_'], true)
  else (output, separator)

/-- Separators at the end are popped. -/
def trimEnd (output : List Char) : List Char :=
  output.rdropWhile (· = '_')

def rustIdentifier (value : String) : String :=
  let output := trimEnd (value.toList.foldl pushCharacter ([], false)).1
  if output = [] then "operation" else String.ofList output

/-! ## Documents -/

/-- `Value::get` with a key. -/
def field (value : Json) (key : String) : Option Json :=
  match value with
  | .object entries => (entries.find? (·.1 = key)).map Prod.snd
  | _ => none

def asStr : Json → Option String
  | .string text => some text
  | _ => none

def asObject : Json → Option (List (String × Json))
  | .object entries => some entries
  | _ => none

def methods : List String :=
  ["get", "post", "put", "patch", "delete", "head", "options"]

/-- A path, a method and a function, as `operations` has them. -/
structure Operation where
  path : String
  method : String
  name : String
  deriving DecidableEq, Repr

/-- The operation of a path and method, with what it is named after. -/
structure Source where
  path : String
  method : String
  operationId : Option String

/-- The operations of a document in its order. -/
def sources (paths : List (String × Json)) : List Source :=
  paths.flatMap fun entry =>
    match asObject entry.2 with
    | none => []
    | some _ => methods.filterMap fun method => (field entry.2 method).map fun operation =>
        ⟨entry.1, method, (field operation "operationId").bind asStr⟩

def Source.operation (source : Source) : Operation where
  path := source.path
  method := source.method
  name := (source.operationId.map rustIdentifier).getD
    (rustIdentifier (source.method ++ "_" ++ source.path))

/-- The order of tuples of strings. -/
def Operation.le (first second : Operation) : Bool :=
  decide (toLex (first.path, toLex (first.method, first.name)) ≤
    toLex (second.path, toLex (second.method, second.name)))

/-- The sources of a document, or the error of one that is refused. -/
def readSources (document : Json) : Except String (List Source) :=
  if ((field document "openapi").bind asStr).any fun version =>
      version.toList.head? = some '3' then
    match (field document "paths").bind asObject with
    | none => .error "OpenAPI document must contain a paths object"
    | some paths => .ok (sources paths)
  else .error "only OpenAPI 3.x documents are supported"

/-- The sorted `operations`. -/
def sortedOperations (document : Json) : Except String (List Operation) :=
  (readSources document).map fun sources => (sources.map Source.operation).mergeSort Operation.le

/-- The text of the generated file; `debug` is `{:?}`. -/
def generated (debug : String → String) (operations : List Operation) : String :=
  "// Generated by rust-zero openapi. Business logic is intentionally left as stubs.\n" ++
  "use actix_web::\x7bweb, HttpResponse\x7d;\n\n" ++
  "pub fn configure(routes: &mut web::ServiceConfig) \x7b\n" ++
  String.join (operations.map fun operation =>
    "    routes.route(" ++ debug operation.path ++ ", web::" ++ operation.method ++ "().to(" ++
      operation.name ++ "));\n") ++
  "\x7d\n\n" ++
  String.join (operations.map fun operation =>
    "async fn " ++ operation.name ++
      "() -> HttpResponse \x7b\n    HttpResponse::NotImplemented().finish()\n\x7d\n\n")

def generateOpenapi (debug : String → String) (document : Json) : Except String String :=
  (sortedOperations document).map (generated debug)

/-! ## What the generated file needs -/

/-- The strict and the reserved keywords of the 2021 edition. -/
def keywords : List String :=
  ["as", "break", "const", "continue", "crate", "else", "enum", "extern", "false", "fn", "for",
    "if", "impl", "in", "let", "loop", "match", "mod", "move", "mut", "pub", "ref", "return",
    "self", "Self", "static", "struct", "super", "trait", "true", "type", "unsafe", "use", "where",
    "while", "async", "await", "dyn", "abstract", "become", "box", "do", "final", "macro",
    "override", "priv", "typeof", "unsized", "virtual", "yield", "try"]

def isIdentifierStart (character : Char) : Bool :=
  character.isAlpha || character == '_'

def isIdentifierPart (character : Char) : Bool :=
  character.isAlphanum || character == '_'

/-- An ASCII identifier of the language that is no keyword. -/
structure Identifier (name : String) : Prop where
  begins : ∃ first rest, name.toList = first :: rest ∧ isIdentifierStart first = true
  parts : ∀ character ∈ name.toList, isIdentifierPart character = true
  named : name ≠ "_"
  free : name ∉ keywords

/-- The functions of the generated file. -/
def functions (operations : List Operation) : List String :=
  "configure" :: operations.map Operation.name

/-- In the body of `configure` the name of an operation is that of its own stub: it is not the
parameter, and no other function has it. -/
def Bound (operations : List Operation) (index : Nat) (operation : Operation) : Prop :=
  operation.name ≠ "routes" ∧
    ∀ place, (functions operations)[place]? = some operation.name → place = index + 1

/-- The functions of the stubs have names of their own. -/
structure Compiles (operations : List Operation) : Prop where
  distinct : (operations.map Operation.name).Nodup
  identifiers : ∀ operation ∈ operations, Identifier operation.name
  apart : ∀ operation ∈ operations, operation.name ≠ "configure"
  bound : ∀ index operation, operations[index]? = some operation →
    Bound operations index operation

/-- The words of a name: its runs of ASCII letters and digits, in lower case. -/
def nameWords (name : String) : List (List Char) :=
  let found := (words Char.isAlphanum name.toList).map (List.map Char.toLower)
  if found = [] then ["operation".toList] else found

/-- What an operation is named after. -/
def Source.named (source : Source) : String :=
  source.operationId.getD (source.method ++ "_" ++ source.path)

/-- The names that are taken: the keywords, the function of the file and its parameter. -/
def taken : List String :=
  "configure" :: "routes" :: keywords

/-- No two names have the same words, and none is a single word that is taken. -/
structure NamesFit (sources : List Source) : Prop where
  distinct : (sources.map fun source => nameWords source.named).Nodup
  free : ∀ source ∈ sources, ∀ word ∈ taken, nameWords source.named ≠ [word.toList]

/-! ## What a name comes to -/

/-- Words with separators between them, and before a digit. -/
def joined (parts : List (List Char)) : List Char :=
  (if (parts.headD []).head?.any Char.isDigit then ['_'] else []) ++ ['_'].intercalate parts

theorem not_isDigit_of_isAlpha {character : Char} (letter : character.isAlpha = true) :
    character.isDigit = false := by
  rw [Bool.eq_false_iff]
  intro digit
  simp only [Char.isAlpha, Char.isUpper, Char.isLower, Char.isDigit, Bool.or_eq_true,
    Bool.and_eq_true, decide_eq_true_eq, UInt32.le_iff_toNat_le, ge_iff_le] at letter digit
  have upper : 'A'.val.toNat = 65 := rfl
  have lower : 'a'.val.toNat = 97 := rfl
  have nine : '9'.val.toNat = 57 := rfl
  omega

/-- The case of a digit or letter is not what makes it one. -/
theorem toLower_isDigit {character : Char} (kept : character.isAlphanum = true) :
    character.toLower.isDigit = character.isDigit ∧ character.toLower.isAlphanum = true := by
  cases letter : character.isAlpha with
  | true =>
    have lower : character.toLower.isAlpha = true :=
      (Char.isAlpha_toLower_eq_isAlpha character).trans letter
    refine ⟨?_, ?_⟩
    · rw [not_isDigit_of_isAlpha letter, not_isDigit_of_isAlpha lower]
    · rw [Char.isAlphanum, lower]
      rfl
  | false =>
    have same : character.toLower = character := by
      refine Char.toLower_eq_of_not_isUpper ?_
      intro upper
      rw [Char.isAlpha, upper] at letter
      cases letter
    rw [same]
    exact ⟨rfl, kept⟩

section Identifiers

variable {character : Char} {output : List Char}

/-- An output that ends in no separator. -/
def Ends (output : List Char) : Prop :=
  ∃ earlier last, output = earlier ++ [last] ∧ last ≠ '_'

theorem Ends.nonempty (ends : Ends output) : output ≠ [] := by
  obtain ⟨earlier, last, same, _⟩ := ends
  rw [same]
  exact List.concat_ne_nil _ _

theorem Ends.trimEnd (ends : Ends output) : trimEnd output = output := by
  obtain ⟨earlier, last, same, other⟩ := ends
  rw [same]
  exact List.rdropWhile_concat_neg _ _ _ (by simpa using other)

theorem Ends.trimEnd_separator (ends : Ends output) :
    Openapi.trimEnd (output ++ ['_']) = output := by
  have popped : Openapi.trimEnd (output ++ ['_']) = Openapi.trimEnd output :=
    List.rdropWhile_concat_pos _ _ _ (by simp)
  rw [popped]
  exact ends.trimEnd

theorem ends_concat (output : List Char) (kept : character.isAlphanum = true) :
    Ends (output ++ [character.toLower]) := by
  refine ⟨output, _, rfl, ?_⟩
  intro separator
  have lower := (toLower_isDigit kept).2
  rw [separator] at lower
  cases lower

theorem push_kept (kept : character.isAlphanum = true) (begun : output ≠ []) (separator : Bool) :
    pushCharacter (output, separator) character = (output ++ [character.toLower], false) := by
  rw [pushCharacter]
  dsimp only
  rw [if_pos kept, if_neg fun first => begun first.1]

theorem push_begins (kept : character.isAlphanum = true) :
    pushCharacter ([], false) character =
      ((if character.isDigit then ['_'] else []) ++ [character.toLower], false) := by
  rw [pushCharacter]
  dsimp only
  rw [if_pos kept]
  cases character.isDigit with
  | true => rfl
  | false => rfl

theorem push_separates (dropped : character.isAlphanum = false) (begun : output ≠ []) :
    pushCharacter (output, false) character = (output ++ ['_'], true) := by
  rw [pushCharacter]
  dsimp only
  rw [if_neg (Bool.eq_false_iff.mp dropped), if_pos ⟨begun, Bool.false_ne_true⟩]

theorem push_collapses (dropped : character.isAlphanum = false) :
    pushCharacter (output, true) character = (output, true) := by
  rw [pushCharacter]
  dsimp only
  rw [if_neg (Bool.eq_false_iff.mp dropped), if_neg fun fresh => fresh.2 rfl]

theorem push_skips (dropped : character.isAlphanum = false) :
    pushCharacter ([], false) character = ([], false) := by
  rw [pushCharacter]
  dsimp only
  rw [if_neg (Bool.eq_false_iff.mp dropped), if_neg fun fresh => fresh.1 rfl]

/-- Words behind others. -/
def following (parts : List (List Char)) : List Char :=
  (parts.map (List.map Char.toLower)).flatMap ('_' :: ·)

/-- The loop within a word and behind a separator. -/
theorem foldl_push (text : List Char) :
    (∀ output, Ends output → ∀ first later, runs Char.isAlphanum text = first :: later →
      trimEnd (text.foldl pushCharacter (output, false)).1 =
        output ++ (first.map Char.toLower ++ following (later.filter fun part => !part.isEmpty))) ∧
    ∀ output, Ends output → trimEnd (text.foldl pushCharacter (output ++ ['_'], true)).1 =
      output ++ following (words Char.isAlphanum text) := by
  induction text with
  | nil =>
    refine ⟨?_, ?_⟩
    · intro output ends first later parts
      cases parts
      exact ends.trimEnd.trans (List.append_nil _).symm
    · intro output ends
      exact ends.trimEnd_separator.trans (List.append_nil _).symm
  | cons character text ih =>
    obtain ⟨within, behind⟩ := ih
    obtain ⟨run, others, split_⟩ := runs_cases Char.isAlphanum text
    cases kept : character.isAlphanum with
    | true =>
      have parts := runs_kept kept split_
      refine ⟨?_, ?_⟩
      · intro output ends first later same
        rw [parts] at same
        cases same
        rw [List.foldl_cons, push_kept kept ends.nonempty,
          within _ (ends_concat output kept) run others split_, List.append_assoc]
        rfl
      · intro output ends
        rw [List.foldl_cons, push_kept kept (List.concat_ne_nil _ _),
          within _ (ends_concat _ kept) run others split_, words, parts, List.append_assoc,
          List.append_assoc]
        rfl
    | false =>
      refine ⟨?_, ?_⟩
      · intro output ends first later same
        rw [runs_dropped kept] at same
        cases same
        rw [List.foldl_cons, push_separates kept ends.nonempty, behind _ ends]
        rfl
      · intro output ends
        rw [List.foldl_cons, push_collapses kept, behind _ ends, words_dropped kept]

/-- The loop before the first word. -/
theorem foldl_push_nil (text : List Char) :
    trimEnd (text.foldl pushCharacter ([], false)).1 =
      joined ((words Char.isAlphanum text).map (List.map Char.toLower)) := by
  induction text with
  | nil => rfl
  | cons character text ih =>
    cases kept : character.isAlphanum with
    | false => rw [List.foldl_cons, push_skips kept, ih, words_dropped kept]
    | true =>
      obtain ⟨run, others, split_⟩ := runs_cases Char.isAlphanum text
      have first : words Char.isAlphanum (character :: text) =
          (character :: run) :: others.filter fun part => !part.isEmpty := by
        rw [words, runs_kept kept split_]
        rfl
      rw [List.foldl_cons, push_begins kept,
        (foldl_push text).1 _ (ends_concat _ kept) run others split_, first, joined, List.map_cons,
        intercalate_cons, List.headD_cons, List.map_cons, List.head?_cons, Option.any_some,
        (toLower_isDigit kept).1, List.append_assoc]
      rfl

end Identifiers

/-! ## Names and their words -/

section Names

variable {parts others : List (List Char)} {name other : String}

/-- Words as a name has them. -/
structure Spelled (parts : List (List Char)) : Prop where
  some_ : parts ≠ []
  word : ∀ part ∈ parts, part ≠ [] ∧ ∀ character ∈ part, character.isAlphanum = true

theorem Spelled.free (spelled : Spelled parts) : ∀ part ∈ parts, '_' ∉ part := by
  intro part member separator
  have letter := (spelled.word part member).2 '_' separator
  cases letter

theorem Spelled.begins (spelled : Spelled parts) :
    ∃ head run later, parts = (head :: run) :: later ∧ head.isAlphanum = true := by
  obtain ⟨first, later, same⟩ := List.exists_cons_of_ne_nil spelled.some_
  obtain ⟨nonempty, kept⟩ := spelled.word first (same ▸ List.mem_cons_self)
  obtain ⟨head, run, letters⟩ := List.exists_cons_of_ne_nil nonempty
  rw [letters] at same kept
  exact ⟨head, run, later, same, kept head List.mem_cons_self⟩

theorem nameWords_spelled (name : String) : Spelled (nameWords name) := by
  rw [nameWords]
  split
  case isTrue =>
    have letters : "operation".toList = ['o', 'p', 'e', 'r', 'a', 't', 'i', 'o', 'n'] := rfl
    rw [letters]
    refine ⟨List.cons_ne_nil _ _, ?_⟩
    intro part member
    rw [List.mem_singleton.mp member]
    exact ⟨List.cons_ne_nil _ _, List.all_eq_true.mp rfl⟩
  case isFalse some_ =>
    refine ⟨some_, ?_⟩
    intro part member
    obtain ⟨word, found, same⟩ := List.mem_map.mp member
    obtain ⟨nonempty, kept⟩ := mem_words found
    rw [← same]
    refine ⟨by simpa using nonempty, ?_⟩
    intro character inside
    obtain ⟨before, here, lower⟩ := List.mem_map.mp inside
    rw [← lower]
    exact (toLower_isDigit (kept before here)).2

/-- The separator before a digit comes off, and what is left are the words. -/
theorem Spelled.dropWhile_joined (spelled : Spelled parts) :
    (joined parts).dropWhile (· = '_') = ['_'].intercalate parts := by
  obtain ⟨head, run, later, same, kept⟩ := spelled.begins
  have letter : head ≠ '_' := by
    intro separator
    rw [separator] at kept
    cases kept
  rw [joined, same, intercalate_cons]
  split
  · rw [List.singleton_append, List.dropWhile_cons_of_pos (by simp), List.cons_append,
      List.dropWhile_cons_of_neg (by simpa using letter)]
  · rw [List.nil_append, List.cons_append, List.dropWhile_cons_of_neg (by simpa using letter)]

theorem Spelled.splitOn_joined (spelled : Spelled parts) :
    ((joined parts).dropWhile (· = '_')).splitOn '_' = parts := by
  rw [spelled.dropWhile_joined]
  exact List.splitOn_intercalate '_' spelled.free spelled.some_

theorem Spelled.joined_nonempty (spelled : Spelled parts) :
    (joined parts).dropWhile (· = '_') ≠ [] := by
  obtain ⟨head, run, later, same, _⟩ := spelled.begins
  rw [spelled.dropWhile_joined, same, intercalate_cons]
  exact List.cons_ne_nil _ _

/-- An identifier is the words of the name, joined. -/
theorem rustIdentifier_eq (name : String) :
    rustIdentifier name = String.ofList (joined (nameWords name)) := by
  have spelled := nameWords_spelled name
  rw [rustIdentifier, foldl_push_nil]
  by_cases none_ : (words Char.isAlphanum name.toList).map (List.map Char.toLower) = []
  · rw [nameWords, if_pos none_, none_]
    decide +kernel
  · rw [nameWords, if_neg none_] at spelled ⊢
    refine if_neg ?_
    intro empty
    refine spelled.joined_nonempty ?_
    rw [empty]
    rfl

theorem toList_rustIdentifier (name : String) :
    (rustIdentifier name).toList = joined (nameWords name) := by
  rw [rustIdentifier_eq, String.toList_ofList]

/-- Two names become one identifier exactly if they have the same words. -/
theorem rustIdentifier_eq_iff :
    rustIdentifier name = rustIdentifier other ↔ nameWords name = nameWords other := by
  refine ⟨?_, ?_⟩
  · intro same
    have texts := congrArg String.toList same
    rw [toList_rustIdentifier, toList_rustIdentifier] at texts
    rw [← (nameWords_spelled name).splitOn_joined, texts]
    exact (nameWords_spelled other).splitOn_joined
  · intro same
    rw [rustIdentifier_eq, rustIdentifier_eq, same]

/-- A word that begins like one and has no separators. -/
structure Plain (word : String) : Prop where
  begins : word.toList.head?.any Char.isDigit = false
  free : '_' ∉ word.toList

/-- A name becomes such a word exactly if that is its only word. -/
theorem rustIdentifier_eq_word_iff {word : String} (plain : Plain word) :
    rustIdentifier name = word ↔ nameWords name = [word.toList] := by
  refine ⟨?_, ?_⟩
  · intro same
    have texts := congrArg String.toList same
    rw [toList_rustIdentifier] at texts
    have kept : word.toList.dropWhile (· = '_') = word.toList := by
      refine List.dropWhile_eq_self_iff.mpr ?_
      intro some_ separator
      exact plain.free (of_decide_eq_true separator ▸ List.getElem_mem _)
    rw [← (nameWords_spelled name).splitOn_joined, texts, kept]
    exact List.splitOn_eq_singleton plain.free
  · intro same
    have alone : joined [word.toList] = word.toList := by
      rw [joined, List.headD_cons, plain.begins, if_neg Bool.false_ne_true, List.nil_append,
        intercalate_cons]
      exact List.append_nil _
    rw [rustIdentifier_eq, same, alone, String.ofList_toList]

/-- Whatever is not taken is an identifier. -/
theorem rustIdentifier_identifier (unreserved : rustIdentifier name ∉ keywords) :
    Identifier (rustIdentifier name) := by
  have spelled := nameWords_spelled name
  have text := toList_rustIdentifier name
  obtain ⟨head, run, later, same, kept⟩ := spelled.begins
  refine ⟨?_, ?_, ?_, unreserved⟩
  · rw [text, joined, same, List.headD_cons, List.head?_cons, Option.any_some, intercalate_cons]
    cases digit : head.isDigit with
    | true => exact ⟨_, _, rfl, rfl⟩
    | false =>
      refine ⟨_, _, rfl, ?_⟩
      rw [Char.isAlphanum, digit, Bool.or_false] at kept
      rw [isIdentifierStart, kept]
      rfl
  · intro character member
    have letters : character ∈ ['_'] ∨ character ∈ ['_'].intercalate (nameWords name) := by
      rw [text, joined, List.mem_append] at member
      rcases member with before | inside
      · split at before
        · exact .inl before
        · cases before
      · exact .inr inside
    rw [isIdentifierPart]
    rcases letters with separator | inside
    · rw [List.mem_singleton.mp separator]
      rfl
    · rcases mem_intercalate inside with separator | ⟨part, word, here⟩
      · rw [separator]
        rfl
      · rw [(spelled.word part word).2 character here]
        rfl
  · intro alone
    have texts := congrArg String.toList alone
    rw [text] at texts
    refine spelled.joined_nonempty ?_
    rw [texts]
    decide +kernel

end Names

/-! ## The order of a document -/

/-- The order of an operation among the others. -/
def Operation.key (operation : Operation) : String ×ₗ (String ×ₗ String) :=
  toLex (operation.path, toLex (operation.method, operation.name))

theorem Operation.key_injective : Function.Injective Operation.key := by
  intro first second same
  obtain ⟨path, method, name⟩ := first
  obtain ⟨path', method', name'⟩ := second
  obtain ⟨rfl, rest⟩ := Prod.mk.inj (toLex.injective same)
  obtain ⟨rfl, rfl⟩ := Prod.mk.inj (toLex.injective rest)
  rfl

theorem Operation.le_iff (first second : Operation) :
    first.le second = true ↔ first.key ≤ second.key :=
  decide_eq_true_iff

/-- The sorted operations say nothing of the order they were found in. -/
theorem mergeSort_le_eq {operations others : List Operation} (same : operations.Perm others) :
    operations.mergeSort Operation.le = others.mergeSort Operation.le := by
  have sorted (operations : List Operation) :
      (operations.mergeSort Operation.le).Pairwise fun first second =>
        first.le second = true := by
    apply List.pairwise_mergeSort
    · intro first second third before behind
      rw [Operation.le_iff] at before behind ⊢
      exact before.trans behind
    · intro first second
      rw [Bool.or_eq_true, Operation.le_iff, Operation.le_iff]
      exact le_total _ _
  have reordered := ((List.mergeSort_perm operations Operation.le).trans same).trans
    (List.mergeSort_perm others Operation.le).symm
  refine reordered.eq_of_pairwise ?_ (sorted operations) (sorted others)
  intro first second _ _ before behind
  rw [Operation.le_iff] at before behind
  exact Operation.key_injective (le_antisymm before behind)

/-- Documents with the same operations, in whatever order, have the same generated file. -/
theorem generateOpenapi_deterministic (debug : String → String) {document other : Json}
    {named others : List Source} (read : readSources document = .ok named)
    (readOther : readSources other = .ok others) (same : named.Perm others) :
    generateOpenapi debug document = generateOpenapi debug other := by
  rw [generateOpenapi, generateOpenapi, sortedOperations, sortedOperations, read, readOther,
    Except.map, mergeSort_le_eq (same.map Source.operation)]
  rfl

/-! ## The generated functions -/

/-- The document is read, and the functions generated from it have names of their own. -/
def StubsCompile (document : Json) : Prop :=
  ∃ operations, sortedOperations document = .ok operations ∧ Compiles operations

section Functions

variable {named : List Source} {operations : List Operation}

theorem Source.operation_name (source : Source) :
    source.operation.name = rustIdentifier source.named := by
  obtain ⟨path, method, operationId⟩ := source
  cases operationId with
  | none => rfl
  | some operationId => rfl

theorem taken_plain : ∀ word ∈ taken, Plain word := by
  have all : taken.all (fun word =>
      !word.toList.head?.any Char.isDigit && !word.toList.contains '_') = true := by
    decide +kernel
  intro word member
  have plain := List.all_eq_true.mp all word member
  rw [Bool.and_eq_true, Bool.not_eq_true', Bool.not_eq_true'] at plain
  refine ⟨plain.1, ?_⟩
  intro separator
  rw [List.contains_iff_mem.mpr separator] at plain
  exact Bool.noConfusion plain.2

/-- What is said of every name is said of every operation. -/
theorem forall_operations {P : String → Prop}
    (sorted : operations.Perm (named.map Source.operation)) :
    (∀ operation ∈ operations, P operation.name) ↔
      ∀ source ∈ named, P (rustIdentifier source.named) := by
  refine ⟨?_, ?_⟩
  · intro all source member
    rw [← source.operation_name]
    exact all _ (sorted.symm.subset (List.mem_map_of_mem member))
  · intro all operation member
    obtain ⟨source, inside, same⟩ := List.mem_map.mp (sorted.subset member)
    rw [← same, source.operation_name]
    exact all source inside

theorem nodup_names_iff (sorted : operations.Perm (named.map Source.operation)) :
    (operations.map Operation.name).Nodup ↔
      (named.map fun source => nameWords source.named).Nodup := by
  rw [(sorted.map Operation.name).nodup_iff, List.map_map, List.Nodup, List.Nodup,
    List.pairwise_map, List.pairwise_map]
  refine List.Pairwise.iff ?_
  intro first second
  rw [Function.comp, first.operation_name, Function.comp, second.operation_name, Ne, Ne,
    rustIdentifier_eq_iff]

theorem NamesFit.free_iff (word : String) (member : word ∈ taken) (source : Source) :
    nameWords source.named ≠ [word.toList] ↔ rustIdentifier source.named ≠ word :=
  not_congr (rustIdentifier_eq_word_iff (taken_plain word member)).symm

/-- A stub that has a name of its own is what its route is bound to. -/
theorem bound_of_distinct (distinct : (operations.map Operation.name).Nodup)
    (apart : ∀ operation ∈ operations, operation.name ≠ "configure")
    (free : ∀ operation ∈ operations, operation.name ≠ "routes") {index : Nat}
    {operation : Operation} (here : operations[index]? = some operation) :
    Bound operations index operation := by
  have member := List.mem_of_getElem? here
  refine ⟨free operation member, ?_⟩
  intro place same
  cases place with
  | zero =>
    rw [functions, List.getElem?_cons_zero] at same
    exact absurd (Option.some.inj same).symm (apart operation member)
  | succ place =>
    rw [functions, List.getElem?_cons_succ] at same
    have mine : (operations.map Operation.name)[index]? = some operation.name := by
      rw [List.getElem?_map, here, Option.map_some]
    have within := (List.getElem?_eq_some_iff.mp mine).1
    rw [(List.getElem?_inj within distinct).mp (mine.trans same.symm)]

theorem compiles_iff_namesFit (sorted : operations.Perm (named.map Source.operation)) :
    Compiles operations ↔ NamesFit named := by
  refine ⟨?_, ?_⟩
  · intro compiles
    refine ⟨(nodup_names_iff sorted).mp compiles.distinct, ?_⟩
    intro source member word reserved
    rw [NamesFit.free_iff word reserved]
    revert word
    refine (forall_operations (P := fun name => ∀ word ∈ taken, name ≠ word) sorted).mp ?_ source
      member
    intro operation inside word reserved same
    rw [taken, List.mem_cons, List.mem_cons] at reserved
    rcases reserved with configure | routes | keyword
    · exact compiles.apart operation inside (same.trans configure)
    · obtain ⟨index, here⟩ := List.mem_iff_getElem?.mp inside
      exact (compiles.bound index operation here).1 (same.trans routes)
    · exact (compiles.identifiers operation inside).free (same ▸ keyword)
  · intro fit
    have free : ∀ operation ∈ operations, ∀ word ∈ taken, operation.name ≠ word := by
      refine (forall_operations (P := fun name => ∀ word ∈ taken, name ≠ word) sorted).mpr ?_
      intro source member word reserved
      exact (NamesFit.free_iff word reserved source).mp (fit.free source member word reserved)
    have distinct := (nodup_names_iff sorted).mpr fit.distinct
    have apart : ∀ operation ∈ operations, operation.name ≠ "configure" := by
      intro operation inside
      exact free operation inside _ List.mem_cons_self
    have unbound : ∀ operation ∈ operations, operation.name ≠ "routes" := by
      intro operation inside
      exact free operation inside _ (List.mem_cons_of_mem _ List.mem_cons_self)
    refine ⟨distinct, ?_, apart, ?_⟩
    · have unreserved : ∀ operation ∈ operations, operation.name ∉ keywords := by
        intro operation inside keyword
        exact free operation inside _
          (List.mem_cons_of_mem _ (List.mem_cons_of_mem _ keyword)) rfl
      refine (forall_operations sorted).mpr ?_
      intro source member
      refine rustIdentifier_identifier ?_
      exact (forall_operations (P := fun name => name ∉ keywords) sorted).mp unreserved source
        member
    · intro index operation here
      exact bound_of_distinct distinct apart unbound here

theorem stubsCompile_iff_sorted {document : Json} (read : readSources document = .ok named) :
    StubsCompile document ↔ Compiles ((named.map Source.operation).mergeSort Operation.le) := by
  have ran : sortedOperations document =
      .ok ((named.map Source.operation).mergeSort Operation.le) := by
    rw [sortedOperations, read]
    rfl
  refine ⟨?_, fun compiles => ⟨_, ran, compiles⟩⟩
  intro compiles
  obtain ⟨operations, same, compiles⟩ := compiles
  rw [ran] at same
  cases same
  exact compiles

end Functions

/-- A document of one path. -/
def documentOf (path : String) (operations : List (String × Json)) : Json :=
  .object [("openapi", .string "3.1.0"), ("paths", .object [(path, .object operations)])]

def operationNamed (operationId : String) : Json :=
  .object [("operationId", .string operationId)]

end RustZero.Openapi
