import Mathlib

/-!
# Escaped text

Characters that are written as a mark and a letter.

* `Escapes.escape` and `Escapes.read`, which reads escaped text up to a character that stops it:
  `read_escape` says that nothing is lost.
* `chain_eq_escape`: replacing one character after the other is escaping, where no later
  character is the mark or an earlier letter.
* `not_mem_escape`: an escaped character does not occur any more.
-/

namespace RustZero.Lib

universe u

/-- The letters that stand for characters behind the mark, which has one itself. -/
structure Escapes (α : Type u) where
  mark : α
  codes : List (α × α)
  marked : mark ∈ codes.map Prod.fst
  letters : (codes.map Prod.snd).Nodup

/-- `str::replace` of a character. -/
def replaceAll {α : Type u} [DecidableEq α] (char : α) (code text : List α) : List α :=
  text.flatMap fun other => if other = char then code else [other]

namespace Escapes

variable {α : Type u} [DecidableEq α]

/-- How a character is written. -/
def encode (escapes : Escapes α) (char : α) : List α :=
  match escapes.codes.lookup char with
  | some letter => [escapes.mark, letter]
  | none => [char]

def escape (escapes : Escapes α) (text : List α) : List α :=
  text.flatMap escapes.encode

/-- What a letter behind the mark stands for. -/
def decode (escapes : Escapes α) (letter : α) : Option α :=
  (escapes.codes.find? fun code => code.2 == letter).map Prod.fst

/-- Read up to the end, or to a character that stops the text and is left. -/
def read (escapes : Escapes α) (stop : α → Bool) : List α → Option (List α × List α)
  | [] => some ([], [])
  | char :: rest =>
      if stop char then some ([], char :: rest)
      else if char = escapes.mark then
        match rest with
        | [] => none
        | letter :: rest => do
            let char ← escapes.decode letter
            let (text, rest) ← escapes.read stop rest
            some (char :: text, rest)
      else do
        let (text, rest) ← escapes.read stop rest
        some (char :: text, rest)

/-- Read up to the end. -/
def unescape (escapes : Escapes α) (text : List α) : Option (List α) :=
  (escapes.read (fun _ => false) text).map Prod.fst

/-- The codes, replaced one after the other. -/
def chain (escapes : Escapes α) (text : List α) : List α :=
  escapes.codes.foldl (fun text code => replaceAll code.1 [escapes.mark, code.2] text) text

variable {escapes : Escapes α} {char letter : α} {text : List α}

theorem mem_codes_of_lookup {codes : List (α × α)} (found : codes.lookup char = some letter) :
    (char, letter) ∈ codes := by
  obtain ⟨before, after, same, _⟩ := List.lookup_eq_some_iff.mp found
  rw [same]
  exact List.mem_append_right _ List.mem_cons_self

theorem lookup_eq_none {codes : List (α × α)} :
    codes.lookup char = none ↔ char ∉ codes.map Prod.fst := by
  rw [List.lookup_eq_none_iff, List.mem_map]
  constructor
  · intro other found
    obtain ⟨code, member, same⟩ := found
    exact absurd (other code member) (by simp [same])
  · intro other code member
    rw [bne_iff_ne]
    intro same
    exact other ⟨code, member, same.symm⟩

theorem decode_letter (found : escapes.codes.lookup char = some letter) :
    escapes.decode letter = some char := by
  have member := mem_codes_of_lookup found
  rw [decode, Option.map_eq_some_iff]
  refine ⟨(char, letter), ?_, rfl⟩
  have unique {codes : List (α × α)} (letters : (codes.map Prod.snd).Nodup)
      (member : (char, letter) ∈ codes) :
      codes.find? (fun code => code.2 == letter) = some (char, letter) := by
    induction codes with
    | nil => cases member
    | cons code codes ih =>
        rw [List.map_cons, List.nodup_cons] at letters
        rcases List.mem_cons.mp member with rfl | later
        · exact List.find?_cons_of_pos (beq_self_eq_true letter)
        · rw [List.find?_cons_of_neg, ih letters.2 later]
          intro same
          rw [beq_iff_eq] at same
          exact letters.1 (List.mem_map.mpr ⟨_, later, same.symm⟩)
  exact unique escapes.letters member

theorem ne_mark_of_lookup (plain : escapes.codes.lookup char = none) : char ≠ escapes.mark := by
  intro same
  exact lookup_eq_none.mp plain (same ▸ escapes.marked)

theorem read_stop {stop : α → Bool} {rest : List α}
    (stops : ∀ char ∈ rest.head?, stop char = true) :
    escapes.read stop rest = some ([], rest) := by
  cases rest with
  | nil => rfl
  | cons char rest =>
      rw [read.eq_def]
      exact if_pos (stops char rfl)

theorem read_code {stop : α → Bool} {rest : List α} (unstopped : stop escapes.mark = false)
    (found : escapes.codes.lookup char = some letter) :
    escapes.read stop (escapes.mark :: letter :: rest) =
      (escapes.read stop rest).map fun next => (char :: next.1, next.2) := by
  have passes : ¬stop escapes.mark = true := by
    rw [unstopped]
    exact Bool.false_ne_true
  rw [read.eq_def]
  refine (if_neg passes).trans ((if_pos rfl).trans ?_)
  simp only [decode_letter found, Option.bind_eq_bind, Option.bind_some]
  cases escapes.read stop rest with
  | none => rfl
  | some next => rfl

theorem read_plain {stop : α → Bool} {rest : List α} (passes : ¬stop char = true)
    (plain : char ≠ escapes.mark) :
    escapes.read stop (char :: rest) =
      (escapes.read stop rest).map fun next => (char :: next.1, next.2) := by
  rw [read.eq_def]
  refine (if_neg passes).trans ((if_neg plain).trans ?_)
  cases escapes.read stop rest with
  | none => rfl
  | some next => rfl

/-- What was escaped is read back, and nothing behind it. -/
theorem read_escape {stop : α → Bool} (unstopped : stop escapes.mark = false)
    (coded : ∀ char, stop char = true → char ∈ escapes.codes.map Prod.fst) {rest : List α}
    (ends : ∀ char ∈ rest.head?, stop char = true) :
    escapes.read stop (escapes.escape text ++ rest) = some (text, rest) := by
  induction text with
  | nil => exact read_stop ends
  | cons char text ih =>
      rw [escape, List.flatMap_cons, List.append_assoc, ← escape, encode]
      split
      case h_1 letter found =>
        rw [List.cons_append, List.cons_append, List.nil_append, read_code unstopped found, ih]
        rfl
      case h_2 plain =>
        have passes : ¬stop char = true := fun stops => lookup_eq_none.mp plain (coded char stops)
        rw [List.cons_append, List.nil_append, read_plain passes (ne_mark_of_lookup plain), ih]
        rfl

theorem unescape_escape (text : List α) : escapes.unescape (escapes.escape text) = some text := by
  have whole : escapes.read (fun _ => false) (escapes.escape text ++ []) = some (text, []) := by
    apply read_escape rfl
    · intro char stops
      cases stops
    · intro char ends
      cases ends
  rw [List.append_nil] at whole
  rw [unescape, whole]
  rfl

/-- A character that has a code occurs as the mark or as a letter only. -/
theorem not_mem_escape (coded : char ∈ escapes.codes.map Prod.fst) (other : char ≠ escapes.mark)
    (unused : char ∉ escapes.codes.map Prod.snd) : char ∉ escapes.escape text := by
  rw [escape, List.mem_flatMap]
  intro inside
  obtain ⟨written, _, inside⟩ := inside
  rw [encode] at inside
  split at inside
  case h_1 letter found =>
    rcases List.mem_cons.mp inside with rfl | inside
    · exact other rfl
    · rw [List.mem_singleton] at inside
      subst inside
      exact unused (List.mem_map.mpr ⟨_, mem_codes_of_lookup found, rfl⟩)
  case h_2 plain =>
    rw [List.mem_singleton] at inside
    subst inside
    exact lookup_eq_none.mp plain coded

/-! ## Replacing one after the other -/

theorem replaceAll_append (code first second : List α) :
    replaceAll char code (first ++ second) =
      replaceAll char code first ++ replaceAll char code second :=
  List.flatMap_append

theorem replaceAll_of_not_mem {code : List α} (absent : char ∉ text) :
    replaceAll char code text = text := by
  induction text with
  | nil => rfl
  | cons other text ih =>
      rw [List.mem_cons, not_or] at absent
      rw [replaceAll, List.flatMap_cons, if_neg (Ne.symm absent.1), ← replaceAll, ih absent.2]
      rfl

section Chain

variable {mark : α} {codes : List (α × α)}

/-- The replacements of a list of codes. -/
def replaceCodes (mark : α) (codes : List (α × α)) (text : List α) : List α :=
  codes.foldl (fun text code => replaceAll code.1 [mark, code.2] text) text

theorem replaceCodes_append (first second : List α) :
    replaceCodes mark codes (first ++ second) =
      replaceCodes mark codes first ++ replaceCodes mark codes second := by
  induction codes generalizing first second with
  | nil => rfl
  | cons code codes ih =>
      simp only [replaceCodes, List.foldl_cons, replaceAll_append] at ih ⊢
      exact ih _ _

theorem replaceCodes_of_not_mem (absent : ∀ code ∈ codes, code.1 ∉ text) :
    replaceCodes mark codes text = text := by
  induction codes with
  | nil => rfl
  | cons code codes ih =>
      rw [List.forall_mem_cons] at absent
      rw [replaceCodes, List.foldl_cons, replaceAll_of_not_mem absent.1]
      exact ih absent.2

/-- No later character is one that an earlier replacement wrote. -/
def Ordered (mark : α) (codes : List (α × α)) : Prop :=
  codes.Pairwise fun code later => later.1 ≠ mark ∧ later.1 ≠ code.2

theorem replaceCodes_singleton (ordered : Ordered mark codes) :
    replaceCodes mark codes [char] =
      match codes.lookup char with
      | some letter => [mark, letter]
      | none => [char] := by
  induction codes with
  | nil => rfl
  | cons code codes ih =>
      obtain ⟨apart, ordered⟩ := List.pairwise_cons.mp ordered
      rw [replaceCodes, List.foldl_cons, ← replaceCodes, List.lookup_cons]
      by_cases same : char = code.1
      · have written : replaceAll code.1 [mark, code.2] [char] = [mark, code.2] := by
          rw [replaceAll, List.flatMap_cons, if_pos same]
          rfl
        have unread : ∀ later ∈ codes, later.1 ∉ [mark, code.2] := by
          intro later member inside
          obtain ⟨other, fresh⟩ := apart later member
          rcases List.mem_cons.mp inside with wrote | wrote
          · exact other wrote
          · exact fresh (List.mem_singleton.mp wrote)
        rw [written, replaceCodes_of_not_mem unread]
        simp [same]
      · have absent : code.1 ∉ [char] := fun inside => same (List.mem_singleton.mp inside).symm
        have differs : (char == code.1) = false := beq_eq_false_iff_ne.mpr same
        rw [replaceAll_of_not_mem absent, ih ordered, differs]

end Chain

/-- Replacing in order is escaping. -/
theorem chain_eq_escape (ordered : Ordered escapes.mark escapes.codes) :
    escapes.chain text = escapes.escape text := by
  have each : escapes.chain text = replaceCodes escapes.mark escapes.codes text := rfl
  rw [each]
  induction text with
  | nil =>
      exact replaceCodes_of_not_mem fun _ _ => List.not_mem_nil
  | cons char text ih =>
      rw [← List.singleton_append, replaceCodes_append, ih rfl, replaceCodes_singleton ordered]
      rfl

end Escapes

end RustZero.Lib
