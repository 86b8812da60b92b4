import Mathlib

/-!
# Readers

Reading the front of a list: a reader gives a value and what it leaves.

* `expect` reads a token, `readWhile` as far as a condition holds, `readSeparated` values that a
  token separates and another one closes.
* `Reads reader text value`: in front of anything the text is read as the value and the rest is
  left.  `readSeparated_reads` composes it, for values that may be read wrongly in front of
  anything but a separator or the end.
-/

namespace RustZero.Lib

universe u

variable {τ α : Type u}

abbrev Reader (τ α : Type u) := List τ → Option (α × List τ)

/-- The reader reads the text as the value, whatever follows. -/
def Reads (reader : Reader τ α) (text : List τ) (value : α) : Prop :=
  ∀ rest, reader (text ++ rest) = some (value, rest)

/-- Split the front off, as far as the condition holds. -/
def readWhile (holds : τ → Bool) (text : List τ) : List τ × List τ :=
  (text.takeWhile holds, text.dropWhile holds)

theorem readWhile_append {holds : τ → Bool} {word rest : List τ}
    (all : ∀ item ∈ word, holds item = true) (ends : ∀ item ∈ rest.head?, holds item = false) :
    readWhile holds (word ++ rest) = (word, rest) := by
  have stops : rest.takeWhile holds = [] ∧ rest.dropWhile holds = rest := by
    cases rest with
    | nil => exact ⟨rfl, rfl⟩
    | cons item rest =>
        have ended : holds item = false := ends item rfl
        rw [List.takeWhile_cons, List.dropWhile_cons, ended]
        exact ⟨rfl, rfl⟩
  rw [readWhile, List.takeWhile_append_of_pos all, List.dropWhile_append_of_pos all, stops.1,
    stops.2, List.append_nil]

variable [DecidableEq τ]

/-- The text behind a token. -/
def expect (token text : List τ) : Option (List τ) :=
  if token.isPrefixOf text then some (text.drop token.length) else none

theorem expect_append (token rest : List τ) : expect token (token ++ rest) = some rest := by
  rw [expect, if_pos (List.isPrefixOf_iff_prefix.mpr (List.prefix_append token rest)),
    List.drop_left]

theorem expect_of_head_ne {first : τ} {token text : List τ} (other : first ∉ text.head?) :
    expect (first :: token) text = none := by
  apply if_neg
  intro found
  obtain ⟨rest, same⟩ := List.isPrefixOf_iff_prefix.mp found
  apply other
  rw [← same]
  rfl

/-- At most `count` values, each but the last one with a separator behind it, and then the end. -/
def readSeparated (item : Reader τ α) (separator close : τ) : (count : Nat) → Reader τ (List α)
  | 0, _ => none
  | count + 1, text => do
      let (value, text) ← item text
      match expect [separator] text with
      | some text =>
          let (values, text) ← readSeparated item separator close count text
          some (value :: values, text)
      | none =>
          let text ← expect [close] text
          some ([value], text)

/-- Values that are written with the separator between them. -/
theorem readSeparated_reads {item : Reader τ α} {separator close : τ} (differ : separator ≠ close)
    {write : α → List τ} {values : List α} (some_value : values ≠ []) {count : Nat}
    (enough : values.length ≤ count)
    (each : ∀ value ∈ values, ∀ next rest, next = separator ∨ next = close →
      item (write value ++ next :: rest) = some (value, next :: rest)) :
    Reads (readSeparated item separator close count)
      ([separator].intercalate (values.map write) ++ [close]) values := by
  intro rest
  induction values generalizing count with
  | nil => exact (some_value rfl).elim
  | cons value values ih =>
      rw [List.forall_mem_cons] at each
      cases count with
      | zero => simp at enough
      | succ count =>
          cases values with
          | nil =>
              have ends : expect [separator] (close :: rest) = none := by
                apply expect_of_head_ne
                intro same
                exact differ (Option.some.inj same).symm
              have closed : expect [close] (close :: rest) = some rest :=
                expect_append [close] rest
              have text : [separator].intercalate ([value].map write) ++ [close] ++ rest =
                  write value ++ (close :: rest) := by simp
              rw [text, readSeparated, each.1 close rest (.inr rfl)]
              simp only [Option.bind_eq_bind, Option.bind_some, ends, closed]
          | cons second values =>
              have next := ih (by simp) (Nat.le_of_succ_le_succ enough) each.2
              have behind (rest : List τ) : expect [separator] (separator :: rest) = some rest :=
                expect_append [separator] rest
              have text : [separator].intercalate ((value :: second :: values).map write) ++
                  [close] ++ rest = write value ++ ([separator] ++
                    ([separator].intercalate ((second :: values).map write) ++ [close] ++
                      rest)) := by
                rw [List.map_cons, List.intercalate_cons_of_ne_nil (by simp)]
                simp only [List.append_assoc]
              rw [text, readSeparated, List.singleton_append, each.1 separator _ (.inl rfl)]
              simp only [Option.bind_eq_bind, Option.bind_some, behind, next]

end RustZero.Lib
