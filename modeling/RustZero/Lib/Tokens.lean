import Mathlib

/-!
# Lists cut into tokens

`Tokens` says how each token is written and before what it may stand, so that no list begins with
two of them.

* `Tokens.Reads` is a list read token by token up to a rest, and `Tokens.Cut` a list read to its
  end.
* `Tokens.Stuck` is a rest that begins with no token; `Tokens.exists_reads` reads every list up to
  one, and `Tokens.Reads.unique` in one way only.
-/

namespace RustZero.Lib

universe u v

/-- Tokens of which a list begins with one at most. -/
structure Tokens (τ : Type u) (α : Type v) where
  spell : τ → List α
  Stands : τ → List α → Prop
  nonempty : ∀ token, spell token ≠ []
  unambiguous : ∀ {token other rest rest'}, Stands token rest → Stands other rest' →
    spell token ++ rest = spell other ++ rest' → token = other ∧ rest = rest'

namespace Tokens

variable {τ : Type u} {α : Type v} (grammar : Tokens τ α)

/-- The tokens read from a list, and what is left of it. -/
inductive Reads : List τ → List α → List α → Prop
  | done (rest : List α) : Reads [] rest rest
  | token {token : τ} {tokens : List τ} {after rest : List α}
      (stands : grammar.Stands token after) (reads : Reads tokens after rest) :
      Reads (token :: tokens) (grammar.spell token ++ after) rest

/-- No token begins here. -/
def Stuck (rest : List α) : Prop :=
  ∀ token after, grammar.Stands token after → rest ≠ grammar.spell token ++ after

/-- The tokens of the whole list. -/
def Cut (tokens : List τ) (list : List α) : Prop :=
  grammar.Reads tokens list []

variable {grammar} {tokens others : List τ} {list rest other : List α}

theorem stuck_nil : grammar.Stuck [] := by
  intro token after _ same
  exact grammar.nonempty token (List.append_eq_nil_iff.mp same.symm).1

/-- Nothing but the tokens and the rest is in the list. -/
theorem Reads.spelled (reads : grammar.Reads tokens list rest) :
    list = tokens.flatMap grammar.spell ++ rest := by
  induction reads with
  | done rest => rfl
  | token stands reads ih => rw [List.flatMap_cons, List.append_assoc, ← ih]

theorem Reads.unique (reads : grammar.Reads tokens list rest) (stuck : grammar.Stuck rest)
    (reads' : grammar.Reads others list other) (stuck' : grammar.Stuck other) :
    tokens = others ∧ rest = other := by
  induction reads generalizing others with
  | done rest =>
      cases reads' with
      | done => exact ⟨rfl, rfl⟩
      | token stands' later => exact absurd rfl (stuck _ _ stands')
  | @token token tokens after rest stands reads ih =>
      generalize same : grammar.spell token ++ after = list at reads'
      cases reads' with
      | done => exact absurd same.symm (stuck' _ _ stands)
      | token stands' later =>
          obtain ⟨rfl, rfl⟩ := grammar.unambiguous stands stands' same
          obtain ⟨rfl, rfl⟩ := ih stuck later
          exact ⟨rfl, rfl⟩

theorem Cut.unique (cut : grammar.Cut tokens list) (other : grammar.Cut others list) :
    tokens = others :=
  (Reads.unique cut stuck_nil other stuck_nil).1

/-- Every list is read up to where no token begins. -/
theorem exists_reads (list : List α) :
    ∃ tokens rest, grammar.Reads tokens list rest ∧ grammar.Stuck rest := by
  by_cases stuck : grammar.Stuck list
  · exact ⟨[], list, .done list, stuck⟩
  · rw [Stuck] at stuck
    push Not at stuck
    obtain ⟨token, after, stands, same⟩ := stuck
    have written := List.length_pos_iff.mpr (grammar.nonempty token)
    have shorter : after.length < list.length := by
      rw [same, List.length_append]
      omega
    obtain ⟨tokens, rest, reads, stuck⟩ := exists_reads after
    exact ⟨token :: tokens, rest, same ▸ .token stands reads, stuck⟩
termination_by list.length

end Tokens

end RustZero.Lib
