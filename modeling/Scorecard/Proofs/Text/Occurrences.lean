import Scorecard.Proofs.Text.Spelling

/-!
# Occurrences that cannot overlap

The scan for occurrences jumps over each one that it finds, so in general it may jump over others
that start inside. Where no occurrence can start inside another one, there is nothing to miss: the
scan finds an occurrence at every position where one stands, and no other.
-/

namespace Scorecard

namespace Pattern

/-- Whatever the pattern takes, it takes nothing from a later place inside it. -/
def Apart (pattern : Pattern) : Prop :=
  ∀ text length, pattern.length? text = some length →
    ∀ inside, 0 < inside → inside < length → pattern.length? (text.drop inside) = none

variable {pattern : Pattern}

/-- An occurrence of the kind stands at the start of the text. -/
def startsKind (pattern : Pattern) (kind : List Char → Bool) (text : List Char) : Bool :=
  (pattern.length? text).any fun length => kind (text.take length)

theorem startsKind_of_none {kind : List Char → Bool} {text : List Char}
    (nothing : pattern.length? text = none) : pattern.startsKind kind text = false := by
  rw [startsKind, nothing, Option.any_none]

theorem startsKind_of_some {kind : List Char → Bool} {text : List Char} {length : ℕ}
    (found : pattern.length? text = some length) :
    pattern.startsKind kind text = kind (text.take length) := by
  rw [startsKind, found, Option.any_some]

/-- The invariant of the scan: nothing starts in what it is about to skip. -/
theorem countP_occurrencesAfter (apart : pattern.Apart) (kind : List Char → Bool) {text : List Char}
    {skip : ℕ} (quiet : ∀ inside < skip, pattern.length? (text.drop inside) = none) :
    (pattern.occurrencesAfter skip text).countP kind =
      Nat.count (fun position => pattern.startsKind kind (text.drop position) = true)
        text.length := by
  induction text generalizing skip with
  | nil => cases skip <;> rfl
  | cons c rest ih =>
      rw [List.length_cons, Nat.count_succ']
      simp only [List.drop_succ_cons, List.drop_zero]
      cases skip with
      | succ skip =>
          have others : ∀ inside < skip, pattern.length? (rest.drop inside) = none :=
            fun inside before =>
            quiet (inside + 1) (Nat.succ_lt_succ before)
          have nothing : pattern.length? (c :: rest) = none := quiet 0 skip.succ_pos
          rw [occurrencesAfter, ih others, startsKind_of_none nothing]
          rfl
      | zero =>
          rw [occurrencesAfter]
          cases found : pattern.length? (c :: rest) with
          | none =>
              rw [ih (by simp), startsKind_of_none found]
              rfl
          | some length =>
              have others : ∀ inside < length - 1, pattern.length? (rest.drop inside) = none := by
                intro inside before
                exact apart _ _ found (inside + 1) inside.succ_pos (by omega)
              rw [List.countP_cons, ih others, startsKind_of_some found]

/-- Occurrences that cannot overlap are counted at all positions where they stand. -/
theorem length_filter_occurrences (apart : pattern.Apart) (kind : List Char → Bool)
    (text : List Char) :
    ((pattern.occurrences text).filter kind).length =
      ((Finset.range text.length).filter fun position =>
        pattern.startsKind kind (text.drop position) = true).card := by
  rw [← List.countP_eq_length_filter, occurrences, countP_occurrencesAfter apart kind (by simp),
    Nat.count_eq_card_filter_range]

end Pattern

end Scorecard
