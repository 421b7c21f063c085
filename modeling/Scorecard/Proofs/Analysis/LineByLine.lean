import Mathlib
import Scorecard.Analysis.Nesting

/-!
# Reading line by line

The scanners fold over the lines of a text, and what they are to find is said of the positions of
the lines. So what holds of a scanner is said of the position that it has reached, and one more line
takes it to the next position.
-/

namespace Scorecard

/-- The line at a position; past the end the lines are empty. -/
def lineAt (lines : List (List Char)) (position : ℕ) : List Char :=
  lines.getD position []

/-- What holds before the first line and after one more line if before it, holds after the last
line. -/
theorem foldl_lines_induction {σ : Type} {next : σ → List Char → σ} {start : σ}
    {lines : List (List Char)} (holds : ℕ → σ → Prop) (initial : holds 0 start)
    (step : ∀ position state, position < lines.length → holds position state →
      holds (position + 1) (next state (lineAt lines position))) :
    holds lines.length (lines.foldl next start) := by
  have run :
      ∀ position ≤ lines.length, holds position ((lines.take position).foldl next start) := by
    intro position
    induction position with
    | zero => exact fun _ => initial
    | succ position ih =>
        intro before
        have read := step position _ before (ih (Nat.le_of_lt before))
        rw [← List.take_concat_get' _ _ before, List.foldl_concat]
        rwa [lineAt, List.getD_eq_getElem _ _ before] at read
  simpa using run lines.length le_rfl

/-- A line of nothing but blanks. -/
def IsBlankLine (line : List Char) : Prop :=
  ∀ c ∈ line, isBlank c = true

instance : DecidablePred IsBlankLine := fun _ =>
  inferInstanceAs (Decidable (∀ _ ∈ _, _))

/-- The count of blanks that a line starts with. -/
def lineIndent (line : List Char) : ℕ :=
  (line.takeWhile isBlank).length

theorem indentOf?_eq (line : List Char) :
    indentOf? line = if IsBlankLine line then none else some (lineIndent line) := by
  have whole : (line.takeWhile isBlank).length = line.length ↔ IsBlankLine line := by
    rw [IsBlankLine, ← List.takeWhile_eq_self_iff]
    exact ⟨(List.takeWhile_prefix _).eq_of_length, congrArg List.length⟩
  simp only [indentOf?, whole, lineIndent]

end Scorecard
