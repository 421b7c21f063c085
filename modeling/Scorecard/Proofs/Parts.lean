import Mathlib
import Scorecard.Data

/-!
# The parts of a value

What a value is made of is collected from all of its scalars, those of its keys too: the integers,
which decide whether it can be written, and the floats, which decide whether it equals itself.
-/

namespace Scorecard

namespace Scalar

/-- The integers in a scalar. -/
def integers : Scalar → List ℤ
  | .int value => [value]
  | _ => []

/-- The floats in a scalar. -/
def floats : Scalar → List Binary64
  | .float value => [value]
  | _ => []

end Scalar

namespace Data

variable {α : Type} (part : Scalar → List α)

mutual

/-- What is collected from the scalars of a value. -/
def collect : Data → List α
  | .scalar value => part value
  | .list items => collectItems items
  | .mapping entries => collectEntries entries

/-- What is collected from the items of a list. -/
def collectItems : List Data → List α
  | [] => []
  | item :: rest => collect item ++ collectItems rest

/-- What is collected from the entries of a mapping. -/
def collectEntries : List (Scalar × Data) → List α
  | [] => []
  | (key, value) :: rest => part key ++ collect value ++ collectEntries rest

end

/-- The integers in a value. -/
def integers (data : Data) : List ℤ :=
  data.collect Scalar.integers

/-- The floats in a value. -/
def floats (data : Data) : List Binary64 :=
  data.collect Scalar.floats

variable {part}

theorem mem_collectItems {found : α} {items : List Data} :
    found ∈ collectItems part items ↔ ∃ item ∈ items, found ∈ item.collect part := by
  induction items with
  | nil => simp [collectItems]
  | cons item rest ih => simp [collectItems, ih]

theorem mem_collectEntries {found : α} {entries : List (Scalar × Data)} :
    found ∈ collectEntries part entries ↔
      ∃ entry ∈ entries, found ∈ part entry.1 ∨ found ∈ entry.2.collect part := by
  induction entries with
  | nil => simp [collectEntries]
  | cons entry rest ih => simp [collectEntries, ih, or_assoc]

end Data

end Scorecard
