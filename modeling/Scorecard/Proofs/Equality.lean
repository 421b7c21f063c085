import Scorecard.Proofs.Json.Shape
import Scorecard.Proofs.Number.Order
import Scorecard.Proofs.Parts

/-!
# Equality of values

Everything but what is not a number equals itself, so a value of the format equals itself unless it
holds such a float. Two mappings are equal if each entry of the one has an equal entry at the same
place of the other. Whether two values are the same one can be decided too.
-/

namespace Scorecard

theorem Binary64.equals_self {value : Binary64} (isNumber : value ≠ .nan) :
    value.equals value = true := by
  cases value with
  | nan => exact absurd rfl isNumber
  | infinite negative => simp [equals]
  | finite negative magnitude => simp [equals]

namespace Scalar

theorem sameKey_self {value : Scalar} (noNan : .nan ∉ value.floats) :
    value.sameKey value = true := by
  cases value with
  | bool truth => simp [sameKey, number?, Number.equals]
  | int integer => simp [sameKey, number?, Number.equals]
  | float number =>
      have isNumber : number ≠ .nan := by
        rintro rfl
        exact noNan (List.mem_singleton_self _)
      simpa [sameKey, number?, Number.equals] using Binary64.equals_self isNumber
  | null => simp [sameKey, number?]
  | text content => simp [sameKey, number?]
  | octets content => simp [sameKey, number?]
  | day content => simp [sameKey, number?]
  | moment content => simp [sameKey, number?]

end Scalar

namespace Data

mutual

/-- Whether two values are the same. -/
def decEq : (left right : Data) → Decidable (left = right)
  | .scalar left, .scalar right => decidable_of_iff (left = right) (by simp)
  | .list left, .list right =>
      have := decEqItems left right
      decidable_of_iff (left = right) (by simp)
  | .mapping left, .mapping right =>
      have := decEqEntries left right
      decidable_of_iff (left = right) (by simp)
  | .scalar _, .list _ | .scalar _, .mapping _ | .list _, .scalar _ | .list _, .mapping _
  | .mapping _, .scalar _ | .mapping _, .list _ => isFalse (by simp)

/-- Whether two lists have the same items. -/
def decEqItems : (left right : List Data) → Decidable (left = right)
  | [], [] => isTrue rfl
  | first :: rest, other :: others =>
      have := decEq first other
      have := decEqItems rest others
      decidable_of_iff (first = other ∧ rest = others) (by simp)
  | [], _ :: _ | _ :: _, [] => isFalse (by simp)

/-- Whether two mappings have the same entries in the same order. -/
def decEqEntries : (left right : List (Scalar × Data)) → Decidable (left = right)
  | [], [] => isTrue rfl
  | (key, value) :: rest, (otherKey, otherValue) :: others =>
      have := decEq value otherValue
      have := decEqEntries rest others
      decidable_of_iff (key = otherKey ∧ value = otherValue ∧ rest = others) (by simp [and_assoc])
  | [], _ :: _ | _ :: _, [] => isFalse (by simp)

end

instance : DecidableEq Data := decEq

theorem itemsEqual_of_forall₂ {left right : List Data}
    (each : List.Forall₂ (fun one other => one.equals other = true) left right) :
    itemsEqual left right = true := by
  induction each with
  | nil => rw [itemsEqual]
  | cons same _ ih => rw [itemsEqual, same, ih, Bool.and_self]

/-- Mappings whose entries are equal one by one are equal. -/
theorem mapping_equals {left right : Entries} (named : right.Named)
    (each : List.Forall₂ (fun one other => one.1 = other.1 ∧ one.2.equals other.2 = true)
      left right) :
    (mapping left).equals (.mapping right) = true := by
  have found : ∀ part : Entries, ∀ other ⊆ right,
      List.Forall₂ (fun one other => one.1 = other.1 ∧ one.2.equals other.2 = true) part other →
        entriesIn part right = true := by
    intro part other subset each
    induction each with
    | nil => rw [entriesIn]
    | @cons one two part other same _ ih =>
        rcases one with ⟨key, value⟩
        rcases same with ⟨rfl, same⟩
        rw [List.cons_subset] at subset
        rw [entriesIn, named.find?_eq subset.1]
        simp only [same, ih subset.2, Bool.and_self]
  rw [equals, found left right (List.Subset.refl right) each, each.length_eq, beq_self_eq_true,
    Bool.and_self]

/-- A value of the format equals itself unless it holds what is not a number. -/
theorem equals_self {data : Data} (isJson : data.IsJson) (noNan : .nan ∉ data.floats) :
    data.equals data = true := by
  rw [floats] at noNan
  induction isJson with
  | scalar plain =>
      rw [collect] at noNan
      rw [equals]
      exact Scalar.sameKey_self noNan
  | @list items each ih =>
      rw [collect] at noNan
      rw [equals]
      apply itemsEqual_of_forall₂
      rw [List.forall₂_same]
      intro item mem
      exact ih item mem fun nan => noNan (mem_collectItems.mpr ⟨item, mem, nan⟩)
  | @mapping entries named each ih =>
      rw [collect] at noNan
      apply mapping_equals named
      rw [List.forall₂_same]
      intro entry mem
      exact ⟨rfl, ih entry mem fun nan => noNan (mem_collectEntries.mpr ⟨entry, mem, .inr nan⟩)⟩

end Data

end Scorecard
