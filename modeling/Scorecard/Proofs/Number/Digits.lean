import Mathlib
import Scorecard.Number.Numeral

/-!
# Decimal digits

The digits of a natural number are decimal digits, the first of which is no zero unless the number
is zero, and reading them gives the number again.
-/

namespace Scorecard

theorem isDigit_digitChar {digit : ℕ} (small : digit < 10) : digit.digitChar.isDigit = true := by
  interval_cases digit <;> decide

theorem digitChar_value {digit : ℕ} (small : digit < 10) : digit.digitChar.toNat - 48 = digit := by
  interval_cases digit <;> decide

theorem digitChar_ne_zero {digit : ℕ} (positive : 0 < digit) (small : digit < 10) :
    digit.digitChar ≠ '0' := by
  interval_cases digit <;> decide

/-- The digits of a number with more than one are those of its tenth and one more. -/
theorem decimalDigits_of_ten_le {number : ℕ} (large : 10 ≤ number) :
    decimalDigits number = decimalDigits (number / 10) ++ [(number % 10).digitChar] :=
  Nat.toDigits_of_base_le (by decide) large

theorem decimalDigits_of_lt_ten {number : ℕ} (small : number < 10) :
    decimalDigits number = [number.digitChar] :=
  Nat.toDigits_of_lt_base small

theorem decimalDigits_ne_nil (number : ℕ) : decimalDigits number ≠ [] :=
  Nat.toDigits_ne_nil

theorem length_decimalDigits_pos (number : ℕ) : 0 < (decimalDigits number).length :=
  List.length_pos_of_ne_nil (decimalDigits_ne_nil number)

theorem length_decimalDigits_le_iff {number count : ℕ} (positive : 0 < count) :
    (decimalDigits number).length ≤ count ↔ number < 10 ^ count :=
  Nat.length_toDigits_le_iff (by decide) positive

theorem lt_pow_length_decimalDigits (number : ℕ) : number < 10 ^ (decimalDigits number).length :=
  (length_decimalDigits_le_iff (length_decimalDigits_pos number)).mp le_rfl

theorem pow_length_decimalDigits_le {number : ℕ} (positive : 0 < number) :
    10 ^ ((decimalDigits number).length - 1) ≤ number := by
  by_contra below
  rw [not_le] at below
  rcases Nat.eq_zero_or_pos ((decimalDigits number).length - 1) with single | several
  · rw [single] at below
    omega
  · have shorter := (length_decimalDigits_le_iff several).mpr below
    omega

theorem isDigit_of_mem_decimalDigits {number : ℕ} {c : Char} (mem : c ∈ decimalDigits number) :
    c.isDigit = true := by
  induction number using Nat.strongRecOn with
  | ind number ih =>
      by_cases small : number < 10
      · rw [decimalDigits_of_lt_ten small, List.mem_singleton] at mem
        subst mem
        exact isDigit_digitChar small
      · rw [decimalDigits_of_ten_le (by omega), List.mem_append, List.mem_singleton] at mem
        rcases mem with mem | rfl
        · exact ih (number / 10) (by omega) mem
        · exact isDigit_digitChar (Nat.mod_lt _ (by decide))

theorem head?_decimalDigits_ne_zero {number : ℕ} (positive : 0 < number) :
    (decimalDigits number).head? ≠ some '0' := by
  induction number using Nat.strongRecOn with
  | ind number ih =>
      by_cases small : number < 10
      · rw [decimalDigits_of_lt_ten small, List.head?_cons, ne_eq, Option.some.injEq]
        exact digitChar_ne_zero positive small
      · rw [decimalDigits_of_ten_le (by omega),
          List.head?_append_of_ne_nil _ (decimalDigits_ne_nil _)]
        exact ih (number / 10) (by omega) (by omega)

namespace Numeral

theorem valueOf_append (front back : List Char) :
    valueOf (front ++ back) = valueOf front * 10 ^ back.length + valueOf back := by
  induction back using List.reverseRecOn with
  | nil => simp [valueOf]
  | append_singleton back digit ih =>
      have snoc :
          ∀ digits, valueOf (digits ++ [digit]) = valueOf digits * 10 + (digit.toNat - 48) := by
        simp [valueOf]
      rw [← List.append_assoc, snoc, snoc, ih, List.length_append, List.length_singleton, pow_succ]
      ring

theorem valueOf_decimalDigits (number : ℕ) : valueOf (decimalDigits number) = number := by
  induction number using Nat.strongRecOn with
  | ind number ih =>
      by_cases small : number < 10
      · simp [decimalDigits_of_lt_ten small, valueOf, digitChar_value small]
      · have last : valueOf [(number % 10).digitChar] = number % 10 := by
          simp [valueOf, digitChar_value (Nat.mod_lt number (by decide : 0 < 10))]
        rw [decimalDigits_of_ten_le (by omega), valueOf_append, ih (number / 10) (by omega), last,
          List.length_singleton]
        omega

theorem valueOf_replicate_zero (count : ℕ) : valueOf (List.replicate count '0') = 0 := by
  induction count with
  | zero => rfl
  | succ count ih => rw [List.replicate_succ', valueOf_append, ih]; rfl

/-- Digits denote a number below the power of ten of their count. -/
theorem valueOf_lt {digits : List Char} (each : ∀ c ∈ digits, c.isDigit = true) :
    valueOf digits < 10 ^ digits.length := by
  induction digits using List.reverseRecOn with
  | nil => simp [valueOf]
  | append_singleton digits last ih =>
      have front := ih fun c mem => each c (List.mem_append_left _ mem)
      have digit := each last (by simp)
      have last_le : valueOf [last] ≤ 9 := by
        simp only [Char.isDigit, Bool.and_eq_true, decide_eq_true_eq, UInt32.le_iff_toNat_le]
          at digit
        have upper : last.toNat ≤ 57 := digit.2
        simp only [valueOf, List.foldl_cons, List.foldl_nil]
        omega
      rw [valueOf_append, List.length_append, pow_add]
      simp only [List.length_singleton, pow_one]
      omega

end Numeral

theorem takeWhile_isDigit_append {digits rest : List Char} (each : ∀ c ∈ digits, c.isDigit = true)
    (stops : ∀ c ∈ rest.head?, c.isDigit = false) :
    (digits ++ rest).takeWhile Char.isDigit = digits ∧
      (digits ++ rest).dropWhile Char.isDigit = rest := by
  rw [List.takeWhile_append_of_pos each, List.dropWhile_append_of_pos each]
  cases rest with
  | nil => simp
  | cons c rest =>
      have notDigit := stops c (by simp)
      simp [notDigit]

end Scorecard
