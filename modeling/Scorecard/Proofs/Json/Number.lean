import Scorecard.Json.Reader
import Scorecard.Json.Writer
import Scorecard.Proofs.Number.Shortest

/-!
# Reading written numbers

A float is written with its shortest digits, laid out with or without an exponent. Whatever the
layout, the reader puts digits and exponent together to a numeral of the same value, and every
numeral of that value is read as the float that was written. So is an integer, from all of its
digits.
-/

namespace Scorecard

theorem isDigit_of_mem_zeros {count : ℕ} {c : Char} (mem : c ∈ List.replicate count '0') :
    c.isDigit = true := by
  rw [List.eq_of_mem_replicate mem]
  rfl

theorem Decimal.value_mul_pow (coefficient count : ℕ) (exponent : ℤ) :
    Decimal.value ⟨coefficient * 10 ^ count, exponent⟩ =
      Decimal.value ⟨coefficient, exponent + count⟩ := by
  rw [value, value, zpow_add₀ (by norm_num), zpow_natCast]
  push_cast
  ring

namespace Layout

/-- The digits of an exponent: at least two. -/
def exponentDigits (exponent : ℤ) : List Char :=
  List.replicate (2 - (decimalDigits exponent.natAbs).length) '0' ++ decimalDigits exponent.natAbs

theorem exponentText_eq (exponent : ℤ) :
    exponentText exponent =
      'e' :: (if exponent < 0 then '-' else '+') :: exponentDigits exponent := by
  have nonempty := length_decimalDigits_pos exponent.natAbs
  simp only [exponentText, exponentDigits]
  congr 2
  split
  · next short =>
      rw [show 2 - (decimalDigits exponent.natAbs).length = 1 by omega]
      rfl
  · next long =>
      rw [show 2 - (decimalDigits exponent.natAbs).length = 0 by omega]
      rfl

theorem isDigit_of_mem_exponentDigits {exponent : ℤ} {c : Char}
    (mem : c ∈ exponentDigits exponent) : c.isDigit = true := by
  rcases List.mem_append.mp mem with zero | digit
  · exact isDigit_of_mem_zeros zero
  · exact isDigit_of_mem_decimalDigits digit

theorem exponentDigits_ne_nil (exponent : ℤ) : exponentDigits exponent ≠ [] :=
  List.append_ne_nil_of_right_ne_nil _ (decimalDigits_ne_nil _)

theorem valueOf_exponentDigits (exponent : ℤ) :
    Numeral.valueOf (exponentDigits exponent) = exponent.natAbs := by
  rw [exponentDigits, Numeral.valueOf_append, Numeral.valueOf_replicate_zero,
    Numeral.valueOf_decimalDigits, zero_mul, zero_add]

end Layout

namespace Json

/-- Whether a text can follow a value: it is empty or goes on with the character that ends the
value. -/
def Closes (after : List Char) : Prop :=
  ∀ c ∈ after.head?, c = ',' ∨ c = ']' ∨ c = '\x7d' ∨ c = '\n'

namespace Closes

variable {after : List Char}

theorem not_isDigit (closes : Closes after) : ∀ c ∈ after.head?, c.isDigit = false := by
  intro c mem
  rcases closes c mem with rfl | rfl | rfl | rfl <;> rfl

theorem fraction_eq (closes : Closes after) : fraction after = ([], after) := by
  cases after with
  | nil => rfl
  | cons c rest =>
      rcases closes c (by simp) with rfl | rfl | rfl | rfl <;> rfl

theorem exponent?_eq (closes : Closes after) : exponent? after = none := by
  cases after with
  | nil => rfl
  | cons c rest =>
      rcases closes c (by simp) with rfl | rfl | rfl | rfl <;> simp [exponent?]

end Closes

theorem fraction_append {places after : List Char} (each : ∀ c ∈ places, c.isDigit = true)
    (nonempty : places ≠ []) (stops : ∀ c ∈ after.head?, c.isDigit = false) :
    fraction ('.' :: (places ++ after)) = (places, after) := by
  rcases takeWhile_isDigit_append each stops with ⟨taken, dropped⟩
  cases places with
  | nil => exact absurd rfl nonempty
  | cons digit places =>
      have isDigit := each digit (by simp)
      simp only [fraction]
      rw [if_pos (by simp [isDigit]), taken, dropped]

theorem exponent?_exponentText (exponent : ℤ) {after : List Char}
    (stops : ∀ c ∈ after.head?, c.isDigit = false) :
    exponent? (Layout.exponentText exponent ++ after) = some (exponent, after) := by
  have each : ∀ c ∈ Layout.exponentDigits exponent, c.isDigit = true :=
    fun c mem => Layout.isDigit_of_mem_exponentDigits mem
  rcases takeWhile_isDigit_append each stops with ⟨taken, dropped⟩
  have head :
      (((Layout.exponentDigits exponent ++ after).head?.map Char.isDigit).getD false) = true := by
    cases digits : Layout.exponentDigits exponent with
    | nil => exact absurd digits (Layout.exponentDigits_ne_nil exponent)
    | cons digit rest =>
        have isDigit := each digit (by simp [digits])
        simp [isDigit]
  have sign : Numeral.splitSign ((if exponent < 0 then '-' else '+') ::
      (Layout.exponentDigits exponent ++ after)) =
        (decide (exponent < 0), Layout.exponentDigits exponent ++ after) := by
    by_cases negative : exponent < 0 <;> simp [negative, Numeral.splitSign]
  rw [Layout.exponentText_eq, List.cons_append, List.cons_append]
  simp only [exponent?, true_or, if_true, sign, head, taken, dropped, Layout.valueOf_exponentDigits]
  congr 2
  by_cases negative : exponent < 0
  · simp only [negative, decide_true, if_true]
    omega
  · simp only [negative, decide_false, Bool.false_eq_true, if_false]
    omega

/-- Whether digits are the whole part of a number: a zero, or digits of which the first is no
zero. -/
def IsWhole (digits : List Char) : Prop :=
  digits ≠ [] ∧ (∀ c ∈ digits, c.isDigit = true) ∧ (digits.head? = some '0' → digits = ['0'])

theorem isWhole_decimalDigits (number : ℕ) : IsWhole (decimalDigits number) := by
  refine ⟨decimalDigits_ne_nil number, fun c mem => isDigit_of_mem_decimalDigits mem, ?_⟩
  intro startsWithZero
  rcases Nat.eq_zero_or_pos number with rfl | positive
  · rfl
  · exact absurd startsWithZero (head?_decimalDigits_ne_zero positive)

namespace IsWhole

variable {whole rest : List Char}

theorem wholePart_append (isWhole : IsWhole whole) (stops : ∀ c ∈ rest.head?, c.isDigit = false) :
    wholePart (whole ++ rest) = whole := by
  rcases isWhole with ⟨nonempty, each, zero⟩
  rcases takeWhile_isDigit_append each stops with ⟨taken, _⟩
  unfold wholePart
  split
  · next tail startsWithZero =>
      cases whole with
      | nil => exact absurd rfl nonempty
      | cons digit others =>
          rw [List.cons_append, List.cons.injEq] at startsWithZero
          exact (zero (by rw [startsWithZero.1]; rfl)).symm
  · exact taken

theorem not_isEmpty (isWhole : IsWhole whole) : whole.isEmpty = false := by
  rw [List.isEmpty_eq_false_iff]
  exact isWhole.1

end IsWhole

section

variable {whole places after : List Char}

theorem unsignedNumber_integer (isWhole : IsWhole whole) (short : whole.length ≤ digitLimit)
    (closes : Closes after) (negative : Bool) (start : List Char) :
    unsignedNumber negative start (whole ++ after) =
      .ok (.int (if negative then -(Numeral.valueOf whole : ℤ) else Numeral.valueOf whole),
        after) := by
  have taken := isWhole.wholePart_append closes.not_isDigit
  simp only [unsignedNumber, taken, isWhole.not_isEmpty, List.drop_left, closes.fraction_eq,
    closes.exponent?_eq, Bool.false_eq_true, if_false]
  rw [if_neg (by omega)]

theorem unsignedNumber_point (isWhole : IsWhole whole) (each : ∀ c ∈ places, c.isDigit = true)
    (nonempty : places ≠ []) (closes : Closes after) (negative : Bool) (start : List Char) :
    unsignedNumber negative start (whole ++ '.' :: (places ++ after)) =
      .ok (.float (Decimal.toBinary64 ⟨Numeral.valueOf (whole ++ places), -places.length⟩ negative),
        after) := by
  have taken : wholePart (whole ++ '.' :: (places ++ after)) = whole :=
    isWhole.wholePart_append (by simp)
  have read := fraction_append each nonempty closes.not_isDigit
  simp only [unsignedNumber, taken, isWhole.not_isEmpty, List.drop_left, read, closes.exponent?_eq,
    Bool.false_eq_true, if_false]
  cases places with
  | nil => exact absurd rfl nonempty
  | cons digit places => simp

theorem unsignedNumber_exponent (isWhole : IsWhole whole) (exponent : ℤ) (closes : Closes after)
    (negative : Bool) (start : List Char) :
    unsignedNumber negative start (whole ++ (Layout.exponentText exponent ++ after)) =
      .ok (.float (Decimal.toBinary64 ⟨Numeral.valueOf whole, exponent⟩ negative), after) := by
  have taken : wholePart (whole ++ (Layout.exponentText exponent ++ after)) = whole :=
    isWhole.wholePart_append (by simp [Layout.exponentText_eq])
  have read := exponent?_exponentText exponent closes.not_isDigit
  have noPlaces : fraction (Layout.exponentText exponent ++ after) =
      ([], Layout.exponentText exponent ++ after) := by
    rw [Layout.exponentText_eq]
    rfl
  simp only [unsignedNumber, taken, isWhole.not_isEmpty, List.drop_left, noPlaces, read,
    Bool.false_eq_true, if_false]
  simp

theorem unsignedNumber_point_exponent (isWhole : IsWhole whole)
    (each : ∀ c ∈ places, c.isDigit = true) (nonempty : places ≠ []) (exponent : ℤ)
    (closes : Closes after) (negative : Bool) (start : List Char) :
    unsignedNumber negative start
        (whole ++ '.' :: (places ++ (Layout.exponentText exponent ++ after))) =
      .ok (.float (Decimal.toBinary64
        ⟨Numeral.valueOf (whole ++ places), exponent - places.length⟩ negative), after) := by
  have taken :
      wholePart (whole ++ '.' :: (places ++ (Layout.exponentText exponent ++ after))) = whole :=
    isWhole.wholePart_append (by simp)
  have readPlaces : fraction ('.' :: (places ++ (Layout.exponentText exponent ++ after))) =
      (places, Layout.exponentText exponent ++ after) :=
    fraction_append each nonempty (by simp [Layout.exponentText_eq])
  have readExponent := exponent?_exponentText exponent closes.not_isDigit
  simp only [unsignedNumber, taken, isWhole.not_isEmpty, List.drop_left, readPlaces, readExponent,
    Bool.false_eq_true, if_false]
  simp

end

theorem isWhole_of_head? {digits : List Char} {first : Char} (head : digits.head? = some first)
    (nonzero : first ≠ '0') (each : ∀ c ∈ digits, c.isDigit = true) : IsWhole digits := by
  refine ⟨?_, each, ?_⟩
  · rintro rfl
    cases head
  · intro zero
    rw [head, Option.some.injEq] at zero
    exact absurd zero nonzero

/-- Whatever closes it, the text is read as a float, from a decimal of this value. -/
def ReadsAs (text : List Char) (value : ℚ) : Prop :=
  ∀ (negative : Bool) (start after : List Char), Closes after →
    ∃ decimal : Decimal, decimal.value = value ∧
      unsignedNumber negative start (text ++ after) =
        .ok (.float (decimal.toBinary64 negative), after)

section

variable {digits : List Char} {first : Char} {exponent leading : ℤ}

/-- Digits that all stand behind the point. -/
theorem readsAs_below_one (each : ∀ c ∈ digits, c.isDigit = true) (nonempty : digits ≠ [])
    (leading_eq : exponent + digits.length - 1 = leading) (small : leading < 0) :
    ReadsAs ('0' :: '.' :: (List.replicate (-leading - 1).toNat '0' ++ digits))
      (Decimal.value ⟨Numeral.valueOf digits, exponent⟩) := by
  intro negative start after closes
  have places : ∀ c ∈ List.replicate (-leading - 1).toNat '0' ++ digits, c.isDigit = true := by
    intro c mem
    rcases List.mem_append.mp mem with zero | mem
    · exact isDigit_of_mem_zeros zero
    · exact each c mem
  refine ⟨_, ?_,
    unsignedNumber_point (isWhole_decimalDigits 0) places (by simp [nonempty]) closes _ _⟩
  rw [Numeral.valueOf_append, Numeral.valueOf_append, Numeral.valueOf_decimalDigits,
    Numeral.valueOf_replicate_zero, zero_mul, zero_mul, zero_add, zero_add, List.length_append,
    List.length_replicate]
  congr 2
  omega

variable (head : digits.head? = some first) (nonzero : first ≠ '0')
  (each : ∀ c ∈ digits, c.isDigit = true) (leading_eq : exponent + digits.length - 1 = leading)

include head nonzero each leading_eq

/-- Digits that all stand before the point, with zeros up to it. -/
theorem readsAs_whole (integral : digits.length ≤ leading.toNat + 1) (notSmall : ¬leading < 0) :
    ReadsAs (digits ++ List.replicate (leading.toNat + 1 - digits.length) '0' ++ ['.', '0'])
      (Decimal.value ⟨Numeral.valueOf digits, exponent⟩) := by
  intro negative start after closes
  have whole : IsWhole (digits ++ List.replicate (leading.toNat + 1 - digits.length) '0') := by
    apply isWhole_of_head? (by rw [List.head?_append, head, Option.some_or]) nonzero
    intro c mem
    rcases List.mem_append.mp mem with mem | zero
    · exact each c mem
    · exact isDigit_of_mem_zeros zero
  have places : ∀ c ∈ ['0'], c.isDigit = true := by simp
  have point : Numeral.valueOf ['0'] = 0 := rfl
  rw [List.append_assoc]
  refine ⟨_, ?_, unsignedNumber_point whole places (by simp) closes _ _⟩
  rw [Numeral.valueOf_append, Numeral.valueOf_append, Numeral.valueOf_replicate_zero, point,
    add_zero, add_zero, mul_assoc, ← pow_add, Decimal.value_mul_pow, List.length_replicate,
    List.length_singleton]
  congr 2
  omega

/-- Digits with the point between them. -/
theorem readsAs_divided (divided : ¬digits.length ≤ leading.toNat + 1) (notSmall : ¬leading < 0) :
    ReadsAs (digits.take (leading.toNat + 1) ++ '.' :: digits.drop (leading.toNat + 1))
      (Decimal.value ⟨Numeral.valueOf digits, exponent⟩) := by
  intro negative start after closes
  have whole : IsWhole (digits.take (leading.toNat + 1)) := by
    apply isWhole_of_head? _ nonzero fun c mem => each c (List.mem_of_mem_take mem)
    rw [List.head?_take, if_neg (Nat.succ_ne_zero _), head]
  have places : ∀ c ∈ digits.drop (leading.toNat + 1), c.isDigit = true :=
    fun c mem => each c (List.mem_of_mem_drop mem)
  have nonempty : digits.drop (leading.toNat + 1) ≠ [] := by
    rwa [ne_eq, List.drop_eq_nil_iff]
  rw [List.append_assoc, List.cons_append]
  refine ⟨_, ?_, unsignedNumber_point whole places nonempty closes _ _⟩
  rw [List.take_append_drop, List.length_drop]
  congr 2
  omega

/-- Digits with an exponent, the point behind the first of them. -/
theorem readsAs_scientific (layout : Layout)
    (far : ¬(layout.positionalFrom ≤ leading ∧ leading < layout.positionalBelow)) :
    ReadsAs (layout.place digits leading) (Decimal.value ⟨Numeral.valueOf digits, exponent⟩) := by
  intro negative start after closes
  rw [Layout.place.eq_def, if_neg far]
  match digits with
  | [] => cases head
  | [digit] =>
      have whole : IsWhole [digit] := isWhole_of_head? head nonzero each
      refine ⟨_, ?_, unsignedNumber_exponent whole leading closes _ _⟩
      congr 2
      simp only [List.length_singleton] at leading_eq
      omega
  | digit :: second :: rest =>
      cases head
      have whole : IsWhole [first] :=
        isWhole_of_head? rfl nonzero fun c mem =>
          each c (List.mem_cons.mpr (.inl (List.mem_singleton.mp mem)))
      have places : ∀ c ∈ second :: rest, c.isDigit = true :=
        fun c mem => each c (List.mem_cons_of_mem _ mem)
      have read :=
        unsignedNumber_point_exponent whole places (by simp) leading closes negative start
      refine ⟨_, ?_, by simpa only [List.append_assoc, List.cons_append, List.nil_append]
        using read⟩
      congr 2
      rw [List.length_cons] at leading_eq
      omega

end

/-- A numeral is read with its value, whichever way its digits are laid out. -/
theorem readsAs_place {coefficient : ℕ} (positive : 0 < coefficient) (exponent : ℤ) :
    ReadsAs (Layout.exact.place (decimalDigits coefficient)
        (exponent + (decimalDigits coefficient).length - 1))
      (Decimal.value ⟨coefficient, exponent⟩) := by
  have each : ∀ c ∈ decimalDigits coefficient, c.isDigit = true :=
    fun c mem => isDigit_of_mem_decimalDigits mem
  have nonempty := decimalDigits_ne_nil coefficient
  have nonzero := head?_decimalDigits_ne_zero positive
  have value := Numeral.valueOf_decimalDigits coefficient
  generalize decimalDigits coefficient = digits at each nonempty nonzero value ⊢
  subst value
  cases head : digits.head? with
  | none => exact absurd (List.head?_eq_none_iff.mp head) nonempty
  | some first =>
      rw [head, ne_eq, Option.some.injEq] at nonzero
      generalize leading_eq : exponent + (digits.length : ℤ) - 1 = leading
      by_cases positional :
        Layout.exact.positionalFrom ≤ leading ∧ leading < Layout.exact.positionalBelow
      · rw [Layout.place.eq_def, if_pos positional]
        by_cases small : leading < 0
        · rw [if_pos small]
          exact readsAs_below_one each nonempty leading_eq small
        · simp only [if_neg small]
          by_cases integral : digits.length ≤ leading.toNat + 1
          · rw [if_pos integral]
            exact readsAs_whole head nonzero each leading_eq integral small
          · rw [if_neg integral]
            exact readsAs_divided head nonzero each leading_eq integral small
      · exact readsAs_scientific head nonzero each leading_eq _ positional

theorem startsWithDigit_of_unsignedNumber {negative : Bool} {start text after : List Char}
    {data : Data} (read : unsignedNumber negative start text = .ok (data, after)) :
    ∃ c rest, text = c :: rest ∧ c.isDigit = true := by
  have some_whole : (wholePart text).isEmpty = false := by
    by_contra none_whole
    rw [Bool.not_eq_false] at none_whole
    simp only [unsignedNumber, if_pos none_whole, refuse] at read
    cases read
  cases text with
  | nil => cases some_whole
  | cons c rest =>
      refine ⟨c, rest, rfl, ?_⟩
      by_contra notDigit
      have notZero : c ≠ '0' := by
        rintro rfl
        exact notDigit rfl
      simp [wholePart, notZero, notDigit] at some_whole

/-- What begins with a digit, perhaps after a sign, is a number. -/
theorem plainValue_number {negative : Bool} {text after : List Char} {data : Data}
    (read : ∀ start, unsignedNumber negative start text = .ok (data, after)) :
    plainValue ((if negative then ['-'] else []) ++ text) = .ok (data, after) := by
  rcases startsWithDigit_of_unsignedNumber (read []) with ⟨c, rest, rfl, isDigit⟩
  have different : ∀ other, Char.isDigit other = false → c ≠ other := by
    rintro other notDigit rfl
    rw [isDigit] at notDigit
    cases notDigit
  have c_ne_n := different 'n' rfl
  have c_ne_t := different 't' rfl
  have c_ne_f := different 'f' rfl
  have c_ne_N := different 'N' rfl
  have c_ne_I := different 'I' rfl
  have c_ne_minus := different '-' rfl
  cases negative with
  | true => simp [plainValue, dropStart?, c_ne_I.symm, read]
  | false =>
      simp [plainValue, dropStart?, c_ne_n.symm, c_ne_t.symm, c_ne_f.symm, c_ne_N.symm, c_ne_I.symm,
        c_ne_minus, c_ne_minus.symm, read]

theorem toString_int (value : ℤ) :
    (toString value).toList =
      (if decide (value < 0) then ['-'] else []) ++ decimalDigits value.natAbs := by
  cases value with
  | ofNat natural => simp [toString, Int.repr, Nat.repr, decimalDigits]
  | negSucc natural => simp [toString, Int.repr, Nat.repr, decimalDigits, Int.negSucc_lt_zero]

/-- An integer is read back from its digits. -/
theorem plainValue_integer {value : ℤ} (short : value.natAbs < 10 ^ digitLimit) {after : List Char}
    (closes : Closes after) :
    plainValue ((toString value).toList ++ after) = .ok (.int value, after) := by
  rw [toString_int, List.append_assoc]
  apply plainValue_number
  intro start
  have length_le : (decimalDigits value.natAbs).length ≤ digitLimit :=
    (length_decimalDigits_le_iff (by decide)).mpr short
  rw [unsignedNumber_integer (isWhole_decimalDigits _) length_le closes,
    Numeral.valueOf_decimalDigits]
  congr 3
  by_cases negative : value < 0
  · rw [if_pos (decide_eq_true negative)]
    omega
  · rw [if_neg (by simpa using negative)]
    omega

/-- A float is read back from its text, an infinity and not a number by name. -/
theorem plainValue_floatText (value : Binary64) {after : List Char} (closes : Closes after) :
    plainValue ((floatText value).toList ++ after) = .ok (.float value, after) := by
  cases value with
  | nan => simp [plainValue, floatText, dropStart?]
  | infinite negative => cases negative <;> simp [plainValue, floatText, dropStart?]
  | finite negative magnitude =>
      simp only [floatText, String.toList_ofList, Layout.render, List.append_assoc]
      apply plainValue_number
      intro start
      rcases Nat.eq_zero_or_pos magnitude.significand with zero | positive
      · have isZero : magnitude = .zero :=
          Magnitude.ext_quanta (by rw [Magnitude.quanta, zero, zero_mul]; rfl)
        have zeros : ∀ c ∈ ['0'], c.isDigit = true := by simp
        rw [isZero]
        exact unsignedNumber_point (isWhole_decimalDigits 0) zeros (by simp) closes negative start
      · rw [Layout.magnitudeText, if_neg positive.ne']
        have coefficient_pos :=
          Decimal.coefficient_pos (Magnitude.covers_shortest positive) positive
        rcases readsAs_place coefficient_pos _ negative start after closes with
          ⟨decimal, same, read⟩
        rw [Decimal.toBinary64_of_value_eq same positive] at read
        exact read

end Json

end Scorecard
