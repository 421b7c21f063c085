import Mathlib
import Scorecard.Json.Text

/-!
# Reading written strings

Each character of a written string is read back from its escape, or from itself: the four
hexadecimal digits of a unit give the unit, and the two units of a pair give its character. So the
string is read back, up to its closing quote.
-/

namespace Scorecard

theorem hexDigits_one {value : ℕ} (small : value < 16) : hexDigits 1 value = [value.digitChar] := by
  simp only [hexDigits, Nat.toDigits_of_lt_base small]
  rfl

theorem hexDigits_succ {width value : ℕ} (positive : 0 < width) :
    hexDigits (width + 1) value = hexDigits width (value / 16) ++ [(value % 16).digitChar] := by
  simp only [hexDigits]
  by_cases small : value < 16
  · rw [Nat.toDigits_of_lt_base small, Nat.div_eq_of_lt small, Nat.mod_eq_of_lt small,
      Nat.toDigits_zero]
    cases width with
    | zero => exact absurd positive (lt_irrefl 0)
    | succ width =>
        simp [List.replicate_succ']
  · rw [Nat.toDigits_of_base_le (by decide) (by omega), List.length_append, List.length_singleton,
      ← List.append_assoc, Nat.add_sub_add_right]

theorem hexDigits_four {value : ℕ} (small : value < 0x10000) :
    hexDigits 4 value = [(value / 16 / 16 / 16).digitChar, (value / 16 / 16 % 16).digitChar,
      (value / 16 % 16).digitChar, (value % 16).digitChar] := by
  rw [hexDigits_succ (by decide), hexDigits_succ (by decide), hexDigits_succ (by decide),
    hexDigits_one (by omega)]
  rfl

namespace Json

theorem hexValue?_digitChar {digit : ℕ} (small : digit < 16) :
    hexValue? digit.digitChar = some digit := by
  interval_cases digit <;> rfl

/-- A unit is read back from its four digits. -/
theorem unit?_hexDigits {unit : ℕ} (small : unit < 0x10000) {rest : List Char}
    (nonempty : rest ≠ []) : unit? (hexDigits 4 unit ++ rest) = some unit := by
  rw [hexDigits_four small]
  cases rest with
  | nil => exact absurd rfl nonempty
  | cons c rest =>
      simp only [List.cons_append, List.nil_append, unit?]
      rw [hexValue?_digitChar (by omega), hexValue?_digitChar (by omega),
        hexValue?_digitChar (by omega), hexValue?_digitChar (by omega)]
      simp only [Option.pure_def, Option.bind_eq_bind, Option.bind_some, Option.some.injEq]
      omega

theorem length_hexDigits_four {unit : ℕ} (small : unit < 0x10000) :
    (hexDigits 4 unit).length = 4 := by
  rw [hexDigits_four small]
  rfl

theorem isHighSurrogate_iff (unit : ℕ) :
    isHighSurrogate unit = true ↔ 0xD800 ≤ unit ∧ unit ≤ 0xDBFF := by
  simp [isHighSurrogate]

theorem isLowSurrogate_iff (unit : ℕ) :
    isLowSurrogate unit = true ↔ 0xDC00 ≤ unit ∧ unit ≤ 0xDFFF := by
  simp [isLowSurrogate]

theorem lt_of_isHighSurrogate {unit : ℕ} (isHigh : isHighSurrogate unit = true) :
    unit < 0x10000 := by
  rw [isHighSurrogate_iff] at isHigh
  omega

theorem lt_of_isLowSurrogate {unit : ℕ} (isLow : isLowSurrogate unit = true) : unit < 0x10000 := by
  rw [isLowSurrogate_iff] at isLow
  omega

/-- The code of a character is below the surrogates, or above them and in the last plane at most. -/
theorem toNat_range (c : Char) : c.toNat < 0xD800 ∨ (0xDFFF < c.toNat ∧ c.toNat < 0x110000) :=
  c.valid

theorem not_isHighSurrogate (c : Char) : isHighSurrogate c.toNat = false := by
  rw [Bool.eq_false_iff, ne_eq, isHighSurrogate_iff]
  have range := toNat_range c
  omega

theorem not_isLowSurrogate (c : Char) : isLowSurrogate c.toNat = false := by
  rw [Bool.eq_false_iff, ne_eq, isLowSurrogate_iff]
  have range := toNat_range c
  omega

theorem unitChar_toNat (c : Char) : unitChar c.toNat = c := by
  rw [unitChar, not_isHighSurrogate, not_isLowSurrogate, Bool.or_self, if_neg (by decide),
    Char.ofNat_toNat]

/-- The escape of a character that is one unit. -/
theorem unicodeEscape_unit {c : Char} (small : c.toNat < 0x10000) {rest : List Char}
    (nonempty : rest ≠ []) : unicodeEscape (hexDigits 4 c.toNat ++ rest) = .ok (c, 4) := by
  have behind : (hexDigits 4 c.toNat ++ rest).drop 4 = rest :=
    List.drop_left' (length_hexDigits_four small)
  simp only [unicodeEscape, unit?_hexDigits small nonempty, behind, unitChar_toNat,
    not_isHighSurrogate, Bool.false_and, Bool.false_eq_true, if_false]
  split <;> rfl

/-- A character beyond the first plane is a pair of units. -/
theorem exists_pair {c : Char} (large : 0x10000 ≤ c.toNat) :
    ∃ high low, 0xD800 + (c.toNat - 0x10000) / 0x400 = high ∧
      0xDC00 + (c.toNat - 0x10000) % 0x400 = low ∧
      isHighSurrogate high = true ∧ isLowSurrogate low = true ∧
      0x10000 + (high - 0xD800) * 0x400 + (low - 0xDC00) = c.toNat := by
  have range := toNat_range c
  refine ⟨_, _, rfl, rfl, ?_, ?_, ?_⟩
  · rw [isHighSurrogate_iff]
    omega
  · rw [isLowSurrogate_iff]
    omega
  · omega

/-- The escapes of the two units of a pair. -/
theorem unicodeEscape_pair {high low : ℕ} (isHigh : isHighSurrogate high = true)
    (isLow : isLowSurrogate low = true) {rest : List Char} (nonempty : rest ≠ []) :
    unicodeEscape (hexDigits 4 high ++ (unitEscape low ++ rest)) =
      .ok (Char.ofNat (0x10000 + (high - 0xD800) * 0x400 + (low - 0xDC00)), 10) := by
  have high_lt := lt_of_isHighSurrogate isHigh
  have low_lt := lt_of_isLowSurrogate isLow
  have enough : 4 < (hexDigits 4 low ++ rest).length := by
    have rest_pos := List.length_pos_of_ne_nil nonempty
    rw [List.length_append, length_hexDigits_four low_lt]
    omega
  have behind : (hexDigits 4 high ++ (unitEscape low ++ rest)).drop 4 =
      '\\' :: 'u' :: (hexDigits 4 low ++ rest) :=
    List.drop_left' (length_hexDigits_four high_lt)
  have readHigh : unit? (hexDigits 4 high ++ (unitEscape low ++ rest)) = some high :=
    unit?_hexDigits high_lt (List.cons_ne_nil _ _)
  simp only [unicodeEscape, readHigh, behind, isHigh, enough, decide_true, Bool.and_self, if_true,
    unit?_hexDigits low_lt nonempty, isLow]

theorem stringRest_skip (opening : ℕ) (front rest : List Char) :
    stringRest opening front.length (front ++ rest) = stringRest opening 0 rest := by
  induction front with
  | nil => rfl
  | cons c front ih => exact ih

/-- An escape in a string gives its character and is skipped. -/
theorem stringRest_escape {opening : ℕ} {c : Char} {body rest text after : List Char}
    (nonempty : body ≠ []) (read : escape (body ++ rest) = .ok (c, body.length))
    (goesOn : stringRest opening 0 rest = .ok (text, after)) :
    stringRest opening 0 ('\\' :: (body ++ rest)) = .ok (c :: text, after) := by
  have some_rest : (body ++ rest).isEmpty = false := by simp [nonempty]
  rw [stringRest, if_neg (by decide), if_pos rfl, some_rest, read]
  simp only [Bool.false_eq_true, if_false]
  change (stringRest opening body.length (body ++ rest) >>= _) = _
  rw [stringRest_skip, goesOn]
  rfl

/-- An escape of one character. -/
theorem stringRest_shortEscape {opening : ℕ} {mark c : Char} {rest text after : List Char}
    (read : escape (mark :: rest) = .ok (c, 1))
    (goesOn : stringRest opening 0 rest = .ok (text, after)) :
    stringRest opening 0 ('\\' :: mark :: rest) = .ok (c :: text, after) :=
  stringRest_escape (List.cons_ne_nil mark []) read goesOn

/-- A character of the first plane is read back from the escape of its unit. -/
theorem stringRest_unit {opening : ℕ} {c : Char} (small : c.toNat < 0x10000)
    {rest text after : List Char} (nonempty : rest ≠ [])
    (goesOn : stringRest opening 0 rest = .ok (text, after)) :
    stringRest opening 0 (unitEscape c.toNat ++ rest) = .ok (c :: text, after) := by
  have read : escape ('u' :: hexDigits 4 c.toNat ++ rest) =
      .ok (c, ('u' :: hexDigits 4 c.toNat).length) := by
    rw [List.cons_append, escape, unicodeEscape_unit small nonempty, List.length_cons,
      length_hexDigits_four small]
    rfl
  exact stringRest_escape (List.cons_ne_nil _ _) read goesOn

/-- A character beyond the first plane is read back from the escapes of a pair. -/
theorem stringRest_pair {opening : ℕ} {c : Char} (large : 0x10000 ≤ c.toNat)
    {rest text after : List Char} (nonempty : rest ≠ [])
    (goesOn : stringRest opening 0 rest = .ok (text, after)) :
    stringRest opening 0 (unitEscape (0xD800 + (c.toNat - 0x10000) / 0x400) ++
      unitEscape (0xDC00 + (c.toNat - 0x10000) % 0x400) ++ rest) = .ok (c :: text, after) := by
  rcases exists_pair large with ⟨high, low, high_eq, low_eq, isHigh, isLow, code⟩
  have pair := unicodeEscape_pair isHigh isLow nonempty
  rw [code, Char.ofNat_toNat] at pair
  rw [high_eq, low_eq]
  have read : escape ('u' :: (hexDigits 4 high ++ unitEscape low) ++ rest) =
      .ok (c, ('u' :: (hexDigits 4 high ++ unitEscape low)).length) := by
    rw [List.cons_append, List.append_assoc, escape, pair, List.length_cons, List.length_append,
      unitEscape, List.length_cons, List.length_cons,
      length_hexDigits_four (lt_of_isHighSurrogate isHigh),
      length_hexDigits_four (lt_of_isLowSurrogate isLow)]
    rfl
  exact stringRest_escape (List.cons_ne_nil _ _) read goesOn

/-- A written character is read back. -/
theorem stringRest_stringChar {opening : ℕ} (c : Char) {rest text after : List Char}
    (nonempty : rest ≠ []) (goesOn : stringRest opening 0 rest = .ok (text, after)) :
    stringRest opening 0 (stringChar c ++ rest) = .ok (c :: text, after) := by
  rw [stringChar]
  split
  · next quoteOrBackslash =>
      apply stringRest_shortEscape _ goesOn
      rcases quoteOrBackslash with rfl | rfl <;> rfl
  next notQuoteOrBackslash =>
  split
  · next lineFeed =>
      subst lineFeed
      exact stringRest_shortEscape rfl goesOn
  split
  · next carriageReturn =>
      subst carriageReturn
      exact stringRest_shortEscape rfl goesOn
  split
  · next tab =>
      subst tab
      exact stringRest_shortEscape rfl goesOn
  split
  · next backspace =>
      apply stringRest_shortEscape _ goesOn
      rw [← Char.ofNat_toNat c, backspace]
      rfl
  split
  · next formFeed =>
      apply stringRest_shortEscape _ goesOn
      rw [← Char.ofNat_toNat c, formFeed]
      rfl
  split
  · next plain =>
      rw [not_or] at notQuoteOrBackslash
      rw [List.singleton_append, stringRest, if_neg notQuoteOrBackslash.1,
        if_neg notQuoteOrBackslash.2, if_neg (by omega), goesOn]
      rfl
  split
  · next small => exact stringRest_unit small nonempty goesOn
  · next large => exact stringRest_pair (not_lt.mp large) nonempty goesOn

/-- A written string is read back, up to its closing quote. -/
theorem stringRest_append (opening : ℕ) (text after : List Char) :
    stringRest opening 0 (text.flatMap stringChar ++ '"' :: after) = .ok (text, after) := by
  induction text with
  | nil => rfl
  | cons c text ih =>
      rw [List.flatMap_cons, List.append_assoc]
      exact stringRest_stringChar c (by simp) ih

end Json

end Scorecard
