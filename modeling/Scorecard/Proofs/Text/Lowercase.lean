import Mathlib
import Scorecard.Text.Lowercase
import Scorecard.Proofs.Text.Blank

/-!
# Lowering twice

What a text is lowered to holds only characters that lowering keeps, so lowering it again changes
nothing. No character that is not blank is lowered to a blank one, so a stripped text is still
stripped when it is lowered. Both rest on the table of lower-case forms: no row of it leads to a
code from which a row starts, nor to a blank one.
-/

namespace Scorecard

/-- The bits of `count` codes from `first` on, `step` apart. -/
def bitsFrom (first step : ℕ) : ℕ → ℕ
  | 0 => 0
  | count + 1 => 1 <<< first ||| bitsFrom (first + step) step count

/-- The bits of the codes of some ranges `(first, last, step)`. -/
def bitsOf : List (ℕ × ℕ × ℕ) → ℕ
  | [] => 0
  | (first, last, step) :: rest => bitsFrom first step ((last - first) / step + 1) ||| bitsOf rest

theorem testBit_bitsFrom {first step count index : ℕ} (within : index < count) :
    (bitsFrom first step count).testBit (first + index * step) = true := by
  induction count generalizing first index with
  | zero => exact absurd within (Nat.not_lt_zero index)
  | succ count ih =>
      rw [bitsFrom, Nat.testBit_or, Bool.or_eq_true]
      cases index with
      | zero =>
          left
          rw [Nat.zero_mul, Nat.add_zero, Nat.one_shiftLeft, Nat.testBit_two_pow_self]
      | succ index =>
          right
          rw [Nat.succ_mul, Nat.add_comm (index * step), ← Nat.add_assoc]
          exact ih (Nat.lt_of_succ_lt_succ within)

theorem testBit_bitsOf {ranges : List (ℕ × ℕ × ℕ)} {first last step code : ℕ}
    (mem : (first, last, step) ∈ ranges) (low : first ≤ code) (high : code ≤ last)
    (onStep : (code - first) % step = 0) : (bitsOf ranges).testBit code = true := by
  induction ranges with
  | nil => cases mem
  | cons range rest ih =>
      rw [bitsOf, Nat.testBit_or, Bool.or_eq_true]
      rcases List.mem_cons.mp mem with rfl | mem
      · left
        have index_lt : (code - first) / step < (last - first) / step + 1 :=
          Nat.lt_succ_of_le (Nat.div_le_div_right (Nat.sub_le_sub_right high first))
        have reached : first + (code - first) / step * step = code := by
          rw [Nat.div_mul_cancel (Nat.dvd_of_mod_eq_zero onStep), Nat.add_sub_cancel' low]
        rw [← reached]
        exact testBit_bitsFrom index_lt
      · exact .inr (ih mem)

/-- The codes from which the rows of the table start. -/
def startRanges : List (ℕ × ℕ × ℕ) :=
  lowercaseRows.toList.map fun (first, last, step, _) => (first, last, step)

/-- The codes to which the rows of the table lead. -/
def reachedRanges : List (ℕ × ℕ × ℕ) :=
  lowercaseRows.toList.map fun (first, last, step, target) =>
    (target, target + (last - first), step)

/-- Other codes to which no row leads: blanks, the capitals of ASCII, the dotted capital I, the
capital sigma and the codes of no character. -/
def avoidedRanges : List (ℕ × ℕ × ℕ) :=
  [(0x09, 0x0D, 1), (0x1C, 0x20, 1), (0x41, 0x5A, 1), (0x85, 0x85, 1), (0xA0, 0xA0, 1),
    (0x130, 0x130, 1), (0x3A3, 0x3A3, 1), (0x1680, 0x1680, 1), (0x2000, 0x200A, 1),
    (0x2028, 0x2029, 1), (0x202F, 0x202F, 1), (0x205F, 0x205F, 1), (0x3000, 0x3000, 1),
    (0xD800, 0xDFFF, 1)]

-- Each set of codes is one number here, since comparing the rows pair by pair is slow to check.
theorem reached_apart : bitsOf reachedRanges &&& bitsOf (startRanges ++ avoidedRanges) = 0 ∧
    ∀ range ∈ reachedRanges, range.2.1 < 0x110000 := by
  decide +kernel

theorem not_mem_of_reached {code first last step : ℕ}
    (reached : (bitsOf reachedRanges).testBit code = true)
    (mem : (first, last, step) ∈ startRanges ++ avoidedRanges) :
    ¬(first ≤ code ∧ code ≤ last ∧ (code - first) % step = 0) := by
  rintro ⟨low, high, onStep⟩
  have both := congrArg (Nat.testBit · code) reached_apart.1
  simp only [Nat.testBit_and, Nat.zero_testBit, reached, testBit_bitsOf mem low high onStep] at both
  cases both

/-- The character is kept by lowering, wherever it stands. -/
def IsLowered (c : Char) : Prop :=
  c.toNat ≠ 0x130 ∧ c.toNat ≠ 0x3A3 ∧ lowerChar c = c
deriving Decidable

theorem lowered_ascii : ∀ code < 128,
    (¬(0x41 ≤ code ∧ code ≤ 0x5A) → IsLowered (Char.ofNat code)) ∧
      IsLowered (lowerChar (Char.ofNat code)) ∧
      (isBlank (Char.ofNat code) = false → isBlank (lowerChar (Char.ofNat code)) = false) := by
  decide +kernel

/-- Beyond ASCII, a character from which no row starts is kept. -/
theorem lowerChar_of_no_row {c : Char} (ascii : ¬c.toNat < 128)
    (none : ∀ row ∈ lowercaseRows.toList,
      ¬(row.1 ≤ c.toNat ∧ c.toNat ≤ row.2.1 ∧ (c.toNat - row.1) % row.2.2.1 = 0)) :
    lowerChar c = c := by
  rw [lowerChar, if_neg ascii, Array.find?_eq_none.mpr]
  rintro ⟨first, last, step, target⟩ mem
  rw [decide_eq_true_eq]
  exact none _ (Array.mem_toList_iff.mpr mem)

/-- A row leads to characters that lowering keeps and that are not blank. -/
theorem lowered_of_row {rowFirst rowLast rowStep target offset : ℕ}
    (mem : (rowFirst, rowLast, rowStep, target) ∈ lowercaseRows.toList)
    (within : offset ≤ rowLast - rowFirst) (onStep : offset % rowStep = 0) :
    IsLowered (Char.ofNat (target + offset)) ∧ isBlank (Char.ofNat (target + offset)) = false := by
  have range : (target, target + (rowLast - rowFirst), rowStep) ∈ reachedRanges :=
    List.mem_map.mpr ⟨_, mem, rfl⟩
  have bound : target + (rowLast - rowFirst) < 0x110000 := reached_apart.2 _ range
  have reached : (bitsOf reachedRanges).testBit (target + offset) = true :=
    testBit_bitsOf range (Nat.le_add_right _ _) (Nat.add_le_add_left within _)
      (by rwa [Nat.add_sub_cancel_left])
  have avoided :
      ∀ other ∈ avoidedRanges, ¬(other.1 ≤ target + offset ∧ target + offset ≤ other.2.1 ∧
        (target + offset - other.1) % other.2.2 = 0) :=
    fun _ otherMem => not_mem_of_reached reached (List.mem_append_right _ otherMem)
  simp only [avoidedRanges, List.forall_mem_cons, List.not_mem_nil, false_implies, implies_true,
    Nat.mod_one, and_true] at avoided
  have code : (Char.ofNat (target + offset)).toNat = target + offset := by
    rw [Char.toNat_ofNat, if_pos]
    simp only [Nat.isValidChar]
    omega
  refine ⟨⟨by omega, by omega, ?_⟩, ?_⟩
  · by_cases ascii : target + offset < 128
    · exact ((lowered_ascii _ ascii).1 (by omega)).2.2
    · apply lowerChar_of_no_row
      · rwa [code]
      · intro other otherMem
        rw [code]
        exact not_mem_of_reached reached
          (List.mem_append_left _ (List.mem_map.mpr ⟨other, otherMem, rfl⟩))
  · simp only [isBlank, code, Bool.or_eq_false_iff, Bool.and_eq_false_iff, beq_eq_false_iff_ne,
      decide_eq_false_iff_not]
    omega

/-- What a character other than the dotted capital I and the capital sigma is lowered to is kept,
and blank only if the character is. -/
theorem lowered_lowerChar {c : Char} (notDotted : c.toNat ≠ 0x130) (notSigma : c.toNat ≠ 0x3A3) :
    IsLowered (lowerChar c) ∧ (isBlank c = false → isBlank (lowerChar c) = false) := by
  by_cases ascii : c.toNat < 128
  · rw [← Char.ofNat_toNat c]
    exact (lowered_ascii _ ascii).2
  · cases found : lowercaseRows.find? fun (first, last, step, _) =>
        first ≤ c.toNat ∧ c.toNat ≤ last ∧ (c.toNat - first) % step = 0 with
    | none =>
        have kept : lowerChar c = c := by
          rw [lowerChar, if_neg ascii, found]
        rw [kept]
        exact ⟨⟨notDotted, notSigma, kept⟩, id⟩
    | some row =>
        rcases row with ⟨first, last, step, target⟩
        have met := Array.find?_some found
        rw [decide_eq_true_eq] at met
        have sent : lowerChar c = Char.ofNat (target + (c.toNat - first)) := by
          rw [lowerChar, if_neg ascii, found]
        have reached := lowered_of_row (Array.mem_toList_iff.mpr (Array.mem_of_find?_eq_some found))
          (Nat.sub_le_sub_right met.2.1 first) met.2.2
        rw [sent]
        exact ⟨reached.1, fun _ => reached.2⟩

/-- The characters that stand for the dotted capital I and the capital sigma are kept themselves. -/
theorem lowered_special : ∀ code ∈ [0x69, 0x307, 0x3C2, 0x3C3],
    IsLowered (Char.ofNat code) ∧ isBlank (Char.ofNat code) = false := by
  decide +kernel

/-- The first character of a text leaves lowered characters, which are blank only if it is. -/
theorem lowerAfter_cons (before : List Char) (c : Char) (rest : List Char) :
    ∃ front, lowerAfter before (c :: rest) = front ++ lowerAfter (c :: before) rest ∧ front ≠ [] ∧
      ∀ d ∈ front, IsLowered d ∧ (isBlank c = false → isBlank d = false) := by
  have special : ∀ code ∈ [0x69, 0x307, 0x3C2, 0x3C3], IsLowered (Char.ofNat code) ∧
      (isBlank c = false → isBlank (Char.ofNat code) = false) :=
    fun code mem => (lowered_special code mem).imp_right fun solid _ => solid
  rw [lowerAfter]
  by_cases dotted : c.toNat = 0x130
  · rw [if_pos dotted]
    refine ⟨_, rfl, by simp, ?_⟩
    simp only [List.forall_mem_cons]
    exact ⟨special 0x69 (by decide), special 0x307 (by decide), by simp⟩
  rw [if_neg dotted]
  by_cases sigma : c.toNat = 0x3A3
  · rw [if_pos sigma]
    refine ⟨_, rfl, by simp, ?_⟩
    simp only [List.mem_singleton, forall_eq]
    split
    · exact special 0x3C2 (by decide)
    · exact special 0x3C3 (by decide)
  · rw [if_neg sigma]
    refine ⟨_, rfl, by simp, ?_⟩
    simp only [List.mem_singleton, forall_eq]
    exact lowered_lowerChar dotted sigma

theorem isLowered_of_mem_lowerAfter {before text : List Char} {c : Char}
    (mem : c ∈ lowerAfter before text) : IsLowered c := by
  induction text generalizing before with
  | nil => cases mem
  | cons first rest ih =>
      rcases lowerAfter_cons before first rest with ⟨front, lowered, _, each⟩
      rw [lowered, List.mem_append] at mem
      rcases mem with mem | mem
      · exact (each c mem).1
      · exact ih mem

theorem lowerAfter_of_isLowered {text : List Char} (lowered : ∀ c ∈ text, IsLowered c)
    (before : List Char) : lowerAfter before text = text := by
  induction text generalizing before with
  | nil => rfl
  | cons c rest ih =>
      rw [List.forall_mem_cons] at lowered
      rcases lowered.1 with ⟨notDotted, notSigma, kept⟩
      rw [lowerAfter, if_neg notDotted, if_neg notSigma, kept, ih lowered.2, List.singleton_append]

@[simp]
theorem lower_lower (text : List Char) : lower (lower text) = lower text :=
  lowerAfter_of_isLowered (fun _ mem => isLowered_of_mem_lowerAfter mem) []

/-- The text neither starts nor ends with a blank. -/
def IsStripped (text : List Char) : Prop :=
  (∀ c ∈ text.head?, isBlank c = false) ∧ ∀ c ∈ text.getLast?, isBlank c = false

theorem IsStripped.strip_eq {text : List Char} (stripped : IsStripped text) :
    strip text = text := by
  cases text with
  | nil => rfl
  | cons c rest =>
      have front : stripLeft (c :: rest) = c :: rest := stripLeft_cons (stripped.1 c rfl) rest
      rw [strip, front]
      apply List.rdropWhile_eq_self_iff.mpr
      intro nonempty
      rw [stripped.2 _ (List.getLast?_eq_getLast_of_ne_nil nonempty)]
      exact Bool.false_ne_true

theorem isStripped_strip (text : List Char) : IsStripped (strip text) := by
  constructor
  · cases starts : stripLeft text with
    | nil =>
        rw [strip, starts]
        simp [stripRight]
    | cons c rest =>
        rw [strip_of_stripLeft starts]
        simpa using not_isBlank_of_stripLeft starts
  · intro c last
    rcases List.mem_getLast?_eq_getLast last with ⟨nonempty, rfl⟩
    exact eq_false_of_ne_true (List.rdropWhile_last_not isBlank (stripLeft text) nonempty)

/-- The last character stays no blank, whatever stands before the text. -/
theorem not_isBlank_getLast_lowerAfter {text : List Char} (before : List Char)
    (last : ∀ c ∈ text.getLast?, isBlank c = false) :
    ∀ c ∈ (lowerAfter before text).getLast?, isBlank c = false := by
  induction text generalizing before with
  | nil => simp [lowerAfter]
  | cons c rest ih =>
      rcases lowerAfter_cons before c rest with ⟨front, lowered, _, each⟩
      rw [lowered, List.getLast?_append]
      cases rest with
      | nil =>
          intro d mem
          exact (each d (List.mem_of_getLast? (by simpa [lowerAfter] using mem))).2 (last c rfl)
      | cons next rest =>
          rcases lowerAfter_cons (c :: before) next rest with ⟨more, later, moreNonempty, _⟩
          have present : (lowerAfter (c :: before) (next :: rest)).getLast? ≠ none := by
            rw [later, ne_eq, List.getLast?_eq_none_iff, List.append_eq_nil_iff]
            exact fun empty => moreNonempty empty.1
          rw [Option.or_of_isSome (Option.isSome_iff_ne_none.mpr present)]
          exact ih (c :: before) fun d mem => last d (by simpa using mem)

/-- Lowering keeps the ends of a text free of blanks. -/
theorem IsStripped.lowerAfter {text : List Char} (stripped : IsStripped text) (before : List Char) :
    IsStripped (lowerAfter before text) := by
  constructor
  · cases text with
    | nil => simp [Scorecard.lowerAfter]
    | cons c rest =>
        rcases lowerAfter_cons before c rest with ⟨front, lowered, nonempty, each⟩
        rw [lowered]
        cases front with
        | nil => exact absurd rfl nonempty
        | cons d front =>
            simpa using (each d List.mem_cons_self).2 (stripped.1 c rfl)
  · exact not_isBlank_getLast_lowerAfter before stripped.2

theorem strip_lower_strip (text : List Char) : strip (lower (strip text)) = lower (strip text) :=
  ((isStripped_strip text).lowerAfter []).strip_eq

end Scorecard
