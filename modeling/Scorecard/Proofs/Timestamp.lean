import Scorecard.Proofs.Calendar
import Scorecard.Proofs.Number.FixedWidth

/-!
# The order of timestamps

The text of an instant gives its parts from the largest to the smallest, each with a width of its
own and a mark after it. A later instant has later parts, as lists of numbers are compared, because
every second is followed by the next one of its minute or by the first one of the next minute, and
so on up to the days, which the calendar follows. Where every part fits its width, the texts stand
in the order of the parts. So from the start of 1970 to the end of the year 9999 the order of the
texts is that of the instants.
-/

namespace Scorecard

namespace Timestamp

/-- The year, month and day of a date. -/
def dateParts (date : ℤ × ℤ × ℤ) : List ℤ :=
  [date.1, date.2.1, date.2.2]

/-- The hour, minute and second of a time, given in seconds from the start of a day. -/
def timeParts (time : ℤ) : List ℤ :=
  [time / 3600, time / 60 % 60, time % 60]

/-- The parts of an instant, from the year to the second. -/
def parts (seconds : ℤ) : List ℤ :=
  dateParts (dateOfDays (seconds / daySeconds)) ++ timeParts (seconds % daySeconds)

theorem dateParts_lt_nextDate (date : ℤ × ℤ × ℤ) : dateParts date < dateParts (nextDate date) := by
  rcases date with ⟨year, month, day⟩
  rw [nextDate]
  simp only [dateParts]
  split
  · simp [List.cons_lt_cons_iff]
  · split <;> simp [List.cons_lt_cons_iff]

theorem dateParts_strictMono : StrictMono fun days => dateParts (dateOfDays days) := by
  apply strictMono_int_of_lt_succ
  intro days
  rw [dateOfDays_succ]
  exact dateParts_lt_nextDate _

theorem timeParts_strictMono : StrictMono timeParts := by
  apply strictMono_int_of_lt_succ
  intro time
  simp only [timeParts, List.cons_lt_cons_iff, List.lt_irrefl, and_false, or_false]
  omega

/-- A later instant has later parts. -/
theorem parts_strictMono : StrictMono parts := by
  intro first second earlier
  have ordered := Int.ediv_le_ediv (by decide : 0 < daySeconds) earlier.le
  rw [parts, parts]
  rcases ordered.lt_or_eq with before | same
  · have dates := dateParts_strictMono before
    simp only [dateParts, List.cons_append, List.nil_append, List.cons_lt_cons_iff, List.lt_irrefl,
      and_false, or_false] at dates ⊢
    tauto
  · rw [same]
    apply List.append_left_lt
    apply timeParts_strictMono
    have first_eq := Int.mul_ediv_add_emod first daySeconds
    have second_eq := Int.mul_ediv_add_emod second daySeconds
    rw [same] at first_eq
    omega

/-- The width of each part of a date, and the mark after it. -/
def dateLayout : List (ℕ × Char) :=
  [(4, '-'), (2, '-'), (2, 'T')]

/-- The width of each part of a time, and the mark after it. -/
def timeLayout : List (ℕ × Char) :=
  [(2, ':'), (2, ':'), (2, 'Z')]

/-- The width of each part of a timestamp, and the mark after it. -/
def layout : List (ℕ × Char) :=
  dateLayout ++ timeLayout

/-- Parts with their widths and marks. -/
def written : List (ℕ × Char) → List ℤ → List Char
  | place :: places, part :: parts =>
      (paddedDigits place.1 part.toNat).toList ++ place.2 :: written places parts
  | _, _ => []

/-- A part fits the width of its place. -/
structure Fits (place : ℕ × Char) (part : ℤ) : Prop where
  positive : 0 < place.1
  nonneg : 0 ≤ part
  small : part < 10 ^ place.1

theorem Fits.toNat_lt {place : ℕ × Char} {part : ℤ} (fits : Fits place part) :
    part.toNat < 10 ^ place.1 := by
  rw [Int.toNat_lt fits.nonneg]
  exact_mod_cast fits.small

/-- Parts that fit their places are written in their order. -/
theorem written_lt {places : List (ℕ × Char)} {first second : List ℤ}
    (fits : List.Forall₂ Fits places first) (fitsToo : List.Forall₂ Fits places second)
    (less : first < second) : written places first < written places second := by
  induction fits generalizing second with
  | nil =>
      cases fitsToo
      exact absurd less (List.lt_irrefl [])
  | @cons place part places parts fit fits ih =>
      rcases fitsToo with _ | @⟨_, other, _, others, fitToo, fitsToo⟩
      rw [List.cons_lt_cons_iff] at less
      rw [written, written]
      rcases less with less | ⟨rfl, less⟩
      · apply append_lt_append_of_lt
        · exact paddedDigits_lt fit.positive
            ((Int.toNat_lt_toNat (fit.nonneg.trans_lt less)).mpr less) fitToo.toNat_lt
        · rw [length_paddedDigits fit.positive fit.toNat_lt,
            length_paddedDigits fit.positive fitToo.toNat_lt]
      · apply List.append_left_lt
        rw [List.cons_lt_cons_iff]
        exact .inr ⟨rfl, ih fitsToo less⟩

theorem toList_twoDigits {mark : Char} {value : ℤ} (fits : Fits (2, mark) value) :
    (twoDigits value.toNat).toList = (paddedDigits 2 value.toNat).toList := by
  have small := fits.toNat_lt
  generalize value.toNat = digits at small
  interval_cases digits <;> rfl

theorem toList_year {year : ℤ} (large : 1000 ≤ year) (small : year ≤ 9999) :
    (toString year).toList = (paddedDigits 4 year.toNat).toList := by
  have digits : 4 ≤ (decimalDigits year.toNat).length := by
    by_contra few
    have below := (length_decimalDigits_le_iff (by decide)).mp (Nat.le_of_lt_succ (not_le.mp few))
    omega
  rw [Json.toString_int, toList_paddedDigits, if_neg (by simp; omega), Nat.sub_eq_zero_of_le digits,
    List.replicate_zero, List.nil_append, List.nil_append, show year.natAbs = year.toNat by omega]

/-- The last second of the year 9999. -/
def lastSecond : ℤ := 253402300799

/-- The year of an instant. -/
def yearOf (seconds : ℤ) : ℤ :=
  (dateOfDays (seconds / daySeconds)).1

theorem yearOf_mono : Monotone yearOf := by
  intro first second earlier
  by_contra later
  rw [not_le] at later
  have days := Int.ediv_le_ediv (by decide : 0 < daySeconds) earlier
  exact not_lt_of_ge (dateParts_strictMono.monotone days) (List.cons_lt_cons_iff.mpr (.inl later))

theorem fits_dateParts {date : ℤ × ℤ × ℤ} (isDate : IsDate date) (nonneg : 0 ≤ date.1)
    (small : date.1 ≤ 9999) : List.Forall₂ Fits dateLayout (dateParts date) := by
  rcases date with ⟨year, month, day⟩
  rcases isDate with ⟨⟨monthStarts, monthEnds⟩, dayStarts, dayEnds⟩
  have atMost : monthLength year month ≤ 31 := by
    rw [monthLength]
    split_ifs <;> decide
  dsimp only at *
  refine .cons ⟨by decide, nonneg, ?_⟩
    (.cons ⟨by decide, ?_, ?_⟩ (.cons ⟨by decide, ?_, ?_⟩ .nil)) <;>
  · norm_num
    omega

theorem fits_timeParts {time : ℤ} (nonneg : 0 ≤ time) (inDay : time < daySeconds) :
    List.Forall₂ Fits timeLayout (timeParts time) := by
  rw [daySeconds] at inDay
  refine .cons ⟨by decide, ?_, ?_⟩ (.cons ⟨by decide, ?_, ?_⟩ (.cons ⟨by decide, ?_, ?_⟩ .nil)) <;>
  · norm_num
    omega

theorem fits_parts {seconds : ℤ} (nonneg : 0 ≤ yearOf seconds) (small : yearOf seconds ≤ 9999) :
    List.Forall₂ Fits layout (parts seconds) := by
  apply List.rel_append
  · exact fits_dateParts (isDate_dateOfDays _) nonneg small
  · exact fits_timeParts (Int.emod_nonneg _ (by decide)) (Int.emod_lt_of_pos _ (by decide))

/-- The text of an instant has its parts in their places. -/
theorem render_eq {seconds : ℤ} (large : 1000 ≤ yearOf seconds) (small : yearOf seconds ≤ 9999) :
    render seconds = .ok (String.ofList (written layout (parts seconds))) := by
  have fits := fits_parts (by omega) small
  have nonneg := Int.emod_nonneg seconds (by decide : daySeconds ≠ 0)
  rw [yearOf] at large small
  rcases date_eq : dateOfDays (seconds / daySeconds) with ⟨year, month, day⟩
  rw [parts, date_eq] at fits
  rw [date_eq] at large small
  rw [render, date_eq, parts, date_eq]
  generalize seconds % daySeconds = time at *
  dsimp only at large small ⊢
  rw [if_neg (by omega)]
  simp only [layout, dateLayout, timeLayout, dateParts, timeParts, List.cons_append,
    List.nil_append, List.forall₂_cons] at fits ⊢
  rcases fits with ⟨yearFits, monthFits, dayFits, hourFits, minuteFits, secondFits, -⟩
  have hour : time.toNat / 3600 = (time / 3600).toNat := by omega
  have minute : time.toNat / 60 % 60 = (time / 60 % 60).toNat := by omega
  have second : time.toNat % 60 = (time % 60).toNat := by omega
  rw [hour, minute, second]
  refine congrArg Except.ok (String.toList_inj.mp ?_)
  simp only [written, String.toList_append, String.toList_ofList, ← toList_year large small,
    ← toList_twoDigits monthFits, ← toList_twoDigits dayFits, ← toList_twoDigits hourFits,
    ← toList_twoDigits minuteFits, ← toList_twoDigits secondFits, List.append_assoc]
  rfl

theorem render_ne_empty {seconds : ℤ} {text : String} (rendered : render seconds = .ok text) :
    text ≠ "" := by
  rw [render] at rendered
  rcases dateOfDays (seconds / daySeconds) with ⟨year, month, day⟩
  dsimp only at rendered
  split at rendered
  · cases rendered
  · intro empty
    have whole := (Except.ok.inj rendered).trans empty
    simp [toString] at whole

theorem yearOf_bounds {seconds : ℤ} (nonneg : 0 ≤ seconds) (bound : seconds ≤ lastSecond) :
    1970 ≤ yearOf seconds ∧ yearOf seconds ≤ 9999 := by
  have first : yearOf 0 = 1970 := by decide
  have last : yearOf lastSecond = 9999 := by decide
  exact ⟨first ▸ yearOf_mono nonneg, last ▸ yearOf_mono bound⟩

theorem exists_render {seconds : ℤ} (nonneg : 0 ≤ seconds) (bound : seconds ≤ lastSecond) :
    ∃ text, render seconds = .ok text := by
  have years := yearOf_bounds nonneg bound
  exact ⟨_, render_eq (by omega) years.2⟩

/-- Up to the end of the year 9999 a later instant has a later text. -/
theorem exists_render_lt {first second : ℤ} (nonneg : 0 ≤ first) (earlier : first < second)
    (bound : second ≤ lastSecond) :
    ∃ text other, render first = .ok text ∧ render second = .ok other ∧ text < other := by
  have years := yearOf_bounds nonneg (earlier.le.trans bound)
  have otherYears := yearOf_bounds (nonneg.trans earlier.le) bound
  refine ⟨_, _, render_eq (by omega) years.2, render_eq (by omega) otherYears.2, ?_⟩
  rw [String.lt_iff, String.toList_ofList, String.toList_ofList]
  exact written_lt (fits_parts (by omega) years.2) (fits_parts (by omega) otherYears.2)
    (parts_strictMono earlier)

/-- Up to the end of the year 9999 the order of the texts is that of the instants. -/
theorem lt_iff_of_render {first second : ℤ} {text other : String} (nonneg : 0 ≤ first)
    (bound : first ≤ lastSecond) (nonnegToo : 0 ≤ second) (boundToo : second ≤ lastSecond)
    (rendered : render first = .ok text) (renderedToo : render second = .ok other) :
    text < other ↔ first < second := by
  have forward {early late : ℤ} {earlyText lateText : String} (starts : 0 ≤ early)
      (ends : late ≤ lastSecond) (earlyRendered : render early = .ok earlyText)
      (lateRendered : render late = .ok lateText) (before : early < late) :
      earlyText < lateText := by
    rcases exists_render_lt starts before ends with ⟨_, _, found, foundToo, less⟩
    cases earlyRendered.symm.trans found
    cases lateRendered.symm.trans foundToo
    exact less
  constructor
  · intro less
    rcases lt_trichotomy first second with before | rfl | after
    · exact before
    · cases rendered.symm.trans renderedToo
      exact absurd less (lt_irrefl _)
    · exact absurd less (lt_asymm (forward nonnegToo bound renderedToo rendered after))
  · exact forward nonneg boundToo rendered renderedToo

end Timestamp

end Scorecard
