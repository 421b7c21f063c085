import Mathlib
import Scorecard.Timestamp

/-!
# The days of the calendar

Counting days in cycles of four hundred years gives the calendar: the count zero stands for the
first day of 1970, and one day more stands for the date that follows, by the lengths of the months
and the rule for leap years. So a later day has a later date, where dates are compared by their
years first, then by their months and then by their days.

The years of the count start with March. Such a year is named by the year in which it starts, and
what makes it longer is the February at its end, which belongs to the next year.
-/

namespace Scorecard

namespace Timestamp

/-- Every fourth year has a day more, but of those that end a century only every fourth one. -/
def IsLeapYear (year : ℤ) : Prop :=
  year % 4 = 0 ∧ (year % 100 ≠ 0 ∨ year % 400 = 0)
deriving Decidable

/-- The count of days in a month. -/
def monthLength (year month : ℤ) : ℤ :=
  if month = 2 then
    if IsLeapYear year then 29 else 28
  else if month = 4 ∨ month = 6 ∨ month = 9 ∨ month = 11 then 30
  else 31

/-- A date of the calendar, as a year, a month and a day. -/
def IsDate (date : ℤ × ℤ × ℤ) : Prop :=
  (1 ≤ date.2.1 ∧ date.2.1 ≤ 12) ∧ 1 ≤ date.2.2 ∧ date.2.2 ≤ monthLength date.1 date.2.1

/-- The date of the next day. -/
def nextDate (date : ℤ × ℤ × ℤ) : ℤ × ℤ × ℤ :=
  let (year, month, day) := date
  if day < monthLength year month then (year, month, day + 1)
  else if month < 12 then (year, month + 1, 1)
  else (year + 1, 1, 1)

/-- The days from the first of March of the year 0 to the first of March of a year. -/
def marchStart (year : ℤ) : ℤ :=
  365 * year + year / 4 - year / 100 + year / 400

/-- The count of days from the first of March of a year to the next one. -/
def marchLength (year : ℤ) : ℤ :=
  if IsLeapYear (year + 1) then 366 else 365

/-- The date of a day of the year that starts with March, by the days that have gone by in it. -/
def marchDate (year passed : ℤ) : ℤ × ℤ × ℤ :=
  let monthFromMarch := (5 * passed + 2) / 153
  let month := if monthFromMarch < 10 then monthFromMarch + 3 else monthFromMarch - 9
  (year + if month ≤ 2 then 1 else 0, month, passed - (153 * monthFromMarch + 2) / 5 + 1)

theorem marchLength_pos (year : ℤ) : 0 < marchLength year := by
  rw [marchLength]
  split <;> decide

theorem marchStart_succ (year : ℤ) :
    marchStart (year + 1) = marchStart year + marchLength year := by
  rw [marchStart, marchStart, marchLength]
  split
  · next leap =>
      rw [IsLeapYear] at leap
      omega
  · next common =>
      rw [IsLeapYear] at common
      omega

/-- Every day belongs to one of the years. -/
theorem exists_marchStart (count : ℤ) :
    ∃ year passed, count = marchStart year + passed ∧ 0 ≤ passed ∧ passed < marchLength year := by
  induction count using Int.induction_on with
  | zero => exact ⟨0, 0, rfl, le_rfl, marchLength_pos 0⟩
  | succ count ih =>
      rcases ih with ⟨year, passed, count_eq, nonneg, within⟩
      by_cases goesOn : passed + 1 < marchLength year
      · exact ⟨year, passed + 1, by omega, by omega, goesOn⟩
      · have next := marchStart_succ year
        exact ⟨year + 1, 0, by omega, le_rfl, marchLength_pos _⟩
  | pred count ih =>
      rcases ih with ⟨year, passed, count_eq, nonneg, within⟩
      by_cases goesBack : 0 < passed
      · exact ⟨year, passed - 1, by omega, by omega, by omega⟩
      · have here := marchStart_succ (year - 1)
        have positive := marchLength_pos (year - 1)
        rw [sub_add_cancel] at here
        exact ⟨year - 1, marchLength (year - 1) - 1, by omega, by omega, by omega⟩

/-- The year of a cycle is found from its centuries, the groups of four years in them, and the years
in these. -/
theorem yearOfCycle_eq {century group year passed : ℤ} (inCycle : 0 ≤ century ∧ century < 4)
    (inCentury : 0 ≤ group ∧ group < 25) (inGroup : 0 ≤ year ∧ year < 4) (nonneg : 0 ≤ passed)
    (within : passed < 365 ∨ passed = 365 ∧ year = 3 ∧ (group < 24 ∨ century = 3)) :
    yearOfCycle (36524 * century + 1461 * group + 365 * year + passed) =
      100 * century + 4 * group + year := by
  rw [yearOfCycle]
  generalize day_eq : 36524 * century + 1461 * group + 365 * year + passed = day
  have centuries : day / 36524 - day / 146096 = century := by
    have bounded : day < 36524 * (century + 1) ∨ day = 146096 ∧ century = 3 := by omega
    rcases bounded with before | ⟨rfl, rfl⟩
    · have begun : 36524 * century ≤ day := by omega
      clear day_eq
      omega
    · rfl
  -- The days of the leap years so far may make the count of groups too large by one, but only in
  -- the last year of a group and not on its first day. The day that this takes away leaves the year
  -- as it is.
  have groups : day / 1460 = 25 * century + group ∧ passed < 365 ∨
      day / 1460 = 25 * century + group + 1 ∧ 0 < passed := by omega
  have numerator : day - day / 1460 + day / 36524 - day / 146096 =
      365 * (100 * century + 4 * group + year) +
      (passed - (day / 1460 - 25 * century - group)) := by
    omega
  rw [numerator]
  omega

/-- The date of a day is found from its year and the days that have gone by in it. -/
theorem dateOfDays_eq {year passed : ℤ} (nonneg : 0 ≤ passed) (within : passed < marchLength year) :
    dateOfDays (marchStart year + passed - epochDays) = marchDate year passed := by
  generalize cycle_eq : year / 400 = cycle
  generalize century_eq : year % 400 / 100 = century
  generalize group_eq : year % 100 / 4 = group
  generalize rest_eq : year % 4 = rest
  have year_eq : year = 400 * cycle + (100 * century + 4 * group + rest) := by omega
  have start :
      marchStart year = cycleDays * cycle + (36524 * century + 1461 * group + 365 * rest) := by
    rw [marchStart, cycleDays]
    omega
  have bounded : passed < 365 ∨ passed = 365 ∧ rest = 3 ∧ (group < 24 ∨ century = 3) := by
    rw [marchLength] at within
    split at within
    · next leap =>
        rw [IsLeapYear] at leap
        omega
    · exact .inl within
  have found := yearOfCycle_eq (by omega) (by omega) (by omega) nonneg bounded
  generalize day_eq : 36524 * century + 1461 * group + 365 * rest + passed = day at found
  have shifted :
      marchStart year + passed - epochDays + epochDays = day + cycleDays * cycle := by omega
  have size : 0 ≤ day ∧ day < cycleDays := by
    rw [cycleDays]
    omega
  have passed_eq : dayOfYear day = passed := by
    have groups : (100 * century + 4 * group + rest) / 4 = 25 * century + group := by omega
    have centuries : (100 * century + 4 * group + rest) / 100 = century := by omega
    rw [dayOfYear, found, groups, centuries]
    omega
  rw [dateOfDays, shifted, Int.add_mul_ediv_left _ _ (by decide), Int.add_mul_emod_self_left,
    Int.ediv_eq_zero_of_lt size.1 size.2, Int.emod_eq_of_lt size.1 size.2]
  simp only [found, passed_eq, marchDate]
  rw [year_eq]
  congr 1
  ring

/-- The month that comes so many months after a March, with its year. -/
def monthAfter (year months : ℤ) : ℤ × ℤ :=
  let month := if months < 10 then months + 3 else months - 9
  (year + if month ≤ 2 then 1 else 0, month)

/-- The days from the first of March to the first of the month that comes so many months after
it. -/
def monthStart (months : ℤ) : ℤ :=
  (153 * months + 2) / 5

/-- A month ends where the next one starts, and the last one ends with the year. -/
theorem monthLength_monthAfter {months : ℤ} (nonneg : 0 ≤ months) (inYear : months < 12)
    (year : ℤ) :
    monthLength (monthAfter year months).1 (monthAfter year months).2 =
      (if months < 11 then monthStart (months + 1) else marchLength year) - monthStart months := by
  by_cases last : months = 11
  · subst last
    change (if IsLeapYear (year + 1) then (29 : ℤ) else 28) = marchLength year - 337
    rw [marchLength]
    split <;> rfl
  · rw [if_pos (by omega)]
    interval_cases months <;> first | rfl | exact absurd rfl last

/-- A day comes in the month that comes so many months after the March of a year, so many days after
its first. -/
structure Falls (days year months passed : ℤ) : Prop where
  count : days + epochDays = marchStart year + (monthStart months + passed)
  months_nonneg : 0 ≤ months
  months_lt : months < 12
  passed_nonneg : 0 ≤ passed
  passed_lt : passed < monthLength (monthAfter year months).1 (monthAfter year months).2

theorem marchLength_bounds (year : ℤ) : 365 ≤ marchLength year ∧ marchLength year ≤ 366 := by
  rw [marchLength]
  split <;> decide

theorem exists_falls (days : ℤ) : ∃ year months passed, Falls days year months passed := by
  rcases exists_marchStart (days + epochDays) with ⟨year, passed, count, nonneg, within⟩
  have atMost := (marchLength_bounds year).2
  have months_nonneg : 0 ≤ (5 * passed + 2) / 153 := by omega
  have months_lt : (5 * passed + 2) / 153 < 12 := by omega
  refine ⟨year, (5 * passed + 2) / 153, passed - monthStart ((5 * passed + 2) / 153), ?_,
    months_nonneg, months_lt, ?_, ?_⟩
  · rw [count]
    ring
  · rw [monthStart]
    omega
  · rw [monthLength_monthAfter months_nonneg months_lt, monthStart, monthStart]
    split <;> omega

namespace Falls

variable {days year months passed : ℤ}

theorem dateOfDays_eq (falls : Falls days year months passed) :
    dateOfDays days = ((monthAfter year months).1, (monthAfter year months).2, passed + 1) := by
  rcases falls with ⟨count, months_nonneg, months_lt, passed_nonneg, passed_lt⟩
  rw [monthLength_monthAfter months_nonneg months_lt, monthStart, monthStart] at passed_lt
  rw [monthStart] at count
  have bounds := marchLength_bounds year
  have within : (153 * months + 2) / 5 + passed < marchLength year := by
    split at passed_lt <;> omega
  have found : (5 * ((153 * months + 2) / 5 + passed) + 2) / 153 = months := by
    split at passed_lt <;> omega
  rw [← add_sub_cancel_right days epochDays, count, Timestamp.dateOfDays_eq (by omega) within]
  simp only [marchDate, found, monthAfter]
  congr 2
  omega

theorem next (falls : Falls days year months passed) :
    if passed + 1 < monthLength (monthAfter year months).1 (monthAfter year months).2 then
      Falls (days + 1) year months (passed + 1)
    else if months < 11 then Falls (days + 1) year (months + 1) 0
    else Falls (days + 1) (year + 1) 0 0 := by
  rcases falls with ⟨count, months_nonneg, months_lt, passed_nonneg, passed_lt⟩
  split
  · next goesOn => exact ⟨by omega, months_nonneg, months_lt, by omega, goesOn⟩
  · next ended =>
      have length := monthLength_monthAfter months_nonneg months_lt year
      split
      · next before =>
          rw [if_pos before] at length
          refine ⟨by omega, by omega, by omega, le_rfl, ?_⟩
          have bounds := marchLength_bounds year
          rw [monthLength_monthAfter (by omega) (by omega), monthStart, monthStart]
          split <;> omega
      · next last =>
          rw [if_neg last] at length
          refine ⟨?_, le_rfl, by decide, le_rfl, ?_⟩
          · rw [marchStart_succ]
            change _ = _ + (0 + 0)
            omega
          · rw [monthLength_monthAfter le_rfl (by decide), if_pos (by decide)]
            decide

end Falls

theorem isDate_dateOfDays (days : ℤ) : IsDate (dateOfDays days) := by
  rcases exists_falls days with ⟨year, months, passed, falls⟩
  rw [falls.dateOfDays_eq]
  rcases falls with ⟨-, months_nonneg, months_lt, passed_nonneg, passed_lt⟩
  refine ⟨?_, Int.le_add_of_nonneg_left passed_nonneg, Int.add_one_le_of_lt passed_lt⟩
  simp only [monthAfter]
  split <;> omega

/-- The month after a month. -/
theorem nextDate_of_last {year months day : ℤ} (months_nonneg : 0 ≤ months)
    (months_lt : months < 12)
    (last : ¬day < monthLength (monthAfter year months).1 (monthAfter year months).2) :
    nextDate ((monthAfter year months).1, (monthAfter year months).2, day) =
      if months < 11 then ((monthAfter year (months + 1)).1, (monthAfter year (months + 1)).2, 1)
      else ((monthAfter (year + 1) 0).1, (monthAfter (year + 1) 0).2, 1) := by
  simp only [nextDate, if_neg last]
  interval_cases months <;> simp [monthAfter]

/-- One day more stands for the date of the next day. -/
theorem dateOfDays_succ (days : ℤ) : dateOfDays (days + 1) = nextDate (dateOfDays days) := by
  rcases exists_falls days with ⟨year, months, passed, falls⟩
  have next := falls.next
  rw [falls.dateOfDays_eq]
  split at next
  · next goesOn =>
      rw [next.dateOfDays_eq, nextDate, if_pos goesOn]
  · next ended =>
      rw [nextDate_of_last falls.months_nonneg falls.months_lt ended]
      split at next
      · next before => rw [next.dateOfDays_eq, if_pos before, zero_add]
      · next last => rw [next.dateOfDays_eq, if_neg last, zero_add]

end Timestamp

end Scorecard
