import Scorecard.Data

/-!
# Timestamps

An instant is a count of seconds since the start of 1970 in universal time. Its text gives day and
time from the largest part to the smallest, so texts of one length stand in the order of time.

Days are counted from the first of March of the year 0, so that the day that only leap years have is
the last one of a year, and the months before it follow one pattern.
-/

namespace Scorecard

namespace Timestamp

/-- The count of seconds in a day. -/
def daySeconds : Int := 86400

/-- The count of days in the four hundred years after which the calendar repeats. -/
def cycleDays : Int := 146097

/-- The days from the first of March of the year 0 to the start of 1970. -/
def epochDays : Int := 719468

/-- The year within a cycle to which a day of it belongs. -/
def yearOfCycle (day : Int) : Int :=
  (day - day / 1460 + day / 36524 - day / 146096) / 365

/-- The day within its year of a day of a cycle. -/
def dayOfYear (day : Int) : Int :=
  let year := yearOfCycle day
  day - (365 * year + year / 4 - year / 100)

/-- The year, month and day of a count of days since the start of 1970. -/
def dateOfDays (days : Int) : Int × Int × Int :=
  let shifted := days + epochDays
  let cycle := shifted / cycleDays
  let day := shifted % cycleDays
  let ofYear := dayOfYear day
  let monthFromMarch := (5 * ofYear + 2) / 153
  let month := if monthFromMarch < 10 then monthFromMarch + 3 else monthFromMarch - 9
  let year := cycle * 400 + yearOfCycle day + if month ≤ 2 then 1 else 0
  (year, month, ofYear - (153 * monthFromMarch + 2) / 5 + 1)

/-- The text of an instant. The calendar has the years from 1 to 9999. -/
def render (seconds : Int) : Except Fault String :=
  let (year, month, day) := dateOfDays (seconds / daySeconds)
  let time := (seconds % daySeconds).toNat
  if year < 1 ∨ 9999 < year then
    .error (.calendar (.year year))
  else
    .ok (s!"{year}-{twoDigits month.toNat}-{twoDigits day.toNat}T{twoDigits (time / 3600)}:" ++
      s!"{twoDigits (time / 60 % 60)}:{twoDigits (time % 60)}Z")

end Timestamp

end Scorecard
