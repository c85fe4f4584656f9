import MailMerge.Text.Basic

/-!
# Calendar dates

Dates of the proleptic Gregorian calendar, and their **day numbers**: the days
counted from 1970-01-01, negative before it.

* `Date` is a valid date: month and day exist, and the year is one of the years
  −262143 … 262142 that the calendar supports;
* `Date.dayNumber` counts the days of a date, year by year and month by month;
* `Date.ofDayNumber?` is the date of a day number;
* `Date.dotted` is the written form `DD.MM.YYYY`.
-/

namespace MailMerge

/-! ### Years and months -/

/-- Whether a year has a 29th of February. -/
def isLeapYear (year : Int) : Bool :=
  year % 4 == 0 && (year % 100 != 0 || year % 400 == 0)

/-- The lengths of the months of a year. -/
def monthLengths (year : Int) : List Nat :=
  [31, if isLeapYear year then 29 else 28, 31, 30, 31, 30, 31, 31, 30, 31, 30, 31]

/-- The number of days of a month. Months that do not exist have none. -/
def daysInMonth (year : Int) (month : Nat) : Nat :=
  if month = 0 then 0 else (monthLengths year).getD (month - 1) 0

/-- The days between 0001-01-01 and the first day of a year, negative before it. -/
def daysBeforeYear (year : Int) : Int :=
  365 * (year - 1) + (year - 1) / 4 - (year - 1) / 100 + (year - 1) / 400

/-- The days of a year before the first day of a month. -/
def daysBeforeMonth (year : Int) (month : Nat) : Nat :=
  ((monthLengths year).take (month - 1)).foldr (· + ·) 0

/-- The years that the calendar supports. -/
def IsCalendarYear (year : Int) : Prop := -262143 ≤ year ∧ year ≤ 262142

instance (year : Int) : Decidable (IsCalendarYear year) := by
  unfold IsCalendarYear; infer_instance

/-! ### Dates -/

/-- A **date** of the proleptic Gregorian calendar. -/
structure Date where
  year : Int
  month : Nat
  day : Nat
  isCalendarYear : IsCalendarYear year
  one_le_month : 1 ≤ month
  month_le : month ≤ 12
  one_le_day : 1 ≤ day
  day_le : day ≤ daysInMonth year month
  deriving DecidableEq

namespace Date

/-- The date of a year, a month and a day, if there is one. -/
def of? (year : Int) (month day : Nat) : Option Date :=
  if h : IsCalendarYear year ∧ 1 ≤ month ∧ month ≤ 12 ∧ 1 ≤ day ∧ day ≤ daysInMonth year month then
    some ⟨year, month, day, h.1, h.2.1, h.2.2.1, h.2.2.2.1, h.2.2.2.2⟩
  else none

theorem of?_eq_some (d : Date) : of? d.year d.month d.day = some d := by
  simp [of?, d.isCalendarYear, d.one_le_month, d.month_le, d.one_le_day, d.day_le]

/-- The day number of 0001-01-01 below that of 1970-01-01. -/
def epochDays : Int := 719162

/-- The **day number** of a date: the days from 1970-01-01 to it. -/
def dayNumber (d : Date) : Int :=
  daysBeforeYear d.year + daysBeforeMonth d.year d.month + (d.day - 1) - epochDays

/-- The year of the day `n` days after 0001-01-01. The quotient by the mean length
of a year is at most one off. -/
def yearOfDay (n : Int) : Int :=
  let estimate := n * 400 / 146097 + 1
  if n < daysBeforeYear estimate then estimate - 1
  else if daysBeforeYear (estimate + 1) ≤ n then estimate + 1
  else estimate

/-- The month and day of a day of the year, counted from zero, where months of the
given lengths follow the month `month`. -/
def monthAndDay : List Nat → Nat → Nat → Nat × Nat
  | [], month, rest => (month, rest + 1)
  | length :: lengths, month, rest =>
    if rest < length then (month, rest + 1)
    else monthAndDay lengths (month + 1) (rest - length)

/-- The date of a **day number**, if the calendar supports its year. -/
def ofDayNumber? (n : Int) : Option Date :=
  let year := yearOfDay (n + epochDays)
  let (month, day) :=
    monthAndDay (monthLengths year) 1 (n + epochDays - daysBeforeYear year).toNat
  of? year month day

/-- The text of a year: four digits, and outside 0000 … 9999 a sign and as many as
it takes. -/
def yearText (year : Int) : Text :=
  if 0 ≤ year ∧ year ≤ 9999 then Text.padded 4 year.toNat
  else (if year < 0 then '-' else '+') :: Text.padded 4 year.natAbs

/-- A date written `DD.MM.YYYY`. -/
def dotted (d : Date) : Text :=
  Text.padded 2 d.day ++ "." ++ Text.padded 2 d.month ++ "." ++ yearText d.year

/-- A date written `YYYY-MM-DD`. -/
def dashed (d : Date) : Text :=
  yearText d.year ++ "-" ++ Text.padded 2 d.month ++ "-" ++ Text.padded 2 d.day

end Date

end MailMerge
