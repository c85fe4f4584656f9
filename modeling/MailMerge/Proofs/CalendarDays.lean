import Mathlib.Algebra.BigOperators.Group.List.Basic
import MailMerge.Proofs.WrittenInstants

/-!
# Days of the calendar

Days are counted by going from one date to the next: from 1970-01-01 forwards, and backwards before it. The
program does not count them one by one. It adds up whole years and months, and finds the date of a number by
an estimate of its year; both agree with the count on every day that the calendar supports.

* `Date.Next` says which date comes after another, and `IsDay` counts the days from 1970-01-01 by it;
* `Date.dayNumber_of_next` — the next date has the next number;
* `Date.ofDayNumber?_dayNumber` — the date of a date's number is that date;
* `isDay_iff` — the number of a date is its count.
-/

namespace MailMerge

variable {year n : Int} {d e : Date}

/-! ### Years -/

/-- Whether a year has **one day more** than others. -/
def leapDays (year : Int) : Nat := if isLeapYear year then 1 else 0

theorem daysBeforeYear_succ (year : Int) :
    daysBeforeYear (year + 1) = daysBeforeYear year + 365 + leapDays year := by
  rw [leapDays, daysBeforeYear, daysBeforeYear]
  by_cases h : isLeapYear year = true
  · rw [if_pos h]
    rw [isLeapYear, Bool.and_eq_true, Bool.or_eq_true, beq_iff_eq, bne_iff_ne, beq_iff_eq] at h
    omega
  · rw [if_neg h]
    rw [isLeapYear, Bool.and_eq_true, Bool.or_eq_true, beq_iff_eq, bne_iff_ne, beq_iff_eq] at h
    omega

theorem daysBeforeYear_mono {year later : Int} (h : year ≤ later) :
    daysBeforeYear year ≤ daysBeforeYear later := by
  rw [daysBeforeYear, daysBeforeYear]
  omega

/-- The year of a day **ends after it**. -/
theorem lt_daysBeforeYear_yearOfDay_succ (n : Int) : n < daysBeforeYear (Date.yearOfDay n + 1) := by
  unfold Date.yearOfDay
  dsimp only
  split
  case isTrue hestimate => rwa [Int.sub_add_cancel]
  case isFalse =>
    split
    case isTrue =>
      -- two years above the estimate are always enough
      rw [daysBeforeYear]
      omega
    case isFalse hnext => exact Int.not_le.1 hnext

/-- The year of a day is the one **within which** the day lies. -/
theorem yearOfDay_eq (hle : daysBeforeYear year ≤ n) (hlt : n < daysBeforeYear (year + 1)) :
    Date.yearOfDay n = year := by
  have hbegin := daysBeforeYear_yearOfDay_le n
  have hend := lt_daysBeforeYear_yearOfDay_succ n
  by_contra hne
  rcases Int.lt_or_gt_of_ne hne with h | h
  · have := daysBeforeYear_mono (show Date.yearOfDay n + 1 ≤ year by omega)
    omega
  · have := daysBeforeYear_mono (show year + 1 ≤ Date.yearOfDay n by omega)
    omega

/-! ### Months -/

theorem length_monthLengths (year : Int) : (monthLengths year).length = 12 := rfl

/-- The lengths of the months **are those of the year** together. -/
theorem foldr_monthLengths (year : Int) : (monthLengths year).foldr (· + ·) 0 = 365 + leapDays year := by
  rw [monthLengths, leapDays]
  split <;> rfl

theorem daysInMonth_eq (year : Int) {month : Nat} (hpos : 1 ≤ month) :
    daysInMonth year month = (monthLengths year).getD (month - 1) 0 := by
  rw [daysInMonth, if_neg (by omega)]

/-- Up to the next month there are **the days of the month** more. -/
theorem daysBeforeMonth_succ (year : Int) {month : Nat} (hpos : 1 ≤ month) (hle : month ≤ 12) :
    daysBeforeMonth year (month + 1) = daysBeforeMonth year month + daysInMonth year month := by
  have hlt : month - 1 < (monthLengths year).length := by
    rw [length_monthLengths]
    omega
  have hmonth : month + 1 - 1 = month - 1 + 1 := by omega
  have hsum : ((monthLengths year).take (month - 1 + 1)).foldr (· + ·) 0 =
      ((monthLengths year).take (month - 1)).foldr (· + ·) 0 + (monthLengths year)[month - 1] :=
    List.sum_take_succ _ _ hlt
  rw [daysBeforeMonth, daysBeforeMonth, daysInMonth_eq year hpos, hmonth, hsum, List.getD_eq_getElem?_getD,
    List.getElem?_eq_getElem hlt, Option.getD_some]

/-- The days of a year **do not go beyond** it. -/
theorem daysBeforeMonth_add_le (year : Int) {month : Nat} (hpos : 1 ≤ month) (hle : month ≤ 12) :
    daysBeforeMonth year month + daysInMonth year month ≤ 365 + leapDays year := by
  have hsum : ((monthLengths year).take (month + 1 - 1)).foldr (· + ·) 0 +
      ((monthLengths year).drop (month + 1 - 1)).foldr (· + ·) 0 = (monthLengths year).foldr (· + ·) 0 :=
    List.sum_take_add_sum_drop _ _
  rw [← daysBeforeMonth_succ year hpos hle, daysBeforeMonth, ← foldr_monthLengths, ← hsum]
  exact Nat.le_add_right _ _

/-- Each month has **a day**. -/
theorem one_le_daysInMonth (year : Int) {month : Nat} (hpos : 1 ≤ month) (hle : month ≤ 12) :
    1 ≤ daysInMonth year month := by
  have hall : ∀ length ∈ monthLengths year, 1 ≤ length := by
    simp only [monthLengths, List.forall_mem_cons]
    split <;> simp
  have hlt : month - 1 < (monthLengths year).length := by
    rw [length_monthLengths]
    omega
  rw [daysInMonth_eq year hpos, List.getD_eq_getElem?_getD, List.getElem?_eq_getElem hlt, Option.getD_some]
  exact hall _ (List.getElem_mem hlt)

/-- A day is found **behind the months** that are over. -/
theorem monthAndDay_add (lengths : List Nat) (first months rest : Nat) (h : rest < lengths.getD months 0) :
    Date.monthAndDay lengths first ((lengths.take months).foldr (· + ·) 0 + rest) =
      (first + months, rest + 1) := by
  induction lengths generalizing first months with
  | nil => exact absurd h (Nat.not_lt_zero rest)
  | cons length lengths ih =>
    cases months with
    | zero =>
      have hrest : rest < length := h
      rw [List.take_zero, List.foldr_nil, Nat.zero_add, Date.monthAndDay, if_pos hrest]
      rfl
    | succ months =>
      rw [List.take_succ_cons, List.foldr_cons, Date.monthAndDay, if_neg (by omega), Nat.add_assoc length,
        Nat.add_sub_cancel_left, ih (first + 1) months h, Nat.add_assoc, Nat.add_comm 1]

/-! ### Dates of numbers -/

namespace Date

/-- A date **lies within its year**. -/
theorem dayNumber_bounds (d : Date) :
    daysBeforeYear d.year ≤ d.dayNumber + epochDays ∧
      d.dayNumber + epochDays < daysBeforeYear (d.year + 1) := by
  have hmonths := daysBeforeMonth_add_le d.year d.one_le_month d.month_le
  have hone := d.one_le_day
  have hday := d.day_le
  rw [daysBeforeYear_succ, dayNumber]
  omega

/-- The **date of a date's number** is that date. -/
theorem ofDayNumber?_dayNumber (d : Date) : ofDayNumber? d.dayNumber = some d := by
  obtain ⟨hle, hlt⟩ := d.dayNumber_bounds
  have hone := d.one_le_day
  have hday := d.day_le
  have hmonth := d.one_le_month
  have hrest : (d.dayNumber + epochDays - daysBeforeYear d.year).toNat =
      daysBeforeMonth d.year d.month + (d.day - 1) := by
    rw [dayNumber]
    omega
  -- The year is found first, and then the month and the day among the days that are left.
  have hfound := monthAndDay_add (monthLengths d.year) 1 (d.month - 1) (d.day - 1)
    (by rw [← daysInMonth_eq d.year hmonth]; omega)
  rw [ofDayNumber?, yearOfDay_eq hle hlt]
  dsimp only
  rw [hrest, daysBeforeMonth, hfound]
  dsimp only
  rw [Nat.add_sub_cancel' hmonth, Nat.sub_add_cancel hone, of?_eq_some]

/-! ### Counting days -/

/-- The **next date**: the next day of the month, or the first day of the next month, or of the next year. -/
inductive Next (d e : Date) : Prop
  | day (h : e.year = d.year ∧ e.month = d.month ∧ e.day = d.day + 1)
  | month (hlast : d.day = daysInMonth d.year d.month)
      (h : e.year = d.year ∧ e.month = d.month + 1 ∧ e.day = 1)
  | year (hlast : d.month = 12 ∧ d.day = 31) (h : e.year = d.year + 1 ∧ e.month = 1 ∧ e.day = 1)

/-- The next date has the **next number**. -/
theorem dayNumber_of_next (h : Next d e) : e.dayNumber = d.dayNumber + 1 := by
  have hone := d.one_le_day
  cases h with
  | day h =>
    obtain ⟨hyear, hmonth, hday⟩ := h
    rw [dayNumber, dayNumber, hyear, hmonth, hday]
    omega
  | month hlast h =>
    obtain ⟨hyear, hmonth, hday⟩ := h
    have hmonths := daysBeforeMonth_succ d.year d.one_le_month d.month_le
    rw [dayNumber, dayNumber, hyear, hmonth, hday, hmonths, ← hlast]
    omega
  | year hlast h =>
    obtain ⟨hmonth, hday⟩ := hlast
    obtain ⟨hyear, hmonth', hday'⟩ := h
    -- The whole year lies between the first days of the two years.
    have hdecember : daysBeforeMonth d.year 12 + 31 = 365 + leapDays d.year := by
      rw [← foldr_monthLengths]
      rfl
    have hjanuary : daysBeforeMonth (d.year + 1) 1 = 0 := rfl
    rw [dayNumber, dayNumber, hyear, hmonth', hday', hmonth, hday, hjanuary, daysBeforeYear_succ]
    omega

/-- Each date **has a next one**, but for the last one of the calendar. -/
theorem exists_next (d : Date) (h : ¬ (d.year = 262142 ∧ d.month = 12 ∧ d.day = 31)) : ∃ e, Next d e := by
  have hone := d.one_le_day
  have hmonth := d.one_le_month
  have hyear := d.isCalendarYear
  have hle := d.month_le
  by_cases hday : d.day = daysInMonth d.year d.month
  · by_cases hdecember : d.month = 12
    · have hlast : d.day = 31 := by
        rw [hday, hdecember]
        rfl
      have hnext : IsCalendarYear (d.year + 1) := by
        unfold IsCalendarYear at hyear ⊢
        omega
      exact ⟨⟨d.year + 1, 1, 1, hnext, Nat.le_refl _, by decide, Nat.le_refl _,
        one_le_daysInMonth _ (Nat.le_refl _) (by decide)⟩, .year ⟨hdecember, hlast⟩ ⟨rfl, rfl, rfl⟩⟩
    · exact ⟨⟨d.year, d.month + 1, 1, hyear, by omega, by omega, Nat.le_refl _,
        one_le_daysInMonth d.year (by omega) (by omega)⟩, .month hday ⟨rfl, rfl, rfl⟩⟩
  · have hlt := Nat.lt_of_le_of_ne d.day_le hday
    exact ⟨⟨d.year, d.month, d.day + 1, hyear, hmonth, hle, by omega, hlt⟩, .day ⟨rfl, rfl, rfl⟩⟩

/-- Each date **is the next one** of another, but for the first one of the calendar. -/
theorem exists_previous (d : Date) (h : ¬ (d.year = -262143 ∧ d.month = 1 ∧ d.day = 1)) :
    ∃ e, Next e d := by
  have hone := d.one_le_day
  have hmonth := d.one_le_month
  have hyear := d.isCalendarYear
  have hle := d.month_le
  have hday := d.day_le
  by_cases hfirst : d.day = 1
  · by_cases hjanuary : d.month = 1
    · have hprevious : IsCalendarYear (d.year - 1) := by
        unfold IsCalendarYear at hyear ⊢
        omega
      exact ⟨⟨d.year - 1, 12, 31, hprevious, by decide, Nat.le_refl _, by decide, Nat.le_refl _⟩,
        .year ⟨rfl, rfl⟩ ⟨(Int.sub_add_cancel _ _).symm, hjanuary, hfirst⟩⟩
    · exact ⟨⟨d.year, d.month - 1, daysInMonth d.year (d.month - 1), hyear, by omega, by omega,
        one_le_daysInMonth d.year (by omega) (by omega), Nat.le_refl _⟩,
        .month rfl ⟨rfl, (Nat.sub_add_cancel hmonth).symm, hfirst⟩⟩
  · exact ⟨⟨d.year, d.month, d.day - 1, hyear, hmonth, hle, by omega, by omega⟩,
      .day ⟨rfl, rfl, (Nat.sub_add_cancel hone).symm⟩⟩

/-- The calendar begins **long before** 1970-01-01, and ends long after it. -/
theorem dayNumber_neg_of_first (d : Date) (h : d.year = -262143 ∧ d.month = 1 ∧ d.day = 1) :
    d.dayNumber < 0 := by
  obtain ⟨hyear, hmonth, hday⟩ := h
  rw [dayNumber, hyear, hmonth, hday]
  decide

theorem dayNumber_pos_of_last (d : Date) (h : d.year = 262142 ∧ d.month = 12 ∧ d.day = 31) :
    0 < d.dayNumber := by
  obtain ⟨hyear, hmonth, hday⟩ := h
  rw [dayNumber, hyear, hmonth, hday]
  decide

end Date

/-- Which **day from 1970-01-01** on a date is, counted from one date to the next. -/
inductive IsDay : Int → Date → Prop
  | epoch {d : Date} (h : d.year = 1970 ∧ d.month = 1 ∧ d.day = 1) : IsDay 0 d
  | forward {n : Int} {d e : Date} (h : IsDay n d) (hnext : d.Next e) : IsDay (n + 1) e
  | backward {n : Int} {d e : Date} (h : IsDay n e) (hnext : d.Next e) : IsDay (n - 1) d

theorem IsDay.dayNumber_eq (h : IsDay n d) : d.dayNumber = n := by
  induction h with
  | epoch h =>
    obtain ⟨hyear, hmonth, hday⟩ := h
    rw [Date.dayNumber, hyear, hmonth, hday]
    rfl
  | forward _ hnext ih => rw [Date.dayNumber_of_next hnext, ih]
  | backward _ hnext ih =>
    rw [Date.dayNumber_of_next hnext] at ih
    omega

/-- Every date **is reached** by counting, forwards or backwards. -/
theorem isDay_dayNumber (d : Date) : IsDay d.dayNumber d := by
  -- counted from the epoch, in either direction by induction on how far the date is from it
  have hzero {d : Date} (h : d.dayNumber = 0) : IsDay 0 d := by
    have hd := d.ofDayNumber?_dayNumber
    rw [h] at hd
    exact .epoch (Date.of?_eq_some_iff.1 hd)
  have hforward (k : Nat) : ∀ d : Date, d.dayNumber = k → IsDay k d := by
    induction k with
    | zero => exact fun d => hzero
    | succ k ih =>
      intro d hd
      obtain ⟨e, hnext⟩ := d.exists_previous fun hfirst => by
        have hnegative := d.dayNumber_neg_of_first hfirst
        omega
      have hnumber := Date.dayNumber_of_next hnext
      exact .forward (ih e (by omega)) hnext
  have hbackward (k : Nat) : ∀ d : Date, d.dayNumber = -k → IsDay (-k) d := by
    induction k with
    | zero => exact fun d => hzero
    | succ k ih =>
      intro d hd
      obtain ⟨e, hnext⟩ := d.exists_next fun hlast => by
        have hpositive := d.dayNumber_pos_of_last hlast
        omega
      have hnumber := Date.dayNumber_of_next hnext
      have hcount : -((k + 1 : Nat) : Int) = -(k : Int) - 1 := by omega
      rw [hcount]
      exact .backward (ih e (by omega)) hnext
  rcases Int.eq_nat_or_neg d.dayNumber with ⟨k, hk | hk⟩
  · rw [hk]
    exact hforward k d hk
  · rw [hk]
    exact hbackward k d hk

/-- The number of a date **is its count**. -/
theorem isDay_iff : IsDay n d ↔ d.dayNumber = n := by
  constructor
  · exact IsDay.dayNumber_eq
  · rintro rfl
    exact isDay_dayNumber d

end MailMerge
