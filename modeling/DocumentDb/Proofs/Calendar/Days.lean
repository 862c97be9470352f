import DocumentDb.Calendar.Date
import Mathlib.Tactic.Common

/-!
# Dates and days

A number of days stands for a date that the calendar has, and that date for the number of days. A
day is first found within its era of four hundred years. The number of leap days of the era that are
behind it is only guessed, so what is shown is that the guess is off by too little to miss the year:
the guessed number of days grows with the day, and it is right on both sides of each new year.
-/

namespace DocumentDb

namespace Date

/-! ### Years of an era -/

/-- The days of an era up to a day of it, without about as many as there are leap days. -/
def plainDays (day : Nat) : Nat := day - day / 1460 + day / 36524 - day / 146096

/-- The year of an era that a day of it is in; the years begin in March. -/
def eraYear (day : Nat) : Nat := plainDays day / 365

/-- The days of an era before one of its years. -/
def daysBefore (year : Nat) : Nat := 365 * year + year / 4 - year / 100

/-- The days of a year of an era; its leap day belongs to the next year of the calendar. -/
def yearLength (year : Nat) : Nat := if isLeapYear (year + 1) then 366 else 365

theorem plainDays_mono {day later : Nat} (h : day ≤ later) : plainDays day ≤ plainDays later := by
  have hsplit : ∀ n, plainDays n = (n - n / 1460) + (n / 36524 - n / 36524 / 4) := by
    -- An era has four centuries and a day, so the last two corrections go together.
    intro n
    have := Nat.div_div_eq_div_mul n 36524 4
    unfold plainDays
    omega
  have hcentury : day / 36524 ≤ later / 36524 := Nat.div_le_div_right h
  rw [hsplit, hsplit]
  omega

/-- The last day before a year is in an earlier one, and the first day behind it in a later one. -/
theorem plainDays_bounds : ∀ year < 400,
    (year = 0 ∨ plainDays (daysBefore year - 1) < 365 * year) ∧
      365 * (year + 1) ≤ plainDays (daysBefore year + yearLength year) := by
  decide +kernel

variable {day : Nat}

theorem eraYear_lt (h : day < 146097) : eraYear day < 400 := by
  unfold eraYear plainDays
  omega

/-- **The year of a day** begins with it or before it. -/
theorem daysBefore_le (h : day < 146097) : daysBefore (eraYear day) ≤ day := by
  obtain ⟨hbefore, -⟩ := plainDays_bounds _ (eraYear_lt h)
  have hyear : 365 * eraYear day ≤ plainDays day := Nat.mul_div_le _ _
  by_contra hlt
  rcases hbefore with hzero | hbefore
  · rw [hzero] at hlt
    exact hlt (Nat.zero_le _)
  · have := plainDays_mono (show day ≤ daysBefore (eraYear day) - 1 by omega)
    omega

/-- **The year of a day** ends behind it. -/
theorem lt_daysBefore_add (h : day < 146097) :
    day < daysBefore (eraYear day) + yearLength (eraYear day) := by
  obtain ⟨-, hbehind⟩ := plainDays_bounds _ (eraYear_lt h)
  have hyear : plainDays day < 365 * (eraYear day + 1) := Nat.lt_mul_div_succ _ (by decide)
  by_contra hle
  have := plainDays_mono (Nat.le_of_not_lt hle)
  omega

/-! ### Months -/

/-- The month of a day of the year, counted from March. -/
def monthOf (day : Nat) : Nat := (5 * day + 2) / 153

/-- The days of a year before one of its months. -/
def daysBeforeMonth (month : Nat) : Nat := (153 * month + 2) / 5

/-- The number of a month that is counted from March. -/
def fromMarch (month : Nat) : Nat := if month < 10 then month + 3 else month - 9

theorem monthOf_lt (h : day < 366) : monthOf day < 12 := by
  unfold monthOf
  omega

theorem daysBeforeMonth_le (day : Nat) : daysBeforeMonth (monthOf day) ≤ day := by
  unfold daysBeforeMonth monthOf
  omega

theorem fromMarch_bounds {month : Nat} (h : month < 12) :
    1 ≤ fromMarch month ∧ fromMarch month ≤ 12 ∧ (fromMarch month + 9) % 12 = month := by
  unfold fromMarch
  split_ifs <;> omega

/-- The day of the month that a day of the year is. -/
def dayOfMonth (day : Nat) : Nat := day - daysBeforeMonth (monthOf day) + 1

theorem daysInMonth_le {year other : Int} (h : isLeapYear other = false) (month : Nat) :
    daysInMonth other month ≤ daysInMonth year month := by
  unfold daysInMonth
  rw [h, if_neg Bool.false_ne_true]
  split_ifs <;> decide

/-- A month has a day of each number that its days get. -/
theorem dayOfMonth_le {year : Int} (h : day < 365 ∨ day = 365 ∧ isLeapYear year = true) :
    dayOfMonth day ≤ daysInMonth year (fromMarch (monthOf day)) := by
  have hplain : ∀ day < 365, dayOfMonth day ≤ daysInMonth 1 (fromMarch (monthOf day)) := by
    decide +kernel
  rcases h with h | ⟨rfl, hleap⟩
  · exact Nat.le_trans (hplain day h) (daysInMonth_le (by decide) _)
  · rw [daysInMonth, hleap]
    decide

/-! ### Dates -/

/-- A date that the calendar has. -/
structure Valid (date : Date) : Prop where
  month_pos : 1 ≤ date.month
  month_le : date.month ≤ 12
  day_pos : 1 ≤ date.day
  day_le : date.day ≤ daysInMonth date.year date.month

theorem Valid.ofParts? {date : Date} (h : date.Valid) (hyear : yearRange date.year = true) :
    ofParts? date.year date.month date.day = some date := by
  unfold Date.ofParts?
  rw [if_pos]
  simp [hyear, h.month_pos, h.month_le, h.day_pos, h.day_le]

/-- The date of a day by the year and the month that were found for it. -/
theorem ofDays_eq (days : Int) : ∃ (era : Int) (year day : Nat), year < 400 ∧
    day < yearLength year ∧ days = era * 146097 + (daysBefore year + day : Nat) - epochOffset ∧
      ofDays days = ⟨if fromMarch (monthOf day) ≤ 2 then year + era * 400 + 1 else year + era * 400,
        fromMarch (monthOf day), dayOfMonth day⟩ := by
  have hday : ((days + epochOffset) % 146097).toNat < 146097 := by omega
  have hle := daysBefore_le hday
  have hlt := lt_daysBefore_add hday
  refine ⟨(days + epochOffset) / 146097, eraYear ((days + epochOffset) % 146097).toNat,
    ((days + epochOffset) % 146097).toNat - daysBefore (eraYear _), eraYear_lt hday, ?_, ?_, rfl⟩
  · omega
  · omega

theorem isLeapYear_add (year era : Int) : isLeapYear (year + era * 400) = isLeapYear year := by
  have hfour : (year + era * 400) % 4 = year % 4 := by omega
  have hhundred : (year + era * 400) % 100 = year % 100 := by omega
  have hera : (year + era * 400) % 400 = year % 400 := by omega
  unfold isLeapYear
  rw [hfour, hhundred, hera]

theorem yearLength_le (year : Nat) : yearLength year ≤ 366 := by
  unfold yearLength
  split_ifs <;> decide

/-- **A number of days stands for a date of the calendar.** -/
theorem ofDays_valid (days : Int) : (ofDays days).Valid := by
  obtain ⟨era, year, day, -, hday, -, hdate⟩ := ofDays_eq days
  have hmonth := fromMarch_bounds (monthOf_lt (Nat.lt_of_lt_of_le hday (yearLength_le year)))
  rw [hdate]
  refine ⟨hmonth.1, hmonth.2.1, Nat.succ_pos _, dayOfMonth_le ?_⟩
  rcases Nat.lt_or_ge day 365 with hplain | hleap
  · exact Or.inl hplain
  · unfold yearLength at hday
    split_ifs at hday with hyear
    · obtain rfl : day = 365 := by omega
      refine Or.inr ⟨rfl, ?_⟩
      rw [if_pos (by decide), Int.add_right_comm, isLeapYear_add, hyear]
    · omega

/-- **The number of days of the date** that a number of days stands for is that number. -/
theorem toDays_ofDays (days : Int) : (ofDays days).toDays = days := by
  obtain ⟨era, year, day, hyear, hday, hdays, hdate⟩ := ofDays_eq days
  have hmonth := fromMarch_bounds (monthOf_lt (Nat.lt_of_lt_of_le hday (yearLength_le year)))
  have hback : (if fromMarch (monthOf day) ≤ 2
      then (if fromMarch (monthOf day) ≤ 2 then year + era * 400 + 1 else year + era * 400) - 1
      else if fromMarch (monthOf day) ≤ 2 then year + era * 400 + 1 else year + era * 400) =
      (year : Int) + era * 400 := by
    split_ifs <;> omega
  have hdayOfYear : daysBeforeMonth (monthOf day) + dayOfMonth day - 1 = day := by
    have := daysBeforeMonth_le day
    unfold dayOfMonth
    omega
  rw [hdate, toDays]
  dsimp only
  rw [hback, hmonth.2.2]
  change 365 * ((year : Int) + era * 400) + (year + era * 400) / 4 - (year + era * 400) / 100 +
    (year + era * 400) / 400 + (daysBeforeMonth (monthOf day) + dayOfMonth day - 1 : Nat) -
      epochOffset = days
  rw [hdayOfYear, hdays]
  unfold daysBefore
  omega

end Date

end DocumentDb
