import RelayLifeline.Journal.Texts

/-!
# Dates

How `time.Date` counts the days to a date, and that a date the journal writes
is counted to the day it was written for. A day is in an era of 400 years that
begin with March, and there in the `doy`-th day of a year that the leap days
have put in its place.
-/

namespace RelayLifeline.Journal

def isLeap (year : Nat) : Bool := year % 4 = 0 && (year % 100 ≠ 0 || year % 400 = 0)

/-- The days of a year before each of its months, and of the whole year, without
the leap day. -/
def daysBefore : List Nat := [0, 31, 59, 90, 120, 151, 181, 212, 243, 273, 304, 334, 365]

def daysIn (month year : Nat) : Nat :=
  if month = 2 && isLeap year then 29
  else daysBefore.getD month 0 - daysBefore.getD (month - 1) 0

/-- The days from the first of January of the year one to that of the year. -/
def daysSince (year : Nat) : Int :=
  365 * ((year : Int) - 1) + ((year : Int) - 1) / 4 - ((year : Int) - 1) / 100 +
    ((year : Int) - 1) / 400

/-- The days from the first of January of the year one to the date. -/
def dateDays (year month day : Nat) : Int :=
  daysSince year + daysBefore.getD (month - 1) 0 +
    (if isLeap year && 3 ≤ month then 1 else 0) + ((day : Int) - 1)

/-! ## The year of a day -/

/-- Where a day of an era is: the century, the four years and the year, from zero
on, and the day of that year. -/
structure Place (day : Nat) where
  century : Nat
  four : Nat
  one : Nat
  doy : Nat
  eq : day = 36524 * century + 1461 * four + 365 * one + doy
  century_le : century ≤ 3
  four_le : four ≤ 24
  one_le : one ≤ 3
  /-- The last year of four has a leap day at its end, other than most that end
  a century. -/
  doy_le : doy ≤ 364 ∨ doy = 365 ∧ one = 3 ∧ (four = 24 → century = 3)

theorem exists_place {day : Nat} (h : day < 146097) : Nonempty (Place day) := by
  obtain ⟨c, r, hc, hr, hday⟩ :
      ∃ c r, c ≤ 3 ∧ (r < 36524 ∨ r = 36524 ∧ c = 3) ∧ day = 36524 * c + r := by
    by_cases hlast : day = 146096
    · exact ⟨3, 36524, by omega, by omega, by omega⟩
    · exact ⟨day / 36524, day % 36524, by omega, by omega, by omega⟩
  obtain ⟨o, d, ho, hd, hrem⟩ :
      ∃ o d, o ≤ 3 ∧ (d < 365 ∨ d = 365 ∧ o = 3) ∧ r % 1461 = 365 * o + d := by
    by_cases hlast : r % 1461 = 1460
    · exact ⟨3, 365, by omega, by omega, by omega⟩
    · exact ⟨r % 1461 / 365, r % 1461 % 365, by omega, by omega, by omega⟩
  exact ⟨⟨c, r / 1461, o, d, by omega, hc, by omega, ho, by omega⟩⟩

namespace Place

variable {day : Nat} (place : Place day)

/-- The year of the era. -/
def yoe : Nat := 100 * place.century + 4 * place.four + place.one

theorem yoe_eq : (day - day / 1460 + day / 36524 - day / 146096) / 365 = place.yoe := by
  obtain ⟨c, q, o, d, heq, hc, hq, ho, hd⟩ := place
  dsimp only [yoe]
  have hcentury : day / 36524 = c + day / 146096 := by
    by_cases hlast : day = 146096
    · have hc3 : c = 3 := by omega
      omega
    · have hrem : 1461 * q + 365 * o + d < 36524 := by omega
      have h0 : day / 146096 = 0 := by omega
      omega
  have hfour : (day / 1460 = 25 * c + q ∧ d ≤ 364) ∨ (day / 1460 = 25 * c + q + 1 ∧ 1 ≤ d) := by
    omega
  omega

theorem yoe_div : place.yoe / 4 = 25 * place.century + place.four ∧
    place.yoe / 100 = place.century := by
  have hfour := place.four_le
  have hone := place.one_le
  rw [yoe]
  omega

theorem doy_eq :
    day - (365 * place.yoe + place.yoe / 4 - place.yoe / 100) = place.doy := by
  have heq := place.eq
  obtain ⟨hfour, hcentury⟩ := place.yoe_div
  rw [hfour, hcentury, yoe]
  omega

/-- The days to the end of the year, which is the one in which it began. -/
theorem daysSince_yoe (era : Nat) :
    daysSince (place.yoe + 400 * era + 1) = 146097 * era + day - place.doy := by
  have heq := place.eq
  obtain ⟨hfour, hcentury⟩ := place.yoe_div
  have hc := place.century_le
  have hyoe : place.yoe = 100 * place.century + 4 * place.four + place.one := rfl
  have hlt : place.yoe < 400 := by
    have hq := place.four_le
    have ho := place.one_le
    omega
  simp only [daysSince]
  omega

theorem isLeap_of_doy (era : Nat) (h : place.doy = 365) :
    isLeap (place.yoe + 400 * era + 1) = true := by
  obtain ⟨c, q, o, d, heq, hc, hq, ho, hd⟩ := place
  dsimp only [yoe] at h ⊢
  simp only [isLeap, Bool.and_eq_true, Bool.or_eq_true, decide_eq_true_eq]
  by_cases hcentury : q = 24
  · have hc3 : c = 3 := by omega
    exact ⟨by omega, .inr (by omega)⟩
  · exact ⟨by omega, .inl (by omega)⟩

end Place

theorem daysSince_succ (year : Nat) :
    daysSince (year + 1) = daysSince year + 365 + (if isLeap year then 1 else 0) := by
  simp only [daysSince, isLeap, Bool.and_eq_true, Bool.or_eq_true, decide_eq_true_eq]
  split <;> omega

/-! ## The date of a day -/

/-- The month that the day of a year is in. -/
def monthOf (doy : Nat) : Nat :=
  let mp := (5 * doy + 2) / 153
  if mp < 10 then mp + 3 else mp - 9

/-- The day of the month. -/
def dayOf (doy : Nat) : Nat := doy - (153 * ((5 * doy + 2) / 153) + 2) / 5 + 1

/-- From March on, a month is of the year that its year begins in. -/
theorem monthOf_late : ∀ doy < 306, (3 ≤ monthOf doy ∧ monthOf doy ≤ 12) ∧ 1 ≤ dayOf doy ∧
    daysBefore.getD (monthOf doy - 1) 0 + dayOf doy = doy + 60 ∧
    dayOf doy ≤ daysBefore.getD (monthOf doy) 0 - daysBefore.getD (monthOf doy - 1) 0 := by
  decide +kernel

/-- January and February are of the next. -/
theorem monthOf_early : ∀ doy < 366, 306 ≤ doy →
    (1 ≤ monthOf doy ∧ monthOf doy ≤ 2) ∧ 1 ≤ dayOf doy ∧
    daysBefore.getD (monthOf doy - 1) 0 + dayOf doy + 305 = doy ∧
    (dayOf doy ≤ daysBefore.getD (monthOf doy) 0 - daysBefore.getD (monthOf doy - 1) 0 ∨
      doy = 365 ∧ monthOf doy = 2 ∧ dayOf doy = 29) := by
  decide +kernel

theorem civil_eq {n era day : Nat} (place : Place day) (hn : n + 306 = 146097 * era + day)
    (hday : day < 146097) :
    civil n = (place.yoe + 400 * era + (if monthOf place.doy ≤ 2 then 1 else 0),
      monthOf place.doy, dayOf place.doy) := by
  have hera : (n + 306) / 146097 = era := by omega
  have hrem : (n + 306) % 146097 = day := by omega
  unfold civil monthOf dayOf
  dsimp only
  rw [hera, hrem, place.yoe_eq, place.doy_eq, Nat.mul_comm era 400]

theorem le_daysIn {month year day : Nat}
    (h : day ≤ daysBefore.getD month 0 - daysBefore.getD (month - 1) 0 ∨
      isLeap year = true ∧ month = 2 ∧ day = 29) : day ≤ daysIn month year := by
  rw [daysIn]
  split
  · next hfebruary =>
      rw [Bool.and_eq_true, decide_eq_true_eq] at hfebruary
      rcases h with h | ⟨-, -, h⟩
      · rw [hfebruary.1] at h
        exact Nat.le_trans h (by decide)
      · exact Nat.le_of_eq h
  · next hfebruary =>
      rcases h with h | ⟨hleap, hmonth, -⟩
      · exact h
      · exact absurd (by rw [hleap, hmonth]; rfl) hfebruary

/-- The date of a day is one of the calendar, and counted to that day. -/
theorem civil_spec (n : Nat) :
    (1 ≤ (civil n).2.1 ∧ (civil n).2.1 ≤ 12) ∧
      (1 ≤ (civil n).2.2 ∧ (civil n).2.2 ≤ daysIn (civil n).2.1 (civil n).1) ∧
      dateDays (civil n).1 (civil n).2.1 (civil n).2.2 = n := by
  have hday : (n + 306) % 146097 < 146097 := Nat.mod_lt _ (by decide)
  have hn : n + 306 = 146097 * ((n + 306) / 146097) + (n + 306) % 146097 := by omega
  obtain ⟨place⟩ := exists_place hday
  have hsince := place.daysSince_yoe ((n + 306) / 146097)
  have hsucc := daysSince_succ (place.yoe + 400 * ((n + 306) / 146097))
  rw [civil_eq place hn hday]
  by_cases hlate : place.doy < 306
  · obtain ⟨⟨hthree, htwelve⟩, hone, hdays, hin⟩ := monthOf_late _ hlate
    rw [if_neg (show ¬ monthOf place.doy ≤ 2 by omega), Nat.add_zero]
    dsimp only
    refine ⟨⟨by omega, htwelve⟩, ⟨hone, le_daysIn (.inl hin)⟩, ?_⟩
    have hmarch : (isLeap (place.yoe + 400 * ((n + 306) / 146097)) &&
        decide (3 ≤ monthOf place.doy)) = isLeap (place.yoe + 400 * ((n + 306) / 146097)) := by
      rw [decide_eq_true hthree, Bool.and_true]
    rw [dateDays, hmarch]
    omega
  · have hle : place.doy < 366 := by
      have := place.doy_le
      omega
    obtain ⟨⟨hone, htwo⟩, hday1, hdays, hin⟩ := monthOf_early _ hle (by omega)
    rw [if_pos htwo]
    dsimp only
    refine ⟨⟨hone, by omega⟩, ⟨hday1, le_daysIn ?_⟩, ?_⟩
    · rcases hin with hin | ⟨hlast, hfebruary⟩
      · exact .inl hin
      · exact .inr ⟨place.isLeap_of_doy _ hlast, hfebruary⟩
    · have hmarch : (isLeap (place.yoe + 400 * ((n + 306) / 146097) + 1) &&
          decide (3 ≤ monthOf place.doy)) = false := by
        rw [decide_eq_false (show ¬ 3 ≤ monthOf place.doy by omega), Bool.and_false]
      rw [dateDays, hmarch, if_neg Bool.false_ne_true]
      omega

theorem daysIn_le (month year : Nat) : daysIn month year ≤ 31 := by
  rw [daysIn]
  split
  · exact by decide
  · by_cases hmonth : month < 13
    · have hall : ∀ month < 13,
          daysBefore.getD month 0 - daysBefore.getD (month - 1) 0 ≤ 31 := by decide
      exact hall month hmonth
    · rw [List.getD_eq_getElem?_getD, List.getElem?_eq_none (Nat.not_lt.1 hmonth)]
      exact Nat.le_trans (Nat.sub_le _ _) (by decide)

/-! ## Eras -/

theorem isLeap_era (year : Nat) : isLeap (year + 400) = isLeap year := by
  have h4 : (year + 400) % 4 = year % 4 := by omega
  have h100 : (year + 400) % 100 = year % 100 := by omega
  rw [isLeap, isLeap, h4, h100, Nat.add_mod_right]

theorem daysIn_era (month year : Nat) : daysIn month (year + 400) = daysIn month year := by
  rw [daysIn, daysIn, isLeap_era]

/-- The calendar repeats itself after 400 years. -/
theorem dateDays_era (year month day : Nat) :
    dateDays (year + 400) month day = dateDays year month day + 146097 := by
  have hsince : daysSince (year + 400) = daysSince year + 146097 := by
    simp only [daysSince]
    omega
  rw [dateDays, dateDays, isLeap_era, hsince]
  omega

end RelayLifeline.Journal
