import MailCapture.Time
/-!
The calendar: every day has a date, and the day of that date is the day itself.  A day of the cycle
of 400 years is taken apart into centuries, cycles of four years, years and days, which the year of
the date and the first day of that year are read off.
-/
namespace MailCapture.Time

/-- A day of the cycle of 400 years: it lies so many centuries, cycles of four years, years and days
after the first of them.  A year has a day more only where it ends a cycle of four years, and at the
end of a century only where it ends all. -/
structure IsDayOfEra (day c q y r : Int) : Prop where
  sum : day = 36524 * c + 1461 * q + 365 * y + r
  century : 0 ≤ c ∧ c ≤ 3
  cycle : 0 ≤ q ∧ q ≤ 24
  year : 0 ≤ y ∧ y ≤ 3
  rest : 0 ≤ r ∧ r ≤ 365
  leap : r = 365 → y = 3 ∧ (q = 24 → c = 3)

theorem exists_isDayOfEra {day : Int} (h0 : 0 ≤ day) (h1 : day ≤ 146096) :
    ∃ c q y r, IsDayOfEra day c q y r := by
  -- the last century has a day more, and so has the last year of a cycle of four
  obtain ⟨c, hc⟩ : ∃ c, c = min (day / 36524) 3 := ⟨_, rfl⟩
  obtain ⟨inCentury, hcentury⟩ : ∃ d, d = day - 36524 * c := ⟨_, rfl⟩
  have hend : inCentury ≤ 36524 ∧ (inCentury = 36524 → c = 3) := by omega
  obtain ⟨q, hq⟩ : ∃ q, q = inCentury / 1461 := ⟨_, rfl⟩
  obtain ⟨inCycle, hcycle⟩ : ∃ d, d = inCentury - 1461 * q := ⟨_, rfl⟩
  obtain ⟨y, hy⟩ : ∃ y, y = min (inCycle / 365) 3 := ⟨_, rfl⟩
  exact ⟨c, q, y, inCycle - 365 * y, by omega, by omega, by omega, by omega, by omega, by omega⟩

def yearOfEra (day : Int) : Int := (day - day / 1460 + day / 36524 - day / 146096) / 365

variable {day c q y r : Int}

theorem IsDayOfEra.yearOfEra_eq (h : IsDayOfEra day c q y r) :
    yearOfEra day = 100 * c + 4 * q + y := by
  obtain ⟨hsum, hcentury, hcycle, hyear, hrest, hleap⟩ := h
  obtain ⟨inCentury, hinCentury⟩ : ∃ d, d = 1461 * q + 365 * y + r := ⟨_, rfl⟩
  have hend : 0 ≤ inCentury ∧ inCentury ≤ 36524 ∧ (inCentury = 36524 → c = 3) := by omega
  have hday : day = 36524 * c + inCentury := by omega
  have hcenturies : day / 36524 - day / 146096 = c := by
    by_cases hlast : inCentury = 36524
    · have hday : day = 146096 := by omega
      omega
    · have hnone : day / 146096 = 0 := by omega
      have hcount : day / 36524 = c := by omega
      omega
  -- the quotient may be one ahead near the end of a cycle of four years
  have hcycles : day / 1460 = 25 * c + q ∨ day / 1460 = 25 * c + q + 1 := by omega
  unfold yearOfEra
  omega

/-- The days before a year of the cycle of 400 years. -/
theorem IsDayOfEra.daysBefore (h : IsDayOfEra day c q y r) {year : Int}
    (hy : year = 100 * c + 4 * q + y) : 365 * year + year / 4 - year / 100 = day - r := by
  obtain ⟨hsum, hcentury, hcycle, hyear, hrest, hleap⟩ := h
  omega

theorem IsDayOfEra.year_lt (h : IsDayOfEra day c q y r) :
    0 ≤ 100 * c + 4 * q + y ∧ 100 * c + 4 * q + y ≤ 399 := by
  obtain ⟨-, hcentury, hcycle, hyear, -, -⟩ := h
  omega

/-- The month that a day of a year lies in, counted from March. -/
def monthOfDay (r : Int) : Int := (5 * r + 2) / 153

def daysBeforeMonth (m : Int) : Int := (153 * m + 2) / 5

/-- What is left of the days of a year after the months before fits the month. -/
theorem monthOfDay_spec (h0 : 0 ≤ r) (h1 : r ≤ 365) :
    0 ≤ monthOfDay r ∧ monthOfDay r ≤ 11 ∧ daysBeforeMonth (monthOfDay r) ≤ r ∧
      r < daysBeforeMonth (monthOfDay r + 1) := by
  unfold monthOfDay daysBeforeMonth
  omega

/-- A day lies in an era of 400 years, and its date is read off the parts of the day in the era. -/
theorem exists_dateOfDays (days : Int) : ∃ era c q y r,
    IsDayOfEra (days + 719468 - era * 146097) c q y r ∧
      dateOfDays days =
        (100 * c + 4 * q + y + era * 400 + (if monthOfDay r < 10 then 0 else 1),
          (if monthOfDay r < 10 then monthOfDay r + 3 else monthOfDay r - 9).toNat,
          (r - daysBeforeMonth (monthOfDay r) + 1).toNat) := by
  obtain ⟨era, hera⟩ : ∃ era, era = (days + 719468) / 146097 := ⟨_, rfl⟩
  obtain ⟨day, hday⟩ : ∃ day, day = days + 719468 - era * 146097 := ⟨_, rfl⟩
  have hinside : 0 ≤ day ∧ day ≤ 146096 := by omega
  obtain ⟨c, q, y, r, h⟩ := exists_isDayOfEra hinside.1 hinside.2
  refine ⟨era, c, q, y, r, hday ▸ h, ?_⟩
  have hrest : day - (365 * yearOfEra day + yearOfEra day / 4 - yearOfEra day / 100) = r := by
    rw [h.daysBefore h.yearOfEra_eq]
    omega
  have hdate : dateOfDays days =
      (yearOfEra day + era * 400 +
          (if (if monthOfDay r < 10 then monthOfDay r + 3 else monthOfDay r - 9) ≤ 2 then 1 else 0),
        (if monthOfDay r < 10 then monthOfDay r + 3 else monthOfDay r - 9).toNat,
        (r - daysBeforeMonth (monthOfDay r) + 1).toNat) := by
    rw [← hrest, hday, hera, ← Int.fdiv_eq_ediv_of_nonneg _ (by omega)]
    rfl
  have hmonth := monthOfDay_spec h.rest.1 h.rest.2
  rw [hdate, h.yearOfEra_eq]
  by_cases hm : monthOfDay r < 10
  · rw [if_pos hm, if_pos hm, if_neg (by omega)]
  · rw [if_neg hm, if_neg hm, if_pos (by omega)]

/-- The day of a date whose parts are known. -/
theorem daysOfDate_eq (h : IsDayOfEra day c q y r) (era : Int) :
    daysOfDate (100 * c + 4 * q + y + era * 400 + (if monthOfDay r < 10 then 0 else 1))
        (if monthOfDay r < 10 then monthOfDay r + 3 else monthOfDay r - 9).toNat
        (r - daysBeforeMonth (monthOfDay r) + 1).toNat =
      era * 146097 + day - 719468 := by
  obtain ⟨hm0, hm11, hbefore, -⟩ := monthOfDay_spec h.rest.1 h.rest.2
  have hday := h.daysBefore rfl
  have hyear := h.year_lt
  obtain ⟨n, hn⟩ : ∃ n, n = 100 * c + 4 * q + y := ⟨_, rfl⟩
  rw [← hn] at hday hyear ⊢
  obtain ⟨m, hm⟩ : ∃ m, m = monthOfDay r := ⟨_, rfl⟩
  rw [← hm] at hm0 hm11 hbefore ⊢
  unfold daysBeforeMonth at hbefore ⊢
  unfold daysOfDate
  simp only [Int.fdiv_eq_ediv_of_nonneg _ (by omega : (0 : Int) ≤ 400)]
  by_cases hlate : m < 10
  · simp only [if_pos hlate]
    rw [if_neg (by omega)]
    omega
  · simp only [if_neg hlate]
    rw [if_pos (by omega)]
    omega

/-- The day of the date of a day is the day. -/
theorem daysOfDate_dateOfDays (days : Int) :
    daysOfDate (dateOfDays days).1 (dateOfDays days).2.1 (dateOfDays days).2.2 = days := by
  obtain ⟨era, c, q, y, r, h, hdate⟩ := exists_dateOfDays days
  rw [hdate, daysOfDate_eq h]
  omega

theorem dateOfDays_month (days : Int) :
    1 ≤ (dateOfDays days).2.1 ∧ (dateOfDays days).2.1 ≤ 12 := by
  obtain ⟨era, c, q, y, r, h, hdate⟩ := exists_dateOfDays days
  obtain ⟨hm0, hm11, -, -⟩ := monthOfDay_spec h.rest.1 h.rest.2
  rw [hdate]
  dsimp only
  split <;> omega

theorem isLeapYear_iff {year : Int} :
    isLeapYear year = true ↔ year % 4 = 0 ∧ (year % 100 ≠ 0 ∨ year % 400 = 0) := by
  simp [isLeapYear]

/-- The length of a month that is not the last one, counted from March. -/
theorem daysInMonth_eq {m : Int} (h0 : 0 ≤ m) (h1 : m < 11) (year : Int) :
    (daysInMonth year (if m < 10 then m + 3 else m - 9).toNat : Int) =
      daysBeforeMonth (m + 1) - daysBeforeMonth m := by
  have hcases : m = 0 ∨ m = 1 ∨ m = 2 ∨ m = 3 ∨ m = 4 ∨ m = 5 ∨ m = 6 ∨ m = 7 ∨ m = 8 ∨ m = 9 ∨
    m = 10 := by omega
  rcases hcases with rfl | rfl | rfl | rfl | rfl | rfl | rfl | rfl | rfl | rfl | rfl <;> rfl

/-- The day of a date is one of its month; the 29th of February is one in leap years only. -/
theorem dateOfDays_day (days : Int) : 1 ≤ (dateOfDays days).2.2 ∧
    (dateOfDays days).2.2 ≤ daysInMonth (dateOfDays days).1 (dateOfDays days).2.1 := by
  obtain ⟨era, c, q, y, r, h, hdate⟩ := exists_dateOfDays days
  obtain ⟨hm0, hm11, hbefore, hafter⟩ := monthOfDay_spec h.rest.1 h.rest.2
  rw [hdate]
  dsimp only
  refine ⟨by omega, ?_⟩
  by_cases hlast : monthOfDay r = 11
  · have hfirst : daysBeforeMonth 11 = 337 := rfl
    obtain ⟨-, hcentury, hcycle, hyear, hrest, hleap⟩ := h
    have hmonth : ((11 : Int) - 9).toNat = 2 := rfl
    rw [hlast, if_neg (by omega), if_neg (by omega), hfirst, hmonth, daysInMonth, if_pos rfl]
    split
    · omega
    · rename_i hcommon
      rw [isLeapYear_iff] at hcommon
      omega
  · have hlength := daysInMonth_eq hm0 (by omega : monthOfDay r < 11)
      (100 * c + 4 * q + y + era * 400 + (if monthOfDay r < 10 then 0 else 1))
    omega

/-- Days in range have their years in range. -/
theorem dateOfDays_year {days : Int} (h0 : daysOfDate (-262143) 1 1 ≤ days)
    (h1 : days < daysOfDate 262143 1 1) :
    -262143 ≤ (dateOfDays days).1 ∧ (dateOfDays days).1 ≤ 262142 := by
  obtain ⟨era, c, q, y, r, h, hdate⟩ := exists_dateOfDays days
  obtain ⟨hm0, hm11, hbefore, hafter⟩ := monthOfDay_spec h.rest.1 h.rest.2
  have hfirst : daysOfDate (-262143) 1 1 = -96465292 := rfl
  have hlast : daysOfDate 262143 1 1 = 95026237 := rfl
  have hnewYear : 10 ≤ monthOfDay r ↔ 306 ≤ r := by
    unfold monthOfDay
    omega
  have hbeforeYear := h.daysBefore rfl
  have hyear := h.year_lt
  have hrest := h.rest
  clear h
  rw [hfirst] at h0
  rw [hlast] at h1
  rw [hdate]
  dsimp only
  generalize 100 * c + 4 * q + y = year at hbeforeYear hyear ⊢
  have hera : era ≤ 654 ∨ era = 655 ∨ 656 ≤ era := by omega
  constructor
  · split <;> omega
  · split <;> omega

end MailCapture.Time
