import Mathlib.Tactic.IntervalCases
import QuotaWatch.Time.Instant

/-!
# Days and dates

Every day has one date, which exists (`isValid_ofDays`) and from which the day is counted back
(`toDays_ofDays`). A day is split into a cycle of 400 years, a year of the cycle and a day of the
year (`splitEra_spec`), and this into a month and a day of the month (`monthIndex_spec`).

Dates that exist come in the order of their days (`toDays_lt`). Counted from March, a month ends
where the next one starts, and so does a year.
-/

namespace QuotaWatch.Time

/-! ## Years of a cycle -/

/-- The year of a cycle and the day in that year, for a day of the cycle. Only a year that ends with
a leap day has a day 365. -/
structure IsSplit (day year dayOfYear : Nat) : Prop where
  year_lt : year < 400
  sum : 365 * year + year / 4 - year / 100 + dayOfYear = day
  day_le : dayOfYear ≤ 365
  leap : dayOfYear = 365 → (year + 1) % 4 = 0 ∧ ((year + 1) % 100 ≠ 0 ∨ year + 1 = 400)

/-- **A day of a cycle is split into its year and the day of that year.** Years begin with March
here, so that a leap day is the last day of its year. -/
theorem splitEra_spec {day : Nat} (h : day < daysInEra) :
    IsSplit day (splitEra day).1 (splitEra day).2 := by
  simp only [daysInEra] at h
  simp only [splitEra]
  -- the steps of the division are named, so that each is used for its bounds only and arithmetic
  -- meets one of them at a time
  generalize hcentury : min (day / 36524) 3 = century
  generalize hrest : day - 36524 * century = rest
  generalize hleap : rest / 1461 = leap
  generalize hlast : rest - 1461 * leap = last
  generalize hyear : min (last / 365) 3 = year
  generalize hdays : last - 365 * year = dayOfYear
  -- a century has at most 25 leap cycles, and only the last one of the era has all of them
  obtain ⟨hcentury_le, hrest_le, hrest_lt, hday⟩ :
      century ≤ 3 ∧ rest ≤ 36524 ∧ (century < 3 → rest < 36524)
        ∧ day = 36524 * century + rest := by omega
  clear hcentury hrest
  obtain ⟨hleap_le, hlast_lt, hrest⟩ : leap ≤ 24 ∧ last < 1461 ∧ rest = 1461 * leap + last := by
    omega
  clear hleap hlast
  obtain ⟨hyear_le, hlast, hdays_le, hdays_lt⟩ : year ≤ 3 ∧ last = 365 * year + dayOfYear
      ∧ dayOfYear ≤ 365 ∧ (year < 3 → dayOfYear < 365) := by
    omega
  clear hyear hdays
  have hquarter : (100 * century + 4 * leap + year) / 4 = 25 * century + leap := by omega
  have hhundred : (100 * century + 4 * leap + year) / 100 = century := by omega
  subst hday hrest hlast
  constructor <;> omega

/-! ## Months -/

/-- The month of the calendar for one counted from March. -/
def monthOf (index : Nat) : Nat := if index < 10 then index + 3 else index - 9

/-- A day of the year lies in its month. The months from March on repeat a pattern of 153 days in
five months, which is why a division finds them. -/
theorem monthIndex_spec {day : Nat} (h : day ≤ 365) :
    monthIndex day ≤ 11 ∧ daysBeforeMonth (monthIndex day) ≤ day
      ∧ (monthIndex day < 11 → day < daysBeforeMonth (monthIndex day + 1)) := by
  simp only [monthIndex, daysBeforeMonth]
  omega

/-- Months from March to January have the length that the calendar says. February, the last of them,
is left out, because its length is a matter of the year. -/
theorem length_month {index : Nat} (h : index < 11) (year : Int) :
    daysBeforeMonth (index + 1) = daysBeforeMonth index + daysInMonth year (monthOf index) := by
  interval_cases index <;> rfl

/-! ## Dates -/

/-- What the date of a day consists of: a cycle, a year of it and a day of that year, and from these
the year, month and day that are written. All that is proved of `Date.ofDays` starts from here. -/
theorem ofDays_spec (days : Int) : ∃ era : Int, ∃ year dayOfYear : Nat,
    IsSplit (days + epochOffset - era * daysInEra).toNat year dayOfYear
      ∧ 0 ≤ days + epochOffset - era * daysInEra
      ∧ Date.ofDays days =
        ⟨400 * era + year + (if monthIndex dayOfYear < 10 then 0 else 1),
          monthOf (monthIndex dayOfYear),
          dayOfYear - daysBeforeMonth (monthIndex dayOfYear) + 1⟩ := by
  have hpos : (0 : Int) < daysInEra := by decide
  -- the days of the era are what is left of the days when whole eras are taken away
  have hrest : (days + epochOffset) % daysInEra
      = days + epochOffset - (days + epochOffset) / daysInEra * daysInEra := by
    rw [Int.emod_def, Int.mul_comm]
  have hnonneg := Int.emod_nonneg (days + epochOffset) (Int.ne_of_gt hpos)
  have hlt := Int.emod_lt_of_pos (days + epochOffset) hpos
  refine ⟨(days + epochOffset) / daysInEra,
    (splitEra ((days + epochOffset) % daysInEra).toNat).1,
    (splitEra ((days + epochOffset) % daysInEra).toNat).2, ?_, by rw [← hrest]; exact hnonneg, rfl⟩
  rw [← hrest]
  exact splitEra_spec (by omega)

/-- Counting back puts cycle, year, month and day together. The date is given in the form in which
`ofDays_spec` has it. -/
theorem toDays_eq (era : Int) {year index : Nat} (hyear : year < 400) (hindex : index ≤ 11)
    (day : Nat) :
    (Date.mk (400 * era + year + (if index < 10 then 0 else 1)) (monthOf index) (day + 1)).toDays
      = daysInEra * era
        + (365 * year + year / 4 - year / 100 + daysBeforeMonth index + day : Nat)
        - epochOffset := by
  have hera : (400 * era + year) / 400 = era := by omega
  have hrest : ((year : Int) % 400).toNat = year := by omega
  unfold Date.toDays monthOf
  -- January and February belong to the year that began the March before
  by_cases hlow : index < 10
  · simp [hlow, hera, hrest]
  · have hearly : index - 9 < 3 := by omega
    have hback : index - 9 + 9 = index := by omega
    simp [hlow, hearly, hback, hera, hrest]

/-- **A date counts back to its day**, for every day, before and after 1970. So different days have
different dates. -/
theorem toDays_ofDays (days : Int) : (Date.ofDays days).toDays = days := by
  obtain ⟨era, year, dayOfYear, hsplit, hnonneg, hdate⟩ := ofDays_spec days
  obtain ⟨hindex, hbefore, -⟩ := monthIndex_spec hsplit.day_le
  obtain ⟨hyear, hsum, -, -⟩ := hsplit
  rw [hdate, toDays_eq era hyear hindex]
  simp only [daysInEra] at hsum hnonneg ⊢
  omega

/-- The years at the ends of the range begin and end with it. So the date of a supported second is
one of a supported year, without a check. -/
theorem year_ofDays {days era : Int} {year dayOfYear : Nat}
    (hfirst : firstSecond ≤ days * 86400) (hlast : days * 86400 ≤ lastSecond)
    (hsplit : IsSplit (days + epochOffset - era * daysInEra).toNat year dayOfYear)
    (hnonneg : 0 ≤ days + epochOffset - era * daysInEra) :
    firstYear ≤ 400 * era + year + (if monthIndex dayOfYear < 10 then 0 else 1)
      ∧ 400 * era + year + (if monthIndex dayOfYear < 10 then 0 else 1) ≤ lastYear := by
  obtain ⟨hyear, hsum, hday, -⟩ := hsplit
  have hindex : monthIndex dayOfYear < 10 ↔ dayOfYear < 306 := by
    unfold monthIndex
    omega
  simp only [hindex, firstSecond, lastSecond, firstYear, lastYear, epochOffset, daysInEra] at *
  have hera : -656 ≤ era ∧ era ≤ 655 := by omega
  constructor
  · -- only in the first cycle is the lower end in question
    rcases Int.lt_or_eq_of_le hera.1 with hlt | rfl
    · split <;> omega
    · have hyear' : 256 ≤ year ∧ (year = 256 → 306 ≤ dayOfYear) := by omega
      split <;> omega
  · -- and only in the last one the upper end
    rcases Int.lt_or_eq_of_le hera.2 with hlt | rfl
    · split <;> omega
    · have hyear' : year ≤ 142 ∧ (year = 142 → dayOfYear < 306) := by omega
      split <;> omega

/-- A day of a month is not behind its end. For February this is where the rule of leap years comes
in. -/
theorem day_le_daysInMonth {day year dayOfYear : Nat} (hsplit : IsSplit day year dayOfYear)
    (era : Int) :
    dayOfYear - daysBeforeMonth (monthIndex dayOfYear) + 1
      ≤ daysInMonth (400 * era + year + (if monthIndex dayOfYear < 10 then 0 else 1))
        (monthOf (monthIndex dayOfYear)) := by
  obtain ⟨hindex, hbefore, hwithin⟩ := monthIndex_spec hsplit.day_le
  rcases Nat.lt_or_ge (monthIndex dayOfYear) 11 with hlt | hge
  · have hnext := hwithin hlt
    rw [length_month hlt (400 * era + year + (if monthIndex dayOfYear < 10 then 0 else 1))] at hnext
    omega
  · -- February, whose length is a matter of the year
    obtain ⟨hyear, -, hday, hleap⟩ := hsplit
    rw [show monthIndex dayOfYear = 11 by omega]
    show dayOfYear - 337 + 1 ≤ if isLeapYear (400 * era + year + 1) then 29 else 28
    split
    · omega
    next hcommon =>
      have hshort : dayOfYear ≠ 365 := by
        intro hfull
        have := hleap hfull
        refine hcommon ?_
        simp only [isLeapYear, Bool.and_eq_true, Bool.or_eq_true, decide_eq_true_eq]
        omega
      omega

/-- **The date of a day exists**: its year is supported, its month is one of twelve, and the month
has that many days. -/
theorem isValid_ofDays {days : Int} (hfirst : firstSecond ≤ days * 86400)
    (hlast : days * 86400 ≤ lastSecond) : (Date.ofDays days).isValid = true := by
  obtain ⟨era, year, dayOfYear, hsplit, hnonneg, hdate⟩ := ofDays_spec days
  -- the month as it is counted from March
  have hindex := (monthIndex_spec hsplit.day_le).1
  have hmonth : 1 ≤ monthOf (monthIndex dayOfYear) ∧ monthOf (monthIndex dayOfYear) ≤ 12 := by
    unfold monthOf
    split <;> omega
  obtain ⟨hyear_ge, hyear_le⟩ := year_ofDays hfirst hlast hsplit hnonneg
  have hday := day_le_daysInMonth hsplit era
  rw [hdate]
  simp only [Date.isValid, Bool.and_eq_true, decide_eq_true_eq]
  exact ⟨⟨⟨⟨⟨hyear_ge, hyear_le⟩, hmonth.1⟩, hmonth.2⟩, Nat.succ_pos _⟩, hday⟩

/-! ## Dates in order -/

/-- A date comes before another one: its year is less, or in one year its month, or in one month its
day. -/
def Date.Before (a b : Date) : Prop :=
  a.year < b.year ∨ a.year = b.year ∧ (a.month < b.month ∨ a.month = b.month ∧ a.day < b.day)

/-- Days before the first of March of a year. -/
def yearStart (year : Int) : Int :=
  daysInEra * (year / 400) + (365 * (year % 400) + year % 400 / 4 - year % 400 / 100)

/-- The year of a date, if years begin with March. -/
def Date.marchYear (date : Date) : Int := if date.month < 3 then date.year - 1 else date.year

/-- The month of a date, counted from March. -/
def Date.marchIndex (date : Date) : Nat :=
  if date.month < 3 then date.month + 9 else date.month - 3

variable {a b date : Date}

/-- The day of a date in terms of years that begin with March. -/
theorem toDays_eq_yearStart (hday : 1 ≤ date.day) :
    date.toDays = yearStart date.marchYear + daysBeforeMonth date.marchIndex + date.day - 1
      - epochOffset := by
  unfold Date.toDays yearStart Date.marchYear Date.marchIndex
  dsimp only
  generalize (if date.month < 3 then date.year - 1 else date.year) = year
  generalize daysBeforeMonth (if date.month < 3 then date.month + 9 else date.month - 3) = before
  omega

/-- A year that begins with March is as long as the rule of leap years says of the year in which it
ends. -/
theorem yearStart_succ (year : Int) :
    yearStart (year + 1) = yearStart year + (if isLeapYear (year + 1) then 366 else 365) := by
  -- the leap day is the last of a year that begins in March
  have hleap : isLeapYear (year + 1) = true
      ↔ (year + 1) % 4 = 0 ∧ ((year + 1) % 100 ≠ 0 ∨ (year + 1) % 400 = 0) := by
    simp [isLeapYear]
  unfold yearStart daysInEra
  split
  next h =>
    rw [hleap] at h
    omega
  next h =>
    rw [hleap] at h
    omega

/-- Later years start later. -/
theorem yearStart_le {year later : Int} (h : year ≤ later) : yearStart year ≤ yearStart later := by
  unfold yearStart daysInEra
  omega

theorem daysBeforeMonth_le {index later : Nat} (h : index ≤ later) :
    daysBeforeMonth index ≤ daysBeforeMonth later := by
  unfold daysBeforeMonth
  omega

/-- What a date that exists has within bounds, for arithmetic. -/
theorem bounds_of_isValid (h : date.isValid = true) :
    1 ≤ date.month ∧ date.month ≤ 12 ∧ 1 ≤ date.day
      ∧ date.day ≤ daysInMonth date.year date.month := by
  simp only [Date.isValid, Bool.and_eq_true, decide_eq_true_eq] at h
  obtain ⟨⟨⟨⟨_, hmonth⟩, hmonth'⟩, hday⟩, hday'⟩ := h
  exact ⟨hmonth, hmonth', hday, hday'⟩

/-- A day of a month lies before the next month, if the year has one. -/
theorem daysBeforeMonth_add_le (h : date.isValid = true) (hindex : date.marchIndex < 11) :
    daysBeforeMonth date.marchIndex + date.day ≤ daysBeforeMonth (date.marchIndex + 1) := by
  obtain ⟨hmonth, _, _, hday⟩ := bounds_of_isValid h
  have hback : monthOf date.marchIndex = date.month := by
    unfold monthOf Date.marchIndex
    split <;> split <;> omega
  rw [length_month hindex date.year, hback]
  omega

/-- A day of a year lies before the next year. It is enough to look at the last month, February,
since the others end before it begins. -/
theorem lt_yearStart_succ (h : date.isValid = true) :
    yearStart date.marchYear + daysBeforeMonth date.marchIndex + date.day - 1
      < yearStart (date.marchYear + 1) := by
  obtain ⟨hmonth, hmonth', _, hday⟩ := bounds_of_isValid h
  rw [yearStart_succ]
  rcases Nat.lt_or_ge date.marchIndex 11 with hlt | hge
  · have hnext := daysBeforeMonth_add_le h hlt
    have hlast : daysBeforeMonth (date.marchIndex + 1) ≤ daysBeforeMonth 11 :=
      daysBeforeMonth_le hlt
    have heleven : daysBeforeMonth 11 = 337 := rfl
    split <;> omega
  · -- February, at the end of a year that may be a leap year
    have hfebruary : date.month = 2 := by
      unfold Date.marchIndex at hge
      split at hge <;> omega
    have hindex : daysBeforeMonth date.marchIndex = 337 := by
      rw [Date.marchIndex, hfebruary]
      rfl
    have hyear : date.marchYear + 1 = date.year := by
      rw [Date.marchYear, hfebruary]
      exact Int.sub_add_cancel _ _
    rw [hfebruary] at hday
    rw [hindex, hyear]
    have hlength : daysInMonth date.year 2 = if isLeapYear date.year then 29 else 28 := rfl
    rw [hlength] at hday
    split at hday
    next hleap =>
      rw [if_pos hleap]
      omega
    next hleap =>
      rw [if_neg hleap]
      omega

/-- **An earlier date is an earlier day.** The proof goes over to years that begin with March, where
a date is compared part by part and a leap day is in nobody's way. -/
theorem toDays_lt (ha : a.isValid = true) (hb : b.isValid = true) (h : a.Before b) :
    a.toDays < b.toDays := by
  obtain ⟨hmonth, hmonth', hday, _⟩ := bounds_of_isValid ha
  obtain ⟨_, _, hday', _⟩ := bounds_of_isValid hb
  -- the order is the same if years begin with March
  have hmarch : a.marchYear < b.marchYear ∨ a.marchYear = b.marchYear
      ∧ (a.marchIndex < b.marchIndex ∨ a.marchIndex = b.marchIndex ∧ a.day < b.day) := by
    unfold Date.Before at h
    unfold Date.marchYear Date.marchIndex
    split <;> split <;> omega
  rw [toDays_eq_yearStart hday, toDays_eq_yearStart hday']
  rcases hmarch with hyear | ⟨hyear, hindex | ⟨hindex, hday⟩⟩
  · have hend := lt_yearStart_succ ha
    have hstart : yearStart (a.marchYear + 1) ≤ yearStart b.marchYear := yearStart_le hyear
    omega
  · have heleven : b.marchIndex ≤ 11 := by
      unfold Date.marchIndex
      split <;> omega
    have hend := daysBeforeMonth_add_le ha (by omega)
    have hstart : daysBeforeMonth (a.marchIndex + 1) ≤ daysBeforeMonth b.marchIndex :=
      daysBeforeMonth_le hindex
    rw [hyear]
    omega
  · rw [hyear, hindex]
    omega

end QuotaWatch.Time
