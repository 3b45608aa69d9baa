import Mathlib.Data.String.Basic
import QuotaWatch.Proofs.Text.Order
import QuotaWatch.Proofs.Time.Stamp

/-!
# Stamps in order

A stamp is read back as the instant that it was written from, rounded down to a millisecond. In the
years 0 to 9999 all stamps of milliseconds have one width, so their texts come in the order of
these instants.

* **`orders_stamp`**: two such stamps come in the order of two numbers, `Instant.number`, which put
  date, time and milliseconds one behind the other.
* **`number_lt_iff`**: these numbers come in the order of the instants.
* **`stamp_faithful`**: both of it for the stamps of a ledger.
-/

namespace QuotaWatch.Time

open Text

variable {s t : Instant}

/-! ## Whole milliseconds -/

/-- The last instant of a whole millisecond that is not behind an instant. -/
def Instant.roundedDown (t : Instant) : Instant where
  seconds := t.seconds
  nanos := t.nanos / 1000000 * 1000000
  seconds_ge := t.seconds_ge
  seconds_le := t.seconds_le
  nanos_lt := by
    have := t.nanos_lt
    omega
  leap_at_minute_end := fun h => t.leap_at_minute_end (by omega)

/-! ## Stamps as numbers -/

/-- The digits of a date as a number. -/
def Date.number (date : Date) : Nat := (date.year.toNat * 100 + date.month) * 100 + date.day

/-- The digits of a time of day as a number. -/
def Instant.clockNumber (t : Instant) : Nat :=
  (t.secondOfDay / 3600 * 100 + t.secondOfDay / 60 % 60) * 100
    + (t.secondOfDay % 60 + t.nanos / 1000000000)

/-- The digits of a stamp with milliseconds as a number. -/
def Instant.number (t : Instant) : Nat :=
  (t.date.number * 1000000 + t.clockNumber) * 1000 + t.nanos % 1000000000 / 1000000

/-- A year that is written with four digits and no sign. -/
def FourDigits (year : Int) : Prop := 0 ≤ year ∧ year ≤ 9999

variable {a b date : Date}

/-- Month and day of a date that exists have two digits. -/
theorem twoDigits_of_isValid (h : date.isValid = true) : date.month < 100 ∧ date.day < 100 := by
  obtain ⟨_, hmonth, _, hday⟩ := bounds_of_isValid h
  have := daysInMonth_le date.year date.month
  omega

/-- Dates come in the order of their texts, in years of four digits. Outside of these years a sign
stands in front of the year, and the order of texts is another one. -/
theorem orders_dateText (ha : a.isValid = true) (hb : b.isValid = true)
    (hyear : FourDigits a.year) (hyear' : FourDigits b.year) :
    Orders a.text b.text a.number b.number := by
  have htext {year : Int} (h : FourDigits year) : yearText year = padded 4 year.toNat :=
    if_pos (by simpa [FourDigits] using h)
  obtain ⟨hmonth, hday⟩ := twoDigits_of_isValid ha
  obtain ⟨hmonth', hday'⟩ := twoDigits_of_isValid hb
  -- year, month and day have fixed widths, so they compare one after the other
  have hyears : Orders (yearText a.year) (yearText b.year) a.year.toNat b.year.toNat := by
    rw [htext hyear, htext hyear']
    unfold FourDigits at hyear hyear'
    exact .padded (by decide) (by omega) (by omega)
  have hmonths : Orders (padded 2 a.month) (padded 2 b.month) a.month b.month :=
    .padded (by decide) hmonth hmonth'
  have hdays : Orders (padded 2 a.day) (padded 2 b.day) a.day b.day :=
    .padded (by decide) hday hday'
  exact (hyears.append (hmonths.cons '-') hmonth hmonth').append (hdays.cons '-') hday hday'

/-- The parts of a time of day, with the leap second as a part of its minute, have two digits each.
-/
theorem clock_bounds (t : Instant) :
    t.secondOfDay / 3600 < 100 ∧ t.secondOfDay / 60 % 60 < 100
      ∧ t.secondOfDay % 60 + t.nanos / 1000000000 < 100 ∧ t.clockNumber < 1000000 := by
  have hnanos := t.nanos_lt
  unfold Instant.clockNumber Instant.secondOfDay
  omega

/-- Times of day come in the order of their texts, leap seconds included: they are written as second
60. -/
theorem orders_timeText (s t : Instant) :
    Orders s.timeText t.timeText s.clockNumber t.clockNumber := by
  obtain ⟨hhour, hminute, hsecond, _⟩ := clock_bounds s
  obtain ⟨hhour', hminute', hsecond', _⟩ := clock_bounds t
  have hhours := Orders.padded (by decide : 0 < 2) hhour hhour'
  have hminutes := Orders.padded (by decide : 0 < 2) hminute hminute'
  have hseconds := Orders.padded (by decide : 0 < 2) hsecond hsecond'
  exact (hhours.append (hminutes.cons ':') hminute hminute').append (hseconds.cons ':') hsecond
    hsecond'

/-- **Stamps of one width come in the order of their numbers.** The text is put together from date,
time, fraction and the letter at the end, and the number from the same parts in the same order. -/
theorem orders_stamp (hs : FourDigits s.date.year) (ht : FourDigits t.date.year) :
    Orders (s.stampChars .millis) (t.stampChars .millis) s.number t.number := by
  obtain ⟨_, _, _, hclock⟩ := clock_bounds s
  obtain ⟨_, _, _, hclock'⟩ := clock_bounds t
  have hmillis (r : Instant) : r.nanos % 1000000000 / 1000000 < 1000 := by omega
  have hdates := orders_dateText (isValid_date s) (isValid_date t) hs ht
  have htimes := (orders_timeText s t).cons 'T'
  have hfractions : Orders (fractionText .millis (s.nanos % 1000000000))
      (fractionText .millis (t.nanos % 1000000000)) (s.nanos % 1000000000 / 1000000)
      (t.nanos % 1000000000 / 1000000) :=
    (Orders.padded (by decide : 0 < 3) (hmillis s) (hmillis t)).cons '.'
  -- the letter at the end is the same in all stamps and counts for nothing
  have hends : Orders ['Z'] ['Z'] 0 0 := ⟨rfl, by simp, by simp⟩
  have hnumbers := (hdates.append htimes hclock hclock').append hfractions (hmillis s) (hmillis t)
  have hall := hnumbers.append hends (by decide : 0 < 1) (by decide)
  rw [Nat.mul_one, Nat.mul_one, Nat.add_zero, Nat.add_zero] at hall
  exact hall

/-! ## The order of these numbers -/

/-- A lesser number of a date is an earlier date. Month and day take two digits each, so neither
reaches into the part in front of it. -/
theorem before_of_number_lt (ha : a.isValid = true) (hb : b.isValid = true) (hyear : 0 ≤ a.year)
    (hyear' : 0 ≤ b.year) (h : a.number < b.number) : a.Before b := by
  obtain ⟨_, _⟩ := twoDigits_of_isValid ha
  obtain ⟨_, _⟩ := twoDigits_of_isValid hb
  unfold Date.Before
  unfold Date.number at h
  omega

/-- A date is known from its number, by the same two digits. -/
theorem eq_of_number_eq (ha : a.isValid = true) (hb : b.isValid = true) (hyear : 0 ≤ a.year)
    (hyear' : 0 ≤ b.year) (h : a.number = b.number) : a = b := by
  obtain ⟨_, _⟩ := twoDigits_of_isValid ha
  obtain ⟨_, _⟩ := twoDigits_of_isValid hb
  unfold Date.number at h
  cases a
  cases b
  simp only [Date.mk.injEq] at *
  omega

/-- The numbers of dates come in the order of their days. All three cases are stated together,
because the order of instants needs the days to be equal where the numbers are. -/
theorem number_cases (ha : a.isValid = true) (hb : b.isValid = true) (hyear : 0 ≤ a.year)
    (hyear' : 0 ≤ b.year) :
    a.number < b.number ∧ a.toDays < b.toDays ∨ a.number = b.number ∧ a.toDays = b.toDays
      ∨ b.number < a.number ∧ b.toDays < a.toDays := by
  rcases Nat.lt_trichotomy a.number b.number with hlt | heq | hgt
  · exact .inl ⟨hlt, toDays_lt ha hb (before_of_number_lt ha hb hyear hyear' hlt)⟩
  · exact .inr (.inl ⟨heq, congrArg Date.toDays (eq_of_number_eq ha hb hyear hyear' heq)⟩)
  · exact .inr (.inr ⟨hgt, toDays_lt hb ha (before_of_number_lt hb ha hyear' hyear hgt)⟩)

/-- The numbers of times of day come in the order of their seconds and milliseconds. A leap second
is kept as more than 1000 ms of the second before it, and is written as the second 60. -/
theorem clockNumber_lt_iff (s t : Instant) :
    s.clockNumber * 1000 + s.nanos % 1000000000 / 1000000
        < t.clockNumber * 1000 + t.nanos % 1000000000 / 1000000
      ↔ s.secondOfDay < t.secondOfDay
        ∨ s.secondOfDay = t.secondOfDay ∧ s.nanos / 1000000 < t.nanos / 1000000 := by
  -- the milliseconds of a leap second go on behind the last second of its minute
  have hmillis (r : Instant) : r.clockNumber * 1000 + r.nanos % 1000000000 / 1000000
      = (r.secondOfDay / 3600 * 100 + r.secondOfDay / 60 % 60) * 100000
        + (r.secondOfDay % 60 * 1000 + r.nanos / 1000000) := by
    unfold Instant.clockNumber
    omega
  have hleap (r : Instant) : r.nanos / 1000000 < 2000
      ∧ (1000 ≤ r.nanos / 1000000 → r.secondOfDay % 60 = 59) := by
    have hnanos := r.nanos_lt
    have hend := r.leap_at_minute_end
    unfold Instant.secondOfDay
    omega
  obtain ⟨hlt, hend⟩ := hleap s
  obtain ⟨hlt', hend'⟩ := hleap t
  rw [hmillis, hmillis, mul_add_lt_mul_add_iff (by omega) (by omega)]
  generalize s.secondOfDay = second at *
  generalize t.secondOfDay = second' at *
  generalize s.nanos / 1000000 = millis at *
  generalize t.nanos / 1000000 = millis' at *
  have hhours (n : Nat) : n / 60 / 60 = n / 3600 := Nat.div_div_eq_div_mul n 60 60
  have hhour := hhours second
  have hhour' := hhours second'
  omega

/-- Instants of whole milliseconds come in the order of their days, seconds and milliseconds, which
is the order that stamps are written in. -/
theorem roundedDown_le_iff (s t : Instant) :
    s.roundedDown ≤ t.roundedDown ↔ s.date.toDays < t.date.toDays
      ∨ s.date.toDays = t.date.toDays ∧ (s.secondOfDay < t.secondOfDay
        ∨ s.secondOfDay = t.secondOfDay ∧ s.nanos / 1000000 ≤ t.nanos / 1000000) := by
  have hdays (r : Instant) : r.date.toDays = r.seconds / 86400 := toDays_ofDays _
  rw [hdays, hdays, Instant.le_iff]
  simp only [Instant.roundedDown, Instant.secondOfDay]
  omega

/-- **Stamps come in the order of what they keep of their instants.** What they drop, the digits
behind the milliseconds, makes no difference to either side. -/
theorem number_lt_iff (hs : 0 ≤ s.date.year) (ht : 0 ≤ t.date.year) :
    t.number < s.number ↔ ¬ s.roundedDown ≤ t.roundedDown := by
  have hdates := number_cases (isValid_date s) (isValid_date t) hs ht
  have hclocks := clockNumber_lt_iff t s
  have hnumber (r : Instant) : r.number = r.date.number * 1000000000
      + (r.clockNumber * 1000 + r.nanos % 1000000000 / 1000000) := by
    unfold Instant.number
    omega
  -- within a day the clock is below a bound, so days come first
  have hbound (r : Instant) :
      r.clockNumber * 1000 + r.nanos % 1000000000 / 1000000 < 1000000000 := by
    obtain ⟨_, _, _, hclock⟩ := clock_bounds r
    omega
  rw [hnumber, hnumber, mul_add_lt_mul_add_iff (hbound t) (hbound s), hclocks, roundedDown_le_iff]
  rcases hdates with ⟨hnumbers, hdays⟩ | ⟨hnumbers, hdays⟩ | ⟨hnumbers, hdays⟩ <;> omega

/-- **The stamps of a ledger are faithful and in order.** Every instant is read back from its stamp,
rounded down to a millisecond, and in the years 0 to 9999 the texts of stamps come in the order of
the instants that are read back. -/
theorem stamp_faithful :
    (∀ t : Instant, Instant.read? (t.stamp .millis) = some t.roundedDown)
      ∧ ∀ s t : Instant, FourDigits s.date.year → FourDigits t.date.year →
        (s.roundedDown ≤ t.roundedDown ↔ s.stamp .millis ≤ t.stamp .millis) := by
  refine ⟨fun t => ?_, fun s t hs ht => ?_⟩
  · rw [read?_stamp_kept]
    exact t.roundedDown.make?_eq_some
  · rw [← String.not_lt, String.lt_iff_toList_lt, Instant.stamp, Instant.stamp,
      String.toList_ofList, String.toList_ofList, (orders_stamp ht hs).lt_iff,
      number_lt_iff hs.1 ht.1, not_not]

/-- Half a millisecond before 1970. -/
def eveOfEpoch : Instant := ⟨-1, 999500000, by decide, by decide, by decide, by decide⟩

/-- A quarter into the first leap second. -/
def leapSecond : Instant := ⟨78796799, 1250000000, by decide, by decide, by decide, by decide⟩

/-- Stamps on both sides of 1970, one of them in a leap second. The first is rounded down, not
towards zero. -/
theorem stamp_faithful_leapSecond :
    eveOfEpoch.stamp .millis = "1969-12-31T23:59:59.999Z"
      ∧ leapSecond.stamp .millis = "1972-06-30T23:59:60.250Z"
      ∧ Instant.read? (eveOfEpoch.stamp .millis) = some eveOfEpoch.roundedDown
      ∧ FourDigits eveOfEpoch.date.year ∧ FourDigits leapSecond.date.year
      ∧ (eveOfEpoch.roundedDown ≤ leapSecond.roundedDown
        ↔ eveOfEpoch.stamp .millis ≤ leapSecond.stamp .millis) := by
  have hyear : FourDigits eveOfEpoch.date.year := by constructor <;> decide +kernel
  have hyear' : FourDigits leapSecond.date.year := by constructor <;> decide +kernel
  obtain ⟨hread, horder⟩ := stamp_faithful
  exact ⟨by decide +kernel, by decide +kernel, hread eveOfEpoch, hyear, hyear',
    horder eveOfEpoch leapSecond hyear hyear'⟩

end QuotaWatch.Time
