import QuotaWatch.Proofs.Text.Padded
import QuotaWatch.Proofs.Time.Clock
import QuotaWatch.Time.Stamp

/-!
# Written instants are read back

The lenient reader takes every part of a stamp for what it was written from, whatever stands behind
it: a number of fixed width (`number?_padded`), a year with its sign (`year?_yearText`), a date
(`date?_text`), a time (`time?_timeText`) and the fraction of a second (`fraction?_fractionText`).

* **`read?_stamp_kept`**: an instant of the supported range is read back from its stamp, leap
  seconds and years with a sign included, up to the digits that were written (`Fraction.kept`).
-/

namespace QuotaWatch.Time

open Text

variable {cs ds rest : List Char} {c : Char} {n : Nat}

/-- A text does not go on with a digit. -/
def NoDigit (rest : List Char) : Prop := ∀ c ∈ rest.head?, Text.isDigit c = false

/-! ## Numbers -/

/-- A run of digits ends where it is long enough, or where no digit follows. The second case is for
years with a sign and for fractions, which have no width of their own. -/
theorem number?_digits {most : Nat} (hne : ds ≠ []) (hdigits : ∀ c ∈ ds, Text.isDigit c = true)
    (hlength : ds.length ≤ most) (hend : ds.length = most ∨ NoDigit rest) :
    number? most (ds ++ rest) = some (digitsValue 0 ds, rest) := by
  have hrun : ((ds ++ rest).take most).takeWhile Text.isDigit = ds := by
    rw [List.take_append, List.take_of_length_le hlength,
      List.takeWhile_append_of_pos hdigits]
    have hnone : (rest.take (most - ds.length)).takeWhile Text.isDigit = [] := by
      -- digits end where no more are allowed, or at something else
      rcases hend with hfull | hstop
      · rw [hfull, Nat.sub_self, List.take_zero, List.takeWhile_nil]
      · cases rest with
        | nil => rw [List.take_nil, List.takeWhile_nil]
        | cons c more =>
          have hc : Text.isDigit c = false := hstop c rfl
          cases most - ds.length with
          | zero => rfl
          | succ k => rw [List.take_succ_cons, List.takeWhile_cons_of_neg (by simp [hc])]
    rw [hnone, List.append_nil]
  rw [number?, hrun]
  simp [hne]

/-- A number of fixed width is read back, if the reader takes that many digits or no digit follows.
-/
theorem number?_padded {width most : Nat} (hwidth : 0 < width) (h : n < 10 ^ width)
    (hmost : width ≤ most) (hend : width = most ∨ NoDigit rest) :
    number? most (padded width n ++ rest) = some (n, rest) := by
  have hlength := length_padded hwidth h
  have hread : number? most (padded width n ++ rest)
      = some (Text.digitsValue 0 (padded width n), rest) :=
    number?_digits (padded_ne_nil width n) (fun c => isDigit_of_mem_padded) (by omega)
      (by rwa [hlength])
  rwa [digitsValue_padded] at hread

/-- Nothing is trimmed from a text that begins with something else than a blank. The reader allows
blanks between the parts of a stamp, and a written one has none. -/
theorem trimStart_cons (h : isBlank c = false) : trimStart (c :: rest) = c :: rest :=
  List.dropWhile_cons_of_neg (by simp [h])

theorem trimStart_padded (width n : Nat) (rest : List Char) :
    trimStart (padded width n ++ rest) = padded width n ++ rest := by
  obtain ⟨c, more, hcons⟩ := List.exists_cons_of_ne_nil (padded_ne_nil width n)
  have hdigit : Text.isDigit c = true := isDigit_of_mem_padded (hcons ▸ List.mem_cons_self)
  rw [hcons, List.cons_append, trimStart_cons (isBlank_of_isDigit hdigit)]

/-- Two digits are read back, whatever follows: the reader does not take a third one. -/
theorem twoDigits?_padded (h : n < 100) (rest : List Char) :
    twoDigits? (padded 2 n ++ rest) = some (n, rest) := by
  rw [twoDigits?, trimStart_padded]
  exact number?_padded (by decide) h (Nat.le_refl 2) (.inl rfl)

theorem separator?_cons (h : isBlank c = false) (rest : List Char) :
    separator? c (c :: rest) = some rest := by
  rw [separator?, trimStart_cons h]
  exact if_pos rfl

/-! ## Dates -/

/-- **A year is read back**, with or without a sign. Without a sign it has four digits exactly, and
with one it may have more, so it has to end in front of something that is no digit. -/
theorem year?_yearText (year : Int) (hrest : NoDigit rest) :
    year? (yearText year ++ rest) = some (year, rest) := by
  rw [yearText]
  split
  next hfour =>
    obtain ⟨hpos, hle⟩ : 0 ≤ year ∧ year ≤ 9999 := by simpa using hfour
    have hlt : year.toNat < 10 ^ 4 := by omega
    rw [year?, trimStart_padded]
    obtain ⟨c, more, hcons⟩ := List.exists_cons_of_ne_nil (padded_ne_nil 4 year.toNat)
    have hdigit : Text.isDigit c = true := isDigit_of_mem_padded (hcons ▸ List.mem_cons_self)
    -- a digit is no sign
    have hminus : c ≠ '-' := by rintro rfl; exact absurd hdigit (by decide)
    have hplus : c ≠ '+' := by rintro rfl; exact absurd hdigit (by decide)
    split
    next heq =>
      rw [hcons] at heq
      exact absurd (List.cons.inj heq).1 hminus
    next heq =>
      rw [hcons] at heq
      exact absurd (List.cons.inj heq).1 hplus
    next =>
      rw [number?_padded (by decide) hlt (Nat.le_refl 4) (.inl rfl)]
      simp only [Option.map_some, Option.some.injEq, Prod.mk.injEq, and_true]
      omega
  next hsigned =>
    have hnumber : number? (padded 4 year.natAbs ++ rest).length (padded 4 year.natAbs ++ rest)
        = some (year.natAbs, rest) := by
      rw [number?_digits (padded_ne_nil 4 year.natAbs) (fun c => isDigit_of_mem_padded)
        (by rw [List.length_append]; omega) (.inr hrest), digitsValue_padded]
    rw [year?, List.cons_append]
    by_cases hneg : year < 0
    · rw [if_pos hneg, trimStart_cons (by decide)]
      simp only [hnumber, Option.map_some, Option.some.injEq, Prod.mk.injEq, and_true]
      omega
    · rw [if_neg hneg, trimStart_cons (by decide)]
      simp only [hnumber, Option.map_some, Option.some.injEq, Prod.mk.injEq, and_true]
      omega

theorem daysInMonth_le (year : Int) (month : Nat) : daysInMonth year month ≤ 31 := by
  unfold daysInMonth
  split
  · split <;> decide
  · split <;> decide

/-- **A date that exists is read back**, whatever follows it. The reader refuses dates that do not
exist, so this needs `Date.isValid`. -/
theorem date?_text {date : Date} (h : date.isValid = true) (rest : List Char) :
    date? (date.text ++ rest) = some (date, rest) := by
  obtain ⟨_, hmonth, _, hday⟩ := bounds_of_isValid h
  have hday' := Nat.le_trans hday (daysInMonth_le date.year date.month)
  have hstop : NoDigit ('-' :: (padded 2 date.month ++ '-' :: (padded 2 date.day ++ rest))) := by
    rintro c ⟨⟩
    decide
  have hyear := year?_yearText date.year hstop
  simp only [Date.text, List.append_assoc, List.cons_append]
  simp only [date?, hyear, separator?_cons (show isBlank '-' = false by decide),
    twoDigits?_padded (show date.month < 100 by omega),
    twoDigits?_padded (show date.day < 100 by omega), h, Option.bind_eq_bind, Option.bind_some,
    if_true]

/-! ## Times -/

/-- The fraction that so many digits write is in tenths, hundredths and so on: digits that are left
out count as zeros behind the ones that are there. -/
theorem fraction?_point {width : Nat} (hwidth : 0 < width) (hnine : width ≤ 9)
    (h : n < 10 ^ width) :
    fraction? ('.' :: padded width n ++ ['Z']) = some (n * 10 ^ (9 - width), ['Z']) := by
  have hnumber : number? 9 (padded width n ++ ['Z']) = some (n, ['Z']) :=
    number?_padded hwidth h hnine (.inr (by rintro c ⟨⟩; decide))
  have hcount : (padded width n ++ ['Z']).length - ['Z'].length = width := by
    rw [List.length_append, Nat.add_sub_cancel, length_padded hwidth h]
  rw [List.cons_append, fraction?, hnumber, Option.map_some]
  simp only [hcount]
  rfl

/-- The nanoseconds that the digits of a fraction keep. -/
def Fraction.kept : Fraction → Nat → Nat
  | .millis, nanos => nanos / 1000000 * 1000000
  | .asNeeded, nanos => nanos

/-- Milliseconds keep a fraction rounded down to them. -/
theorem fraction?_millis (h : n < 1000000000) :
    fraction? (fractionText .millis n ++ ['Z']) = some (n / 1000000 * 1000000, ['Z']) := by
  rw [fractionText, fraction?_point (by decide) (by decide) (by omega),
    show (10 : Nat) ^ (9 - 3) = 1000000 from rfl]

/-- **The digits that are needed lose nothing.** Three, six or nine of them are written, or none,
and each time the ones left out are zeros. -/
theorem fraction?_asNeeded (h : n < 1000000000) :
    fraction? (fractionText .asNeeded n ++ ['Z']) = some (n, ['Z']) := by
  rw [fractionText]
  split
  next hzero =>
    rw [hzero]
    rfl
  split
  -- three, six or nine digits, as many as lose nothing
  next hmillis =>
    rw [fraction?_point (by decide) (by decide) (by omega),
      show (10 : Nat) ^ (9 - 3) = 1000000 from rfl,
      Nat.div_mul_cancel (Nat.dvd_of_mod_eq_zero hmillis)]
  split
  next hmicros =>
    rw [fraction?_point (by decide) (by decide) (by omega),
      show (10 : Nat) ^ (9 - 6) = 1000 from rfl,
      Nat.div_mul_cancel (Nat.dvd_of_mod_eq_zero hmicros)]
  next =>
    rw [fraction?_point (by decide) (by decide) (by omega),
      show (10 : Nat) ^ (9 - 9) = 1 from rfl, Nat.mul_one]

/-- Both styles in one statement: what is read is what the style keeps. -/
theorem fraction?_fractionText (style : Fraction) (h : n < 1000000000) :
    fraction? (fractionText style n ++ ['Z']) = some (style.kept n, ['Z']) := by
  cases style with
  | millis => exact fraction?_millis h
  | asNeeded => exact fraction?_asNeeded h

/-- A leap second is kept. It is written as second 60 and not as a part of the fraction, so the
reader adds it again. -/
theorem Fraction.kept_mod_add (style : Fraction) (n : Nat) :
    style.kept (n % 1000000000) + n / 1000000000 * 1000000000 = style.kept n := by
  cases style <;> simp only [Fraction.kept] <;> omega

/-- **A time of day is read back**, with its leap second. Second 60 is read as second 59 with a
fraction above one second, which is how an instant holds it. -/
theorem time?_timeText (style : Fraction) (t : Instant) :
    time? (t.timeText ++ (fractionText style (t.nanos % 1000000000) ++ ['Z']))
      = some (t.secondOfDay, style.kept t.nanos, ['Z']) := by
  have hday : t.secondOfDay < 86400 := by
    unfold Instant.secondOfDay
    omega
  have hnanos := t.nanos_lt
  -- a leap second is written as second 60 of its minute
  have hleap : 1000000000 ≤ t.nanos → t.secondOfDay % 60 = 59 := by
    intro hnanos
    have := t.leap_at_minute_end hnanos
    unfold Instant.secondOfDay
    omega
  generalize hsecond : t.secondOfDay = second at hday hleap
  have hclock : second / 3600 < 24 ∧ second / 60 % 60 < 60
      ∧ second % 60 + t.nanos / 1000000000 ≤ 60 := by omega
  simp only [Instant.timeText, clockText, hsecond, List.append_assoc, List.cons_append]
  simp only [time?, separator?_cons (show isBlank ':' = false by decide),
    twoDigits?_padded (show second / 3600 < 100 by omega),
    twoDigits?_padded (show second / 60 % 60 < 100 by omega),
    twoDigits?_padded (show second % 60 + t.nanos / 1000000000 < 100 by omega),
    fraction?_fractionText style (Nat.mod_lt t.nanos (by decide)), Option.bind_eq_bind,
    Option.bind_some]
  have hkept := style.kept_mod_add t.nanos
  rw [if_pos (by simpa using ⟨⟨hclock.1, hclock.2.1⟩, hclock.2.2⟩)]
  simp only [Option.some.injEq, Prod.mk.injEq, and_true]
  omega

/-! ## Stamps -/

/-- The date of an instant exists, because the seconds of an instant are bounded by the supported
years. -/
theorem isValid_date (t : Instant) : t.date.isValid = true := by
  have hfirst := t.seconds_ge
  have hlast := t.seconds_le
  refine isValid_ofDays ?_ ?_
  · simp only [firstSecond] at *
    omega
  · omega

/-- **An instant is read back from its stamp**, with the nanoseconds that were written. The result
is still made from its parts here, since rounding down could in principle leave the supported range;
that it does not is seen where the style is fixed. -/
theorem read?_stamp_kept (style : Fraction) (t : Instant) :
    Instant.read? (t.stamp style) = Instant.make? t.seconds (style.kept t.nanos) := by
  have hdate := date?_text (isValid_date t)
    ('T' :: (t.timeText ++ (fractionText style (t.nanos % 1000000000) ++ ['Z'])))
  have hseconds : t.date.toDays * 86400 + t.secondOfDay - 0 = t.seconds := by
    rw [Instant.date, toDays_ofDays, Instant.secondOfDay]
    omega
  -- the letter at the end is read as an offset of nothing
  have hend : offset? (trimStart ['Z']) = some (0, []) := rfl
  rw [Instant.read?, Instant.stamp, String.toList_ofList]
  simp only [Instant.stampChars, List.append_assoc, List.cons_append]
  simp only [Instant.readChars?, hdate, time?_timeText, hend, hseconds, Option.bind_eq_bind,
    Option.bind_some]
  rfl

/-- A stamp with the digits that are needed gives its instant back. Configurations and snapshots are
written so. -/
theorem read?_stamp (t : Instant) : Instant.read? (t.stamp .asNeeded) = some t :=
  (read?_stamp_kept .asNeeded t).trans t.make?_eq_some

end QuotaWatch.Time
