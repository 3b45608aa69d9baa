import Mathlib.Order.Defs.LinearOrder
import QuotaWatch.Proofs.Time.Calendar
import QuotaWatch.Time.Instant

/-!
# Clocks that go on

Instants come in the order of their seconds, and in one second in the order of what has passed of
it. A clock that goes on goes forward in this order, and what it shows does not depend on the steps
in which it goes.

* **`addMillis?_eq_some_iff`**: where a clock gets. What starts in a leap second stays in it until
  it is over; everything else is an addition of nanoseconds.
* **`elapsed_addMillis?`**: how much time is found between two instants that a clock shows. It is
  what the clock went on by, unless it started in a leap second and has got to another day. There
  the leap second, which the clock took its time for, is not counted.
-/

namespace QuotaWatch.Time

variable {s t u v : Instant} {a b millis : Nat} {total : Int}

/-! ## Instants in order -/

/-- Instants come in the order of their seconds, and in one second in the order of what has passed
of it. A leap second is over before the next second begins. -/
instance : LE Instant :=
  ⟨fun s t => s.seconds < t.seconds ∨ s.seconds = t.seconds ∧ s.nanos ≤ t.nanos⟩

namespace Instant

/-- The order in terms of the two numbers, for arithmetic. -/
theorem le_iff :
    s ≤ t ↔ s.seconds < t.seconds ∨ s.seconds = t.seconds ∧ s.nanos ≤ t.nanos := Iff.rfl

/-- Two instants with the same numbers are one. The other fields of an instant are proofs. -/
theorem ext_parts (hseconds : s.seconds = t.seconds) (hnanos : s.nanos = t.nanos) : s = t := by
  cases s
  cases t
  simp only at hseconds hnanos
  subst hseconds
  subst hnanos
  rfl

instance : LinearOrder Instant where
  le := (· ≤ ·)
  le_refl t := by
    rw [le_iff]
    omega
  le_trans s t u hst htu := by
    rw [le_iff] at *
    omega
  le_antisymm s t hst hts := by
    rw [le_iff] at hst hts
    exact ext_parts (by omega) (by omega)
  le_total s t := by
    rw [le_iff, le_iff]
    omega
  toDecidableLE s t := inferInstanceAs (Decidable (_ ∨ _))
  toDecidableEq := inferInstance

/-! ## Counts of nanoseconds -/

theorem isLeap_iff : t.isLeap = true ↔ 1000000000 ≤ t.nanos := decide_eq_true_iff

theorem isLeap_eq_false_iff : t.isLeap = false ↔ t.nanos < 1000000000 := by
  rw [← Bool.not_eq_true, isLeap_iff, Nat.not_le]

/-- An instant is made again from its own numbers, since it carries the proofs that they are in
range. -/
theorem make?_eq_some (t : Instant) : Instant.make? t.seconds t.nanos = some t :=
  dif_pos ⟨t.seconds_ge, t.seconds_le, t.nanos_lt, t.leap_at_minute_end⟩

/-- The order is that of the nanoseconds behind an instant that is in no leap second. In a leap
second more nanoseconds have passed than at the start of the second after it, so there the count
falls while time goes on. -/
theorem totalNanos_le_of_le (hs : s.isLeap = false) (h : s ≤ t) : s.totalNanos ≤ t.totalNanos := by
  rw [isLeap_eq_false_iff] at hs
  rw [le_iff] at h
  unfold totalNanos
  omega

/-- A count of nanoseconds has no leap seconds, so it is one instant at most, and every instant
outside of leap seconds is its own count. -/
theorem ofNanos?_eq_some_iff :
    ofNanos? total = some t ↔ t.nanos < 1000000000 ∧ t.totalNanos = total := by
  unfold ofNanos?
  constructor
  · intro h
    unfold make? at h
    split at h
    · cases h
      simp only [totalNanos]
      omega
    · cases h
  · rintro ⟨hnanos, rfl⟩
    -- seconds and rest are the two parts of a division
    have hseconds : t.totalNanos / 1000000000 = t.seconds := by
      unfold totalNanos
      omega
    have hrest : (t.totalNanos % 1000000000).toNat = t.nanos := by
      unfold totalNanos
      omega
    rw [hseconds, hrest]
    exact t.make?_eq_some

/-- A count of nanoseconds is an instant if its seconds are supported. -/
theorem isSome_ofNanos?_iff :
    (ofNanos? total).isSome = true
      ↔ firstSecond ≤ total / 1000000000 ∧ total / 1000000000 ≤ lastSecond := by
  unfold ofNanos? make?
  split
  next hfits => exact iff_of_true rfl ⟨hfits.1, hfits.2.1⟩
  next hfits =>
    -- less than a second is left over, so it is the seconds that do not fit
    refine iff_of_false Bool.noConfusion fun hrange => hfits ⟨hrange.1, hrange.2, ?_, ?_⟩
    · omega
    · omega

/-! ## Going on -/

/-- Whether a clock that goes on for some milliseconds is still in the leap second that it starts
in. -/
def StaysInLeap (t : Instant) (millis : Nat) : Prop :=
  t.isLeap = true ∧ t.nanos + millis * 1000000 < 2000000000

instance : Decidable (t.StaysInLeap millis) := inferInstanceAs (Decidable (_ ∧ _))

/-- Nanoseconds from the start of 1970 to where a clock gets that leaves the second it starts in. A
leap second counts as the one before it. -/
def reached (t : Instant) (millis : Nat) : Int :=
  t.seconds * 1000000000 + (t.nanos % 1000000000 + millis * 1000000 : Nat)

theorem reached_of_not_isLeap (h : t.isLeap = false) (millis : Nat) :
    t.reached millis = t.totalNanos + millis * 1000000 := by
  rw [isLeap_eq_false_iff] at h
  unfold reached totalNanos
  omega

/-- In a leap second, only the nanoseconds of that second grow. -/
theorem addMillis?_of_stays (h : t.StaysInLeap millis) :
    t.addMillis? millis = make? t.seconds (t.nanos + millis * 1000000) := by
  simp only [addMillis?, h.1, h.2, decide_true, Bool.and_self, if_true]

/-- Everywhere else a clock goes on by adding nanoseconds. -/
theorem addMillis?_of_leaves (h : ¬t.StaysInLeap millis) :
    t.addMillis? millis = ofNanos? (t.reached millis) := by
  have hnot : (t.isLeap && decide (t.nanos + millis * 1000000 < 2000000000)) = false := by
    simpa [StaysInLeap, ← Bool.not_eq_true] using h
  simp only [addMillis?, hnot, Bool.false_eq_true, if_false, reached]

/-- **Where a clock gets.** The two cases are the two branches of the addition, each with all that
is known of the instant that comes out, so that nothing below opens the addition again. -/
theorem addMillis?_eq_some_iff :
    t.addMillis? millis = some u ↔
      t.StaysInLeap millis ∧ u.seconds = t.seconds ∧ u.nanos = t.nanos + millis * 1000000
      ∨ ¬t.StaysInLeap millis ∧ u.nanos < 1000000000 ∧ u.totalNanos = t.reached millis := by
  by_cases h : t.StaysInLeap millis
  · -- a leap second that goes on is still one at the end of its minute
    have hmake : make? t.seconds (t.nanos + millis * 1000000)
        = some ⟨t.seconds, t.nanos + millis * 1000000, t.seconds_ge, t.seconds_le, h.2,
          fun _ => t.leap_at_minute_end (isLeap_iff.mp h.1)⟩ :=
      dif_pos ⟨t.seconds_ge, t.seconds_le, h.2, fun _ => t.leap_at_minute_end (isLeap_iff.mp h.1)⟩
    rw [addMillis?_of_stays h, hmake, Option.some.injEq]
    simp only [h, true_and, not_true_eq_false, false_and, or_false]
    constructor
    · rintro rfl
      exact ⟨rfl, rfl⟩
    · rintro ⟨hseconds, hnanos⟩
      exact ext_parts hseconds.symm hnanos.symm
  · rw [addMillis?_of_leaves h, ofNanos?_eq_some_iff]
    simp only [h, false_and, not_false_eq_true, true_and, false_or]

/-- When a clock can go on: it stays in its leap second, or it does not pass the last second. The
lower end of the range is no concern, since a clock does not go back. -/
theorem isSome_addMillis?_iff :
    (t.addMillis? millis).isSome = true
      ↔ t.StaysInLeap millis ∨ t.reached millis / 1000000000 ≤ lastSecond := by
  have hfirst := t.seconds_ge
  by_cases h : t.StaysInLeap millis
  · obtain ⟨hleap, hnanos⟩ := h
    have hmake : (make? t.seconds (t.nanos + millis * 1000000)).isSome = true := by
      rw [make?, dif_pos ⟨t.seconds_ge, t.seconds_le, hnanos,
        fun _ => t.leap_at_minute_end (isLeap_iff.mp hleap)⟩]
      rfl
    rw [addMillis?_of_stays ⟨hleap, hnanos⟩]
    exact iff_of_true hmake (.inl ⟨hleap, hnanos⟩)
  · rw [addMillis?_of_leaves h, isSome_ofNanos?_iff]
    simp only [h, false_or, and_iff_right_iff_imp]
    intro _
    unfold reached
    omega

/-- A clock goes forward, also out of a leap second: the second behind it is later than all of the
leap second. -/
theorem le_of_addMillis? (h : t.addMillis? millis = some u) : t ≤ u := by
  have hlt := t.nanos_lt
  rw [le_iff]
  rcases addMillis?_eq_some_iff.mp h with ⟨-, hseconds, hnanos⟩ | ⟨hleaves, hnanos, htotal⟩
  · omega
  · simp only [StaysInLeap, isLeap_iff, not_and] at hleaves
    simp only [totalNanos, reached] at htotal
    omega

/-- A clock that has not gone on shows where it started. -/
theorem addMillis?_zero (t : Instant) : t.addMillis? 0 = some t := by
  rw [addMillis?_eq_some_iff]
  have hlt := t.nanos_lt
  simp only [StaysInLeap, isLeap_iff, totalNanos, reached, true_and]
  omega

/-- **It does not matter in how many steps a clock goes on.** A leap second that the first step
leaves is over for the second step as well, and one that it does not leave is still under way. -/
theorem addMillis?_add (t : Instant) (a b : Nat) :
    t.addMillis? (a + b) = (t.addMillis? a).bind (·.addMillis? b) := by
  cases hfirst : t.addMillis? a with
  | none =>
    -- a clock that passes the last second does so too when it goes on further
    have hnone : ¬(t.addMillis? a).isSome = true := by simp [hfirst]
    have hle : t.reached a ≤ t.reached (a + b) := by
      unfold reached
      omega
    have hstays : t.StaysInLeap (a + b) → t.StaysInLeap a := by
      simp only [StaysInLeap, isLeap_iff]
      omega
    rw [Option.bind_none, ← Option.not_isSome_iff_eq_none]
    rw [isSome_addMillis?_iff] at hnone ⊢
    rintro (h | h)
    · exact hnone (.inl (hstays h))
    · exact hnone (.inr (by omega))
  | some u =>
    rw [Option.bind_some]
    refine Option.ext fun v => ?_
    rw [addMillis?_eq_some_iff] at hfirst ⊢
    rw [addMillis?_eq_some_iff]
    simp only [StaysInLeap, isLeap_iff, totalNanos, reached] at hfirst ⊢
    omega

/-! ## The time between two instants -/

/-- Where no leap second is in play, time is a difference of nanoseconds. -/
theorem elapsed_of_not_isLeap (hs : s.isLeap = false) (ht : t.isLeap = false) :
    s.elapsed t = t.totalNanos - s.totalNanos := by
  simp only [elapsed, hs, ht, Bool.false_and, Bool.false_eq_true, if_false]

/-- **The time between two instants of a clock** is what it went on by in between, if it did not
start in a leap second, or is still on the day on which it started. Otherwise it took time for a
leap second that the difference of the two instants does not count. -/
theorem elapsed_addMillis? (hu : t.addMillis? a = some u) (hv : t.addMillis? b = some v)
    (hab : a ≤ b) (hday : t.isLeap = false ∨ v.date = t.date) :
    u.elapsed v = ((b - a) * 1000000 : Nat) := by
  rw [addMillis?_eq_some_iff] at hu hv
  have hlt := t.nanos_lt
  have hdays (r : Instant) : r.date.toDays = r.seconds / 86400 := toDays_ofDays _
  rw [← Bool.not_eq_true, isLeap_iff] at hday
  -- what is asked of the date is that no day ends in between, in terms of seconds
  have hsame : 1000000000 ≤ t.nanos → v.seconds / 86400 = t.seconds / 86400 := by
    intro hleap
    rcases hday with hnot | hdate
    · exact absurd hleap hnot
    · rw [← hdays, ← hdays, hdate]
  clear hday
  simp only [StaysInLeap, isLeap_iff, totalNanos, reached] at hu hv
  simp only [elapsed, totalNanos, Bool.and_eq_true, isLeap_iff, decide_eq_true_eq]
  unfold secondOfDay
  split
  · omega
  · split
    · omega
    · omega

end Instant

end QuotaWatch.Time
