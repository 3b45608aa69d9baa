import QuotaWatch.Time.Calendar

/-!
# Instants

An `Instant` is a point of universal time with nanoseconds, from the first second of year -262143
to the last of year 262142. A leap second is the last second of a minute with a billion
nanoseconds and more. `Instant.addMillis?` moves an instant forward and fails when the result
leaves the range, and `Instant.elapsed` is the time between two instants. Both see to leap seconds,
but not in the same way: the first one by the instant that it starts from, the other by the times of
day. What clocks show is a `LocalTime`.
-/

namespace QuotaWatch.Time

/-- First second of the supported range. -/
def firstSecond : Int := -8334601228800

/-- Last second of the supported range. -/
def lastSecond : Int := 8210266876799

/-- A point of universal time: whole seconds from the start of 1970, and nanoseconds. -/
structure Instant where
  seconds : Int
  nanos : Nat
  seconds_ge : firstSecond ≤ seconds
  seconds_le : seconds ≤ lastSecond
  nanos_lt : nanos < 2000000000
  leap_at_minute_end : 1000000000 ≤ nanos → seconds % 60 = 59
  deriving DecidableEq

/-- The instant with the given seconds and nanoseconds, if it is one. -/
def Instant.make? (seconds : Int) (nanos : Nat) : Option Instant :=
  if h : firstSecond ≤ seconds ∧ seconds ≤ lastSecond ∧ nanos < 2000000000
      ∧ (1000000000 ≤ nanos → seconds % 60 = 59)
  then some ⟨seconds, nanos, h.1, h.2.1, h.2.2.1, h.2.2.2⟩
  else none

/-- The start of 1970. -/
def Instant.epoch : Instant :=
  ⟨0, 0, by decide, by decide, by decide, by decide⟩

instance : Inhabited Instant := ⟨Instant.epoch⟩

/-- Nanoseconds from the start of 1970. -/
def Instant.totalNanos (t : Instant) : Int := t.seconds * 1000000000 + t.nanos

/-- Whole milliseconds from the start of 1970, rounded down. -/
def Instant.millis (t : Instant) : Int := t.seconds * 1000 + (t.nanos / 1000000 : Nat)

/-- The instant with the given count of nanoseconds from the start of 1970, if it is in range. -/
def Instant.ofNanos? (total : Int) : Option Instant :=
  Instant.make? (total / 1000000000) (total % 1000000000).toNat

/-- The instant a number of milliseconds and nanoseconds after the start of 1970. -/
def Instant.ofMillis? (millis nanos : Int) : Option Instant :=
  Instant.ofNanos? (millis * 1000000 + nanos)

/-- Whether an instant lies in a leap second. -/
def Instant.isLeap (t : Instant) : Bool := 1000000000 ≤ t.nanos

/-- The instant a number of milliseconds later, if it is in range. Nothing gets into a leap second
this way. What starts in one stays there until it is over, and goes on as if it were the second
before it, so that it takes a second of its own. -/
def Instant.addMillis? (t : Instant) (millis : Nat) : Option Instant :=
  let step := millis * 1000000
  if t.isLeap && t.nanos + step < 2000000000 then Instant.make? t.seconds (t.nanos + step)
  else Instant.ofNanos? (t.seconds * 1000000000 + (t.nanos % 1000000000 + step : Nat))

def Instant.date (t : Instant) : Date := Date.ofDays (t.seconds / 86400)

def Instant.secondOfDay (t : Instant) : Nat := (t.seconds % 86400).toNat

/-- Nanoseconds from one instant to another. If one of them lies in a leap second and the other has
a later time of day, on whatever day, then the leap second counts as well. -/
def Instant.elapsed (since now : Instant) : Int :=
  let plain := now.totalNanos - since.totalNanos
  if since.isLeap && since.secondOfDay < now.secondOfDay then plain + 1000000000
  else if now.isLeap && now.secondOfDay < since.secondOfDay then plain - 1000000000
  else plain

/-- Whether at least a number of milliseconds has passed between two instants. -/
def Instant.hasPassed (since now : Instant) (millis : Nat) : Bool :=
  (millis * 1000000 : Int) ≤ since.elapsed now

/-! ## Local time -/

/-- How many seconds the clocks of a zone are ahead of universal time, by the instant. -/
abbrev Zone := Instant → Int

/-- An instant as clocks show it that are some seconds ahead of universal time. -/
structure LocalTime where
  instant : Instant
  offset : Int
  deriving DecidableEq, Inhabited

namespace LocalTime

/-- Seconds from the start of 1970 as the clocks count them. -/
def seconds (t : LocalTime) : Int := t.instant.seconds + t.offset

def date (t : LocalTime) : Date := Date.ofDays (t.seconds / 86400)

def secondOfDay (t : LocalTime) : Nat := (t.seconds % 86400).toNat

end LocalTime

/-- An instant as the clocks of a zone show it. -/
def Instant.inZone (t : Instant) (zone : Zone) : LocalTime := ⟨t, zone t⟩

end QuotaWatch.Time
