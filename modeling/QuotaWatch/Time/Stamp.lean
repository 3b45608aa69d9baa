import QuotaWatch.Decimal.Binary
import QuotaWatch.Time.Instant

/-!
# Written instants

`Instant.stamp` writes an instant as date, time and `Z`; `LocalTime.clockFace` writes date and time
for people. `Instant.read?` reads a date and a time with an offset from universal time. It is
lenient: blanks may stand before each number and around the separators of the date and of the time,
numbers may be shorter than usual, a year may have a sign and any number of digits, and digits past
the nanosecond are dropped.
-/

namespace QuotaWatch.Time

open Text

/-! ## Writing -/

/-- How many digits of the fraction of a second are written. -/
inductive Fraction where
  /-- Always three, the rest cut off. -/
  | millis
  /-- Of 0, 3, 6 and 9 the fewest that lose nothing. -/
  | asNeeded
  deriving DecidableEq, Repr

/-- A year: four digits, and a sign in front if it is outside 0 to 9999. -/
def yearText (year : Int) : List Char :=
  if 0 ≤ year && year ≤ 9999 then padded 4 year.toNat
  else (if year < 0 then '-' else '+') :: padded 4 year.natAbs

/-- A fraction of a second with its point. -/
def fractionText (style : Fraction) (nanos : Nat) : List Char :=
  match style with
  | .millis => '.' :: padded 3 (nanos / 1000000)
  | .asNeeded =>
    if nanos = 0 then []
    else if nanos % 1000000 = 0 then '.' :: padded 3 (nanos / 1000000)
    else if nanos % 1000 = 0 then '.' :: padded 6 (nanos / 1000)
    else '.' :: padded 9 nanos

/-- A date as year, month and day. -/
def Date.text (date : Date) : List Char :=
  yearText date.year ++ '-' :: padded 2 date.month ++ '-' :: padded 2 date.day

/-- Hours, minutes and seconds of a time of day. What is past the end of the second is a leap
second, and after second 59 it is second 60. -/
def clockText (second nanos : Nat) : List Char :=
  let extra := nanos / 1000000000
  padded 2 (second / 3600) ++ ':' :: padded 2 (second / 60 % 60)
    ++ ':' :: padded 2 (second % 60 + extra)

def Instant.timeText (t : Instant) : List Char := clockText t.secondOfDay t.nanos

/-- An instant as date, time, fraction of a second and `Z`. -/
def Instant.stampChars (style : Fraction) (t : Instant) : List Char :=
  t.date.text ++ 'T' :: t.timeText ++ fractionText style (t.nanos % 1000000000) ++ ['Z']

@[inherit_doc Instant.stampChars]
def Instant.stamp (style : Fraction) (t : Instant) : String :=
  String.ofList (t.stampChars style)

/-- Date and time of day on the clock of a person. -/
def LocalTime.clockFace (t : LocalTime) : String :=
  String.ofList (t.date.text ++ ' ' :: clockText t.secondOfDay t.instant.nanos)

/-! ## Reading -/

/-- A run of one to `most` digits at the head of a text, as a number, and what follows it. -/
def number? (most : Nat) (cs : List Char) : Option (Nat × List Char) :=
  let digits := (cs.take most).takeWhile isDigit
  if digits.isEmpty then none
  else some (digitsValue 0 digits, cs.drop digits.length)

/-- A number of one or two digits after blanks. -/
def twoDigits? (cs : List Char) : Option (Nat × List Char) := number? 2 (trimStart cs)

/-- A given character after blanks. -/
def separator? (c : Char) (cs : List Char) : Option (List Char) :=
  match trimStart cs with
  | d :: rest => if d = c then some rest else none
  | [] => none

/-- A year: up to four digits, or a sign and any number of digits. -/
def year? (cs : List Char) : Option (Int × List Char) :=
  match trimStart cs with
  | '-' :: rest => (number? rest.length rest).map fun (n, rest) => (-(n : Int), rest)
  | '+' :: rest => (number? rest.length rest).map fun (n, rest) => ((n : Int), rest)
  | cs => (number? 4 cs).map fun (n, rest) => ((n : Int), rest)

/-- The nanoseconds that a fraction of a second writes, and what follows it. No point, no
fraction. -/
def fraction? (cs : List Char) : Option (Nat × List Char) :=
  match cs with
  | '.' :: rest =>
    (number? 9 rest).map fun (n, after) =>
      (n * Decimal.tenTo (9 - (rest.length - after.length)), after.dropWhile isDigit)
  | _ => some (0, cs)

/-- A number of exactly two digits. -/
def pair? (cs : List Char) : Option (Nat × List Char) :=
  match cs with
  | a :: b :: rest =>
    if isDigit a && isDigit b then some (10 * digitValue a + digitValue b, rest) else none
  | _ => none

/-- Seconds of an offset after its sign: two digits of hours, any colons and blanks, two digits of
minutes. -/
def offsetSize? (cs : List Char) : Option (Nat × List Char) := do
  let (hours, rest) ← pair? cs
  let (minutes, rest) ← pair? (rest.dropWhile fun c => c = ':' || isBlank c)
  if minutes < 60 then some (hours * 3600 + minutes * 60, rest) else none

/-- Seconds of an offset from universal time. -/
def offset? (cs : List Char) : Option (Int × List Char) :=
  match cs with
  | 'Z' :: rest => some (0, rest)
  | 'z' :: rest => some (0, rest)
  | sign :: rest =>
    let utc := (cs.take 3).map Char.toUpper
    if utc = ['U', 'T', 'C'] then some (0, cs.drop 3)
    else if sign = '+' then (offsetSize? rest).map fun (n, rest) => ((n : Int), rest)
    else if sign = '-' || sign = '\u2212' then
      (offsetSize? rest).map fun (n, rest) => (-(n : Int), rest)
    else none
  | [] => none

/-- A date and what follows it. -/
def date? (cs : List Char) : Option (Date × List Char) := do
  let (year, rest) ← year? cs
  let rest ← separator? '-' rest
  let (month, rest) ← twoDigits? rest
  let rest ← separator? '-' rest
  let (day, rest) ← twoDigits? rest
  let date : Date := ⟨year, month, day⟩
  if date.isValid then some (date, rest) else none

/-- A time of day in seconds and nanoseconds, and what follows it. Second 60 is a leap second. -/
def time? (cs : List Char) : Option (Nat × Nat × List Char) := do
  let (hour, rest) ← twoDigits? cs
  let rest ← separator? ':' rest
  let (minute, rest) ← twoDigits? rest
  let rest ← separator? ':' rest
  let (second, rest) ← twoDigits? rest
  let (nanos, rest) ← fraction? rest
  if hour < 24 && minute < 60 && second ≤ 60 then
    let leap := second / 60
    some (hour * 3600 + minute * 60 + (second - leap), nanos + leap * 1000000000, rest)
  else none

/-- The instant a text writes, read leniently. -/
def Instant.readChars? (cs : List Char) : Option Instant := do
  let (date, rest) ← date? cs
  let rest ← match rest with
    | c :: rest => if c = 'T' || c = 't' || c = ' ' then some rest else none
    | [] => none
  let (seconds, nanos, rest) ← time? rest
  let (offset, rest) ← offset? (trimStart rest)
  if (trimStart rest).isEmpty && -86400 < offset && offset < 86400 then
    Instant.make? (date.toDays * 86400 + seconds - offset) nanos
  else none

@[inherit_doc Instant.readChars?]
def Instant.read? (s : String) : Option Instant := Instant.readChars? s.toList

end QuotaWatch.Time
