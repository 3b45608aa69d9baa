import QuotaWatch.Decimal.Binary

/-!
# The shortest decimal that reads back

A double owns the interval of reals that round to it. `shortest` looks for the fewest decimal
digits that fall into the interval and, among those, takes the nearest to the number.
-/

namespace QuotaWatch.Decimal

/-- The reals that round to a positive double, with the double itself, all over the denominator
`den`; `closed` says whether the two ends belong. -/
structure Interval where
  low : Nat
  value : Nat
  high : Nat
  den : Nat
  closed : Bool

/-- The interval of a positive double. The gap below a power of two is half the gap above it. -/
def Binary.interval (b : Binary) : Interval :=
  let below := if b.mantissa = twoTo 52 && -1074 < b.exponent then 1 else 2
  let scale := timesPowerOfTwo 1 (b.exponent - 2)
  { low := (4 * b.mantissa - below) * scale.1
    value := 4 * b.mantissa * scale.1
    high := (4 * b.mantissa + 2) * scale.1
    den := scale.2
    closed := b.mantissa % 2 = 0 }

/-- Whether `digits * 10 ^ power` lies in the interval. -/
def Interval.holds (i : Interval) (digits : Nat) (power : Int) : Bool :=
  let (num, den) :=
    if 0 ≤ power then (digits * tenTo power.toNat * i.den, 1)
    else (digits * i.den, tenTo (-power).toNat)
  if i.closed then i.low * den ≤ num && num ≤ i.high * den
  else i.low * den < num && num < i.high * den

/-- The whole part of `value / 10 ^ power`, and whether the rest is more than half. -/
def Interval.cut (i : Interval) (power : Int) : Nat × Bool :=
  let (num, den) :=
    if 0 ≤ power then (i.value, i.den * tenTo power.toNat)
    else (i.value * tenTo (-power).toNat, i.den)
  (num / den, den < 2 * (num % den))

/-- The least power of ten above the number, looked for from `power` upwards. -/
def Interval.magnitude (i : Interval) : Nat → Int → Int
  | 0, power => power
  | fuel + 1, power => if (i.cut power).1 = 0 then power else i.magnitude fuel (power + 1)

/-- Digits and power of ten of the shortest decimal in the interval, trying `count` digits and
more. -/
def Interval.search (i : Interval) (magnitude : Int) : Nat → Nat → Nat × Int
  | 0, count => ((i.cut (magnitude - count)).1, magnitude - count)
  | fuel + 1, count =>
    let power := magnitude - count
    let (digits, aboveHalf) := i.cut power
    let lower := i.holds digits power
    let upper := i.holds (digits + 1) power
    if lower && !(upper && aboveHalf) then (digits, power)
    else if upper then (digits + 1, power)
    else i.search magnitude fuel (count + 1)

/-- Digits and power of ten of the shortest decimal that reads back as the given double. -/
def Binary.shortest (b : Binary) : Nat × Int :=
  if b.mantissa = 0 then (0, 0)
  else b.interval.search (b.interval.magnitude 700 (-330)) 17 1

/-- A double in positional notation, with the fewest digits that read back and at least one
decimal place. -/
def plainText (x : Float) : List Char :=
  match Binary.ofFloat? x with
  | some b =>
    let (digits, power) := b.shortest
    let text := Text.decimal digits
    let body :=
      if 0 ≤ power then text ++ List.replicate power.toNat '0' ++ ['.', '0']
      else
        let places := (-power).toNat
        let padded := Text.padded (places + 1) digits
        padded.take (padded.length - places) ++ '.' :: padded.drop (padded.length - places)
    if b.negative then '-' :: body else body
  | none =>
    if x.isNaN then "NaN".toList else if 0 < x then "inf".toList else "-inf".toList

end QuotaWatch.Decimal
