import QuotaWatch.Text.Blank

/-!
# Binary floating-point numbers as exact fractions

A finite double is `mantissa * 2 ^ exponent` with a sign. `Binary.ofFloat?` takes one apart,
`timesPowerOfTwo` makes it a fraction of natural numbers, and `roundDiv` rounds a fraction.
`onePlace` writes a double with one decimal place.
-/

namespace QuotaWatch.Decimal

/-! ## Powers -/

/-- A power of two. -/
def twoTo (n : Nat) : Nat := Nat.pow 2 n

/-- A power of ten. -/
def tenTo (n : Nat) : Nat := Nat.pow 10 n

/-! ## Fractions -/

/-- A finite double: `mantissa * 2 ^ exponent`, negated if `negative`. -/
structure Binary where
  negative : Bool
  mantissa : Nat
  exponent : Int
  deriving DecidableEq, Repr

/-- The parts of a double, or `none` for infinities and for what is not a number. -/
def Binary.ofFloat? (x : Float) : Option Binary :=
  let bits : Nat := x.toBits.toNat
  let negative := decide (bits / twoTo 63 % 2 = 1)
  let biased : Nat := bits / twoTo 52 % twoTo 11
  let fraction : Nat := bits % twoTo 52
  if biased = 2047 then none
  else if biased = 0 then some ⟨negative, fraction, -1074⟩
  else some ⟨negative, fraction + twoTo 52, (biased : Int) - 1075⟩

/-- `n * 2 ^ e` as a fraction. -/
def timesPowerOfTwo (n : Nat) (e : Int) : Nat × Nat :=
  if 0 ≤ e then (n * twoTo e.toNat, 1) else (n, twoTo (-e).toNat)

/-- `num / den`, rounded to the nearest whole number; a half goes to the even neighbour. -/
def roundDiv (num den : Nat) : Nat :=
  let q := num / den
  let r := num % den
  if 2 * r < den then q
  else if den < 2 * r then q + 1
  else if q % 2 = 0 then q else q + 1

/-- A whole number rounded to 53 binary digits, as a double of its size would be. -/
def nearestDouble (n : Nat) : Nat :=
  let unit := twoTo (n.log2 + 1 - 53)
  roundDiv n unit * unit

/-! ## One decimal place -/

/-- `units / 10 ^ places` in decimal, with all its places. -/
def placesText (places units : Nat) : List Char :=
  let digits := Text.padded (places + 1) units
  digits.take (digits.length - places) ++ '.' :: digits.drop (digits.length - places)

/-- A double with one decimal place, rounded from its exact value; a half goes to the even
neighbour. -/
def onePlace (x : Float) : List Char :=
  match Binary.ofFloat? x with
  | some b =>
    let (num, den) := timesPowerOfTwo (b.mantissa * 10) b.exponent
    let text := placesText 1 (roundDiv num den)
    if b.negative then '-' :: text else text
  | none =>
    if x.isNaN then "NaN".toList else if 0 < x then "inf".toList else "-inf".toList

end QuotaWatch.Decimal
