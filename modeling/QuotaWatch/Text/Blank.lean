/-!
# Blanks and whole numbers in text

`isBlank` is the Unicode property White_Space; `trim` drops blanks from both ends. `count?` reads
an unsigned 64-bit number in decimal, and `grouped` writes a number with thousands separators.
-/

namespace QuotaWatch.Text

/-- The Unicode property White_Space. -/
def isBlank (c : Char) : Bool :=
  let n := c.toNat
  (0x09 ≤ n && n ≤ 0x0D) || n = 0x20 || n = 0x85 || n = 0xA0 || n = 0x1680
    || (0x2000 ≤ n && n ≤ 0x200A) || n = 0x2028 || n = 0x2029 || n = 0x202F || n = 0x205F
    || n = 0x3000

/-- A text without its leading blanks. -/
def trimStart (cs : List Char) : List Char := cs.dropWhile isBlank

/-- A text without its trailing blanks. -/
def trimEnd (cs : List Char) : List Char := (cs.reverse.dropWhile isBlank).reverse

/-- A text without the blanks at either end. -/
def trim (cs : List Char) : List Char := trimEnd (trimStart cs)

/-- The digits 0 to 9 of ASCII. -/
def isDigit (c : Char) : Bool := '0' ≤ c && c ≤ '9'

/-- The number a digit stands for. -/
def digitValue (c : Char) : Nat := c.toNat - '0'.toNat

/-- The number that a run of digits writes in decimal, after `acc`. -/
def digitsValue (acc : Nat) (cs : List Char) : Nat :=
  cs.foldl (fun n c => 10 * n + digitValue c) acc

/-- An unsigned 64-bit number in decimal: digits only, at least one, with an optional plus sign in
front. -/
def count? (cs : List Char) : Option UInt64 :=
  let digits := match cs with
    | '+' :: rest => rest
    | _ => cs
  let n := digitsValue 0 digits
  if !digits.isEmpty && digits.all isDigit && n < UInt64.size then some (UInt64.ofNat n) else none

/-- The decimal digits of a number. -/
def decimal (n : Nat) : List Char := Nat.toDigits 10 n

/-- The decimal digits of a number, with zeros in front up to `width` characters. -/
def padded (width n : Nat) : List Char :=
  let digits := decimal n
  List.replicate (width - digits.length) '0' ++ digits

/-- Digits with a comma wherever a multiple of three of them is still to come. -/
def groupDigits : List Char → List Char
  | [] => []
  | d :: rest =>
    if rest.length % 3 = 0 && !rest.isEmpty then d :: ',' :: groupDigits rest
    else d :: groupDigits rest

/-- A number in decimal with a comma after every third digit from the right. -/
def grouped (n : Nat) : List Char := groupDigits (decimal n)

end QuotaWatch.Text
