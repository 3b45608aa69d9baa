import QuotaWatch.Text.Blank
import QuotaWatch.Time.Calendar
import QuotaWatch.Toml.Value

/-!
# Words of TOML

Readers for strings, numbers, dates and keys. Each takes the characters at the head of a text and
gives what they write, and the rest; `none` says that the text is not well-formed.
-/

namespace QuotaWatch.Toml

open Text

/-! ## Characters -/

/-- Blanks within a line. -/
def isSpace (c : Char) : Bool := c = ' ' || c = '\t'

/-- Drops blanks within a line. -/
def skipSpaces (cs : List Char) : List Char := cs.dropWhile isSpace

/-- Characters of a comment: everything but controls, and the tab. -/
def isPrintable (c : Char) : Bool := c = '\t' || (0x20 ≤ c.toNat && c.toNat ≠ 0x7F)

/-- Characters that stand for themselves between double quotes. -/
def isBasicChar (c : Char) : Bool := isPrintable c && c ≠ '"' && c ≠ '\\'

/-- Characters between single quotes. -/
def isLiteralChar (c : Char) : Bool := isPrintable c && c.toNat ≠ 0x27

/-- Characters of a key without quotes. -/
def isBareChar (c : Char) : Bool :=
  isDigit c || ('a' ≤ c && c ≤ 'z') || ('A' ≤ c && c ≤ 'Z') || c = '_' || c = '-'

/-- The rest after a line end, if there is one. -/
def newline? : List Char → Option (List Char)
  | '\n' :: rest => some rest
  | '\r' :: '\n' :: rest => some rest
  | _ => none

/-- Drops blanks, line ends and comments. -/
def skipFiller (inComment : Bool) : List Char → List Char
  | [] => []
  | '\n' :: rest => skipFiller false rest
  | '\r' :: '\n' :: rest => skipFiller false rest
  | c :: rest =>
    if inComment then if isPrintable c then skipFiller true rest else c :: rest
    else if isSpace c then skipFiller false rest
    else if c = '#' then skipFiller true rest
    else c :: rest

/-! ## Strings -/

/-- Puts a character in front of what was read. -/
def prepend (c : Char) (r : Option (List Char × List Char)) : Option (List Char × List Char) :=
  r.map fun (cs, rest) => (c :: cs, rest)

/-- The value of a hexadecimal digit. -/
def hexValue? (c : Char) : Option Nat :=
  if isDigit c then some (digitValue c)
  else if 'a' ≤ c && c ≤ 'f' then some (c.toNat - 'a'.toNat + 10)
  else if 'A' ≤ c && c ≤ 'F' then some (c.toNat - 'A'.toNat + 10)
  else none

/-- The character whose code point hexadecimal digits write. -/
def codePoint? (digits : List Char) : Option Char := do
  let n ← digits.foldlM (fun n c => (hexValue? c).map (16 * n + ·)) 0
  if n.isValidChar then some (Char.ofNat n) else none

/-- The character that a one-letter escape stands for. -/
def escaped? (c : Char) : Option Char :=
  match c with
  | 'b' => some '\x08'
  | 't' => some '\t'
  | 'n' => some '\n'
  | 'f' => some '\x0c'
  | 'r' => some '\r'
  | '"' => some '"'
  | '\\' => some '\\'
  | _ => none

/-- Reads a string behind its opening double quote. -/
def basicString : List Char → Option (List Char × List Char)
  | [] => none
  | '"' :: rest => some ([], rest)
  | '\\' :: 'u' :: a :: b :: c :: d :: rest =>
    (codePoint? [a, b, c, d]).bind fun ch => prepend ch (basicString rest)
  | '\\' :: 'U' :: a :: b :: c :: d :: e :: f :: g :: h :: rest =>
    (codePoint? [a, b, c, d, e, f, g, h]).bind fun ch => prepend ch (basicString rest)
  | '\\' :: c :: rest => (escaped? c).bind fun ch => prepend ch (basicString rest)
  | c :: rest => if isBasicChar c then prepend c (basicString rest) else none

/-- Where blanks after a backslash at the end of a line lead to, if it is one. -/
def lineContinuation? (cs : List Char) : Option (List Char) :=
  (newline? (skipSpaces cs)).map fun rest =>
    rest.dropWhile fun c => isSpace c || c = '\n' || c = '\r'

/-- Reads a string behind its three opening double quotes. Up to two more quotes may stand before
the closing ones. -/
def basicBlock : (fuel : Nat) → List Char → Option (List Char × List Char)
  | 0, _ => none
  | _ + 1, [] => none
  | _ + 1, '"' :: '"' :: '"' :: rest =>
    match rest with
    | '"' :: '"' :: rest => some (['"', '"'], rest)
    | '"' :: rest => some (['"'], rest)
    | rest => some ([], rest)
  | fuel + 1, '\\' :: rest =>
    match lineContinuation? rest with
    | some rest => basicBlock fuel rest
    | none =>
      match rest with
      | 'u' :: a :: b :: c :: d :: rest =>
        (codePoint? [a, b, c, d]).bind fun ch => prepend ch (basicBlock fuel rest)
      | 'U' :: a :: b :: c :: d :: e :: f :: g :: h :: rest =>
        (codePoint? [a, b, c, d, e, f, g, h]).bind fun ch => prepend ch (basicBlock fuel rest)
      | c :: rest => (escaped? c).bind fun ch => prepend ch (basicBlock fuel rest)
      | [] => none
  | fuel + 1, '\n' :: rest => prepend '\n' (basicBlock fuel rest)
  | fuel + 1, '\r' :: '\n' :: rest => prepend '\n' (basicBlock fuel rest)
  | fuel + 1, c :: rest =>
    if isBasicChar c || c = '"' then prepend c (basicBlock fuel rest) else none

/-- Reads a string behind its opening single quote. -/
def literalString (cs : List Char) : Option (List Char × List Char) :=
  match cs.dropWhile isLiteralChar with
  | '\'' :: rest => some (cs.takeWhile isLiteralChar, rest)
  | _ => none

/-- Reads a string behind its three opening single quotes. Up to two more quotes may stand before
the closing ones. -/
def literalBlock : List Char → Option (List Char × List Char)
  | [] => none
  | '\'' :: '\'' :: '\'' :: rest =>
    match rest with
    | '\'' :: '\'' :: rest => some (['\'', '\''], rest)
    | '\'' :: rest => some (['\''], rest)
    | rest => some ([], rest)
  | '\n' :: rest => prepend '\n' (literalBlock rest)
  | '\r' :: '\n' :: rest => prepend '\n' (literalBlock rest)
  | c :: rest =>
    if isLiteralChar c || c = '\'' then prepend c (literalBlock rest) else none

def skipNewline (cs : List Char) : List Char := (newline? cs).getD cs

/-- Reads a string in any of its four forms. -/
def string? : List Char → Option (String × List Char)
  | '"' :: '"' :: '"' :: rest =>
    (basicBlock (rest.length + 1) (skipNewline rest)).map fun (cs, rest) =>
      (String.ofList cs, rest)
  | '"' :: rest => (basicString rest).map fun (cs, rest) => (String.ofList cs, rest)
  | '\'' :: '\'' :: '\'' :: rest =>
    (literalBlock (skipNewline rest)).map fun (cs, rest) => (String.ofList cs, rest)
  | '\'' :: rest => (literalString rest).map fun (cs, rest) => (String.ofList cs, rest)
  | _ => none

/-! ## Numbers -/

/-- Reads digits that follow a digit. An underscore may stand between two of them. -/
def moreDigits (isDigit : Char → Bool) : List Char → Option (List Char × List Char)
  | '_' :: c :: rest => if isDigit c then prepend c (moreDigits isDigit rest) else none
  | ['_'] => none
  | c :: rest =>
    if isDigit c then prepend c (moreDigits isDigit rest) else some ([], c :: rest)
  | [] => some ([], [])

/-- Reads one digit or more. -/
def digits? (isDigit : Char → Bool) : List Char → Option (List Char × List Char)
  | c :: rest => if isDigit c then prepend c (moreDigits isDigit rest) else none
  | [] => none

/-- Reads a sign, if there is one; true is a minus. -/
def sign : List Char → Bool × List Char
  | '-' :: rest => (true, rest)
  | '+' :: rest => (false, rest)
  | cs => (false, cs)

/-- Reads the digits of a whole number, which is `0` or does not begin with it. -/
def wholeDigits? : List Char → Option (List Char × List Char)
  | '0' :: rest => some (['0'], rest)
  | cs => digits? isDigit cs

/-- A whole number of 64 bits with its sign. -/
def fitting? (n : Int) : Option Value :=
  if -9223372036854775808 ≤ n && n ≤ 9223372036854775807 then some (.integer n) else none

def numberToBase (base : Nat) (digits : List Char) : Nat :=
  digits.foldl (fun n c => base * n + (hexValue? c).getD 0) 0

/-- Reads a whole number to a base, behind the mark of the base. -/
def basedInteger? (base : Nat) (cs : List Char) : Option (Value × List Char) := do
  let (digits, rest) ← digits? (fun c => (hexValue? c).any (· < base)) cs
  let value ← fitting? (numberToBase base digits)
  some (value, rest)

def integer? (cs : List Char) : Option (Value × List Char) :=
  match cs with
  | '0' :: 'x' :: rest => basedInteger? 16 rest
  | '0' :: 'o' :: rest => basedInteger? 8 rest
  | '0' :: 'b' :: rest => basedInteger? 2 rest
  | _ => do
    let (negative, rest) := sign cs
    let (digits, rest) ← wholeDigits? rest
    let n : Int := digitsValue 0 digits
    let value ← fitting? (if negative then -n else n)
    some (value, rest)

/-- Reads the digits of an exponent with its sign, if there is one. -/
def exponent? (cs : List Char) : Option (Option Int × List Char) :=
  match cs with
  | c :: rest =>
    if c = 'e' || c = 'E' then do
      let (negative, rest) := sign rest
      let (digits, rest) ← digits? isDigit rest
      let n : Int := digitsValue 0 digits
      some (some (if negative then -n else n), rest)
    else some (none, cs)
  | [] => some (none, [])

/-- `digits * 10 ^ exponent` as a double. -/
def doubleOf (negative : Bool) (digits : List Char) (exponent : Int) : Float :=
  let digits := digits.dropWhile (· = '0')
  let magnitude : Int := digits.length + exponent
  let x :=
    if digits.isEmpty || magnitude < -400 then 0.0
    else if 400 < magnitude then 1.0 / 0.0
    else Float.ofScientific (digitsValue 0 digits) (exponent < 0) exponent.natAbs
  if negative then -x else x

/-- Reads a number with a point or an exponent. It may be too small for a double, but not too
large. -/
def decimalFloat? (cs : List Char) : Option (Value × List Char) := do
  let (negative, rest) := sign cs
  let (whole, rest) ← wholeDigits? rest
  let (fraction, rest) ←
    match rest with
    | '.' :: rest => (digits? isDigit rest).map fun (digits, rest) => (some digits, rest)
    | _ => some (none, rest)
  let (exponent, rest) ← exponent? rest
  if fraction.isNone && exponent.isNone then none
  else
    let places := fraction.getD []
    let x := doubleOf negative (whole ++ places) (exponent.getD 0 - places.length)
    if x.isInf && !negative then none else some (.float x, rest)

/-- Reads an infinity or what is not a number. -/
def specialFloat? (cs : List Char) : Option (Value × List Char) :=
  let (negative, rest) := sign cs
  let infinity : Float := 1.0 / 0.0
  match rest with
  | 'i' :: 'n' :: 'f' :: rest => some (.float (if negative then -infinity else infinity), rest)
  | 'n' :: 'a' :: 'n' :: rest => some (.float (0.0 / 0.0), rest)
  | _ => none

/-! ## Dates and times -/

/-- Reads a number of exactly `count` digits. -/
def fixedDigits? (count : Nat) (cs : List Char) : Option (Nat × List Char) :=
  let digits := cs.take count
  if digits.length = count && digits.all isDigit then
    some (digitsValue 0 digits, cs.drop count)
  else none

def char? (c : Char) : List Char → Option (List Char)
  | d :: rest => if d = c then some rest else none
  | [] => none

def date? (cs : List Char) : Option (List Char) := do
  let (year, rest) ← fixedDigits? 4 cs
  let rest ← char? '-' rest
  let (month, rest) ← fixedDigits? 2 rest
  let rest ← char? '-' rest
  let (day, rest) ← fixedDigits? 2 rest
  if 1 ≤ month && month ≤ 12 && 1 ≤ day && day ≤ Time.daysInMonth year month
  then some rest else none

/-- Reads a time of day. -/
def time? (cs : List Char) : Option (List Char) := do
  let (hour, rest) ← fixedDigits? 2 cs
  let rest ← char? ':' rest
  let (minute, rest) ← fixedDigits? 2 rest
  let rest ← char? ':' rest
  let (second, rest) ← fixedDigits? 2 rest
  if hour < 24 && minute < 60 && second ≤ 60 then
    match rest with
    | '.' :: digits =>
      if (digits.takeWhile isDigit).isEmpty then none else some (digits.dropWhile isDigit)
    | _ => some rest
  else none

/-- Reads an offset from universal time. -/
def offset? (cs : List Char) : Option (List Char) :=
  match cs with
  | 'Z' :: rest => some rest
  | 'z' :: rest => some rest
  | c :: rest =>
    if c = '+' || c = '-' then do
      let (hour, rest) ← fixedDigits? 2 rest
      let rest ← char? ':' rest
      let (minute, rest) ← fixedDigits? 2 rest
      if hour < 24 && minute < 60 then some rest else none
    else none
  | [] => none

/-- Reads a time behind a date, and its offset, if there are any. -/
def timeAfterDate (cs : List Char) : List Char :=
  match cs with
  | c :: rest =>
    if c = 'T' || c = 't' || c = ' ' then
      match time? rest with
      | some rest => (offset? rest).getD rest
      | none => cs
    else cs
  | [] => []

/-- Reads a date, a time of day, or both. -/
def moment? (cs : List Char) : Option (Value × List Char) :=
  match date? cs with
  | some rest => some (.moment, timeAfterDate rest)
  | none => (time? cs).map fun rest => (.moment, rest)

/-- Reads a number, a date or a time. -/
def number? (cs : List Char) : Option (Value × List Char) :=
  (moment? cs).or ((decimalFloat? cs).or ((specialFloat? cs).or (integer? cs)))

/-! ## Keys -/

def simpleKey? (cs : List Char) : Option (String × List Char) :=
  match cs with
  | '"' :: rest => (basicString rest).map fun (cs, rest) => (String.ofList cs, rest)
  | '\'' :: rest => (literalString rest).map fun (cs, rest) => (String.ofList cs, rest)
  | _ =>
    let name := cs.takeWhile isBareChar
    if name.isEmpty then none else some (String.ofList name, cs.dropWhile isBareChar)

/-- Reads the parts of a key with dots in between and blanks around each. -/
def keyParts? : (fuel : Nat) → List Char → Option (List String × List Char)
  | 0, _ => none
  | fuel + 1, cs => do
    let (part, rest) ← simpleKey? (skipSpaces cs)
    match skipSpaces rest with
    | '.' :: rest =>
      let (parts, rest) ← keyParts? fuel rest
      some (part :: parts, rest)
    | rest => some ([part], rest)

/-- Most levels that values and keys may nest, plus one. -/
def depthLimit : Nat := 80

def key? (cs : List Char) : Option (List String × List Char) := do
  let (parts, rest) ← keyParts? (cs.length + 1) cs
  if parts.length < depthLimit then some (parts, rest) else none

end QuotaWatch.Toml
