import QuotaWatch.Text.Property

/-!
# Quoted text for messages

`quoted` shows a text between double quotes on one line: a quote and a backslash get a backslash in
front, tab, line feed, carriage return and NUL have short escapes, and every other character
without a visible form of its own is written as its code point in braces.
-/

namespace QuotaWatch.Text

/-- Lower-case hexadecimal digits of a number. -/
def hexDigits (n : Nat) : List Char := Nat.toDigits 16 n

/-- Whether a character is shown as it is: it has a visible form, does not attach to the character
before it and is not one that displays may ignore. -/
def isShown (c : Char) : Bool :=
  let n := c.toNat
  if n < 0x7F then 0x20 ≤ n
  else !(inRanges graphemeExtendRanges n || inRanges defaultIgnorableRanges n
    || inRanges unprintableRanges n)

/-- The code point of a character as an escape. -/
def codeEscape (c : Char) : List Char :=
  ['\\', 'u', '\x7b'] ++ hexDigits c.toNat ++ ['\x7d']

/-- How one character is written inside quotes. -/
def quotedChar (c : Char) : List Char :=
  match c with
  | '\x00' => ['\\', '0']
  | '\t' => ['\\', 't']
  | '\n' => ['\\', 'n']
  | '\r' => ['\\', 'r']
  | '\\' => ['\\', '\\']
  | '\x22' => ['\\', '\x22']
  | c => if isShown c then [c] else codeEscape c

/-- A text between double quotes, on one line. -/
def quoted (s : String) : String :=
  String.ofList ('\x22' :: s.toList.flatMap quotedChar ++ ['\x22'])

end QuotaWatch.Text
