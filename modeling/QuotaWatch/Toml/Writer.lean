import QuotaWatch.Text.Blank
import QuotaWatch.Toml.Scalar

/-!
# Writing TOML

A document is written line by line: pairs of a key and a value, and headers. Texts stand between
quotes of the kind that asks for the fewest escapes; an array of two items and more has a line for
each.
-/

namespace QuotaWatch.Toml

/-- Four hexadecimal digits of a number, in capitals. -/
def fourHexDigits (n : Nat) : List Char :=
  [n / 4096 % 16, n / 256 % 16, n / 16 % 16, n % 16].map fun d => (Nat.digitChar d).toUpper

/-- How one character is written between double quotes. In a block a line break stands for
itself. -/
def basicChar (inBlock : Bool) (c : Char) : List Char :=
  match c with
  | '\x08' => ['\\', 'b']
  | '\t' => ['\\', 't']
  | '\n' => if inBlock then ['\n'] else ['\\', 'n']
  | '\x0c' => ['\\', 'f']
  | '\r' => ['\\', 'r']
  | '"' => ['\\', '"']
  | '\\' => ['\\', '\\']
  | c => if isPrintable c then [c] else '\\' :: 'u' :: fourHexDigits c.toNat

/-- Whether three single quotes stand side by side. -/
def hasTripleQuote : List Char → Bool
  | '\'' :: '\'' :: '\'' :: _ => true
  | _ :: rest => hasTripleQuote rest
  | [] => false

/-- Whether a text is written as it stands, between single quotes: something in it would need an
escape between double quotes, and nothing in it needs one anyway or looks like the closing
quotes. -/
def suitsLiteral (cs : List Char) : Bool :=
  cs.any (fun c => c = '"' || c = '\\') && cs.all (fun c => isPrintable c || c = '\n')
    && !hasTripleQuote cs && cs.getLast? != some '\''

/-- A text between quotes: single or double, and three of them on each side if it has line breaks,
or single quotes between single quotes. -/
def stringText (s : String) : List Char :=
  let cs := s.toList
  let isBlock := cs.contains '\n'
  if suitsLiteral cs then
    if isBlock then "'''\n".toList ++ cs ++ "'''".toList
    else if cs.contains '\'' then "'''".toList ++ cs ++ "'''".toList
    else '\'' :: cs ++ ['\'']
  else if isBlock then "\"\"\"\n".toList ++ cs.flatMap (basicChar true) ++ "\"\"\"".toList
  else '"' :: cs.flatMap (basicChar false) ++ ['"']

def countText (n : UInt64) : List Char := Text.decimal n.toNat

def flagText (b : Bool) : List Char := if b then "true".toList else "false".toList

/-- An array of items that are written already. -/
def arrayText : List (List Char) → List Char
  | [] => ['[', ']']
  | [item] => '[' :: item ++ [']']
  | items =>
    let lines := items.flatMap fun item => "    ".toList ++ item ++ [',', '\n']
    '[' :: '\n' :: lines ++ [']']

/-- The line of a key and a value that is written already. -/
def pairLine (key : String) (value : List Char) : List Char :=
  key.toList ++ " = ".toList ++ value ++ ['\n']

/-- The line of a value that may be missing. -/
def optionalLine {α : Type} (key : String) (write : α → List Char) : Option α → List Char
  | some a => pairLine key (write a)
  | none => []

/-- The header of a table, with a blank line above. -/
def headerLines (key : String) : List Char := '\n' :: '[' :: key.toList ++ [']', '\n']

end QuotaWatch.Toml
