import QuotaWatch.Text.Bytes

/-!
# JSON values and how they are written

`Value.compact` writes a value without blanks and `Value.pretty` one item per line, indented by two
blanks. Texts are written in UTF-8: only quotes, backslashes and control characters are escaped.
-/

namespace QuotaWatch.Json

/-- A number as JSON programs keep it: as a whole number of 64 bits if it is one. -/
inductive Number where
  | natural (n : UInt64)
  /-- The number `-n`. -/
  | negative (n : Nat)
  /-- Any other number, as it is written. -/
  | real (literal : Bytes)
  deriving DecidableEq, Repr

/-- A JSON value. Members of an object keep their order. -/
inductive Value where
  | null
  | bool (b : Bool)
  | number (n : Number)
  | string (s : String)
  | array (items : List Value)
  | object (members : List (String × Value))
  deriving Repr

instance : Inhabited Value := ⟨.null⟩

/-- The last member of an object with a given key. -/
def Value.get? (v : Value) (key : String) : Option Value :=
  match v with
  | .object members => (members.reverse.find? fun m => m.1 = key).map (·.2)
  | _ => none

def Value.text? : Value → Option String
  | .string s => some s
  | _ => none

/-! ## Letters of the format -/

/-- The byte of an ASCII character. -/
def ascii (c : Char) : UInt8 := UInt8.ofNat c.toNat

/-- A digit of ASCII. -/
def isDigit (b : UInt8) : Bool := 0x30 ≤ b && b ≤ 0x39

/-- A lower-case hexadecimal digit. -/
def hexDigit (n : Nat) : UInt8 := UInt8.ofNat (if n < 10 then 0x30 + n else 0x57 + n)

/-! ## Writing -/

/-- How a byte of a text is written inside quotes. -/
def escapeByte (b : UInt8) : Bytes :=
  if b = 0x22 then [0x5C, 0x22]
  else if b = 0x5C then [0x5C, 0x5C]
  else if b = 0x08 then [0x5C, 0x62]
  else if b = 0x09 then [0x5C, 0x74]
  else if b = 0x0A then [0x5C, 0x6E]
  else if b = 0x0C then [0x5C, 0x66]
  else if b = 0x0D then [0x5C, 0x72]
  else if b < 0x20 then
    [0x5C, 0x75, 0x30, 0x30, hexDigit (b.toNat / 16), hexDigit (b.toNat % 16)]
  else [b]

/-- A text in quotes. -/
def stringBytes (s : String) : Bytes :=
  0x22 :: (Bytes.ofText s).flatMap escapeByte ++ [0x22]

/-- A whole number in decimal. -/
def natBytes (n : Nat) : Bytes := (Nat.toDigits 10 n).map ascii

def Number.bytes : Number → Bytes
  | .natural n => natBytes n.toNat
  | .negative n => 0x2D :: natBytes n
  | .real literal => literal

/-- The words for null, true and false. -/
def wordBytes (s : String) : Bytes := s.toList.map ascii

/-- Byte strings one after another with a separator in between. -/
def joined (separator : Bytes) : List Bytes → Bytes
  | [] => []
  | [b] => b
  | b :: rest => b ++ separator ++ joined separator rest

mutual

/-- A value without blanks. -/
def Value.compact : Value → Bytes
  | .null => wordBytes "null"
  | .bool true => wordBytes "true"
  | .bool false => wordBytes "false"
  | .number n => n.bytes
  | .string s => stringBytes s
  | .array items => 0x5B :: joined [0x2C] (compactItems items) ++ [0x5D]
  | .object members => 0x7B :: joined [0x2C] (compactMembers members) ++ [0x7D]

/-- The items of an array, each without blanks. -/
def compactItems : List Value → List Bytes
  | [] => []
  | v :: rest => v.compact :: compactItems rest

/-- The members of an object, each without blanks. -/
def compactMembers : List (String × Value) → List Bytes
  | [] => []
  | (key, v) :: rest => (stringBytes key ++ 0x3A :: v.compact) :: compactMembers rest

end

/-- A new line with an indent of two blanks for each level. -/
def newLine (level : Nat) : Bytes := 0x0A :: List.replicate (2 * level) 0x20

/-- Items between brackets, each on a line of its own one level further in. -/
def spread (opening closing : UInt8) (level : Nat) (items : List Bytes) : Bytes :=
  if items.isEmpty then [opening, closing]
  else
    opening :: newLine (level + 1) ++ joined (0x2C :: newLine (level + 1)) items
      ++ newLine level ++ [closing]

mutual

/-- A value with one item per line, at a level of indent. -/
def Value.prettyAt (level : Nat) : Value → Bytes
  | .null => wordBytes "null"
  | .bool true => wordBytes "true"
  | .bool false => wordBytes "false"
  | .number n => n.bytes
  | .string s => stringBytes s
  | .array items => spread 0x5B 0x5D level (prettyItems (level + 1) items)
  | .object members => spread 0x7B 0x7D level (prettyMembers (level + 1) members)

/-- The items of an array at a level of indent. -/
def prettyItems (level : Nat) : List Value → List Bytes
  | [] => []
  | v :: rest => v.prettyAt level :: prettyItems level rest

/-- The members of an object at a level of indent. -/
def prettyMembers (level : Nat) : List (String × Value) → List Bytes
  | [] => []
  | (key, v) :: rest =>
    (stringBytes key ++ [0x3A, 0x20] ++ v.prettyAt level) :: prettyMembers level rest

end

/-- A value with one item per line. -/
def Value.pretty (v : Value) : Bytes := v.prettyAt 0

end QuotaWatch.Json
