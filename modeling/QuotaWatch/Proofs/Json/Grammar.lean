import QuotaWatch.Json.Decode

/-!
# Texts of JSON values

`Writes text v`: the text writes the value, with any blanks around its parts and any escapes in its
strings. This is the grammar of JSON and says nothing of how a text is read. It has the limits that
a parser has: brackets nest less than 128 deep, a number fits a double, and the code units of a
string pair up.
-/

namespace QuotaWatch.Json

/-- Blanks only. -/
def Blank (text : Bytes) : Prop := ∀ b ∈ text, isBlank b = true

/-! ## Strings -/

/-- Four hexadecimal digits and the code unit that they write. -/
inductive WritesUnit : Bytes → Nat → Prop where
  | digits {a b c d : UInt8} {i j k l : Nat} (ha : Bytes.hexValue? a = some i)
      (hb : Bytes.hexValue? b = some j) (hc : Bytes.hexValue? c = some k)
      (hd : Bytes.hexValue? d = some l) :
      WritesUnit [a, b, c, d] (((i * 16 + j) * 16 + k) * 16 + l)

/-- What stands between quotes, and the bytes that it writes. -/
inductive Quoted : Bytes → Bytes → Prop where
  | nil : Quoted [] []
  | plain {b : UInt8} {body bytes : Bytes} (hquote : b ≠ 0x22) (hslash : b ≠ 0x5C)
      (hcontrol : ¬b < 0x20) (h : Quoted body bytes) : Quoted (b :: body) (b :: bytes)
  | letter {b c : UInt8} {body bytes : Bytes} (hletter : escaped? b = some c)
      (h : Quoted body bytes) : Quoted (0x5C :: b :: body) (c :: bytes)
  | unit {digits body bytes : Bytes} {n : Nat} (hdigits : WritesUnit digits n)
      (hn : n < 0xD800 ∨ 0xDFFF < n) (h : Quoted body bytes) :
      Quoted (0x5C :: 0x75 :: digits ++ body) (codePointBytes n ++ bytes)
  /-- A leading and a trailing surrogate are one character. -/
  | pair {first second body bytes : Bytes} {m n : Nat} (hfirst : WritesUnit first m)
      (hsecond : WritesUnit second n) (hm : 0xD800 ≤ m ∧ m ≤ 0xDBFF)
      (hn : 0xDC00 ≤ n ∧ n ≤ 0xDFFF) (h : Quoted body bytes) :
      Quoted (0x5C :: 0x75 :: first ++ 0x5C :: 0x75 :: second ++ body)
        (codePointBytes (0x10000 + (m - 0xD800) * 0x400 + (n - 0xDC00)) ++ bytes)

/-- A text in quotes. -/
def WritesString (text : Bytes) (s : String) : Prop :=
  ∃ body, Quoted body (Bytes.ofText s) ∧ text = 0x22 :: body ++ [0x22]

/-! ## Numbers -/

/-- At least one digit. -/
structure Digits (digits : Bytes) : Prop where
  nonempty : digits ≠ []
  all : ∀ b ∈ digits, isDigit b = true

inductive WritesFraction : Option Bytes → Bytes → Prop where
  | none : WritesFraction none []
  | some {digits : Bytes} (h : Digits digits) : WritesFraction (some digits) (0x2E :: digits)

/-- The sign of an exponent. -/
inductive WritesSign : Bool → Bytes → Prop where
  | none : WritesSign false []
  | plus : WritesSign false [0x2B]
  | minus : WritesSign true [0x2D]

inductive WritesExponent : Option (Bool × Bytes) → Bytes → Prop where
  | none : WritesExponent none []
  | some {mark : UInt8} {negative : Bool} {sign digits : Bytes} (hmark : mark = 0x65 ∨ mark = 0x45)
      (hsign : WritesSign negative sign) (h : Digits digits) :
      WritesExponent (some (negative, digits)) (mark :: sign ++ digits)

/-- The minus sign of a number. -/
def minus (negative : Bool) : Bytes := if negative then [0x2D] else []

/-- The parts of a number as they are written. -/
structure WritesNumeral (text : Bytes) (n : Numeral) : Prop where
  whole : Digits n.whole
  /-- A whole part of several digits does not begin with a zero. -/
  noZero : n.whole.head? = some 0x30 → n.whole.length = 1
  parts : ∃ fraction exponent, WritesFraction n.fraction fraction
    ∧ WritesExponent n.exponent exponent
    ∧ text = minus n.negative ++ n.whole ++ fraction ++ exponent

/-- The number that a numeral stands for, unless it is out of range. -/
def Numeral.number? (n : Numeral) (literal : Bytes) : Option Number :=
  match n.node literal ⟨0, []⟩ with
  | .number number => some number
  | _ => none

def WritesNumber (text : Bytes) (number : Number) : Prop :=
  ∃ n : Numeral, WritesNumeral text n ∧ n.number? text = some number

/-! ## Values -/

/-- What a text writes: a value, or what stands between the brackets of an array or object. -/
inductive Part where
  | value (v : Value)
  | items (vs : List Value)
  | members (ms : List (String × Value))

/-- A text without blanks in front that writes a part, with brackets less than `depth` deep. -/
inductive Spells : Nat → Bytes → Part → Prop where
  | null {depth : Nat} : Spells depth (wordBytes "null") (.value .null)
  | true {depth : Nat} : Spells depth (wordBytes "true") (.value (.bool true))
  | false {depth : Nat} : Spells depth (wordBytes "false") (.value (.bool false))
  | number {depth : Nat} {text : Bytes} {n : Number} (h : WritesNumber text n) :
      Spells depth text (.value (.number n))
  | string {depth : Nat} {text : Bytes} {s : String} (h : WritesString text s) :
      Spells depth text (.value (.string s))
  | emptyArray {depth : Nat} {gap : Bytes} (hgap : Blank gap) :
      Spells (depth + 2) (0x5B :: gap ++ [0x5D]) (.value (.array []))
  | array {depth : Nat} {gap text : Bytes} {vs : List Value} (hgap : Blank gap)
      (h : Spells (depth + 1) text (.items vs)) :
      Spells (depth + 2) (0x5B :: gap ++ text ++ [0x5D]) (.value (.array vs))
  | emptyObject {depth : Nat} {gap : Bytes} (hgap : Blank gap) :
      Spells (depth + 2) (0x7B :: gap ++ [0x7D]) (.value (.object []))
  | object {depth : Nat} {gap text : Bytes} {ms : List (String × Value)} (hgap : Blank gap)
      (h : Spells (depth + 1) text (.members ms)) :
      Spells (depth + 2) (0x7B :: gap ++ text ++ [0x7D]) (.value (.object ms))
  | lastItem {depth : Nat} {text gap : Bytes} {v : Value} (h : Spells depth text (.value v))
      (hgap : Blank gap) : Spells depth (text ++ gap) (.items [v])
  | item {depth : Nat} {text before after more : Bytes} {v : Value} {vs : List Value}
      (h : Spells depth text (.value v)) (hbefore : Blank before) (hafter : Blank after)
      (hmore : Spells depth more (.items vs)) :
      Spells depth (text ++ before ++ 0x2C :: after ++ more) (.items (v :: vs))
  | lastMember {depth : Nat} {key front back text gap : Bytes} {name : String} {v : Value}
      (hkey : WritesString key name) (hfront : Blank front) (hback : Blank back)
      (h : Spells depth text (.value v)) (hgap : Blank gap) :
      Spells depth (key ++ front ++ 0x3A :: back ++ text ++ gap) (.members [(name, v)])
  | member {depth : Nat} {key front back text before after more : Bytes} {name : String}
      {v : Value} {ms : List (String × Value)} (hkey : WritesString key name)
      (hfront : Blank front) (hback : Blank back) (h : Spells depth text (.value v))
      (hbefore : Blank before) (hafter : Blank after) (hmore : Spells depth more (.members ms)) :
      Spells depth (key ++ front ++ 0x3A :: back ++ text ++ before ++ 0x2C :: after ++ more)
        (.members ((name, v) :: ms))

/-- A text that writes a value. -/
def Writes (text : Bytes) (v : Value) : Prop :=
  ∃ before body after, Blank before ∧ Blank after ∧ Spells depthLimit body (.value v)
    ∧ text = before ++ body ++ after

end QuotaWatch.Json
