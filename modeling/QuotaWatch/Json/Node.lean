import QuotaWatch.Decimal.Binary
import QuotaWatch.Json.Fault
import QuotaWatch.Json.Value

/-!
# What a text holds up to where it stops being JSON

`Node.read` reads a text into a `Node`: a JSON value as far as the text is one. Where it stops, the
node says why. Readers of a `Node` take its parts in the order of the text, so of several faults
they meet the first one. A part that is skipped may hold what cannot be kept as a value, such as a
number out of range or half of a surrogate pair; such a part is `unreadable`, not broken, and a
broken part has two faults, one for who wants its value and one for who skips it.
-/

namespace QuotaWatch.Json

/-- How a list of items ends. -/
inductive Stop where
  | closed
  /-- Neither a comma nor the closing bracket follows. -/
  | broken (wanted skipped : Fault)
  deriving DecidableEq, Repr

/-- A JSON value as far as the text is one. -/
inductive Node where
  | null
  | bool (b : Bool)
  | number (n : Number)
  | string (s : String)
  /-- An array whose bracket stands at `offset`. -/
  | array (offset : Nat) (items : List Node) (stop : Stop)
  /-- An object whose bracket stands at `offset`. A key may be unreadable. -/
  | object (offset : Nat) (members : List (Except Fault String × Node)) (stop : Stop)
  /-- A well-formed number or string that is no value. -/
  | unreadable (fault : Fault)
  /-- The text is no JSON here. -/
  | broken (wanted skipped : Fault)

instance : Inhabited Node := ⟨.null⟩

/-- A place in a text: its offset, and the bytes from there on. -/
structure Place where
  offset : Nat
  rest : Bytes
  deriving DecidableEq, Repr

/-- A place some bytes further on. -/
def Place.skip (p : Place) (n : Nat) : Place := ⟨p.offset + n, p.rest.drop n⟩

/-- The blanks of JSON. -/
def isBlank (b : UInt8) : Bool := b = 0x20 || b = 0x0A || b = 0x09 || b = 0x0D

/-- The next place that does not hold a blank. -/
def Place.skipBlanks (p : Place) : Place := p.skip (p.rest.takeWhile isBlank).length

/-- A fault noticed on looking at the next byte. -/
def Place.ahead (p : Place) (cause : Cause) : Fault :=
  ⟨cause, if p.rest.isEmpty then p.offset else p.offset + 1⟩

/-- A fault noticed after the bytes read so far. -/
def Place.here (p : Place) (cause : Cause) : Fault := ⟨cause, p.offset⟩

/-! ## Numbers -/

/-- Adds digits to a number as long as it fits 64 bits; gives the number and how many digits were
added. -/
def accumulate (n count : Nat) : Bytes → Nat × Nat
  | [] => (n, count)
  | d :: rest =>
    let next := 10 * n + (d.toNat - 0x30)
    if next < UInt64.size then accumulate next (count + 1) rest else (n, count)

/-- Whether `significand * 10 ^ exponent` is too large for a double. Both factors are rounded to
doubles before they are multiplied. -/
def isTooLarge (significand : Nat) (exponent : Int) : Bool :=
  if significand = 0 || exponent < 0 then false
  else if 308 < exponent then true
  else
    Decimal.twoTo 1024 - Decimal.twoTo 970
      ≤ Decimal.nearestDouble significand * Decimal.nearestDouble (Decimal.tenTo exponent.toNat)

/-- The parts of a number as it is written. -/
structure Numeral where
  negative : Bool
  whole : Bytes
  /-- Digits after the point, if there is one. -/
  fraction : Option Bytes
  /-- Sign and digits of the exponent, if there is one; a minus sign is `true`. -/
  exponent : Option (Bool × Bytes)
  deriving DecidableEq, Repr

/-- Most that the size of an exponent may be. -/
def maxExponent : Nat := 2147483647

/-- How many digits of an exponent are read until it is too large, if it is. -/
def exponentOverflow? (n count : Nat) : Bytes → Option Nat
  | [] => none
  | d :: rest =>
    let next := 10 * n + (d.toNat - 0x30)
    if maxExponent < next then some (count + 1) else exponentOverflow? next (count + 1) rest

def digitsValue (digits : Bytes) : Nat :=
  digits.foldl (fun n d => 10 * n + (d.toNat - 0x30)) 0

/-- What a numeral that ends at `after` stands for. -/
def Numeral.node (n : Numeral) (literal : Bytes) (after : Place) : Node :=
  let value := digitsValue n.whole
  let isWhole := n.fraction.isNone && n.exponent.isNone
  if isWhole && !n.negative && value < UInt64.size then .number (.natural (UInt64.ofNat value))
  else if isWhole && n.negative && 0 < value && value ≤ 9223372036854775808 then
    .number (.negative value)
  else
    let (significand, used) := accumulate 0 0 n.whole
    let (significand, places) := accumulate significand 0 (n.fraction.getD [])
    let scale : Int := n.whole.length - used - places
    match n.exponent with
    | none =>
      if isTooLarge significand scale then .unreadable (after.here .numberOutOfRange)
      else .number (.real literal)
    | some (negative, digits) =>
      match exponentOverflow? 0 0 digits with
      | some count =>
        if significand = 0 || negative then .number (.real literal)
        else .unreadable ⟨.numberOutOfRange, after.offset - digits.length + count⟩
      | none =>
        let exponent : Int := if negative then -digitsValue digits else digitsValue digits
        if isTooLarge significand (scale + exponent)
        then .unreadable (after.here .numberOutOfRange)
        else .number (.real literal)

/-- A run of digits and the place after it. -/
def Place.digits (p : Place) : Bytes × Place :=
  let digits := p.rest.takeWhile isDigit
  (digits, p.skip digits.length)

/-- A missing digit. Who wants the number notices the end of the text as such; who skips it does
not. -/
def noDigit (p : Place) : Fault × Fault :=
  if p.rest.isEmpty then (p.here .endInValue, p.here .invalidNumber)
  else (p.ahead .invalidNumber, p.ahead .invalidNumber)

/-- The digits after a point, if there is a point. -/
def Place.fraction (p : Place) : Except (Fault × Fault) (Option Bytes × Place) :=
  match p.rest with
  | 0x2E :: _ =>
    let (digits, after) := (p.skip 1).digits
    if digits.isEmpty then .error (noDigit after) else .ok (some digits, after)
  | _ => .ok (none, p)

/-- Sign and digits of an exponent, if there is one. -/
def Place.exponent (p : Place) : Except (Fault × Fault) (Option (Bool × Bytes) × Place) :=
  match p.rest with
  | b :: _ =>
    if b = 0x65 || b = 0x45 then
      let signed := p.skip 1
      let (negative, start) :=
        match signed.rest with
        | 0x2D :: _ => (true, signed.skip 1)
        | 0x2B :: _ => (false, signed.skip 1)
        | _ => (false, signed)
      let (digits, after) := start.digits
      if digits.isEmpty then .error (noDigit after) else .ok (some (negative, digits), after)
    else .ok (none, p)
  | [] => .ok (none, p)

/-- A numeral, and the place after it. The whole part is `0` or does not begin with it. -/
def Place.numeral (p : Place) : Except (Fault × Fault) (Numeral × Place) := do
  let (negative, start) :=
    match p.rest with
    | 0x2D :: _ => (true, p.skip 1)
    | _ => (false, p)
  let (whole, after) := start.digits
  if whole.isEmpty then .error (noDigit after)
  else if whole.head? = some 0x30 && 1 < whole.length then
    .error ((start.skip 1).ahead .invalidNumber, (start.skip 1).ahead .invalidNumber)
  else
    let (fraction, after) ← after.fraction
    let (exponent, after) ← after.exponent
    .ok ({ negative, whole, fraction, exponent }, after)

/-! ## Strings -/

/-- The number that the four hexadecimal digits at a place write. -/
def Place.hex (p : Place) : Except Fault Nat :=
  match p.rest with
  | a :: b :: c :: d :: _ =>
    match Bytes.hexValue? a, Bytes.hexValue? b, Bytes.hexValue? c, Bytes.hexValue? d with
    | some a, some b, some c, some d => .ok (((a * 16 + b) * 16 + c) * 16 + d)
    | _, _, _, _ => .error ((p.skip 4).here .invalidEscape)
  | _ => .error ⟨.endInString, p.offset + p.rest.length⟩

/-- The byte that a one-letter escape stands for. -/
def escaped? (b : UInt8) : Option UInt8 :=
  if b = 0x22 || b = 0x5C || b = 0x2F then some b
  else if b = 0x62 then some 0x08
  else if b = 0x66 then some 0x0C
  else if b = 0x6E then some 0x0A
  else if b = 0x72 then some 0x0D
  else if b = 0x74 then some 0x09
  else none

/-- The UTF-8 form of a code point. -/
def codePointBytes (n : Nat) : Bytes := Bytes.ofChar (Char.ofNat n)

/-- What a string gives: its bytes, or why they are no text. -/
structure StringScan where
  /-- Bytes read so far, the last one first. -/
  reversed : Bytes
  /-- The first escape that is no character. -/
  fault : Option Fault
  deriving DecidableEq, Repr

/-- A scan with more bytes. -/
def StringScan.push (s : StringScan) (bytes : Bytes) : StringScan :=
  { s with reversed := bytes.reverse ++ s.reversed }

/-- A scan that met an escape that is no character. -/
def StringScan.spoil (s : StringScan) (fault : Fault) : StringScan :=
  { s with fault := s.fault.or (some fault) }

/-- What the code unit `unit` of an escape that ends at `p` adds to a scan, and where to go on.
A leading surrogate takes the escape after it along if that is a trailing one. -/
def StringScan.unit (s : StringScan) (unit : Nat) (p : Place) : StringScan × Place :=
  if 0xDC00 ≤ unit && unit ≤ 0xDFFF then (s.spoil (p.here .loneSurrogate), p)
  else if unit < 0xD800 || 0xDBFF < unit then (s.push (codePointBytes unit), p)
  else
    match p.rest with
    | [] => (s, p)
    | [0x5C] => (s, p)
    | 0x5C :: 0x75 :: _ =>
      match (p.skip 2).hex with
      | .error _ => (s, p)
      | .ok second =>
        if 0xDC00 ≤ second && second ≤ 0xDFFF then
          (s.push (codePointBytes (0x10000 + (unit - 0xD800) * 0x400 + (second - 0xDC00))),
            p.skip 6)
        else (s.spoil ((p.skip 6).here .loneSurrogate), p)
    | 0x5C :: _ => (s.spoil ((p.skip 2).here .unpairedSurrogate), p)
    | _ => (s.spoil ((p.skip 1).here .unpairedSurrogate), p)

/-- Reads the rest of a string up to its closing quote. -/
def scanString : (fuel : Nat) → StringScan → Place → Except (Fault × Fault) (StringScan × Place)
  | 0, s, p => .error (s.fault.getD (p.here .endInString), p.here .endInString)
  | fuel + 1, s, p =>
    let fail (fault : Fault) := .error (s.fault.getD fault, fault)
    match p.rest with
    | [] => fail (p.here .endInString)
    | 0x22 :: _ => .ok (s, p.skip 1)
    | 0x5C :: rest =>
      match rest with
      | [] => fail ((p.skip 1).here .endInString)
      | 0x75 :: _ =>
        match (p.skip 2).hex with
        | .error fault => fail fault
        | .ok unit =>
          let (s, p) := s.unit unit (p.skip 6)
          scanString fuel s p
      | b :: _ =>
        match escaped? b with
        | some c => scanString fuel (s.push [c]) (p.skip 2)
        | none => fail ((p.skip 2).here .invalidEscape)
    | b :: _ =>
      if b < 0x20 then fail ((p.skip 1).here .controlCharacter)
      else scanString fuel (s.push [b]) (p.skip 1)

/-- The text of a scan that ends at `offset`, behind the closing quote. Bytes that are no text are
noticed as far before the end as there are bytes left, with escapes read, behind the part that is
well-formed. -/
def StringScan.text (s : StringScan) (offset : Nat) : Except Fault String :=
  match s.fault with
  | some fault => .error fault
  | none =>
    let bytes := s.reversed.reverse
    match Bytes.text? bytes with
    | some text => .ok text
    | none => .error ⟨.invalidCodePoint, offset - (bytes.length - Bytes.soundLength bytes)⟩

/-- The string whose opening quote stands at a place, and the place after it. The fuel has to
exceed the length of the string. -/
def Place.string (fuel : Nat) (p : Place) :
    Except (Fault × Fault) (Except Fault String × Place) := do
  let (scan, after) ← scanString fuel ⟨[], none⟩ (p.skip 1)
  .ok (scan.text after.offset, after)

/-! ## Values -/

/-- Reads a word of which the first letter has been seen. -/
def Place.word (p : Place) (expected : Bytes) (node : Node) : Node × Option Place :=
  let agreed := ((p.rest.zip expected).takeWhile fun (a, b) => a = b).length
  if agreed = expected.length then (node, some (p.skip agreed))
  else
    let fault : Fault :=
      if p.rest.length ≤ agreed then ⟨.endInValue, p.offset + agreed⟩
      else ⟨.expectedWord, p.offset + agreed + 1⟩
    (.broken fault fault, none)

/-- A place at which the text is no JSON. -/
def stuck (fault : Fault) : Node × Option Place := (.broken fault fault, none)

mutual

/-- Reads a value at a place that holds no blank; the second part is the place after it, unless the
text is broken before that. -/
def readValue : (fuel : Nat) → Place → Node × Option Place
  | 0, p => stuck (p.ahead .endBeforeValue)
  | fuel + 1, p =>
    match p.rest with
    | [] => stuck (p.ahead .endBeforeValue)
    | b :: _ =>
      if b = 0x6E then p.word (wordBytes "null") .null
      else if b = 0x74 then p.word (wordBytes "true") (.bool true)
      else if b = 0x66 then p.word (wordBytes "false") (.bool false)
      else if b = 0x2D || isDigit b then
        match p.numeral with
        | .ok (numeral, after) =>
          (numeral.node (p.rest.take (after.offset - p.offset)) after, some after)
        | .error (wanted, skipped) => (.broken wanted skipped, none)
      else if b = 0x22 then
        match p.string fuel with
        | .ok (.ok s, after) => (.string s, some after)
        | .ok (.error fault, after) => (.unreadable fault, some after)
        | .error (wanted, skipped) => (.broken wanted skipped, none)
      else if b = 0x5B then
        let start := (p.skip 1).skipBlanks
        match start.rest with
        | 0x5D :: _ => (.array p.offset [] .closed, some (start.skip 1))
        | [] =>
          let fault := start.ahead .endInList
          (.array p.offset [] (.broken fault fault), none)
        | _ =>
          let (items, stop, after) := readItems fuel start
          (.array p.offset items stop, after)
      else if b = 0x7B then
        let start := (p.skip 1).skipBlanks
        match start.rest with
        | 0x7D :: _ => (.object p.offset [] .closed, some (start.skip 1))
        | [] =>
          let fault := start.ahead .endInObject
          (.object p.offset [] (.broken fault fault), none)
        | _ =>
          let (members, stop, after) := readMembers fuel start
          (.object p.offset members stop, after)
      else stuck (p.ahead .expectedValue)

/-- Reads the items of an array from the place of one of them on. -/
def readItems : (fuel : Nat) → Place → List Node × Stop × Option Place
  | 0, p => ([], .broken (p.ahead .endBeforeValue) (p.ahead .endBeforeValue), none)
  | fuel + 1, p =>
    let (node, after) := readValue fuel p
    match after with
    | none => ([node], .closed, none)
    | some after =>
      let after := after.skipBlanks
      match after.rest with
      | 0x5D :: _ => ([node], .closed, some (after.skip 1))
      | 0x2C :: _ =>
        let next := (after.skip 1).skipBlanks
        match next.rest with
        | 0x5D :: _ => ([node, (stuck (next.ahead .trailingComma)).1], .closed, none)
        | _ =>
          let (more, stop, after) := readItems fuel next
          (node :: more, stop, after)
      | [] => ([node], .broken (after.ahead .endInList) (after.ahead .endInList), none)
      | _ =>
        let fault := after.ahead .expectedListComma
        ([node], .broken fault fault, none)

/-- Reads the members of an object from the place of one of them on. -/
def readMembers : (fuel : Nat) → Place → List (Except Fault String × Node) × Stop × Option Place
  | 0, p => ([], .broken (p.ahead .endBeforeValue) (p.ahead .endBeforeValue), none)
  | fuel + 1, p =>
    match p.rest with
    | 0x22 :: _ =>
      match p.string fuel with
      | .error (wanted, skipped) => ([], .broken wanted skipped, none)
      | .ok (key, colon) =>
        let colon := colon.skipBlanks
        match colon.rest with
        | 0x3A :: _ =>
          let (node, after) := readValue fuel (colon.skip 1).skipBlanks
          match after with
          | none => ([(key, node)], .closed, none)
          | some after =>
            let after := after.skipBlanks
            match after.rest with
            | 0x7D :: _ => ([(key, node)], .closed, some (after.skip 1))
            | 0x2C :: _ =>
              let next := (after.skip 1).skipBlanks
              match next.rest with
              | 0x7D :: _ =>
                let fault := next.ahead .trailingComma
                ([(key, node)], .broken fault fault, none)
              | [] =>
                let fault := next.ahead .endBeforeValue
                ([(key, node)], .broken fault fault, none)
              | _ =>
                let (more, stop, after) := readMembers fuel next
                ((key, node) :: more, stop, after)
            | [] =>
              let fault := after.ahead .endInObject
              ([(key, node)], .broken fault fault, none)
            | _ =>
              let fault := after.ahead .expectedObjectComma
              ([(key, node)], .broken fault fault, none)
        | [] => ([(key, (stuck (colon.ahead .endInObject)).1)], .closed, none)
        | _ => ([(key, (stuck (colon.ahead .expectedColon)).1)], .closed, none)
    | _ =>
      let fault := p.ahead .keyNotString
      ([], .broken fault fault, none)

end

/-- A text as a node, and the fault that there is more after the value, if there is. -/
structure Document where
  root : Node
  surplus : Option Fault

def Document.read (text : Bytes) : Document :=
  let (root, after) := readValue (2 * text.length + 1) (Place.mk 0 text).skipBlanks
  let surplus := after.bind fun after =>
    let after := after.skipBlanks
    if after.rest.isEmpty then none else some (after.ahead .trailingCharacters)
  { root, surplus }

end QuotaWatch.Json
