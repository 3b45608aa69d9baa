import QuotaWatch.Text.Bytes

/-!
# Faults in JSON texts

A fault is a cause and the offset at which it was noticed. `Fault.message` gives cause, line and
column; `Cause.category` says whether the text ends too early or is malformed.
-/

namespace QuotaWatch.Json

/-- What is wrong with a text. -/
inductive Cause where
  | endInList
  | endInObject
  | endInString
  /-- The text ends where a value should begin. -/
  | endBeforeValue
  /-- The text ends inside a word or number. -/
  | endInValue
  | expectedColon
  | expectedListComma
  | expectedObjectComma
  | expectedWord
  | expectedValue
  | invalidEscape
  | invalidNumber
  | numberOutOfRange
  | invalidCodePoint
  | controlCharacter
  | keyNotString
  | loneSurrogate
  | unpairedSurrogate
  | trailingComma
  | trailingCharacters
  | tooDeep
  deriving DecidableEq, Repr

/-- A cause in words. -/
def Cause.message : Cause → String
  | .endInList => "EOF while parsing a list"
  | .endInObject => "EOF while parsing an object"
  | .endInString => "EOF while parsing a string"
  | .endBeforeValue => "EOF while parsing a value"
  | .endInValue => "EOF while parsing a value"
  | .expectedColon => "expected `:`"
  | .expectedListComma => "expected `,` or `]`"
  | .expectedObjectComma => "expected `,` or `\x7d`"
  | .expectedWord => "expected ident"
  | .expectedValue => "expected value"
  | .invalidEscape => "invalid escape"
  | .invalidNumber => "invalid number"
  | .numberOutOfRange => "number out of range"
  | .invalidCodePoint => "invalid unicode code point"
  | .controlCharacter => "control character (\\u0000-\\u001F) found while parsing a string"
  | .keyNotString => "key must be a string"
  | .loneSurrogate => "lone leading surrogate in hex escape"
  | .unpairedSurrogate => "unexpected end of hex escape"
  | .trailingComma => "trailing comma"
  | .trailingCharacters => "trailing characters"
  | .tooDeep => "recursion limit exceeded"

/-- Why a text cannot be read as what is wanted. -/
inductive Category where
  /-- It is JSON, but not of the wanted shape. -/
  | unsuitable
  /-- It is not JSON. -/
  | malformed
  /-- It ends too early. -/
  | truncated
  deriving DecidableEq, Repr

def Cause.category : Cause → Category
  | .endInList => .truncated
  | .endInObject => .truncated
  | .endInString => .truncated
  | .endBeforeValue => .truncated
  | .endInValue => .truncated
  | _ => .malformed

/-- A cause, and the offset at which it was noticed. -/
structure Fault where
  cause : Cause
  offset : Nat
  deriving DecidableEq, Repr

def Fault.category (f : Fault) : Category := f.cause.category

/-- Line and column of an offset. Lines count from 1; the column is the number of bytes from the
start of the line. -/
def lineColumn (text : Bytes) (offset : Nat) : Nat × Nat :=
  let before := text.take offset
  (before.count 0x0A + 1, (before.reverse.takeWhile (· ≠ 0x0A)).length)

/-- A fault in words. -/
def Fault.message (text : Bytes) (f : Fault) : String :=
  let (line, column) := lineColumn text f.offset
  s!"{f.cause.message} at line {line} column {column}"

end QuotaWatch.Json
