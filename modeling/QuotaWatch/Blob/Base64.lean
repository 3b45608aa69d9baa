import QuotaWatch.Text.Bytes

/-!
# Base64

Three bytes are written as four symbols of six bits each; a last group of one or two bytes is
filled up with `=`. `Base64.decode` accepts exactly what `Base64.encode` writes.
-/

namespace QuotaWatch.Base64

/-- The symbol of a number below 64. -/
def symbol (n : Nat) : UInt8 :=
  UInt8.ofNat
    (if n < 26 then 0x41 + n
     else if n < 52 then 0x61 + (n - 26)
     else if n < 62 then 0x30 + (n - 52)
     else if n = 62 then 0x2B
     else 0x2F)

/-- The number of a symbol. -/
def value? (b : UInt8) : Option Nat :=
  if 0x41 ≤ b && b ≤ 0x5A then some (b.toNat - 0x41)
  else if 0x61 ≤ b && b ≤ 0x7A then some (b.toNat - 0x61 + 26)
  else if 0x30 ≤ b && b ≤ 0x39 then some (b.toNat - 0x30 + 52)
  else if b = 0x2B then some 62
  else if b = 0x2F then some 63
  else none

/-- The byte `=` that fills up the last group. -/
def pad : UInt8 := 0x3D

/-- The symbols of a byte string. -/
def encode : Bytes → Bytes
  | [] => []
  | [a] => [symbol (a.toNat / 4), symbol (a.toNat % 4 * 16), pad, pad]
  | [a, b] =>
    [symbol (a.toNat / 4), symbol (a.toNat % 4 * 16 + b.toNat / 16), symbol (b.toNat % 16 * 4), pad]
  | a :: b :: c :: rest =>
    symbol (a.toNat / 4) :: symbol (a.toNat % 4 * 16 + b.toNat / 16)
      :: symbol (b.toNat % 16 * 4 + c.toNat / 64) :: symbol (c.toNat % 64) :: encode rest

/-- Why symbols do not write a byte string. -/
inductive Fault where
  /-- A byte that is no symbol, or an `=` out of place. -/
  | symbol (byte : UInt8) (offset : Nat)
  /-- A group of a single symbol. -/
  | length (n : Nat)
  /-- The last symbol has bits that no byte takes. -/
  | lastSymbol (byte : UInt8) (offset : Nat)
  /-- The last group is not filled up. -/
  | padding
  deriving DecidableEq, Repr

/-- A fault in words. -/
def Fault.message : Fault → String
  | .symbol byte offset => s!"Invalid symbol {byte}, offset {offset}."
  | .length n => s!"Invalid input length: {n}"
  | .lastSymbol byte offset => s!"Invalid last symbol {byte}, offset {offset}."
  | .padding => "Invalid padding"

/-- The numbers of symbols of which the first stands at `offset`. -/
def values (offset : Nat) : Bytes → Except Fault (List Nat)
  | [] => .ok []
  | b :: rest => do
    match value? b with
    | none => .error (.symbol b offset)
    | some n =>
      let more ← values (offset + 1) rest
      .ok (n :: more)

/-- The byte made of the last `8 - bits` bits of one number and the first `bits` of the next. -/
def joinBits (a b bits : Nat) : UInt8 := UInt8.ofNat (a <<< bits + b >>> (6 - bits))

/-- The bytes of a last group whose first symbol stands at `offset`. -/
def decodeLast (offset : Nat) (group : Bytes) : Except Fault Bytes := do
  let symbols := group.takeWhile (· ≠ pad)
  let fill := group.dropWhile (· ≠ pad)
  let numbers ← values offset symbols
  if !fill.isEmpty && (symbols.length < 2 || fill.any (· ≠ pad)) then
    .error (.symbol pad (offset + symbols.length))
  else if group.length % 4 ≠ 0 && 2 ≤ symbols.length then .error .padding
  else
    let last := symbols.getLastD pad
    match numbers with
    | [] => .ok []
    | [_] => .error (.length (offset + 1))
    | [a, b] =>
      if b % 16 = 0 then .ok [joinBits a b 2] else .error (.lastSymbol last (offset + 1))
    | [a, b, c] =>
      if c % 4 = 0 then .ok [joinBits a b 2, joinBits b c 4]
      else .error (.lastSymbol last (offset + 2))
    | a :: b :: c :: d :: _ => .ok [joinBits a b 2, joinBits b c 4, joinBits c d 6]

/-- The bytes of symbols of which the first stands at `offset`. -/
def decodeFrom (offset : Nat) : Bytes → Except Fault Bytes
  | a :: b :: c :: d :: e :: rest => do
    match ← values offset [a, b, c, d] with
    | [a, b, c, d] =>
      let more ← decodeFrom (offset + 4) (e :: rest)
      .ok (joinBits a b 2 :: joinBits b c 4 :: joinBits c d 6 :: more)
    | _ => .ok []
  | group => decodeLast offset group

/-- The byte string that symbols write. A last byte that stands alone in its group and is no
symbol is noticed first. -/
def decode (input : Bytes) : Except Fault Bytes :=
  match input.getLast? with
  | some last =>
    if input.length % 4 = 1 && last ≠ pad && (value? last).isNone then
      .error (.symbol last (input.length - 1))
    else decodeFrom 0 input
  | none => .ok []

end QuotaWatch.Base64
