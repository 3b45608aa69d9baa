import QuotaWatch.Text.Bytes

/-!
# Numbers of variable length

A number is written in groups of seven bits, lowest first; every byte but the last has its high bit
set. `Varint.encode` writes a number in the fewest bytes and `Varint.decode` reads one at an offset,
with a cap on how many bytes it may take.
-/

namespace QuotaWatch.Varint

def encode (n : Nat) : Bytes :=
  if n < 128 then [UInt8.ofNat n] else UInt8.ofNat (n % 128 + 128) :: encode (n / 128)
termination_by n
decreasing_by omega

/-- Why no number could be read. -/
inductive Fault where
  /-- The number goes on past the cap of `maxBytes`, or is too large for 64 bits. -/
  | overrun (maxBytes : Nat)
  /-- The bytes end inside the number. -/
  | truncated
  deriving DecidableEq, Repr

/-- What to tell about a number that could not be read. -/
def Fault.message : Fault → String
  | .overrun maxBytes => s!"varint did not terminate within {maxBytes} bytes"
  | .truncated => "buffer ended inside varint"

/-- Reads on after `index` bytes, which gave `value`. The result is the number and how many bytes
it has. -/
def decodeFrom (maxBytes : Nat) : (index value : Nat) → Bytes → Except Fault (UInt64 × Nat)
  | index, _, [] => .error (if maxBytes ≤ index then .overrun maxBytes else .truncated)
  | index, value, b :: rest =>
    let bits := (b.toNat % 128) <<< (7 * index)
    if maxBytes ≤ index || 10 ≤ index || UInt64.size ≤ bits then .error (.overrun maxBytes)
    else if b.toNat < 128 then .ok (UInt64.ofNat (value + bits), index + 1)
    else decodeFrom maxBytes (index + 1) (value + bits) rest

/-- The number at an offset, and the offset past its last byte. -/
def decode (buf : Bytes) (offset maxBytes : Nat) : Except Fault (UInt64 × Nat) :=
  (decodeFrom maxBytes 0 0 (buf.drop offset)).map fun (value, length) => (value, offset + length)

end QuotaWatch.Varint
