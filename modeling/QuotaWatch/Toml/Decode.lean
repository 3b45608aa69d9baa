import QuotaWatch.Decimal.Shortest
import QuotaWatch.Text.Quoted
import QuotaWatch.Toml.Value

/-!
# Taking values out of a document

Each reader takes a value of a wanted kind and tells in a `Mismatch` what stands there instead. A
group of settings is read by `Value.settings`: a table, or an array of the same values in order.
-/

namespace QuotaWatch.Toml

/-- Why a value does not suit. -/
inductive Mismatch where
  /-- There is a value of another kind. -/
  | kind (found expected : String)
  /-- A number does not fit. -/
  | range (n : Int) (expected : String)
  | missing (key : String)
  /-- An array is too short. -/
  | length (count : Nat) (expected : String)
  /-- The values do not go together. -/
  | refused (reason : String)
  deriving DecidableEq, Repr

/-- A mismatch in words. -/
def Mismatch.message : Mismatch → String
  | .kind found expected => s!"invalid type: {found}, expected {expected}"
  | .range n expected => s!"invalid value: integer `{n}`, expected {expected}"
  | .missing key => s!"missing field `{key}`"
  | .length count expected => s!"invalid length {count}, expected {expected}"
  | .refused reason => reason

/-- A value as a mismatch names it. -/
def Value.described : Value → String
  | .string s => s!"string {Text.quoted s}"
  | .integer n => s!"integer `{n}`"
  | .float x => s!"floating point `{String.ofList (Decimal.plainText x)}`"
  | .boolean b => s!"boolean `{b}`"
  | .array _ _ => "sequence"
  | .moment => "map"
  | .table _ _ => "map"

/-- Fails for a value of another kind than expected. -/
def Value.unlike {α : Type} (v : Value) (expected : String) : Except Mismatch α :=
  .error (.kind v.described expected)

abbrev Reader (α : Type) := Value → Except Mismatch α

/-- A whole number from 0 up to a bound. -/
def Value.natural (expected : String) (size : Nat) : Reader Nat
  | .integer n => if 0 ≤ n && n < size then .ok n.toNat else .error (.range n expected)
  | v => v.unlike expected

/-- A whole number of 64 bits. -/
def Value.count : Reader UInt64 := fun v =>
  (v.natural "u64" UInt64.size).map UInt64.ofNat

/-- A number of bytes. -/
def Value.extent : Reader UInt64 := fun v =>
  (v.natural "usize" UInt64.size).map UInt64.ofNat

/-- A whole number of 8 bits. -/
def Value.byte : Reader UInt8 := fun v => (v.natural "u8" UInt8.size).map UInt8.ofNat

def Value.flag : Reader Bool
  | .boolean b => .ok b
  | v => v.unlike "a boolean"

/-- A text that a mismatch calls as given. -/
def Value.textAs (expected : String) : Reader String
  | .string s => .ok s
  | v => v.unlike expected

def Value.text : Reader String := Value.textAs "a string"

/-- An array of values. -/
def Value.list {α : Type} (read : Reader α) : Reader (List α)
  | .array _ items => items.mapM read
  | v => v.unlike "a sequence"

/-- The settings of a group: the members of a table, or the values of the given keys in order. A
date has no settings, and what an array has beyond the keys does not count. -/
def Value.settings (expected : String) (keys : List String) : Reader Members
  | .table _ members => .ok members
  | .array _ items => .ok (keys.zip items)
  | .moment => .ok []
  | v => v.unlike expected

end QuotaWatch.Toml
