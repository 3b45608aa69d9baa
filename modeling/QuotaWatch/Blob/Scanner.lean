import QuotaWatch.Blob.Varint
import QuotaWatch.Quota.Record

/-!
# Scanning a blob for quotas

The blob has no published layout. A scanner looks for the names of its catalog; the quota of a
model is the number after the first marker that starts within a window past the name. Unknown
layouts lead to fewer records or unknown quotas; scanning never fails.
-/

namespace QuotaWatch

/-- How a blob is scanned. -/
structure ScanSettings where
  /-- How far past a name a marker may start. -/
  window : UInt64
  /-- The bytes in front of a quota. -/
  marker : Bytes
  /-- Cap on the length of a quota. -/
  maxVarintBytes : UInt64
  /-- Limit of a model whose quota is known, unless more than that is left. -/
  assumedLimit : Option UInt64
  units : String
  /-- Whether a name that stands behind its own length wins over an earlier one. -/
  preferLengthPrefixed : Bool
  deriving DecidableEq, Repr

/-- The settings of a configuration that sets none. -/
def ScanSettings.standard : ScanSettings :=
  { window := 50, marker := [0x12, 0x03, 0x08], maxVarintBytes := 10, assumedLimit := some 1000,
    units := "credits", preferLengthPrefixed := false }

instance : Inhabited ScanSettings := ⟨ScanSettings.standard⟩

/-! ## Searching bytes -/

/-- The least offset below `limit` at which `needle` stands. -/
def Bytes.seek (needle : Bytes) : (limit : Nat) → Bytes → Option Nat
  | 0, _ => none
  | _ + 1, [] => none
  | limit + 1, b :: rest =>
    if needle.isPrefixOf (b :: rest) then some 0 else (seek needle limit rest).map (· + 1)

/-- The offsets at which `needle` stands, in ascending order; the first byte has offset `at`. -/
def Bytes.occurrencesFrom (needle : Bytes) (offset : Nat) : Bytes → List Nat
  | [] => []
  | b :: rest =>
    let later := occurrencesFrom needle (offset + 1) rest
    if needle.isPrefixOf (b :: rest) then offset :: later else later

/-- The offsets at which `needle` stands in `buf`, overlapping ones included. -/
def Bytes.occurrences (needle buf : Bytes) : List Nat := occurrencesFrom needle 0 buf

/-- A byte sequence looked for within a window. -/
structure Marker where
  bytes : Bytes
  window : Nat
  deriving DecidableEq, Repr

/-- Offset of the first marker that starts in the window from `start` on. An empty marker is
nowhere. -/
def Marker.find? (m : Marker) (buf : Bytes) (start : Nat) : Option Nat :=
  if m.bytes.isEmpty then none
  else (Bytes.seek m.bytes m.window (buf.drop start)).map (start + ·)

/-- Whether the byte in front of an offset is the length of a name that stands there. -/
def isPrefixed (buf name : Bytes) (offset : Nat) : Bool :=
  0 < offset && (buf[offset - 1]?).any fun b => b.toNat = name.length

/-- Offset of a name: the first one behind its own length if those are preferred and there is one,
else the first of all. A name of 128 bytes or more has no one-byte length. -/
def findName? (buf name : Bytes) (preferLengthPrefixed : Bool) : Option Nat :=
  if name.isEmpty then none
  else
    match Bytes.occurrences name buf with
    | [] => none
    | first :: rest =>
      if preferLengthPrefixed && name.length < 128
      then some (((first :: rest).find? (isPrefixed buf name)).getD first)
      else some first

/-! ## The scanner -/

/-- A scanner for the models of a catalog. -/
structure Scanner where
  catalog : List String
  settings : ScanSettings
  deriving DecidableEq, Repr

/-- The marker that the settings describe. -/
def ScanSettings.markerPattern (s : ScanSettings) : Marker := ⟨s.marker, s.window.toNat⟩

/-- The quota behind a name that ends at `start`. -/
def ScanSettings.quotaAfter (s : ScanSettings) (buf : Bytes) (start : Nat) : Option UInt64 :=
  match s.markerPattern.find? buf start with
  | none => none
  | some offset =>
    match Varint.decode buf (offset + s.marker.length) s.maxVarintBytes.toNat with
    | .ok (value, _) => some value
    | .error _ => none

/-- The record of one model, if its name stands in the blob. -/
def ScanSettings.record? (s : ScanSettings) (buf : Bytes) (identity : String) :
    Option QuotaRecord :=
  let name := Bytes.ofText identity
  (findName? buf name s.preferLengthPrefixed).map fun offset =>
    let remaining := s.quotaAfter buf (offset + name.length)
    let limit := remaining.bind fun value => s.assumedLimit.map fun limit => max limit value
    { identity, limit, remaining, units := s.units }

/-- One record for each model of the catalog that is found, in the order of the catalog. -/
def Scanner.scan (s : Scanner) (buf : Bytes) : List QuotaRecord :=
  s.catalog.filterMap (s.settings.record? buf)

end QuotaWatch
