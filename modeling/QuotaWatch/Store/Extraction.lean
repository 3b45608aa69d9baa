import QuotaWatch.Blob.Base64
import QuotaWatch.Blob.Scanner
import QuotaWatch.Json.Decode
import QuotaWatch.Quota.Status
import QuotaWatch.Store.Opening
import QuotaWatch.Text.Blank

/-!
# Reading the store

The store is a database that keeps a JSON envelope under one key; a member of the envelope is the
blob in base64. `Disk.extract` goes through these stages and stops at the first that fails. A
`Probe` scans what it finds. A `Source` is whatever gives snapshots; a probe is one.
-/

namespace QuotaWatch

open Time

/-- Key of the envelope. -/
def authStatusKey : String := "antigravityAuthStatus"

/-- Member of the envelope that holds the blob. -/
def binaryField : String := "userStatusProtoBinaryBase64"

/-- Why no blob could be read. -/
inductive ExtractionFault where
  | storeNotFound (path : Path)
  | database (fault : DatabaseFault)
  | noAuthStatus
  /-- The envelope is not JSON. -/
  | envelope (text : Bytes) (fault : Json.Fault)
  | missingBinaryField
  | base64 (fault : Base64.Fault)
  deriving DecidableEq, Repr

/-- A fault in words. -/
def ExtractionFault.message : ExtractionFault → String
  | .storeNotFound path => s!"state store not found at {path.text}"
  | .database fault => s!"sqlite error: {fault.message}"
  | .noAuthStatus => "no auth status found"
  | .envelope text fault => s!"auth status envelope is not valid json: {fault.message text}"
  | .missingBinaryField => "no user status binary found"
  | .base64 fault => s!"user status binary is not valid base64: {fault.message}"

/-- Whether the store could be read but does not hold a blob yet. -/
def ExtractionFault.isMissingData : ExtractionFault → Bool
  | .noAuthStatus => true
  | .missingBinaryField => true
  | _ => false

/-! ## Stages -/

/-- The envelope in the database at a path. An empty value is as good as none. -/
def Disk.envelope (d : Disk) (path : Path) : Except ExtractionFault Bytes := do
  let cell ← ((d.database path).bind fun b => b.lookup authStatusKey).mapError .database
  match cell.bind Cell.bytes? with
  | some (b :: rest) => .ok (b :: rest)
  | _ => .error .noAuthStatus

def encodedBlob (envelope : Bytes) : Except ExtractionFault String := do
  let value ← (Json.Value.parse envelope).mapError (.envelope envelope)
  match (value.get? binaryField).bind Json.Value.text? with
  | some encoded => .ok encoded
  | none => .error .missingBinaryField

/-- The blob that a text writes. Blanks around it do not count. -/
def decodedBlob (encoded : String) : Except ExtractionFault Bytes :=
  let trimmed := String.ofList (Text.trim encoded.toList)
  (Base64.decode (Bytes.ofText trimmed)).mapError .base64

/-- The blob in the store at a path. A file has to stand at the path as it is written, whatever it
names as the path of a database. -/
def Disk.extract (d : Disk) (path : Path) : Except ExtractionFault Bytes := do
  match d.file? path with
  | none => .error (.storeNotFound path)
  | some _ =>
    let envelope ← d.envelope path
    let encoded ← encodedBlob envelope
    decodedBlob encoded

/-! ## Probes -/

/-- A store and how it is scanned. -/
structure Probe where
  path : Path
  scanner : Scanner
  deriving DecidableEq, Repr

/-- Short name of a store: its file name, or else its path. -/
def Path.label (p : Path) : String := p.fileName?.getD p.text

/-- The records in the store now. -/
def Probe.snapshot (probe : Probe) (d : Disk) (now : Instant) :
    Except ExtractionFault Snapshot := do
  let blob ← d.extract probe.path
  .ok { timestamp := now, records := probe.scanner.scan blob, source := probe.path.label }

/-! ## Sources -/

/-- Where snapshots come from. -/
structure Source where
  /-- What a look finds, by the number of looks before it. -/
  snapshot : (looks : Nat) → Disk → Instant → Except ExtractionFault Snapshot
  /-- Short name of the source. -/
  label : String

/-- A store as a source. Every look reads it anew. -/
def Probe.source (probe : Probe) : Source where
  snapshot _ := probe.snapshot
  label := probe.path.label

end QuotaWatch
