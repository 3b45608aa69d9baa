import QuotaWatch.Json.Decode
import QuotaWatch.Quota.Status
import QuotaWatch.Time.Stamp

/-!
# Records, snapshots and statuses as JSON

For each type `toJson` is the value that stands for it and `read` takes it back. Members may come
in any order; optional ones may be missing.
-/

namespace QuotaWatch

open Json Time

def Json.Value.count (n : UInt64) : Value := .number (.natural n)

/-- A value or null. -/
def Json.Value.ofOption {α : Type} (toJson : α → Value) : Option α → Value
  | some a => toJson a
  | none => .null

def Time.Instant.toJson (t : Instant) : Value := .string (t.stamp .asNeeded)

def Time.Instant.read : Reader Instant := Node.textAs Instant.read?

/-! ## Records and snapshots -/

def QuotaRecord.toJson (r : QuotaRecord) : Value :=
  .object
    [("identity", .string r.identity), ("limit", .ofOption .count r.limit),
     ("remaining", .ofOption .count r.remaining), ("units", .string r.units)]

def QuotaRecord.read : Reader QuotaRecord := fun n => do
  let found ← n.fields false
    [.of "identity" Node.text, .of "limit" (Node.optional Node.count),
     .of "remaining" (Node.optional Node.count), .of "units" Node.text]
  let identity ← found.need "identity" Node.text
  let limit ← found.getOr "limit" (Node.optional Node.count) none
  let remaining ← found.getOr "remaining" (Node.optional Node.count) none
  let units ← found.need "units" Node.text
  .ok { identity, limit, remaining, units }

def Snapshot.toJson (s : Snapshot) : Value :=
  .object
    [("timestamp", s.timestamp.toJson), ("records", .array (s.records.map (·.toJson))),
     ("source", .string s.source)]

def Snapshot.read : Reader Snapshot := fun n => do
  let found ← n.fields false
    [.of "timestamp" Instant.read, .of "records" (Node.list QuotaRecord.read),
     .of "source" Node.text]
  let timestamp ← found.need "timestamp" Instant.read
  let records ← found.need "records" (Node.list QuotaRecord.read)
  let source ← found.need "source" Node.text
  .ok { timestamp, records, source }

/-! ## Tiers, thresholds and statuses -/

def Tier.toJson (t : Tier) : Value := .string t.label

/-- Reads a label. -/
def Tier.ofText (s : String) : Except Category Tier :=
  match Tier.ofLabel? s with
  | some t => .ok t
  | none => .error .unsuitable

/-- Reads a tier: its label, or an object with the label as its only key and null as its value. -/
def Tier.read : Reader Tier
  | .string s => Tier.ofText s
  | .object _ [] stop => do
    stop.want
    .error .malformed
  | .object _ ((key, n) :: rest) stop => do
    let key ← key.mapError Fault.category
    let tier ← Tier.ofText key
    match n, rest, stop with
    | .null, [], .closed => .ok tier
    | .null, [], .broken wanted _ =>
      .error (if wanted.cause = .endInObject then .truncated else .malformed)
    | .null, _ :: _, _ => .error .malformed
    | n, _, _ => .error n.mismatch
  | .broken wanted _ =>
    .error
      (if wanted.cause = .endInObject || wanted.cause = .endBeforeValue
          || wanted.cause = .endInString
       then .truncated else .malformed)
  | _ => .error .malformed

def Thresholds.toJson (t : Thresholds) : Value :=
  .object [("green_floor", .count t.greenFloor), ("yellow_floor", .count t.yellowFloor)]

/-- Reads thresholds; floors in the wrong order are unsuitable. -/
def Thresholds.read : Reader Thresholds := fun n => do
  let found ← n.fields false [.of "green_floor" Node.count, .of "yellow_floor" Node.count]
  let greenFloor ← found.need "green_floor" Node.count
  let yellowFloor ← found.need "yellow_floor" Node.count
  (Thresholds.make greenFloor yellowFloor).mapError fun _ => .unsuitable

def Status.toJson (s : Status) : Value :=
  .object
    [("timestamp", s.timestamp.toJson), ("high_quota", .count s.highQuota),
     ("tier", s.tier.toJson), ("recommendation", .string s.recommendation),
     ("reasoning", .string s.reasoning)]

def Status.read : Reader Status := fun n => do
  let found ← n.fields false
    [.of "timestamp" Instant.read, .of "high_quota" Node.count, .of "tier" Tier.read,
     .of "recommendation" Node.text, .of "reasoning" Node.text]
  let timestamp ← found.need "timestamp" Instant.read
  let highQuota ← found.need "high_quota" Node.count
  let tier ← found.need "tier" Tier.read
  let recommendation ← found.need "recommendation" Node.text
  let reasoning ← found.need "reasoning" Node.text
  .ok { timestamp, highQuota, tier, recommendation, reasoning }

end QuotaWatch
