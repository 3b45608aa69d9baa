import QuotaWatch.Config.Basic
import QuotaWatch.Quota.Codec

/-!
# Configurations as JSON

Members that are missing keep their standard values; paths that are not set are left out.
-/

namespace QuotaWatch

open Json

/-! ## Scan settings -/

def ScanSettings.toJson (s : ScanSettings) : Value :=
  .object
    [("window", .count s.window), ("marker", .array (s.marker.map fun b => .count b.toUInt64)),
     ("max_varint_bytes", .count s.maxVarintBytes),
     ("assumed_limit", .ofOption .count s.assumedLimit), ("units", .string s.units),
     ("prefer_length_prefixed", .bool s.preferLengthPrefixed)]

def ScanSettings.read : Reader ScanSettings := fun n => do
  let standard := ScanSettings.standard
  let found ← n.fields true
    [.of "window" Node.count, .of "marker" (Node.list Node.byte),
     .of "max_varint_bytes" Node.count, .of "assumed_limit" (Node.optional Node.count),
     .of "units" Node.text, .of "prefer_length_prefixed" Node.flag]
  let window ← found.getOr "window" Node.count standard.window
  let marker ← found.getOr "marker" (Node.list Node.byte) standard.marker
  let maxVarintBytes ← found.getOr "max_varint_bytes" Node.count standard.maxVarintBytes
  let assumedLimit ←
    found.getOr "assumed_limit" (Node.optional Node.count) standard.assumedLimit
  let units ← found.getOr "units" Node.text standard.units
  let preferLengthPrefixed ←
    found.getOr "prefer_length_prefixed" Node.flag standard.preferLengthPrefixed
  .ok { window, marker, maxVarintBytes, assumedLimit, units, preferLengthPrefixed }

/-! ## Configurations -/

def Path.toJson (p : Path) : Value := .string p.text

def Path.read : Reader Path := fun n => n.text.map Path.mk

/-- A member that is left out if there is no value for it. -/
def optionalMember {α : Type} (name : String) (toJson : α → Value) :
    Option α → List (String × Value)
  | some a => [(name, toJson a)]
  | none => []

def Config.toJson (c : Config) : Value :=
  .object
    ([("refresh_interval_ms", .count c.refreshIntervalMs),
      ("log_interval_ms", .count c.logIntervalMs)]
      ++ optionalMember "store_path" Path.toJson c.storePath
      ++ optionalMember "ledger_path" Path.toJson c.ledgerPath
      ++ [("high_tier_model", .string c.highTierModel),
        ("system_label", .string c.systemLabel),
        ("catalog", .array (c.catalog.map .string)),
        ("thresholds", c.thresholds.toJson),
        ("scan", c.scan.toJson)])

def Config.read : Reader Config := fun n => do
  let standard := Config.standard
  let found ← n.fields true
    [.of "refresh_interval_ms" Node.count, .of "log_interval_ms" Node.count,
     .of "store_path" (Node.optional Path.read), .of "ledger_path" (Node.optional Path.read),
     .of "high_tier_model" Node.text, .of "system_label" Node.text,
     .of "catalog" (Node.list Node.text), .of "thresholds" Thresholds.read,
     .of "scan" ScanSettings.read]
  let refreshIntervalMs ←
    found.getOr "refresh_interval_ms" Node.count standard.refreshIntervalMs
  let logIntervalMs ← found.getOr "log_interval_ms" Node.count standard.logIntervalMs
  let storePath ← found.getOr "store_path" (Node.optional Path.read) standard.storePath
  let ledgerPath ← found.getOr "ledger_path" (Node.optional Path.read) standard.ledgerPath
  let highTierModel ← found.getOr "high_tier_model" Node.text standard.highTierModel
  let systemLabel ← found.getOr "system_label" Node.text standard.systemLabel
  let catalog ← found.getOr "catalog" (Node.list Node.text) standard.catalog
  let thresholds ← found.getOr "thresholds" Thresholds.read standard.thresholds
  let scan ← found.getOr "scan" ScanSettings.read standard.scan
  .ok
    { refreshIntervalMs, logIntervalMs, storePath, ledgerPath, highTierModel, systemLabel,
      catalog, thresholds, scan }

end QuotaWatch
