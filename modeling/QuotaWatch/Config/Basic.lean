import QuotaWatch.Blob.Scanner
import QuotaWatch.Disk.Path
import QuotaWatch.Quota.Status

/-!
# The configuration

A `Config` says how often the store is read and logged, where the files are, which models count and
how the blob is scanned. `Config.validate` finds the first `Defect` of a configuration that cannot
be used.
-/

namespace QuotaWatch

/-- How the program is set up. -/
structure Config where
  /-- Milliseconds from one look at the store to the next. -/
  refreshIntervalMs : UInt64
  /-- Milliseconds from one round of ledger entries to the next. -/
  logIntervalMs : UInt64
  /-- The store, unless it is in its usual place. -/
  storePath : Option Path
  /-- The ledger, unless it is in its usual place. -/
  ledgerPath : Option Path
  /-- The model whose quota decides the status. -/
  highTierModel : String
  /-- What the ledger calls this system. -/
  systemLabel : String
  /-- The models that are looked for. -/
  catalog : List String
  thresholds : Thresholds
  scan : ScanSettings
  deriving DecidableEq, Repr

/-- The configuration of a program that was not set up. -/
def Config.standard : Config :=
  { refreshIntervalMs := 5000, logIntervalMs := 60000, storePath := none, ledgerPath := none,
    highTierModel := defaultHighTierModel, systemLabel := "quota-gauge",
    catalog := defaultCatalog, thresholds := .standard, scan := .standard }

instance : Inhabited Config := ⟨Config.standard⟩

/-- What keeps a configuration from being used. -/
inductive Defect where
  | noRefreshInterval
  | noLogInterval
  /-- The catalog has only empty names. -/
  | noModel
  | noHighTierModel
  | noMarker
  | noWindow
  | noVarintBytes
  deriving DecidableEq, Repr

/-- A defect in words. -/
def Defect.message : Defect → String
  | .noRefreshInterval => "refresh_interval_ms must be greater than 0"
  | .noLogInterval => "log_interval_ms must be greater than 0"
  | .noModel => "catalog must name at least one model"
  | .noHighTierModel => "high_tier_model must not be empty"
  | .noMarker => "scan.marker must not be empty"
  | .noWindow => "scan.window must be greater than 0"
  | .noVarintBytes => "scan.max_varint_bytes must be greater than 0"

/-- Fails with the first defect of a configuration. -/
def Config.validate (c : Config) : Except Defect Unit :=
  if c.refreshIntervalMs = 0 then .error .noRefreshInterval
  else if c.logIntervalMs = 0 then .error .noLogInterval
  else if c.catalog.all (·.isEmpty) then .error .noModel
  else if c.highTierModel.isEmpty then .error .noHighTierModel
  else if c.scan.marker.isEmpty then .error .noMarker
  else if c.scan.window = 0 then .error .noWindow
  else if c.scan.maxVarintBytes = 0 then .error .noVarintBytes
  else .ok ()

end QuotaWatch
