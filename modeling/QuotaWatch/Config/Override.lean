import QuotaWatch.Config.Document
import QuotaWatch.Config.Environment
import QuotaWatch.Text.Blank
import QuotaWatch.Text.Quoted

/-!
# Overrides from the environment

Four variables take precedence over the configuration file: two paths, which count unless they are
empty, and two intervals, which have to be whole numbers if they are set. The overrides are applied
in order up to the first that fails; then the configuration has to be valid.
-/

namespace QuotaWatch

/-! ## Faults -/

/-- Why there is no configuration to work with. -/
inductive ConfigFault where
  | defect (d : Defect)
  /-- A variable is no whole number. -/
  | notMillis (key value : String)
  /-- A file describes no configuration. -/
  | file (path : Path) (fault : DocumentFault)
  deriving DecidableEq, Repr

/-- A fault in words. -/
def ConfigFault.message : ConfigFault → String
  | .defect d => d.message
  | .notMillis key value =>
    s!"{key} must be a whole number of milliseconds, got {Text.quoted value}"
  | .file path fault => s!"parse config {path.text}: {fault.message}"

/-! ## Overrides -/

/-- A change of a configuration. What it changed before it failed stays changed. -/
abbrev ConfigM := ExceptT ConfigFault (StateM Config)

/-- The whole number of milliseconds that a text writes. Blanks around it do not count. -/
def millis? (text : String) : Option UInt64 := Text.count? (Text.trim text.toList)

/-- Overrides a path by a variable. -/
def overridePath (e : Environment) (key : String) (set : Path → Config → Config) : ConfigM Unit :=
  match e.filled? key with
  | some value => modify (set ⟨value⟩)
  | none => pure ()

/-- Overrides an interval by a variable. -/
def overrideMillis (e : Environment) (key : String) (set : UInt64 → Config → Config) :
    ConfigM Unit :=
  match e.get? key with
  | none => pure ()
  | some value =>
    match millis? value with
    | some n => modify (set n)
    | none => throw (.notMillis key value)

/-- Applies the overrides and validates the outcome. -/
def Environment.override (e : Environment) : ConfigM Unit := do
  overridePath e "GAUGE_STORE_PATH" fun p c => { c with storePath := some p }
  overridePath e "GAUGE_LEDGER_PATH" fun p c => { c with ledgerPath := some p }
  overrideMillis e "GAUGE_REFRESH_INTERVAL_MS" fun n c => { c with refreshIntervalMs := n }
  overrideMillis e "GAUGE_LOG_INTERVAL_MS" fun n c => { c with logIntervalMs := n }
  match (← get).validate with
  | .ok () => pure ()
  | .error d => throw (.defect d)

/-- What became of a configuration, and whether all overrides were good. -/
def Config.overridden (c : Config) (e : Environment) : Except ConfigFault Unit × Config :=
  e.override.run c

end QuotaWatch
