import QuotaWatch.Config.Location
import QuotaWatch.Config.Override
import QuotaWatch.Ledger.File
import QuotaWatch.Store.Extraction

/-!
# Setting up a run

The configuration file is read, or written with the standard configuration if it is missing; then
come the overrides. The outcome is a `Setup`, from which the parts of the program are made.
-/

namespace QuotaWatch

/-- Why a run cannot be set up. -/
inductive SetupFault where
  | disk (fault : DiskFault)
  | config (fault : ConfigFault)
  deriving DecidableEq, Repr

/-- A fault in words. -/
def SetupFault.message : SetupFault → String
  | .disk fault => s!"io error: {fault.message}"
  | .config fault => s!"invalid config: {fault.message}"

/-- A step on a disk towards a setup. What it changed before it failed stays changed. -/
abbrev SetupM := ExceptT SetupFault (StateM Disk)

/-- An operation on a disk as a step. -/
def SetupM.onDisk {α : Type} (act : DiskM α) : SetupM α := ExceptT.adapt .disk act

/-- A configuration, and whether its file had to be written. -/
structure LoadedConfig where
  config : Config
  created : Bool
  deriving DecidableEq, Repr

/-- The valid configuration that a text describes. -/
def Config.ofFile (path : Path) (text : String) : Except ConfigFault Config := do
  let c ← (Config.parse text).mapError (.file path)
  c.validate.mapError .defect
  .ok c

/-- Reads the configuration file. -/
def Config.load (path : Path) : SetupM Config := do
  let text ← SetupM.onDisk (DiskM.look fun d => d.readText path)
  match Config.ofFile path text with
  | .ok c => return c
  | .error fault => throw (.config fault)

/-- Writes the standard configuration to a file in a directory that may be missing. -/
def Config.create (path : Path) : DiskM Unit := do
  match path.parent? with
  | some directory => DiskM.makeDirectories directory
  | none => pure ()
  DiskM.change fun d => d.write path (.bytes (Bytes.ofText Config.standard.fileText))

/-- Reads the configuration file, or writes it if nothing stands there. -/
def Config.loadOrCreate (path : Path) : SetupM LoadedConfig := do
  if (← get).has path then
    return { config := ← Config.load path, created := false }
  else
    SetupM.onDisk (Config.create path)
    return { config := Config.standard, created := true }

/-- All that a run needs to know. -/
structure Setup where
  config : Config
  locations : Locations
  /-- Whether the configuration file was written just now. -/
  created : Bool
  deriving DecidableEq, Repr

/-- Sets up a run. -/
def Environment.setUp (e : Environment) (explicit : Option Path) : SetupM Setup := do
  let path := e.configFile explicit
  let loaded ← Config.loadOrCreate path
  match loaded.config.overridden e with
  | (.error fault, _) => throw (.config fault)
  | (.ok (), config) =>
    return { config, locations := e.locations path config, created := loaded.created }

namespace Setup

/-- The scanner of a run. -/
def scanner (s : Setup) : Scanner := ⟨s.config.catalog, s.config.scan⟩

/-- The probe of a run. -/
def probe (s : Setup) : Probe := ⟨s.locations.store, s.scanner⟩

/-- The ledger of a run. -/
def ledger (s : Setup) : Ledger := ⟨s.locations.ledger⟩

end Setup

end QuotaWatch
