import QuotaWatch.Config.Basic
import QuotaWatch.Config.Environment

/-!
# Where the files are

Paths that the configuration does not set fall back to the usual places under the directories of
the environment.
-/

namespace QuotaWatch

/-- Name of the program's own directories. -/
def ownDirectory : String := "quota-gauge"

/-- The configuration file: an explicit path, else the one that a variable names, else the usual
place. -/
def Environment.configFile (e : Environment) (explicit : Option Path) : Path :=
  match explicit, e.filled? "GAUGE_CONFIG" with
  | some path, _ => path
  | none, some path => ⟨path⟩
  | none, none => [ownDirectory, "config.toml"].foldl Path.join e.configDirectory

/-- The usual place of the store. -/
def Environment.usualStore (e : Environment) : Path :=
  ["Antigravity", "User", "globalStorage", "state.vscdb"].foldl Path.join e.configDirectory

/-- The usual place of the ledger. -/
def Environment.usualLedger (e : Environment) : Path :=
  [ownDirectory, "token_usage.csv"].foldl Path.join e.dataDirectory

/-- The files of a run. -/
structure Locations where
  configFile : Path
  store : Path
  ledger : Path
  deriving DecidableEq, Repr, Inhabited

/-- The files of a run with a configuration. -/
def Environment.locations (e : Environment) (configFile : Path) (c : Config) : Locations :=
  { configFile, store := c.storePath.getD e.usualStore,
    ledger := c.ledgerPath.getD e.usualLedger }

end QuotaWatch
