import QuotaWatch.Disk.Path

/-!
# The environment of a run

An `Environment` gives the values of variables and the home directory of the account. The
directories for configurations and for data follow from it.
-/

namespace QuotaWatch

/-- Where a run takes place. -/
structure Environment where
  /-- The value of a variable that is set. -/
  get? : String → Option String
  /-- Home directory of the account, for a run that is not told another. -/
  accountHome : Option Path

namespace Environment

/-- The value of a variable that is set and not empty. -/
def filled? (e : Environment) (key : String) : Option String :=
  (e.get? key).filter fun value => !value.isEmpty

/-- The home directory. -/
def home? (e : Environment) : Option Path :=
  match e.filled? "HOME" with
  | some home => some ⟨home⟩
  | none => e.accountHome

/-- A directory that a variable names by an absolute path, or else one under the home directory;
without a home directory, the working directory. -/
def directory (e : Environment) (key usual : String) : Path :=
  match (e.get? key).filter fun value => (Path.mk value).isAbsolute with
  | some value => ⟨value⟩
  | none =>
    match e.home? with
    | some home => home.join usual
    | none => ⟨"."⟩

def configDirectory (e : Environment) : Path := e.directory "XDG_CONFIG_HOME" ".config"

def dataDirectory (e : Environment) : Path := e.directory "XDG_DATA_HOME" ".local/share"

end Environment

end QuotaWatch
