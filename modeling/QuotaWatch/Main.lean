import QuotaWatch.Command.Program
import QuotaWatch.Store.Sqlite
import Std.Async.Signal
import Std.Time.DateTime.Timestamp
import Std.Time.Zoned.Database

/-!
# The command line

The first word says which tool to run; the others are its command line. What a tool may look at is
loaded from the file system beforehand, and what it changed is written back afterwards.
-/

namespace QuotaWatch.Shell

open Time
open Std.Async (Signal)

/-! ## The environment -/

/-- The variables that count. -/
def variableNames : List String :=
  ["HOME", "XDG_CONFIG_HOME", "XDG_DATA_HOME", "GAUGE_CONFIG", "GAUGE_STORE_PATH",
   "GAUGE_LEDGER_PATH", "GAUGE_REFRESH_INTERVAL_MS", "GAUGE_LOG_INTERVAL_MS"]

/-- The environment of the process. -/
def environment : IO Environment := do
  let values ← variableNames.filterMapM fun name => do
    return (← IO.getEnv name).map fun value => (name, value)
  return { get? := fun key => values.lookup key, accountHome := none }

def currentTime : IO Instant := do
  let t ← Std.Time.Timestamp.now
  return (Instant.ofNanos? t.toNanosecondsSinceUnixEpoch.val).getD .epoch

/-- The zone of the process. Where there is none, local time is universal time. -/
def localZone : IO Zone := do
  try
    let rules ← Std.Time.Database.defaultGetLocalZoneRules
    return fun t =>
      let second := Std.Time.Timestamp.ofSecondsSinceUnixEpoch ⟨t.seconds⟩
      (rules.findLocalTimeTypeForTimestamp second).gmtOffset.second.val
  catch _ => return fun _ => 0

/-! ## Files -/

/-- The absolute path of a place. -/
def pathText (place : Location) : String := "/" ++ String.intercalate "/" place.names

/-- What stands at a place. -/
def entryAt (place : Location) : IO (Option Entry) := do
  try
    let b ← IO.FS.readBinFile (pathText place)
    return some (.file (.bytes b.data.toList))
  catch
    | .noFileOrDirectory .. => return none
    | _ => return some .directory

/-- Loads what stands at a path and on the way to it. -/
def load (d : Disk) (p : Path) : IO Disk := do
  let mut d := d
  let mut place := d.start p
  for name in p.names do
    place :=
      if name = "." then place else if name = ".." then place.parent else place.child name
    match d.get? place, d.get? place.parent with
    | none, some .directory =>
      if let some entry ← entryAt place then d := d.put place entry
    | _, _ => pure ()
  return d

/-- Takes the file at a place for a database, if it is one. -/
def asDatabase (d : Disk) (place : Location) : Disk :=
  match d.get? place with
  | some (.file (.bytes b)) =>
    match Sqlite.database? b with
    | some database => d.put place (.file (.database database))
    | none => d
  | _ => d

def loadDatabase (d : Disk) (p : Path) : IO Disk := do
  let d ← load d p
  match (Address.ofPath p).toOption.bind d.databasePlace? with
  | some place => return asDatabase (← load d ⟨pathText place⟩) place
  | none => return d

/-- Loads the archives of a month up to the first that is missing. -/
partial def loadArchives (d : Disk) (l : Ledger) (year : Int) (month n : Nat) : IO Disk := do
  let path := l.archivePath year month n
  let d ← load d path
  if d.has path then loadArchives d l year month (n + 1) else return d

/-- Loads all that a run with some locations may look at. -/
def loadLocations (d : Disk) (l : Locations) (today : Date) : IO Disk := do
  let ledger : Ledger := ⟨l.ledger⟩
  let d ← loadDatabase d l.store
  let d ← load d l.ledger
  let d ← load d ledger.lockPath
  loadArchives d ledger today.year today.month 1

/-- An empty disk with the working directory of the process. -/
def emptyDisk : IO Disk := do
  let working := Path.mk s!"{← IO.currentDir}"
  let places := (List.range working.names.length).map fun n =>
    Location.ofNames (working.names.take (n + 1))
  return { entries := places.map fun place => (place, .directory),
           working := .ofNames working.names }

/-- Writes a file. What only grew is only appended to. -/
def writeFile (place : Location) (old new : Bytes) : IO Unit := do
  let name := pathText place
  if old.isPrefixOf new && !old.isEmpty then
    let h ← IO.FS.Handle.mk name .append
    h.write ⟨(new.drop old.length).toArray⟩
  else IO.FS.writeBinFile name ⟨new.toArray⟩

/-- Writes back what changed. -/
def save (old new : Disk) : IO Unit := do
  let entries := new.entries.mergeSort fun a b => a.1.depth ≤ b.1.depth
  for (place, entry) in entries do
    match old.get? place, entry with
    | some .directory, .directory => pure ()
    | _, .directory => IO.FS.createDir (pathText place)
    | some (.file (.bytes before)), .file (.bytes b) =>
      if before ≠ b then writeFile place before b
    | _, .file (.bytes b) => writeFile place [] b
    | _, .file (.database _) => pure ()
  for (place, _) in old.entries do
    if (new.get? place).isNone then IO.FS.removeFile (pathText place)

/-! ## Running -/

/-- The configuration file that a command line names. -/
def explicitConfig : Except Refusal Invocation → Option Path
  | .ok (.status config ..) => config
  | .ok (.dashboard config ..) => config
  | .ok (.ledger config ..) => config
  | .error _ => none

/-- Loads all that a run may look at, as far as it can be set up. -/
def loadFor (h : Host) (config : Option Path) (d : Disk) : IO Disk := do
  let d ← load d (h.environment.configFile config)
  match ((h.environment.setUp config).run d).1 with
  | .ok s => loadLocations d s.locations (h.now.inZone h.zone).date
  | .error _ => return d

def emit (stream : IO.FS.Stream) (b : Bytes) : IO Unit := do
  stream.write ⟨b.toArray⟩
  stream.flush

def runOnce (t : Tool) (h : Host) (words : List String) : IO UInt32 := do
  let before ← loadFor h (explicitConfig (t.parse words)) (← emptyDisk)
  let (outcome, after) := (t.run h words).run before
  save before after
  emit (← IO.getStderr) outcome.errors
  emit (← IO.getStdout) outcome.output
  return outcome.code

/-! ## The dashboard -/

/-- Listens for the signals that ask a process to end; the result tells whether one has come. -/
def listen : IO (BaseIO Bool) := do
  let arrivals ← [Signal.sigint, .sigterm].mapM fun signal => do
    (← Signal.Waiter.mk signal false).wait
  return arrivals.anyM IO.hasFinished

/-- Sleeps for some milliseconds, or until a signal comes. -/
partial def sleep (stopped : BaseIO Bool) (milliseconds : Nat) : IO Unit := do
  if milliseconds = 0 || (← stopped) then return
  let step := min milliseconds 50
  IO.sleep (UInt32.ofNat step)
  sleep stopped (milliseconds - step)

/-- Ticks and sleeps until a signal comes. A terminal is cleared before each frame. -/
partial def watch (stopped : BaseIO Bool) (onTerminal : Bool) (s : Session) (l : Locations)
    (w : Watch) : IO Unit := do
  if ← stopped then return
  let now ← currentTime
  let empty := { w.disk with entries := (← emptyDisk).entries }
  let before ← loadLocations empty l (now.inZone s.zone).date
  let (_, w) := s.tick { w with disk := before, now, screen := default }
  save before w.disk
  if onTerminal then emit (← IO.getStdout) (.ofText "\x1b[2J\x1b[1;1H")
  emit (← IO.getStdout) (.ofText w.screen.output)
  sleep stopped s.config.refreshIntervalMs.toNat
  watch stopped onTerminal s l w

/-- Runs the dashboard until a signal comes. The cursor of a terminal is hidden meanwhile. -/
def runDashboard (h : Host) (config : Option Path) (plain noLedger : Bool) : IO UInt32 := do
  let before ← loadFor h config (← emptyDisk)
  match (h.environment.setUp config).run before with
  | (.error fault, after) =>
    save before after
    emit (← IO.getStderr) (Outcome.failure fault.message).errors
    return 1
  | (.ok s, after) =>
    let (ledger, after) := if noLedger then (none, after) else s.openLedger.run after
    save before after
    emit (← IO.getStderr) (.ofText s.createdNotice)
    let stopped ← listen
    let session := s.session h (h.onTerminal && !plain) ledger
    if h.onTerminal then emit (← IO.getStdout) (.ofText "\x1b[?25l")
    try
      watch stopped h.onTerminal session s.locations (Watch.start after h.now default).begun
    finally
      if h.onTerminal then emit (← IO.getStdout) (.ofText "\x1b[?25h")
    emit (← IO.getStdout) (.ofText "Dashboard stopped.\n")
    return 0

def run (t : Tool) (words : List String) : IO UInt32 := do
  let h : Host :=
    { environment := ← environment, now := ← currentTime, zone := ← localZone,
      onTerminal := ← (← IO.getStdout).isTty, outside := ⟨fun _ d => d, .beforeStart⟩,
      afterRead := fun _ d => d }
  match t.parse words with
  | .ok (.dashboard config plain noLedger) => runDashboard h config plain noLedger
  | _ => runOnce t h words

end QuotaWatch.Shell

open QuotaWatch in
/-- Runs the tool that the first word names. -/
def main (words : List String) : IO UInt32 := do
  match words with
  | name :: rest =>
    match [Tool.status, .dashboard, .ledger].find? fun t => t.name = name with
    | some t => Shell.run t rest
    | none =>
      Shell.emit (← IO.getStderr) (Outcome.failure "there is no such tool").errors
      return 2
  | [] =>
    Shell.emit (← IO.getStderr) (Outcome.failure "a tool is required").errors
    return 2
