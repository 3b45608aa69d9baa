import QuotaWatch.Command.Help
import QuotaWatch.Config.Setup
import QuotaWatch.Ledger.Codec
import QuotaWatch.Quota.Codec
import QuotaWatch.Watch.Run

/-!
# The tools as programs

`Tool.run` carries out a command line. All that a run learns from outside is in its `Host`, and all
that it leaves behind is its `Outcome` and the disk.
-/

namespace QuotaWatch

open Time

/-- What a run learns from outside. -/
structure Host where
  environment : Environment
  now : Instant
  /-- Local time. -/
  zone : Zone
  /-- Whether the output goes to a terminal. -/
  onTerminal : Bool
  /-- What happens while the dashboard runs. -/
  outside : Outside
  /-- What becomes of a disk when the store at a path is read, files beside the store included. -/
  afterRead : Path → Disk → Disk

/-- How a run ends. -/
structure Outcome where
  /-- Zero if all went well. -/
  code : UInt32
  output : Bytes
  /-- What goes to standard error, but for the lines of the diagnostic log. -/
  errors : Bytes
  deriving DecidableEq, Repr

namespace Outcome

/-- A run that ends well. -/
def success (output errors : String) : Outcome := ⟨0, .ofText output, .ofText errors⟩

/-- A run that fails. -/
def failure (message : String) : Outcome := ⟨1, [], .ofText s!"error: {message}\n"⟩

/-- A run that ends well with a JSON value. -/
def json (v : Json.Value) : Outcome := ⟨0, v.pretty ++ .ofText "\n", []⟩

end Outcome

/-- Something shown, as lines of output. -/
def Shown.lines : Shown → String
  | .frame text => text ++ "\n"
  | .report text => text ++ "\n"

/-- All that a screen was asked to show, as output. -/
def Screen.output (s : Screen) : String := String.join (s.history.map Shown.lines)

/-- The session of a run. -/
def Setup.session (s : Setup) (h : Host) (colour : Bool) (ledger : Option Ledger) : Session :=
  { config := s.config, source := s.probe.source, renderer := .standard colour, zone := h.zone,
    ledger, name := sessionName h.now }

/-- A program as a change of the disk. -/
abbrev Program := StateM Disk Outcome

/-! ## The summary of a ledger -/

/-- A number with blanks in front of it up to a width. -/
def padLeft (width : Nat) (n : UInt64) : String :=
  let digits := Text.decimal n.toNat
  String.ofList (List.replicate (width - digits.length) ' ' ++ digits)

def bucketLine (name : String) (b : Bucket) : String :=
  s!"  {padRight 32 name} {padLeft 6 b.count} rows {padLeft 12 b.tokens} tokens\n"

/-- The lines of all buckets, with a title and a blank line above; nothing if there are none. -/
def bucketBlock (title : String) (buckets : Buckets) : String :=
  if buckets.entries.isEmpty then ""
  else s!"\n{title}:\n" ++ String.join (buckets.entries.map fun e => bucketLine e.1 e.2)

/-- The line that tells the first and the last entry. -/
def spanLine : Option String → Option String → String
  | some first, some last => s!"Span:    {first} .. {last}\n"
  | _, _ => ""

/-- The summary of a ledger as text. -/
def Summary.text (s : Summary) (path : Path) : String :=
  s!"Ledger: {path.text}\nEntries: {s.totalEntries}\nTokens:  {s.totalTokens}\n"
    ++ spanLine s.firstEntry s.lastEntry
    ++ bucketBlock "By model" s.byModel ++ bucketBlock "By system" s.bySystem

/-! ## The tools -/

/-- Sets up a run and goes on, or fails. -/
def Host.withSetup (h : Host) (config : Option Path) (act : Setup → Program) : Program := do
  match ← (h.environment.setUp config).run with
  | .ok s => act s
  | .error fault => return .failure fault.message

/-- The disk after looks at a store. A store that is not there is not opened. -/
def Host.readStore (h : Host) (store : Path) (d : Disk) : Disk :=
  match d.file? store with
  | some _ => h.afterRead store d
  | none => d

/-- Shows the status once. -/
def Host.showStatus (h : Host) (json plain : Bool) (s : Setup) : Program := do
  let session := s.session h (!plain && !json && h.onTerminal) none
  let (result, w) := session.glance (.start (← get) h.now default)
  set (h.readStore s.locations.store w.disk)
  match result with
  | .error fault => return .failure fault.message
  | .ok look =>
    return if json then .json look.status.toJson else .success w.screen.output ""

/-- Opens the ledger. A ledger that cannot be opened is done without. -/
def Setup.openLedger (s : Setup) : StateM Disk (Option Ledger) := do
  match ← s.ledger.prepare.run with
  | .ok () => return some s.ledger
  | .error _ => return none

/-- What the dashboard says about a configuration file that was written just now. -/
def Setup.createdNotice (s : Setup) : String :=
  if s.created then s!"Created config at {s.locations.configFile.text}\n" else ""

/-- Shows the status until told to stop. -/
def Host.showDashboard (h : Host) (plain noLedger : Bool) (s : Setup) : Program := do
  let ledger ← if noLedger then pure none else s.openLedger
  let session := s.session h (h.onTerminal && !plain) ledger
  let w := session.run h.outside (.start (← get) h.now default)
  set (if w.looks = 0 then w.disk else h.readStore s.locations.store w.disk)
  return .success (w.screen.output ++ "Dashboard stopped.\n") s.createdNotice

/-- What a command of the ledger tool puts out. -/
def Host.ledgerOutput (h : Host) (ledger : Ledger) : LedgerCommand → DiskM Outcome
  | .summary json => do
    let summary ← DiskM.look ledger.summarize
    return if json then .json summary.toJson else .success (summary.text ledger.path) ""
  | .rotate => do
    let today := (h.now.inZone h.zone).date
    let archive ← ledger.rotate today.year today.month
    return .success s!"Archived {ledger.path.text} to {archive.text}\n" ""

/-- Opens the ledger and carries out a command. -/
def Host.runLedger (h : Host) (command : LedgerCommand) (s : Setup) : Program := do
  let act : DiskM Outcome := do
    s.ledger.prepare
    h.ledgerOutput s.ledger command
  match ← act.run with
  | .ok outcome => return outcome
  | .error fault => return .failure fault.message

/-- Carries out what a command line asks for. -/
def Host.carryOut (h : Host) : Invocation → Program
  | .status config json plain => h.withSetup config (h.showStatus json plain)
  | .dashboard config plain noLedger => h.withSetup config (h.showDashboard plain noLedger)
  | .ledger config command => h.withSetup config (h.runLedger command)

/-- The outcome of a command line that is not carried out. Help and versions are good outcomes. -/
def Tool.refuse (t : Tool) : Refusal → Outcome
  | .help topic => .success topic.page.text ""
  | .version t => .success t.versionText ""
  | .nothingGiven => ⟨2, [], .ofText t.page.text⟩
  | r => ⟨2, [], .ofText s!"error: {r.complaint}\n\nUsage: {t.page.usage}\n"⟩

/-- Runs a tool with the words of its command line. -/
def Tool.run (t : Tool) (h : Host) (words : List String) : Program :=
  match t.parse words with
  | .ok invocation => h.carryOut invocation
  | .error refusal => pure (t.refuse refusal)

end QuotaWatch
