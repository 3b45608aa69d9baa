import QuotaWatch.Config.Basic
import QuotaWatch.Dashboard.Frame
import QuotaWatch.Ledger.File
import QuotaWatch.Store.Extraction
import QuotaWatch.Watch.Screen

/-!
# Looking at the quota

A `Session` is what stays the same while a source is watched, and `Watch` is where things stand.
`Session.glance` looks once: it shows what it finds, and fails if the source cannot be read.
`Session.tick` is one step of continuous watching: it never fails, reports what is wrong, and writes
to the ledger when that is due.
-/

namespace QuotaWatch

open Time

/-- What stays the same while a source is watched. -/
structure Session where
  config : Config
  source : Source
  renderer : Renderer
  /-- The zone whose time is shown. -/
  zone : Zone
  ledger : Option Ledger
  /-- What the ledger calls this session. -/
  name : String

/-- The name of a session that starts at a given time. -/
def sessionName (start : Instant) : String := s!"session-{start.millis}"

/-- Whether the loop goes on. -/
inductive Phase where
  | running
  | stopped
  deriving DecidableEq, Repr, Inhabited

/-- Where a session stands. -/
structure Watch where
  disk : Disk
  now : Instant
  screen : Screen
  /-- When the ledger was last due. -/
  lastLog : Option Instant
  phase : Phase
  /-- How often the source was looked at. -/
  looks : Nat

/-- Where a session stands that has not looked yet. -/
def Watch.start (disk : Disk) (now : Instant) (screen : Screen) : Watch :=
  { disk, now, screen, lastLog := none, phase := .stopped, looks := 0 }

namespace Watch

/-- The number of looks as it is kept. After 2 ^ 64 looks it starts again. -/
def ticks (w : Watch) : UInt64 := .ofNat w.looks

/-- Counts a look. -/
def count (w : Watch) : Watch := { w with looks := w.looks + 1 }

def report (w : Watch) (text : String) : Watch := { w with screen := w.screen.report text }

/-- Writes entries up to the first failure, which is reported, and counts those written. -/
def writeAll (w : Watch) (write : LogEntry → DiskM Unit) : List LogEntry → Nat × Watch
  | [] => (0, w)
  | e :: rest =>
    match (write e).run w.disk with
    | (.ok (), disk) =>
      let (count, w) := writeAll { w with disk } write rest
      (count + 1, w)
    | (.error fault, disk) => (0, report { w with disk } s!"Ledger error: {fault.message}")

/-- Appends entries to a ledger up to the first failure, and counts them. -/
def append (w : Watch) (ledger : Ledger) (entries : List LogEntry) : Nat × Watch :=
  w.writeAll ledger.append entries

end Watch

/-- What came of one look. -/
structure Look where
  snapshot : Snapshot
  status : Status
  /-- What is wrong, if the source could not be read. -/
  error : Option String
  /-- Rows written to the ledger. -/
  logged : Nat
  deriving DecidableEq

namespace Session

/-! ## Showing -/

def found (s : Session) (snapshot : Snapshot) : Look :=
  { snapshot, status := snapshot.status s.config.highTierModel s.config.thresholds, error := none,
    logged := 0 }

/-- A look that failed. -/
def missed (s : Session) (fault : ExtractionFault) (now : Instant) : Look :=
  { snapshot := { timestamp := now, records := [], source := s.source.label },
    status := .unknown fault.message now, error := some fault.message, logged := 0 }

/-- The frame of a look, with the time as the clocks of the zone show it. -/
def frame (s : Session) (look : Look) (now : Instant) : String :=
  s.renderer.frame look.snapshot look.status (now.inZone s.zone)

/-- Draws the frame of a look. A frame that cannot be drawn changes nothing else. -/
def present (s : Session) (look : Look) (w : Watch) : Watch :=
  let (_, screen) := w.screen.draw (s.frame look w.now)
  { w with screen }

/-! ## Logging -/

def entries (s : Session) (snapshot : Snapshot) : List LogEntry :=
  snapshot.records.filterMap fun r =>
    LogEntry.ofRecord? r snapshot.timestamp s.name s.config.systemLabel

/-- Writes a snapshot to the ledger, if there is one, and counts the rows. -/
def log (s : Session) (snapshot : Snapshot) (w : Watch) : Nat × Watch :=
  match s.ledger with
  | none => (0, w)
  | some ledger => w.append ledger (s.entries snapshot)

/-- Whether the ledger is due. The first call only starts the interval. -/
def logDue (s : Session) (w : Watch) : Bool :=
  w.lastLog.any fun last => Instant.hasPassed last w.now s.config.logIntervalMs.toNat

/-- Notes that the ledger was due, or that the interval starts. -/
def noteLog (s : Session) (w : Watch) : Watch :=
  if s.logDue w || w.lastLog.isNone then { w with lastLog := some w.now } else w

/-! ## Looking -/

/-- What a look finds now. -/
def read (s : Session) (w : Watch) : Except ExtractionFault Snapshot :=
  s.source.snapshot w.looks w.disk w.now

/-- Looks once. A source without quota data is shown as such; other failures are returned and
nothing is shown. -/
def glance (s : Session) (w : Watch) : Except ExtractionFault Look × Watch :=
  let result := s.read w
  let w := w.count
  match result with
  | .ok snapshot =>
    let look := s.found snapshot
    (.ok look, s.present look w)
  | .error fault =>
    if fault.isMissingData then
      let look := s.missed fault w.now
      (.ok look, s.present look w)
    else (.error fault, w)

/-- One step of watching. -/
def tick (s : Session) (w : Watch) : Look × Watch :=
  let result := s.read w
  let w := w.count
  match result with
  | .ok snapshot =>
    let look := s.found snapshot
    let w := s.present look w
    if s.logDue w then
      let (logged, w) := s.log snapshot (s.noteLog w)
      ({ look with logged }, w)
    else (look, s.noteLog w)
  | .error fault =>
    let look := s.missed fault w.now
    (look, (s.present look w).report s!"Dashboard error: {fault.message}")

end Session

end QuotaWatch
