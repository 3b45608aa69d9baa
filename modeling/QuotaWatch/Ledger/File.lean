import QuotaWatch.Disk.Tree
import QuotaWatch.Ledger.Table

/-!
# The ledger file

A ledger is a table in a file. It is created with its header, grows by whole rows at its end, and
`rotate` moves it into an archive directory under the first free name of the month and starts a new
one. Appending and rotating go through a lock file beside the ledger.
-/

namespace QuotaWatch

/-- An operation on a disk. What it changed before it failed stays changed. -/
abbrev DiskM := ExceptT DiskFault (StateM Disk)

/-- Looks something up. -/
def DiskM.look {α : Type} (f : Disk → Except DiskFault α) : DiskM α := do
  match f (← get) with
  | .ok a => return a
  | .error fault => throw fault

def DiskM.change (f : Disk → Except DiskFault Disk) : DiskM Unit := do
  match f (← get) with
  | .ok d => set d
  | .error fault => throw fault

/-- Makes a change that may fail half way. -/
def DiskM.attempt (f : Disk → Disk × Except DiskFault Unit) : DiskM Unit := do
  let (d, result) := f (← get)
  set d
  match result with
  | .ok () => return ()
  | .error fault => throw fault

/-- Makes a directory and its parents. -/
def DiskM.makeDirectories (p : Path) : DiskM Unit := DiskM.attempt fun d => d.makeDirectories p

/-- A ledger in a file. -/
structure Ledger where
  path : Path
  deriving DecidableEq, Repr, Inhabited

namespace Ledger

/-- The header as the first line of a file. -/
def headerLine : Bytes := Bytes.ofText (ledgerHeader ++ "\n")

/-- Creates the file with its header, unless something stands there; tells which. -/
def ensureHeader (l : Ledger) : DiskM Bool := do
  match (← get).createNew l.path headerLine with
  | .ok d =>
    set d
    return true
  | .error .alreadyExists => return false
  | .error fault => throw fault

/-- Makes the directory of a ledger, and the ledger if it is missing. -/
def prepare (l : Ledger) : DiskM Unit := do
  match l.path.parent? with
  | some directory =>
    if !directory.text.isEmpty then DiskM.makeDirectories directory
  | none => pure ()
  let _ ← l.ensureHeader

/-- The lock file beside a ledger. -/
def lockPath (l : Ledger) : Path :=
  l.path.withFileName (l.path.fileName?.getD "ledger" ++ ".lock")

/-- Opens the lock file. -/
def lock (l : Ledger) : DiskM Unit := DiskM.change fun d => d.touch l.lockPath

/-- Adds an entry at the end. -/
def append (l : Ledger) (e : LogEntry) : DiskM Unit := do
  l.lock
  let _ ← l.ensureHeader
  DiskM.change fun d => d.append l.path (Bytes.ofText e.row)

/-! ## Rotation -/

def archiveDirectory (l : Ledger) : Path :=
  match l.path.parent? with
  | some directory => directory.join "archive"
  | none => ⟨"archive"⟩

/-- A year with at least four characters, its sign included. -/
def yearText (year : Int) : List Char :=
  if year < 0 then '-' :: Text.padded 3 year.natAbs else Text.padded 4 year.toNat

/-- Archives of a month are numbered from 1; the first one does without its number. -/
def archiveName (l : Ledger) (year : Int) (month n : Nat) : String :=
  let stem := l.path.fileStem?.getD "ledger"
  let number := if n ≤ 1 then [] else '-' :: Text.decimal n
  stem ++ String.ofList
    ('_' :: yearText year ++ '-' :: Text.padded 2 month ++ number ++ ".csv".toList)

def archivePath (l : Ledger) (year : Int) (month n : Nat) : Path :=
  l.archiveDirectory.join (l.archiveName year month n)

/-- The first archive that does not exist yet. A disk cannot hold more archives than entries. -/
def freeArchive (l : Ledger) (d : Disk) (year : Int) (month : Nat) : Path :=
  let numbers := (List.range (d.entries.length + 1)).map (· + 1)
  match numbers.find? fun n => !d.has (l.archivePath year month n) with
  | some n => l.archivePath year month n
  | none => l.archivePath year month 1

/-- Moves the ledger into the archive of a month and starts a new one. -/
def rotate (l : Ledger) (year : Int) (month : Nat) : DiskM Path := do
  l.lock
  let _ ← l.ensureHeader
  DiskM.makeDirectories l.archiveDirectory
  let archive := l.freeArchive (← get) year month
  DiskM.change fun d => d.rename l.path archive
  let _ ← l.ensureHeader
  return archive

/-! ## Reading -/

/-- All entries. A ledger that is not there has none. -/
def readAll (l : Ledger) (d : Disk) : Except DiskFault (List LogEntry) :=
  match d.readText l.path with
  | .ok text => .ok (readEntries text)
  | .error .notFound => .ok []
  | .error fault => .error fault

/-- Totals over all entries. -/
def summarize (l : Ledger) (d : Disk) : Except DiskFault Summary :=
  (l.readAll d).map Summary.ofEntries

end Ledger

end QuotaWatch
