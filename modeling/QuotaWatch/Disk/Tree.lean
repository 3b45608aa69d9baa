import QuotaWatch.Disk.Location
import QuotaWatch.Disk.Path
import QuotaWatch.Store.Database

/-!
# Files and directories

A `Disk` holds files and directories by their places and a working directory. `Disk.locate` follows
a path to a place: every name on the way has to be a directory. The other operations look at one
entry or change it; each says which fault it meets.
-/

namespace QuotaWatch

/-- What a file holds. A database is kept as what it answers. -/
inductive Content where
  | bytes (b : Bytes)
  | database (d : Database)

/-- What stands at a place. -/
inductive Entry where
  | file (content : Content)
  | directory

instance : Inhabited Entry := ⟨.directory⟩

/-- Files and directories by their places. The root is always a directory. -/
structure Disk where
  entries : List (Location × Entry)
  /-- Where paths start that are not absolute. -/
  working : Location

instance : Inhabited Disk := ⟨⟨[], .root⟩⟩

/-- Why an operation on a disk fails. -/
inductive DiskFault where
  | notFound
  | notDirectory
  | isDirectory
  | alreadyExists
  | directoryNotEmpty
  /-- A name or a path is too long. -/
  | invalidName
  /-- A path holds a NUL. -/
  | nulInPath
  | invalidInput
  | busy
  /-- The bytes of a file are no text. -/
  | invalidText
  deriving DecidableEq, Repr

/-- A fault in words. -/
def DiskFault.message : DiskFault → String
  | .notFound => "No such file or directory (os error 2)"
  | .notDirectory => "Not a directory (os error 20)"
  | .isDirectory => "Is a directory (os error 21)"
  | .alreadyExists => "File exists (os error 17)"
  | .directoryNotEmpty => "Directory not empty (os error 39)"
  | .invalidName => "File name too long (os error 36)"
  | .nulInPath => "file name contained an unexpected NUL byte"
  | .invalidInput => "Invalid argument (os error 22)"
  | .busy => "Device or resource busy (os error 16)"
  | .invalidText => "stream did not contain valid UTF-8"

namespace Disk

/-! ## Entries -/

/-- What stands at a place. -/
def get? (d : Disk) (place : Location) : Option Entry :=
  if place = .root then some .directory
  else (d.entries.find? fun e => e.1 = place).map (·.2)

/-- A disk with an entry at a place, in place of what stood there. -/
def put (d : Disk) (place : Location) (entry : Entry) : Disk :=
  { d with entries := (place, entry) :: d.entries.filter fun e => e.1 ≠ place }

/-- A disk without a place and all below it. -/
def erase (d : Disk) (place : Location) : Disk :=
  { d with entries := d.entries.filter fun e => !place.leadsTo e.1 }

/-- A disk with a place and all below it moved to another place. -/
def move (d : Disk) (source target : Location) : Disk :=
  { d with
    entries := d.entries.map fun e =>
      if source.leadsTo e.1 then (e.1.moved source target, e.2) else e }

theorem find?_filter_ne {entries : List (Location × Entry)} {place other : Location}
    (h : other ≠ place) :
    ((entries.filter fun e => e.1 ≠ place).find? fun e => e.1 = other)
      = entries.find? fun e => e.1 = other := by
  induction entries with
  | nil => rfl
  | cons e rest ih =>
    by_cases hplace : e.1 = place
    · rw [List.filter_cons_of_neg (by simpa using hplace), ih,
        List.find?_cons_of_neg (by simpa [hplace] using Ne.symm h)]
    · rw [List.filter_cons_of_pos (by simpa using hplace), List.find?_cons, List.find?_cons, ih]

@[simp]
theorem get?_put_self (d : Disk) {place : Location} (entry : Entry) (h : place ≠ .root) :
    (d.put place entry).get? place = some entry := by
  simp [get?, put, h]

theorem get?_put_of_ne (d : Disk) {place other : Location} (entry : Entry) (h : other ≠ place) :
    (d.put place entry).get? other = d.get? other := by
  unfold get? put
  split
  · rfl
  · rw [List.find?_cons_of_neg (by simpa using Ne.symm h), find?_filter_ne h]

/-! ## Following a path -/

/-- Most bytes in a name. -/
def maxNameBytes : Nat := 255

/-- Most bytes in a path. -/
def maxPathBytes : Nat := 4095

/-- Fails for a path that leads nowhere on any disk. -/
def checkPath (p : Path) : Except DiskFault Unit :=
  if p.text.toList.contains '\x00' then .error .nulInPath
  else if p.text.isEmpty then .error .notFound
  else if maxPathBytes < p.text.utf8ByteSize then .error .invalidName
  else .ok ()

/-- Follows names from a place. Whatever has a name after it has to be a directory. -/
def descend (d : Disk) (place : Location) : List String → Except DiskFault Location
  | [] => .ok place
  | name :: rest =>
    match d.get? place with
    | none => .error .notFound
    | some (.file _) => .error .notDirectory
    | some .directory =>
      if name = "." then d.descend place rest
      else if name = ".." then d.descend place.parent rest
      else if maxNameBytes < name.utf8ByteSize then .error .invalidName
      else d.descend (place.child name) rest

def start (d : Disk) (p : Path) : Location := if p.isAbsolute then .root else d.working

/-- The place of a path. What is written with a slash at the end has to be a directory. -/
def locate (d : Disk) (p : Path) : Except DiskFault Location := do
  checkPath p
  d.descend (d.start p) (p.names ++ if p.endsWithSlash then ["."] else [])

/-- The place of a path at which a file can be put. A name with a slash behind it stands for a
directory; so do `.` and `..`, whose place is a directory anyway. -/
def locateNew (d : Disk) (p : Path) : Except DiskFault Location := do
  checkPath p
  let place ← d.descend (d.start p) p.names
  if p.endsWithSlash && p.endsInName then .error .isDirectory else .ok place

/-- The directory in which the last name of a path is looked up. -/
def locateParent (d : Disk) (p : Path) : Except DiskFault Location := do
  checkPath p
  d.descend (d.start p) (p.names.dropLast ++ ["."])

/-- What stands at a path. -/
def find (d : Disk) (p : Path) : Except DiskFault Entry := do
  match d.get? (← d.locate p) with
  | some entry => .ok entry
  | none => .error .notFound

/-- Whether something stands at a path. -/
def has (d : Disk) (p : Path) : Bool := (d.find p).isOk

/-- The content of the regular file at a path, if there is one. -/
def file? (d : Disk) (p : Path) : Option Content :=
  match d.find p with
  | .ok (.file content) => some content
  | _ => none

/-- The text of a file. -/
def readText (d : Disk) (p : Path) : Except DiskFault String := do
  match ← d.find p with
  | .directory => .error .isDirectory
  | .file (.database _) => .error .invalidText
  | .file (.bytes b) =>
    match b.text? with
    | some text => .ok text
    | none => .error .invalidText

/-! ## Changes

Each change gives the new disk. A change that fails leaves the disk as it is, but for what
`makeDirectories` made and `remove` removed before it failed. -/

/-- Puts a new file; nothing may stand there yet. -/
def createNew (d : Disk) (p : Path) (b : Bytes) : Except DiskFault Disk := do
  let place ← d.locateNew p
  match d.get? place with
  | some _ => .error .alreadyExists
  | none => .ok (d.put place (.file (.bytes b)))

/-- Puts an empty file unless there is a file already. -/
def touch (d : Disk) (p : Path) : Except DiskFault Disk := do
  let place ← d.locateNew p
  match d.get? place with
  | some .directory => .error .isDirectory
  | some (.file _) => .ok d
  | none => .ok (d.put place (.file (.bytes [])))

/-- Puts a file, in place of one that stands there. -/
def write (d : Disk) (p : Path) (content : Content) : Except DiskFault Disk := do
  let place ← d.locateNew p
  match d.get? place with
  | some .directory => .error .isDirectory
  | _ => .ok (d.put place (.file content))

/-- Adds bytes at the end of a file. A database does not notice them. -/
def append (d : Disk) (p : Path) (b : Bytes) : Except DiskFault Disk := do
  let place ← d.locate p
  match d.get? place with
  | none => .error .notFound
  | some .directory => .error .isDirectory
  | some (.file (.database _)) => .ok d
  | some (.file (.bytes old)) => .ok (d.put place (.file (.bytes (old ++ b))))

/-- Makes the directories that are missing on the way along some names. -/
def makeAlong (d : Disk) (place : Location) : List String → Disk × Except DiskFault Unit
  | [] => (d, .ok ())
  | name :: rest =>
    if name = "." then d.makeAlong place rest
    else if name = ".." then d.makeAlong place.parent rest
    else if maxNameBytes < name.utf8ByteSize then (d, .error .invalidName)
    else
      let next := place.child name
      match d.get? next with
      | some .directory => d.makeAlong next rest
      | some (.file _) =>
        (d, .error (if rest.isEmpty then .alreadyExists else .notDirectory))
      | none => (d.put next .directory).makeAlong next rest

/-- Makes a directory and its parents. The directory of the empty path is always there. -/
def makeDirectories (d : Disk) (p : Path) : Disk × Except DiskFault Unit :=
  if p.text.isEmpty then (d, .ok ())
  else
    match checkPath p with
    | .error fault => (d, .error fault)
    | .ok () => d.makeAlong (d.start p) p.names

/-- Moves a file or directory to a path. A file may take the place of a file; a directory may take
the place of an empty directory, and cannot be moved into itself. Only what has a name can be
moved, and only to a name. -/
def rename (d : Disk) (source target : Path) : Except DiskFault Disk := do
  let _ ← d.locateParent source
  let _ ← d.locateParent target
  unless source.endsInName && target.endsInName do throw .busy
  let origin ← d.locate source
  let entry ← d.find source
  let place ← d.locate target
  match entry, d.get? place with
  | .file _, some .directory => .error .isDirectory
  | .file content, _ => .ok ((d.erase origin).put place (.file content))
  | .directory, found =>
    if origin.leadsTo place then .error .invalidInput
    else
      match found with
      | some (.file _) => .error .notDirectory
      | some .directory =>
        if d.entries.any fun e => place.leadsTo e.1 && e.1 ≠ place
        then .error .directoryNotEmpty
        else .ok ((d.erase place).move origin place)
      | none => .ok (d.move origin place)

/-- Removes a file, or a directory with all that it holds. A directory that is not named stays
behind empty. -/
def remove (d : Disk) (p : Path) : Disk × Except DiskFault Unit :=
  match d.locate p with
  | .error fault => (d, .error fault)
  | .ok place =>
    match d.get? place with
    | none => (d, .error .notFound)
    | some entry =>
      if p.endsInName then (d.erase place, .ok ())
      else ((d.erase place).put place entry, .error .invalidInput)

end Disk

end QuotaWatch
