import QuotaWatch.Disk.Tree
import QuotaWatch.Store.Address

/-!
# Opening a database

A database is opened by the full path of its file. `Disk.fullPlace?` follows a path by its names
alone, so that a directory that is left again by `..` need not exist; `Disk.database` opens what is
there. Two files may be kept beside a database, and come into being even if it is only read;
`Disk.sidePlaces` is where.
-/

namespace QuotaWatch

/-- The database that the content of a file is. An empty file is a database without tables. -/
def Content.database? : Content → Except DatabaseFault Database
  | .database d => .ok d
  | .bytes [] => .ok .withoutTable
  | .bytes _ => .error .notDatabase

namespace Disk

/-- Most bytes in the full path of a database. A longer one leaves no room for the name of a journal
beside it. -/
def maxFullPath : Nat := 504

/-- Most bytes in a full path on the way to a database. -/
def maxFullPathAlong : Nat := 511

def fullPathBytes (place : Location) : Nat :=
  place.names.foldl (fun n name => n + 1 + name.utf8ByteSize) 0

/-- Follows names from a place. A name may be missing, but not below a file. -/
def fullPlace? (d : Disk) (place : Location) : List String → Option Location
  | [] => if place = .root || maxFullPath < fullPathBytes place then none else some place
  | name :: rest =>
    if name = "." then d.fullPlace? place rest
    else if name = ".." then d.fullPlace? place.parent rest
    else if maxFullPathAlong < fullPathBytes (place.child name) then none
    else
      match d.get? place with
      | some (.file _) => none
      | some .directory =>
        if maxNameBytes < name.utf8ByteSize then none else d.fullPlace? (place.child name) rest
      | none => d.fullPlace? (place.child name) rest

/-- The place of the file of an address, if it may have one. -/
def databasePlace? (d : Disk) (a : Address) : Option Location := do
  let p : Path := ⟨← Bytes.text? a.file⟩
  d.fullPlace? (d.start p) p.names

/-- What the names of the files end in that are kept beside a database: the log of its changes, and
an index of that log. -/
def sideEndings : List String := ["-wal", "-shm"]

/-- Places of the files beside the database at a path. -/
def sidePlaces (d : Disk) (p : Path) : List Location :=
  match (Address.ofPath p).toOption.bind d.databasePlace? with
  | none => []
  | some place =>
    sideEndings.map fun ending => place.parent.child (place.names.getLastD "" ++ ending)

def database (d : Disk) (p : Path) : Except DatabaseFault Database := do
  let a ← (Address.ofPath p).mapError .address
  if a.isInMemory then .ok .withoutTable
  else
    match d.databasePlace? a with
    | none => .error (.cannotOpen p)
    | some place =>
      match d.get? place with
      | some (.file content) => content.database?
      | some .directory => .error (if a.access = .readOnly then .unreadable else .cannotOpen p)
      | none => .error (.cannotOpen p)

end Disk

end QuotaWatch
