import QuotaWatch.Store.Address

/-!
# The database of the store

Of the database only the table `ItemTable` matters, with a text key and a value in each row.
`Database.lookup` answers what stands under a key.
-/

namespace QuotaWatch

/-- A value in a row. -/
inductive Cell where
  | null
  | integer (n : Int)
  | real (x : Float)
  | text (bytes : Bytes)
  | blob (bytes : Bytes)

/-- A database as far as it matters. -/
inductive Database where
  /-- There is no `ItemTable`. -/
  | withoutTable
  /-- The table has no column for values. -/
  | withoutValues
  | items (rows : List (String × Cell))

instance : Inhabited Database := ⟨.withoutTable⟩

/-- Why a database does not answer. -/
inductive DatabaseFault where
  | address (fault : AddressFault)
  | cannotOpen (path : Path)
  /-- There is something else than a file. -/
  | unreadable
  | notDatabase
  | noTable
  | noColumn
  deriving DecidableEq, Repr

/-- A fault of a database in words. -/
def DatabaseFault.message : DatabaseFault → String
  | .address fault => fault.message
  | .cannotOpen path => s!"unable to open database file: {path.text}"
  | .unreadable => "disk I/O error"
  | .notDatabase => "file is not a database"
  | .noTable => "no such table: ItemTable"
  | .noColumn =>
    "no such column: value in SELECT value FROM ItemTable WHERE key = ?1 at offset 7"

/-- The bytes of a text or blob. -/
def Cell.bytes? : Cell → Option Bytes
  | .text bytes => some bytes
  | .blob bytes => some bytes
  | _ => none

/-- The value under a key, if there is such a row. -/
def Database.lookup (d : Database) (key : String) : Except DatabaseFault (Option Cell) :=
  match d with
  | .withoutTable => .error .noTable
  | .withoutValues => .error .noColumn
  | .items rows => .ok ((rows.find? fun row => row.1 = key).map (·.2))

end QuotaWatch
