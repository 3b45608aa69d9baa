import QuotaWatch.Disk.Path
import QuotaWatch.Text.Bytes

/-!
# What the path of a database names

A path that begins with `file:` is an address: a host, the path of a file with escapes, options
behind a question mark, and a remark behind a number sign. Every other path names itself.
`Address.ofPath` says which file is meant and how it is opened.
-/

namespace QuotaWatch

/-- How a database is opened. -/
inductive Access where
  | readOnly
  | readWrite
  | create
  | memory
  deriving DecidableEq, Repr

/-- Why an address names nothing. -/
inductive AddressFault where
  | unknownHost (host : Bytes)
  /-- An option has no such value; `what` says what the value is for. -/
  | unknownMode (what : String) (value : Bytes)
  | forbiddenMode (value : Bytes)
  | unknownFileSystem (name : Bytes)
  deriving DecidableEq, Repr

/-- Bytes as they are shown in a message. -/
def Bytes.shown (b : Bytes) : String :=
  (Bytes.text? b).getD
    (String.ofList (b.map fun b => if b < 0x80 then Char.ofNat b.toNat else '\uFFFD'))

/-- A fault of an address in words. -/
def AddressFault.message : AddressFault → String
  | .unknownHost host => s!"invalid uri authority: {host.shown}"
  | .unknownMode what value => s!"no such {what} mode: {value.shown}"
  | .forbiddenMode value => s!"access mode not allowed: {value.shown}"
  | .unknownFileSystem name => s!"no such vfs: {name.shown}"

/-- A database by its file. -/
structure Address where
  /-- Path of the file. -/
  file : Bytes
  access : Access
  fileSystem : Bytes
  deriving DecidableEq, Repr

namespace Address

/-- The file system that is used unless an address names another one. -/
def standardFileSystem : Bytes := Bytes.ofText "unix"

/-- A file system that keeps its files in memory. -/
def memoryFileSystem : Bytes := Bytes.ofText "memdb"

def fileSystems : List Bytes :=
  [standardFileSystem, Bytes.ofText "unix-none", Bytes.ofText "unix-dotfile",
   Bytes.ofText "unix-excl", memoryFileSystem]

/-- Whether the database is a fresh one in memory and no file is read. -/
def isInMemory (a : Address) : Bool :=
  a.access = .memory || a.fileSystem = memoryFileSystem || a.file = []
    || a.file = Bytes.ofText ":memory:"

/-! ## Parts of an address -/

/-- Bytes with their escapes read. What follows an escaped zero is left out. -/
def unescape : Bytes → Bytes
  | 0x25 :: high :: low :: rest =>
    match Bytes.hexValue? high, Bytes.hexValue? low with
    | some high, some low =>
      if 16 * high + low = 0 then [] else UInt8.ofNat (16 * high + low) :: unescape rest
    | _, _ => 0x25 :: unescape (high :: low :: rest)
  | b :: rest => b :: unescape rest
  | [] => []

/-- What stands before and behind the first `separator`. -/
def cut (separator : UInt8) (b : Bytes) : Bytes × Bytes :=
  (b.takeWhile (· ≠ separator), (b.dropWhile (· ≠ separator)).drop 1)

/-- The pieces between separators. -/
def pieces (separator : UInt8) : Bytes → List Bytes
  | [] => [[]]
  | b :: rest =>
    match pieces separator rest with
    | [] => [[b]]
    | piece :: more => if b = separator then [] :: piece :: more else (b :: piece) :: more

/-- The names and values of the options. An option without a name does not count. -/
def options (query : Bytes) : List (Bytes × Bytes) :=
  (pieces 0x26 query).filterMap fun piece =>
    let (name, value) := cut 0x3D piece
    if unescape name = [] then none else some (unescape name, unescape value)

/-- What an address has behind its host; there may be no host, or this one. -/
def afterHost (b : Bytes) : Except AddressFault Bytes :=
  match b with
  | 0x2F :: 0x2F :: rest =>
    let host := rest.takeWhile (· ≠ 0x2F)
    if host = [] || host = Bytes.ofText "localhost" then .ok (rest.drop host.length)
    else .error (.unknownHost host)
  | _ => .ok b

/-! ## Options -/

/-- The access that the value of the option `mode` asks for. -/
def access? (value : Bytes) : Option Access :=
  if value = Bytes.ofText "ro" then some .readOnly
  else if value = Bytes.ofText "rw" then some .readWrite
  else if value = Bytes.ofText "rwc" then some .create
  else if value = Bytes.ofText "memory" then some .memory
  else none

/-- How much an access allows. -/
def rank : Access → Nat
  | .readOnly => 0
  | .readWrite => 1
  | .create => 2
  | .memory => 3

/-- An address with one more option. A mode may be memory, or allow no more than the one before it.
An option of another name does not matter here. -/
def withOption (a : Address) (name value : Bytes) : Except AddressFault Address :=
  if name = Bytes.ofText "vfs" then .ok { a with fileSystem := value }
  else if name = Bytes.ofText "mode" then
    match access? value with
    | none => .error (.unknownMode "access" value)
    | some access =>
      if access = .memory || rank access ≤ rank a.access then .ok { a with access }
      else .error (.forbiddenMode value)
  else if name = Bytes.ofText "cache" then
    if value = Bytes.ofText "shared" || value = Bytes.ofText "private" then .ok a
    else .error (.unknownMode "cache" value)
  else .ok a

/-- The address that a path is. A database is only read unless options say otherwise. -/
def ofPath (p : Path) : Except AddressFault Address := do
  let written := Bytes.ofText p.text
  let scheme := Bytes.ofText "file:"
  if !scheme.isPrefixOf written then .ok ⟨written, .readOnly, standardFileSystem⟩
  else
    let body ← afterHost (written.drop scheme.length)
    let (file, query) := cut 0x3F (cut 0x23 body).1
    let a ← (options query).foldlM (fun a o => a.withOption o.1 o.2)
      ⟨unescape file, .readOnly, standardFileSystem⟩
    if fileSystems.contains a.fileSystem then .ok a
    else .error (.unknownFileSystem a.fileSystem)

end Address

end QuotaWatch
