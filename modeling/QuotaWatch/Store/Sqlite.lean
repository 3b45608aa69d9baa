import QuotaWatch.Store.Database

/-!
# SQLite files

A file is a sequence of pages of one size. A table is a tree of pages whose leaves hold one record
for each row; a record that does not fit into its leaf goes on in overflow pages. The tree at the
first page lists the tables with the statements that made them. `Sqlite.database?` takes from a file
what the store needs to know. Texts are taken to be UTF-8.
-/

namespace QuotaWatch.Sqlite

/-! ## Numbers -/

/-- A part of a byte string. -/
def slice (b : Bytes) (offset count : Nat) : Bytes := (b.drop offset).take count

/-- The number that bytes write, the most significant byte first. -/
def bigEndian (b : Bytes) : Nat := b.foldl (fun n byte => 256 * n + byte.toNat) 0

def numberAt (b : Bytes) (offset count : Nat) : Nat := bigEndian (slice b offset count)

/-- Reads a number of up to nine bytes: seven bits a byte, but eight bits in the ninth. A byte of
128 and more says that another one follows. -/
def number? : (count acc : Nat) → Bytes → Option (Nat × Bytes)
  | _, _, [] => none
  | 0, acc, b :: rest => some (256 * acc + b.toNat, rest)
  | count + 1, acc, b :: rest =>
    if b < 128 then some (128 * acc + b.toNat, rest)
    else number? count (128 * acc + (b.toNat - 128)) rest

/-- Reads a number at the head of a byte string. -/
def varint? (b : Bytes) : Option (Nat × Bytes) := number? 8 0 b

/-- The number that bytes write as a two's complement. -/
def signed (b : Bytes) : Int :=
  let n : Int := bigEndian b
  let size : Int := Nat.pow 256 b.length
  if 2 * n < size then n else n - size

/-! ## Pages -/

structure PageFile where
  pages : Array Bytes
  /-- Bytes of a page that hold data. -/
  usable : Nat

/-- Cuts a byte string into pages. -/
def cut (size : Nat) : (count : Nat) → Bytes → List Bytes
  | 0, _ => []
  | count + 1, b => b.take size :: cut size count (b.drop size)

/-- The text in front of every file. -/
def magic : Bytes := Bytes.ofText "SQLite format 3\x00"

def isPageSize (n : Nat) : Bool := [512, 1024, 2048, 4096, 8192, 16384, 32768, 65536].contains n

def PageFile.read? (b : Bytes) : Option PageFile :=
  let stored := numberAt b 16 2
  let size := if stored = 1 then 65536 else stored
  if magic.isPrefixOf b && isPageSize size then
    some ⟨(cut size (b.length / size) b).toArray, size - numberAt b 20 1⟩
  else none

/-- The page with a number; the first one has number 1. -/
def PageFile.page? (f : PageFile) (n : Nat) : Option Bytes :=
  if n = 0 then none else f.pages[n - 1]?

/-! ## Trees -/

/-- Reads bytes that go on from one overflow page to the next. -/
def PageFile.overflow? (f : PageFile) : (fuel count number : Nat) → Option Bytes
  | 0, _, _ => none
  | fuel + 1, count, number =>
    if count = 0 then some []
    else do
      let page ← f.page? number
      let here := slice page 4 (min count (f.usable - 4))
      let more ← f.overflow? fuel (count - here.length) (numberAt page 0 4)
      some (here ++ more)

/-- How much of a record of `length` bytes stands in its leaf. -/
def PageFile.localLength (f : PageFile) (length : Nat) : Nat :=
  let most := f.usable - 35
  let least := (f.usable - 12) * 32 / 255 - 23
  let even := least + (length - least) % (f.usable - 4)
  if length ≤ most then length else if even ≤ most then even else least

/-- The record of a cell of a leaf. -/
def PageFile.record? (f : PageFile) (cell : Bytes) : Option Bytes := do
  let (length, rest) ← varint? cell
  let (_, rest) ← varint? rest
  let here := f.localLength length
  let more ← f.overflow? (f.pages.size + 1) (length - here) (numberAt rest here 4)
  some (rest.take here ++ more)

/-- The records of the tree at a page, of at most `depth` levels. -/
def PageFile.records? (f : PageFile) : (depth number : Nat) → Option (List Bytes)
  | 0, _ => none
  | depth + 1, number => do
    let page ← f.page? number
    let start := if number = 1 then 100 else 0
    let count := numberAt page (start + 3) 2
    let cells (header : Nat) : List Bytes :=
      (List.range count).map fun i => page.drop (numberAt page (start + header + 2 * i) 2)
    match numberAt page start 1 with
    | 13 => (cells 8).mapM f.record?
    | 5 => do
      let children := (cells 12).map (fun cell => numberAt cell 0 4)
      let last := numberAt page (start + 8) 4
      let parts ← (children ++ [last]).mapM fun child => f.records? depth child
      some parts.flatten
    | _ => none

/-- Most levels of a tree. -/
def maxDepth : Nat := 20

/-! ## Records -/

/-- The value of a type in some bytes, and the bytes after it. -/
def cell (type : Nat) (b : Bytes) : Cell × Bytes :=
  let integer (count : Nat) : Cell × Bytes := (.integer (signed (b.take count)), b.drop count)
  match type with
  | 0 => (.null, b)
  | 1 => integer 1
  | 2 => integer 2
  | 3 => integer 3
  | 4 => integer 4
  | 5 => integer 6
  | 6 => integer 8
  | 7 => (.real (Float.ofBits (UInt64.ofNat (numberAt b 0 8))), b.drop 8)
  | 8 => (.integer 0, b)
  | 9 => (.integer 1, b)
  | n =>
    let count := (n - 12) / 2
    (if n % 2 = 0 then .blob (b.take count) else .text (b.take count), b.drop count)

/-- The values of types one after another. -/
def cells : List Nat → Bytes → List Cell
  | [], _ => []
  | type :: types, b =>
    let (c, rest) := cell type b
    c :: cells types rest

/-- The types in the header of a record. -/
def types? : (fuel : Nat) → Bytes → Option (List Nat)
  | 0, _ => none
  | _ + 1, [] => some []
  | fuel + 1, b => do
    let (type, rest) ← varint? b
    let more ← types? fuel rest
    some (type :: more)

def row? (record : Bytes) : Option (List Cell) := do
  let (length, rest) ← varint? record
  let header := rest.take (length - (record.length - rest.length))
  let types ← types? (header.length + 1) header
  some (cells types (record.drop length))

def text? : Cell → Option String
  | .text b => Bytes.text? b
  | _ => none

/-! ## Tables -/

/-- The parts of a text between commas that stand in no brackets. -/
def commaParts : (depth : Nat) → List Char → List (List Char)
  | _, [] => [[]]
  | depth, c :: rest =>
    if c = ',' && depth = 0 then [] :: commaParts 0 rest
    else
      let depth := if c = '(' then depth + 1 else if c = ')' then depth - 1 else depth
      match commaParts depth rest with
      | [] => [[c]]
      | part :: parts => (c :: part) :: parts

/-- Whether a character may stand in the name of a column. -/
def isNameChar (c : Char) : Bool := c.isAlphanum || c = '_'

/-- The names of the columns in the statement that made a table, in small letters. -/
def columns (statement : List Char) : List String :=
  let definitions := (statement.dropWhile (· ≠ '(')).drop 1
  (commaParts 0 definitions).map fun part =>
    let name := (part.dropWhile fun c => !isNameChar c).takeWhile isNameChar
    String.ofList (name.map Char.toLower)

/-- The first page and the columns of a table that a row of the list of tables describes. -/
def tableOf (name : String) : List Cell → Option (Nat × List String)
  | [_, called, _, .integer root, statement] => do
    let called ← text? called
    let statement ← text? statement
    if called.toLower = name.toLower && 0 < root then
      some (root.toNat, columns statement.toList)
    else none
  | _ => none

def item? (key value : Nat) (row : List Cell) : Option (String × Cell) := do
  let name ← (row[key]?).bind text?
  some (name, row[value]?.getD .null)

/-- What the store needs to know of a file. -/
def database? (b : Bytes) : Option Database := do
  let f ← PageFile.read? b
  let tables ← (← f.records? maxDepth 1).mapM row?
  match tables.findSome? (tableOf "ItemTable") with
  | none => some .withoutTable
  | some (root, columns) =>
    match columns.idxOf? "key", columns.idxOf? "value" with
    | some key, some value =>
      let rows ← (← f.records? maxDepth root).mapM row?
      some (.items (rows.filterMap (item? key value)))
    | _, _ => some .withoutValues

end QuotaWatch.Sqlite
