/-!
# Comma-separated rows

A row is written as its fields with commas in between and a line feed at the end; a field with a
comma, a quote or a line break is put in quotes, and its quotes are doubled. `Csv.records` reads
rows back. It is a fold over the characters, so reading a text that ends at the end of a row and
then more text is reading the two one after the other.
-/

namespace QuotaWatch.Csv

/-! ## Writing -/

/-- Whether a field cannot be written as it is. -/
def isSpecial (c : Char) : Bool := c = ',' || c = '"' || c = '\n' || c = '\r'

def doubleQuotes : List Char → List Char
  | [] => []
  | c :: rest => if c = '"' then '"' :: '"' :: doubleQuotes rest else c :: doubleQuotes rest

def field (cs : List Char) : List Char :=
  if cs.any isSpecial then '"' :: doubleQuotes cs ++ ['"'] else cs

/-- Fields with commas in between. -/
def joinFields : List (List Char) → List Char
  | [] => []
  | [f] => f
  | f :: rest => f ++ ',' :: joinFields rest

def row (fields : List (List Char)) : List Char := joinFields (fields.map field) ++ ['\n']

/-! ## Reading -/

/-- Where in a field a reader is. -/
inductive Mode where
  /-- Outside quotes. -/
  | plain
  /-- Inside quotes. -/
  | quoted
  /-- Behind a quote inside quotes: it ends them, unless another quote follows. -/
  | closing
  deriving DecidableEq, Repr

/-- What has been read: whole records, the fields of the current record, and the characters of the
current field, each with the last one first. -/
structure State where
  mode : Mode
  field : List Char
  fields : List (List Char)
  records : List (List (List Char))
  deriving DecidableEq, Repr

/-- Nothing read yet. -/
def State.start : State := ⟨.plain, [], [], []⟩

/-- Ends the current field. -/
def State.endField (s : State) : State :=
  { s with mode := .plain, field := [], fields := s.field.reverse :: s.fields }

/-- Whether a record is an empty line. -/
def isBlankRecord (record : List (List Char)) : Bool := record = [[]]

/-- Ends the current record. An empty line is none. -/
def State.endRecord (s : State) : State :=
  let record := s.endField.fields.reverse
  { mode := .plain, field := [], fields := [],
    records := if isBlankRecord record then s.records else record :: s.records }

/-- Reads a character outside quotes. Carriage returns do not count. -/
def State.readPlain (s : State) (c : Char) : State :=
  if c = '"' then { s with mode := .quoted }
  else if c = ',' then s.endField
  else if c = '\r' then { s with mode := .plain }
  else if c = '\n' then s.endRecord
  else { s with mode := .plain, field := c :: s.field }

def State.read (s : State) (c : Char) : State :=
  match s.mode with
  | .plain => s.readPlain c
  | .quoted =>
    if c = '"' then { s with mode := .closing } else { s with field := c :: s.field }
  | .closing =>
    if c = '"' then { s with mode := .quoted, field := c :: s.field } else s.readPlain c

/-- The records read, the last line included even if it has no end. -/
def State.finish (s : State) : List (List (List Char)) :=
  if s.field.isEmpty && s.fields.isEmpty then s.records.reverse
  else s.endRecord.records.reverse

/-- The records of a text, each as its fields. -/
def records (text : List Char) : List (List (List Char)) :=
  (text.foldl State.read .start).finish

end QuotaWatch.Csv
