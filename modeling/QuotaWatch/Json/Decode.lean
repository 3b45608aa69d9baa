import QuotaWatch.Json.Node

/-!
# Taking values out of a node

`Node.valueWithin` takes a whole value; brackets may nest 127 deep. The other readers take a value
of a wanted shape and tell only the category of what is wrong. An object with known members is read
by `Node.fields`: every known member is checked where it stands, a member that stands twice is
unsuitable, unknown members are skipped, and an array of the same values in order is as good as the
object. `Value.node` is the node of a value, so that values can be taken apart in the same way.
-/

namespace QuotaWatch.Json

/-! ## Whole values -/

/-- Most levels of brackets in a value, plus one. -/
def depthLimit : Nat := 128

/-- Fails if a list is not closed. -/
def Stop.check : Stop → Except Fault Unit
  | .closed => .ok ()
  | .broken wanted _ => .error wanted

mutual

/-- The value of a node below `depth` levels of brackets. -/
def Node.valueWithin (depth : Nat) : Node → Except Fault Value
  | .null => .ok .null
  | .bool b => .ok (.bool b)
  | .number n => .ok (.number n)
  | .string s => .ok (.string s)
  | .array offset items stop =>
    if depth ≤ 1 then .error ⟨.tooDeep, offset + 1⟩
    else do
      let items ← valuesWithin (depth - 1) items
      stop.check
      .ok (.array items)
  | .object offset members stop =>
    if depth ≤ 1 then .error ⟨.tooDeep, offset + 1⟩
    else do
      let members ← membersWithin (depth - 1) members
      stop.check
      .ok (.object members)
  | .unreadable fault => .error fault
  | .broken wanted _ => .error wanted

/-- The values of the items of an array. -/
def valuesWithin (depth : Nat) : List Node → Except Fault (List Value)
  | [] => .ok []
  | n :: rest => do
    let v ← n.valueWithin depth
    let more ← valuesWithin depth rest
    .ok (v :: more)

/-- The values of the members of an object. -/
def membersWithin (depth : Nat) :
    List (Except Fault String × Node) → Except Fault (List (String × Value))
  | [] => .ok []
  | (key, n) :: rest => do
    let key ← key
    let v ← n.valueWithin depth
    let more ← membersWithin depth rest
    .ok ((key, v) :: more)

end

def Value.parse (text : Bytes) : Except Fault Value := do
  let document := Document.read text
  let value ← document.root.valueWithin depthLimit
  match document.surplus with
  | some fault => .error fault
  | none => .ok value

mutual

/-- A value as a node; brackets stand nowhere in particular. -/
def Value.node : Value → Node
  | .null => .null
  | .bool b => .bool b
  | .number n => .number n
  | .string s => .string s
  | .array items => .array 0 (nodes items) .closed
  | .object members => .object 0 (memberNodes members) .closed

/-- The nodes of the items of an array. -/
def nodes : List Value → List Node
  | [] => []
  | v :: rest => v.node :: nodes rest

/-- The nodes of the members of an object. -/
def memberNodes : List (String × Value) → List (Except Fault String × Node)
  | [] => []
  | (key, v) :: rest => (.ok key, v.node) :: memberNodes rest

end

/-! ## Skipping -/

/-- Fails if a list that is skipped is not closed. -/
def Stop.skip : Stop → Except Category Unit
  | .closed => .ok ()
  | .broken _ skipped => .error skipped.category

mutual

/-- Fails if a part that is skipped is no JSON. -/
def Node.skip : Node → Except Category Unit
  | .array _ items stop => do
    skipItems items
    stop.skip
  | .object _ members stop => do
    skipMembers members
    stop.skip
  | .broken _ skipped => .error skipped.category
  | _ => .ok ()

/-- Skips the items of an array. -/
def skipItems : List Node → Except Category Unit
  | [] => .ok ()
  | n :: rest => do
    n.skip
    skipItems rest

/-- Skips the members of an object. -/
def skipMembers : List (Except Fault String × Node) → Except Category Unit
  | [] => .ok ()
  | (_, n) :: rest => do
    n.skip
    skipMembers rest

end

/-! ## Values of a wanted shape -/

/-- A way to read a node. -/
abbrev Reader (α : Type) := Node → Except Category α

/-- What is wrong with a node that is not of the wanted shape. -/
def Node.mismatch : Node → Category
  | .unreadable fault => fault.category
  | .broken wanted _ => wanted.category
  | _ => .unsuitable

/-- Fails if a list that is wanted is not closed. -/
def Stop.want : Stop → Except Category Unit
  | .closed => .ok ()
  | .broken wanted _ => .error wanted.category

/-- A whole number of 64 bits. -/
def Node.count : Reader UInt64
  | .number (.natural n) => .ok n
  | n => .error n.mismatch

/-- A whole number of 8 bits. -/
def Node.byte : Reader UInt8
  | .number (.natural n) => if n < 256 then .ok n.toUInt8 else .error .unsuitable
  | n => .error n.mismatch

def Node.flag : Reader Bool
  | .bool b => .ok b
  | n => .error n.mismatch

def Node.text : Reader String
  | .string s => .ok s
  | n => .error n.mismatch

/-- A text that a partial function turns into a value. -/
def Node.textAs {α : Type} (f : String → Option α) : Reader α := fun n => do
  let s ← n.text
  match f s with
  | some a => .ok a
  | none => .error .unsuitable

/-- A value or null. -/
def Node.optional {α : Type} (read : Reader α) : Reader (Option α)
  | .null => .ok none
  | n => (read n).map some

/-- An array of values. -/
def Node.list {α : Type} (read : Reader α) : Reader (List α)
  | .array _ items stop => do
    let values ← items.mapM read
    stop.want
    .ok values
  | n => .error n.mismatch

/-- An object of values with any keys, in the order of the text. -/
def Node.entries {α : Type} (read : Reader α) : Reader (List (String × α))
  | .object _ members stop => do
    let entries ← members.mapM fun (key, n) => do
      let key ← key.mapError Fault.category
      let value ← read n
      .ok (key, value)
    stop.want
    .ok entries
  | n => .error n.mismatch

/-! ## Objects with known members -/

/-- A known member of an object: its name, and what its value has to pass. -/
structure Field where
  name : String
  check : Reader Unit

/-- A member whose value has to be readable in a given way. -/
def Field.of {α : Type} (name : String) (read : Reader α) : Field :=
  ⟨name, fun n => (read n).map fun _ => ()⟩

/-- The known members that were found. -/
abbrev Found := List (String × Node)

/-- The member with a given name. -/
def Found.get? (found : Found) (name : String) : Option Node :=
  (found.find? fun m => m.1 = name).map (·.2)

/-- A member that has to be there. -/
def Found.need {α : Type} (found : Found) (name : String) (read : Reader α) :
    Except Category α :=
  match found.get? name with
  | some n => read n
  | none => .error .unsuitable

/-- A member that counts as `default` if it is missing. -/
def Found.getOr {α : Type} (found : Found) (name : String) (read : Reader α) (default : α) :
    Except Category α :=
  match found.get? name with
  | some n => read n
  | none => .ok default

/-- Reads the members of an object one after another. -/
def findMembers (fields : List Field) (found : Found) :
    List (Except Fault String × Node) → Except Category Found
  | [] => .ok found
  | (key, n) :: rest => do
    let key ← key.mapError Fault.category
    match fields.find? fun f => f.name = key with
    | none =>
      n.skip
      findMembers fields found rest
    | some field =>
      if (found.get? key).isSome then .error .unsuitable
      else
        field.check n
        findMembers fields ((key, n) :: found) rest

/-- Reads the items of an array as the known members in order. -/
def findItems (stop : Stop) (found : Found) :
    List Field → List Node → Except Category Found
  | [], [] => do
    stop.want
    .ok found
  | [], _ :: _ => .error .malformed
  | _ :: _, [] => do
    stop.want
    .ok found
  | field :: fields, n :: rest => do
    field.check n
    findItems stop ((field.name, n) :: found) fields rest

/-- The known members of an object, or of an array with the same values in order. All members of
an array have to be there unless an array may be partial. -/
def Node.fields (mayBePartial : Bool) (fields : List Field) : Reader Found
  | .object _ members stop => do
    let found ← findMembers fields [] members
    stop.want
    .ok found
  | .array _ items stop => do
    let found ← findItems stop [] fields items
    if mayBePartial || found.length = fields.length then .ok found else .error .unsuitable
  | n => .error n.mismatch

def Reader.run {α : Type} (read : Reader α) (text : Bytes) : Except Category α := do
  let document := Document.read text
  let a ← read document.root
  match document.surplus with
  | some fault => .error fault.category
  | none => .ok a

end QuotaWatch.Json
