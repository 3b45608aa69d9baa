import QuotaWatch.Toml.Value

/-!
# Growing tables

A document defines its tables bit by bit. `Members.define` puts a value under a dotted key;
`Assembly` takes the statements of a document one after another. Nothing can be defined twice: a
table in braces cannot grow, a dotted key cannot reach into a table that has a header, and a header
can take up only a table that other headers implied.
-/

namespace QuotaWatch.Toml

/-- Changes a table of a document. -/
abbrev Change := Style → Members → Option Members

/-- A change of the table at the end of a path. Tables that are missing on the way are made.
`byDots` tells a dotted key from a header. -/
def change (byDots : Bool) (f : Change) : List String → Change
  | [], style, members => f style members
  | key :: path, _, members =>
    match Members.get? members key with
    | none => do
      let style := if byDots then Style.dotted else .implied
      let inner ← change byDots f path style []
      some (members ++ [(key, .table style inner)])
    | some (.table style inner) =>
      if style = .closed || (byDots && style = .header) then none
      else do
        let inner ← change byDots f path style inner
        some (Members.replace members key (.table style inner))
    | some (.array true items) =>
      match items.getLast? with
      | some (.table style inner) => do
        let inner ← change byDots f path style inner
        some (Members.replace members key (.array true (items.dropLast ++ [.table style inner])))
      | _ => none
    | some _ => none

/-- Adds a member, unless its key is taken. -/
def addMember (key : String) (v : Value) : Change := fun _ members =>
  match Members.get? members key with
  | none => some (members ++ [(key, v)])
  | some _ => none

/-- Adds a member to a table that dotted keys have made. -/
def addDotted (key : String) (v : Value) : Change := fun style members =>
  if style = .dotted then addMember key v style members else none

/-- Puts a value under a dotted key. -/
def Members.define (members : Members) (path : List String) (v : Value) : Option Members :=
  match path.getLast? with
  | none => none
  | some key =>
    match path.dropLast with
    | [] => addMember key v .header members
    | parents => change true (addDotted key v) parents .header members

/-- The members that pairs of key and value define. -/
def Members.ofPairs (pairs : List (List String × Value)) : Option Members :=
  pairs.foldlM (fun members (path, v) => Members.define members path v) []

/-! ## Documents -/

/-- A statement of a document. -/
inductive Statement where
  /-- A key and its value. -/
  | pair (path : List String) (v : Value)
  /-- The header of a table. -/
  | header (path : List String)
  /-- The header of one more table of an array. -/
  | item (path : List String)

/-- A document so far: the finished tables, and the table that pairs go to now. -/
structure Assembly where
  root : Members
  /-- Path of the current table, and whether it belongs to an array; none for the root. -/
  current : Option (List String × Bool)
  members : Members

/-- Nothing defined yet. -/
def Assembly.start : Assembly := ⟨[], none, []⟩

/-- Adds a table to an array of tables. -/
def addItem (key : String) (v : Value) : Change := fun _ members =>
  match Members.get? members key with
  | none => some (members ++ [(key, .array true [v])])
  | some (.array true items) => some (Members.replace members key (.array true (items ++ [v])))
  | some _ => none

/-- Applies a change at the end of a path of headers, with the last part of the path. -/
def atHeader (path : List String) (f : String → Change) (root : Members) : Option Members :=
  match path.getLast? with
  | none => none
  | some key => change false (f key) path.dropLast .header root

/-- Puts the current table where it belongs. -/
def Assembly.finish (a : Assembly) : Option Members :=
  let table := Value.table .header a.members
  match a.current with
  | none => some a.members
  | some (path, true) => atHeader path (fun key => addItem key table) a.root
  | some (path, false) => atHeader path (fun key => addMember key table) a.root

/-- Checks that a key is free or holds an array of tables. -/
def expectArray (key : String) : Change := fun _ members =>
  match Members.get? members key with
  | none => some members
  | some (.array true _) => some members
  | some _ => none

/-- Checks that a key is free or holds an implied table, and frees it. -/
def takeImplied (key : String) : Change := fun _ members =>
  match Members.get? members key with
  | none => some members
  | some (.table .implied _) => some (Members.erase members key)
  | some _ => none

/-- The members of the table at a path of headers. -/
def lookupPath : List String → Members → Option Members
  | [], members => some members
  | key :: path, members =>
    match Members.get? members key with
    | some (.table _ inner) => lookupPath path inner
    | some (.array true items) =>
      match items.getLast? with
      | some (.table _ inner) => lookupPath path inner
      | _ => none
    | _ => none

def Assembly.take (a : Assembly) : Statement → Option Assembly
  | .pair path v => do
    let members ← Members.define a.members path v
    some { a with members }
  | .header path => do
    let root ← a.finish
    let taken := (lookupPath path root).getD []
    let root ← atHeader path takeImplied root
    some { root, current := some (path, false), members := taken }
  | .item path => do
    let root ← a.finish
    let root ← atHeader path expectArray root
    some { root, current := some (path, true), members := [] }

/-- The members of the document that statements define. -/
def Members.ofStatements (statements : List Statement) : Option Members :=
  (statements.foldlM Assembly.take .start).bind Assembly.finish

end QuotaWatch.Toml
