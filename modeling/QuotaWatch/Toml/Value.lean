/-!
# TOML values

A table keeps its members in the order in which they were defined and remembers how it came about,
because that decides how it may still grow.
-/

namespace QuotaWatch.Toml

/-- How a table came about. -/
inductive Style where
  /-- Written in braces; it cannot grow. -/
  | closed
  /-- Named by a header of its own. -/
  | header
  /-- Named only on the way to another header. -/
  | implied
  /-- Made by a dotted key. -/
  | dotted
  deriving DecidableEq, Repr

/-- A TOML value. -/
inductive Value where
  | string (s : String)
  | integer (n : Int)
  | float (x : Float)
  | boolean (b : Bool)
  /-- A date, a time of day or both. -/
  | moment
  /-- An array; one of tables with headers of their own can grow. -/
  | array (grows : Bool) (items : List Value)
  | table (style : Style) (members : List (String × Value))

instance : Inhabited Value := ⟨.boolean false⟩

/-- Members of a table in order. -/
abbrev Members := List (String × Value)

def Members.get? (members : Members) (key : String) : Option Value :=
  (members.find? fun m => m.1 = key).map (·.2)

/-- Members with another value for a key that is there. -/
def Members.replace (members : Members) (key : String) (v : Value) : Members :=
  members.map fun m => if m.1 = key then (key, v) else m

/-- Members without a key. -/
def Members.erase (members : Members) (key : String) : Members :=
  members.filter fun m => m.1 ≠ key

end QuotaWatch.Toml
