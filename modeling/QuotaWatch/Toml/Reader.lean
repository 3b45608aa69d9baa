import QuotaWatch.Toml.Scalar
import QuotaWatch.Toml.Table

/-!
# Reading TOML

`statements?` reads a document as a list of statements, and `parse` assembles them.
-/

namespace QuotaWatch.Toml

mutual

/-- Reads a value inside `depth` arrays and tables. -/
def value? : (fuel depth : Nat) → List Char → Option (Value × List Char)
  | 0, _, _ => none
  | fuel + 1, depth, cs =>
    match cs with
    | '"' :: _ => (string? cs).map fun (s, rest) => (.string s, rest)
    | '\'' :: _ => (string? cs).map fun (s, rest) => (.string s, rest)
    | '[' :: rest =>
      if depth + 1 < depthLimit then
        (items? fuel (depth + 1) rest).map fun (items, rest) => (.array false items, rest)
      else none
    | '\x7b' :: rest =>
      if depth + 1 < depthLimit then
        match skipSpaces rest with
        | '\x7d' :: rest => some (.table .closed [], rest)
        | _ => do
          let (pairs, rest) ← pairs? fuel (depth + 1) rest
          let members ← Members.ofPairs pairs
          some (.table .closed members, rest)
      else none
    | 't' :: 'r' :: 'u' :: 'e' :: rest => some (.boolean true, rest)
    | 'f' :: 'a' :: 'l' :: 's' :: 'e' :: rest => some (.boolean false, rest)
    | _ => number? cs

/-- Reads the items of an array up to its closing bracket. -/
def items? : (fuel depth : Nat) → List Char → Option (List Value × List Char)
  | 0, _, _ => none
  | fuel + 1, depth, cs =>
    match skipFiller false cs with
    | ']' :: rest => some ([], rest)
    | cs => do
      let (v, rest) ← value? fuel depth cs
      match skipFiller false rest with
      | ']' :: rest => some ([v], rest)
      | ',' :: rest =>
        let (more, rest) ← items? fuel depth rest
        some (v :: more, rest)
      | _ => none

/-- Reads the pairs of a table in braces up to its closing brace. -/
def pairs? : (fuel depth : Nat) → List Char → Option (List (List String × Value) × List Char)
  | 0, _, _ => none
  | fuel + 1, depth, cs => do
    let (path, rest) ← key? cs
    match rest with
    | '=' :: rest =>
      let (v, rest) ← value? fuel depth (skipSpaces rest)
      match skipSpaces rest with
      | '\x7d' :: rest => some ([(path, v)], rest)
      | ',' :: rest =>
        let (more, rest) ← pairs? fuel depth rest
        some ((path, v) :: more, rest)
      | _ => none
    | _ => none

end

/-- The rest of a text after the end of a line. A comment may stand before it. -/
def endLine? (cs : List Char) : Option (List Char) :=
  let rest := match skipSpaces cs with
    | '#' :: rest => rest.dropWhile isPrintable
    | rest => rest
  match rest with
  | [] => some []
  | rest => newline? rest

/-- Reads a key and its value. -/
def pair? (cs : List Char) : Option (Statement × List Char) := do
  let (path, rest) ← key? cs
  match rest with
  | '=' :: rest =>
    let (v, rest) ← value? (2 * rest.length + 2) 0 (skipSpaces rest)
    some (.pair path v, rest)
  | _ => none

/-- Reads a header behind its opening bracket. -/
def header? (cs : List Char) : Option (Statement × List Char) :=
  match cs with
  | '[' :: rest => do
    let (path, rest) ← key? rest
    match rest with
    | ']' :: ']' :: rest => some (.item path, rest)
    | _ => none
  | _ => do
    let (path, rest) ← key? cs
    match rest with
    | ']' :: rest => some (.header path, rest)
    | _ => none

/-- Reads the statements of a document. -/
def statements? : (fuel : Nat) → List Char → Option (List Statement)
  | 0, _ => none
  | fuel + 1, cs =>
    match skipSpaces cs with
    | [] => some []
    | '#' :: rest => (endLine? ('#' :: rest)).bind (statements? fuel)
    | '\n' :: rest => statements? fuel rest
    | '\r' :: rest => (newline? ('\r' :: rest)).bind (statements? fuel)
    | '[' :: rest => do
      let (statement, rest) ← header? rest
      let rest ← endLine? rest
      let more ← statements? fuel rest
      some (statement :: more)
    | cs => do
      let (statement, rest) ← pair? cs
      let rest ← endLine? rest
      let more ← statements? fuel rest
      some (statement :: more)

/-- Drops the mark that may stand in front of a text. -/
def skipMark : List Char → List Char
  | '\uFEFF' :: rest => rest
  | cs => cs

/-- The members of the document that a text writes. -/
def parse (text : String) : Option Members :=
  let cs := skipMark text.toList
  (statements? (cs.length + 1) cs).bind Members.ofStatements

end QuotaWatch.Toml
