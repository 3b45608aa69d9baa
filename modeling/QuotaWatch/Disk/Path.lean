/-!
# Paths

A path is a text of names separated by slashes. Repeated slashes, a slash at the end and the name
`.` inside do not count. `Path.parent?` and `Path.fileName?` take a path apart, and `Path.join` puts
two together.
-/

namespace QuotaWatch

structure Path where
  text : String
  deriving DecidableEq, Repr, Inhabited

namespace Path

/-- The end of a path, in reverse, without what does not count. -/
def trimReversed : List Char → List Char
  | ['/'] => ['/']
  | '/' :: rest => trimReversed rest
  | '.' :: '/' :: rest => trimReversed ('/' :: rest)
  | cs => cs

/-- The path in reverse without what does not count at its end. -/
def reversed (p : Path) : List Char := trimReversed p.text.toList.reverse

/-- The last name, in reverse. The root and the empty path have none. -/
def lastReversed (p : Path) : List Char := p.reversed.takeWhile (· ≠ '/')

/-- The path without its last name. -/
def parent? (p : Path) : Option Path :=
  if p.lastReversed.isEmpty then none
  else some ⟨String.ofList (trimReversed (p.reversed.dropWhile (· ≠ '/'))).reverse⟩

/-- The last name, unless it is a way to go up or stay. -/
def fileName? (p : Path) : Option String :=
  let name := p.lastReversed.reverse
  if name = [] || name = ['.'] || name = ['.', '.'] then none else some (String.ofList name)

/-- A file name without what follows its last dot. A dot at the start does not count. -/
def stemOf (name : List Char) : List Char :=
  match name.reverse.dropWhile (· ≠ '.') with
  | [] => name
  | [_] => name
  | _ :: stem => stem.reverse

/-- The last name without its extension. -/
def fileStem? (p : Path) : Option String :=
  p.fileName?.map fun name => String.ofList (stemOf name.toList)

/-- Whether a path starts from the root. -/
def isAbsolute (p : Path) : Bool := p.text.toList.head? = some '/'

def endsWithSlash (p : Path) : Bool := p.text.toList.getLast? = some '/'

/-- A path further on from this one. An absolute path stands for itself. -/
def join (p : Path) (next : String) : Path :=
  if next.toList.head? = some '/' || p.text.isEmpty then ⟨next⟩
  else if p.endsWithSlash then ⟨p.text ++ next⟩
  else ⟨p.text ++ "/" ++ next⟩

/-- The path with another last name, or with one more name if its last one does not count. -/
def withFileName (p : Path) (name : String) : Path :=
  match p.fileName?, p.parent? with
  | some _, some parent => parent.join name
  | _, _ => p.join name

def splitSlashes : List Char → List (List Char)
  | [] => [[]]
  | c :: rest =>
    match splitSlashes rest with
    | [] => [[c]]
    | part :: parts => if c = '/' then [] :: part :: parts else (c :: part) :: parts

/-- The names of a path in order. -/
def names (p : Path) : List String :=
  ((splitSlashes p.text.toList).filter fun part => !part.isEmpty).map String.ofList

/-- Whether a path ends in a name, and not in a way to stay or go up or at the root. -/
def endsInName (p : Path) : Bool :=
  match p.names.getLast? with
  | none => false
  | some name => name ≠ "." && name ≠ ".."

end Path

end QuotaWatch
