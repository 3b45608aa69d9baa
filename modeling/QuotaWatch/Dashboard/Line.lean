/-!
# Painted lines

A line is built from segments, each in one paint. Paint is a pair of escape sequences around the
segment; it takes no columns, so a line keeps count of its columns by its bare segments.
-/

namespace QuotaWatch

/-- How a segment is painted. -/
inductive Paint where
  | plain
  | bold
  | dim
  | red
  | yellow
  | green
  deriving DecidableEq, Repr

/-- An escape sequence that sets how text is shown. -/
def escapeSequence (code : String) : List Char := '\x1b' :: '[' :: code.toList ++ ['m']

/-- The escape sequences around a painted segment. -/
def Paint.marks : Paint → List Char × List Char
  | .plain => ([], [])
  | .bold => (escapeSequence "1", escapeSequence "0")
  | .dim => (escapeSequence "2", escapeSequence "0")
  | .red => (escapeSequence "38;5;9", escapeSequence "39")
  | .yellow => (escapeSequence "38;5;11", escapeSequence "39")
  | .green => (escapeSequence "38;5;10", escapeSequence "39")

/-- A segment in a paint. Nothing is put around an empty segment. -/
def Paint.apply (p : Paint) (segment : List Char) : List Char :=
  if segment.isEmpty then [] else p.marks.1 ++ segment ++ p.marks.2

structure Segment where
  paint : Paint
  text : List Char
  deriving DecidableEq, Repr

def Segment.plain (s : String) : Segment := ⟨.plain, s.toList⟩

/-- A segment as it is written, with or without colour. -/
def Segment.written (colour : Bool) (s : Segment) : List Char :=
  if colour then s.paint.apply s.text else s.text

def writtenLine (colour : Bool) (line : List Segment) : List Char :=
  line.flatMap (·.written colour)

/-- Columns that a line takes: the sum over its segments. -/
def lineColumns (measure : List Char → Nat) (line : List Segment) : Nat :=
  line.foldr (fun s n => measure s.text + n) 0

end QuotaWatch
