/-!
# The screen

A `Screen` keeps what it was asked to show. Drawing a frame may fail; the frame counts as asked for
all the same.
-/

namespace QuotaWatch

/-- Something to show. -/
inductive Shown where
  | frame (text : String)
  | report (text : String)
  deriving DecidableEq, Repr

def Shown.frame? : Shown → Option String
  | .frame text => some text
  | .report _ => none

def Shown.report? : Shown → Option String
  | .frame _ => none
  | .report text => some text

structure Screen where
  /-- What it was asked to show, in order. -/
  history : List Shown
  /-- Whether it manages to draw the frame with a given number. -/
  draws : Nat → Bool

instance : Inhabited Screen := ⟨⟨[], fun _ => true⟩⟩

namespace Screen

/-- The frames in order. -/
def frames (s : Screen) : List String := s.history.filterMap Shown.frame?

/-- The reports in order. -/
def reports (s : Screen) : List String := s.history.filterMap Shown.report?

/-- Draws a frame, and tells whether that worked. -/
def draw (s : Screen) (text : String) : Bool × Screen :=
  (s.draws s.frames.length, { s with history := s.history ++ [.frame text] })

def report (s : Screen) (text : String) : Screen :=
  { s with history := s.history ++ [.report text] }

end Screen

end QuotaWatch
