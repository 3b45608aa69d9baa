import QuotaWatch.Dashboard.Line
import QuotaWatch.Decimal.Binary
import QuotaWatch.Quota.Status
import QuotaWatch.Text.Width
import QuotaWatch.Time.Stamp

/-!
# The dashboard

`Renderer.frame` draws a snapshot and its status as a box: a title, a block for each record, the
status, and where and when the snapshot was read. `Renderer.outline` says line by line what stands
in the box, and neither colour nor width has a part in it; `Renderer.draw` draws one line. Every row
is padded to the width of the box; longer content is never cut.
-/

namespace QuotaWatch

open Time

/-! ## Progress bars -/

/-- Filled cells of a bar, rounded down. What is not a finite number fills none. -/
def filledCells (percent : Float) (width : Nat) : Nat :=
  if percent.isFinite then
    let ratio := clampPercent percent / 100.0
    min (ratio * (UInt64.ofNat width).toFloat).floor.toUInt64.toNat width
  else 0

theorem filledCells_le (percent : Float) (width : Nat) : filledCells percent width ≤ width := by
  unfold filledCells
  split
  · exact Nat.min_le_right _ _
  · exact Nat.zero_le _

/-- How alarming a percentage is. -/
inductive BarLevel where
  | normal
  /-- More than 60 percent. -/
  | caution
  /-- More than 80 percent. -/
  | warning
  deriving DecidableEq, Repr

def BarLevel.ofPercent (percent : Float) : BarLevel :=
  if 80.0 < percent then .warning else if 60.0 < percent then .caution else .normal

/-! ## Renderers -/

/-- How frames are drawn. -/
structure Renderer where
  /-- Columns of the box, borders included. -/
  width : Nat
  /-- Cells of a progress bar. -/
  barWidth : Nat
  colour : Bool
  title : String
  /-- Columns that a text takes. -/
  measure : List Char → Nat

/-- The dashboard of the program. -/
def Renderer.standard (colour : Bool) : Renderer :=
  { width := 70, barWidth := 20, colour, title := "Quota Gauge", measure := Text.columns }

namespace Renderer

/-! ## Lines of the box -/

/-- A line of the box. -/
inductive BoxLine where
  /-- The upper border with the title in it. -/
  | title
  | row (line : List Segment)
  /-- A rule between two parts. -/
  | divider
  /-- The lower border. -/
  | bottom

namespace BoxLine

/-- What a line shows between its borders, the fill left out. -/
def segments (title : String) : BoxLine → List Segment
  | .title => [⟨.bold, ' ' :: title.toList ++ [' ']⟩]
  | .row line => line
  | .divider => []
  | .bottom => []

/-- The left border of a line. -/
def left : BoxLine → Char
  | .title => '╔'
  | .row _ => '║'
  | .divider => '╠'
  | .bottom => '╚'

/-- The right border of a line. -/
def right : BoxLine → Char
  | .title => '╗'
  | .row _ => '║'
  | .divider => '╣'
  | .bottom => '╝'

/-- What takes up the columns that the content of a line leaves. -/
def fill : BoxLine → Char
  | .row _ => ' '
  | _ => '═'

/-- A text between the borders of a line, with fill on both sides. -/
def boxed (part : BoxLine) (lead : Nat) (text : List Char) (trail : Nat) : List Char :=
  part.left :: (List.replicate lead part.fill ++ text ++ List.replicate trail part.fill)
    ++ [part.right]

end BoxLine

/-- Columns between the borders. -/
def innerWidth (r : Renderer) : Nat := r.width - 2

/-- The columns that the content of a line leaves. The blanks around the title are counted apart
from it. -/
def room (r : Renderer) : BoxLine → Nat
  | .title => r.innerWidth - (r.measure r.title.toList + 2)
  | part => r.innerWidth - lineColumns r.measure (part.segments r.title)

/-- How many of the columns that are left stand in front of the content. The title is in the middle;
of two unequal sides the right one is longer. -/
def lead (r : Renderer) : BoxLine → Nat
  | .title => r.room .title / 2
  | _ => 0

/-- How many of the columns that are left stand behind the content. -/
def trail (r : Renderer) (part : BoxLine) : Nat := r.room part - r.lead part

/-- Draws a line of the box. -/
def draw (r : Renderer) (part : BoxLine) : List Char :=
  part.boxed (r.lead part) (writtenLine r.colour (part.segments r.title)) (r.trail part)

/-! ## Content -/

/-- A count with separators, or `unknown`. -/
def countText : Option UInt64 → List Char
  | some n => Text.grouped n.toNat
  | none => "unknown".toList

/-- The paint of the filled cells of a bar. -/
def barPaint : Option BarLevel → Paint
  | some .warning => .red
  | some .caution => .yellow
  | _ => .green

/-- How many cells of the bar of a record are filled. -/
def filled (r : Renderer) (record : QuotaRecord) : Nat :=
  (record.percentUsed.map fun p => filledCells p r.barWidth).getD 0

/-- What stands behind the bar of a record. -/
def percentText : Option Float → List Char
  | some p => Decimal.onePlace p ++ "% used".toList
  | none => "n/a".toList

/-- The progress bar of a record. -/
def progress (r : Renderer) (record : QuotaRecord) : List Segment :=
  [.plain "   Progress:  [",
   ⟨barPaint (record.percentUsed.map BarLevel.ofPercent), List.replicate (r.filled record) '█'⟩,
   ⟨.dim, List.replicate (r.barWidth - r.filled record) '░'⟩,
   .plain "] ",
   ⟨.plain, percentText record.percentUsed⟩]

/-- The lines of a record, and a blank one. -/
def recordOutline (r : Renderer) (record : QuotaRecord) : List BoxLine :=
  [.row [.plain " ", ⟨.bold, record.identity.toList⟩],
   .row [.plain "   Remaining: ", ⟨.green, countText record.remaining⟩,
     ⟨.plain, " / Quota: ".toList ++ countText record.limit ++ ' ' :: record.units.toList⟩],
   .row (r.progress record),
   .row []]

/-- The lines of all records, or of there being none. -/
def recordsOutline (r : Renderer) (records : List QuotaRecord) : List BoxLine :=
  if records.isEmpty then
    [.row [⟨.dim, " No recognized models found in the store".toList⟩], .row []]
  else records.flatMap r.recordOutline

def tierPaint : Tier → Paint
  | .green => .green
  | .yellow => .yellow
  | .red => .red
  | .unknown => .dim

def statusOutline (status : Status) : List BoxLine :=
  let quota : List Segment :=
    if status.tier = .unknown then []
    else
      [⟨.plain, "  (high-tier quota ".toList ++ Text.grouped status.highQuota.toNat ++ [')']⟩]
  [.row ([.plain " Status: ", ⟨tierPaint status.tier, status.tier.label.toList⟩] ++ quota),
   .row [⟨.bold, " Recommendation: ".toList ++ status.recommendation.toList⟩],
   .row [.plain " Reasoning: ", ⟨.dim, status.reasoning.toList⟩]]

/-- The lines that tell when and from where the snapshot was read. -/
def footerOutline (source : String) (now : LocalTime) : List BoxLine :=
  [.row [⟨.plain, " Last Updated: ".toList ++ now.clockFace.toList⟩],
   .row [.plain " Data Source: ", ⟨.dim, source.toList⟩]]

/-- What stands on the lines of a frame. -/
def outline (r : Renderer) (snapshot : Snapshot) (status : Status) (now : LocalTime) :
    List BoxLine :=
  [.title, .row []] ++ r.recordsOutline snapshot.records ++ [.divider] ++ statusOutline status
    ++ [.divider] ++ footerOutline snapshot.source now ++ [.bottom]

/-! ## Frames -/

/-- The lines of a frame: its outline, drawn. -/
def lines (r : Renderer) (snapshot : Snapshot) (status : Status) (now : LocalTime) :
    List (List Char) :=
  (r.outline snapshot status now).map r.draw

/-- Lines with line breaks in between. -/
def joinLines : List (List Char) → List Char
  | [] => []
  | [line] => line
  | line :: rest => line ++ '\n' :: joinLines rest

def frame (r : Renderer) (snapshot : Snapshot) (status : Status) (now : LocalTime) : String :=
  String.ofList (joinLines (r.lines snapshot status now))

end Renderer

end QuotaWatch
