import Mathlib.Data.List.Forall2
import QuotaWatch.Proofs.Dashboard.Outline

/-!
# The shape of a frame

How many lines a frame without colour has, how wide each of them is, and what its progress bars
look like (`frame_shape`), at every width. Columns are counted with a measure that adds up
(`Additive`).

The crux is one law of width for all kinds of lines (`measure_draw`): the fill takes exactly the
columns that the content leaves, and none if the content takes more than there are.
-/

namespace QuotaWatch

/-! ## Measures that add up -/

/-- A measure of text that adds up, and takes a column for a blank and for every character of the
box. -/
structure Additive (measure : List Char → Nat) : Prop where
  append (a b : List Char) : measure (a ++ b) = measure a + measure b
  single : ∀ c ∈ " ╔╗╚╝═║╠╣".toList, measure [c] = 1

namespace Additive

variable {measure : List Char → Nat}

/-- Nothing takes no columns: a text with nothing behind it would take more than itself. -/
theorem nil (h : Additive measure) : measure [] = 0 := by
  have := h.append [] []
  simp only [List.append_nil] at this
  omega

/-- A run of characters of one column is as wide as it is long. -/
theorem replicate (h : Additive measure) {c : Char} (hc : measure [c] = 1) (n : Nat) :
    measure (List.replicate n c) = n := by
  induction n with
  | zero => exact h.nil
  | succ n ih => rw [List.replicate_succ', h.append, ih, hc]

/-- The columns of a line are those of its segments put together. The code measures the segments one
by one and adds up. -/
theorem lineColumns_eq (h : Additive measure) (line : List Segment) :
    lineColumns measure line = measure (line.flatMap (·.text)) := by
  induction line with
  | nil => exact h.nil.symm
  | cons s line ih => rw [List.flatMap_cons, h.append, ← ih]; rfl

end Additive

namespace Renderer

variable {r : Renderer} {snapshot : Snapshot} {status : Status} {now : Time.LocalTime}

/-! ## The width of a line -/

/-- The borders of a line and its fill take one column each, whichever kind of line it is. -/
theorem BoxLine.measure_borders {measure : List Char → Nat} (h : Additive measure)
    (part : BoxLine) :
    measure [part.left] = 1 ∧ measure [part.right] = 1 ∧ measure [part.fill] = 1 := by
  cases part <;> exact ⟨h.single _ (by simp [BoxLine.left]), h.single _ (by simp [BoxLine.right]),
    h.single _ (by simp [BoxLine.fill])⟩

/-- The room of a line is what its content leaves of the inner width. The title counts two blanks
more than its text, and these belong to its content. -/
theorem room_eq (h : Additive r.measure) (part : BoxLine) :
    r.room part = r.innerWidth - r.measure (part.content r.title) := by
  cases part with
  -- the title has a blank on either side
  | title =>
    have hblank : r.measure [' '] = 1 := h.single _ (by simp)
    have hcontent : r.measure (BoxLine.content r.title .title)
        = r.measure r.title.toList + 2 := by
      have hsplit : BoxLine.content r.title .title = [' '] ++ r.title.toList ++ [' '] := by
        simp [BoxLine.content, BoxLine.segments]
      rw [hsplit, h.append, h.append, hblank]
      omega
    rw [hcontent]
    rfl
  | row | divider | bottom => exact congrArg (r.innerWidth - ·) (h.lineColumns_eq _)

/-- Without colour a line shows its content between its borders, nothing cut off. -/
theorem draw_of_plain (hcolour : r.colour = false) (part : BoxLine) :
    r.draw part = part.boxed (r.lead part) (part.content r.title) (r.trail part) := by
  rw [draw, hcolour]
  rfl

/-- **The width of a line**, whatever is drawn on it. The fill takes the room, and room is cut off
at zero, so a content that does not fit makes the line wider than the box. -/
theorem measure_draw (h : Additive r.measure) (hcolour : r.colour = false) (part : BoxLine) :
    r.measure (r.draw part) = 2 + max r.innerWidth (r.measure (part.content r.title)) := by
  obtain ⟨hleft, hright, hfill⟩ := BoxLine.measure_borders h part
  -- what goes in front of the content is a part of the room, and the rest goes behind it
  have hlead : r.lead part ≤ r.room part := by
    cases part with
    | title => exact Nat.div_le_self _ _
    | row | divider | bottom => exact Nat.zero_le _
  have hroom := room_eq h part
  have hsplit : r.draw part = [part.left] ++ (List.replicate (r.lead part) part.fill
      ++ part.content r.title ++ List.replicate (r.trail part) part.fill) ++ [part.right] :=
    draw_of_plain hcolour part
  rw [hsplit]
  simp only [h.append, hleft, hright, h.replicate hfill, trail]
  omega

/-! ## The lines of a frame -/

/-- Four lines for each record, or two lines that say that there is none. -/
theorem length_recordsOutline (records : List QuotaRecord) :
    (r.recordsOutline records).length = if records = [] then 2 else 4 * records.length := by
  have hrecord (record : QuotaRecord) : (r.recordOutline record).length = 4 := rfl
  unfold recordsOutline
  by_cases hrecords : records = []
  · simp [hrecords]
  · simp [hrecords, List.length_flatMap, hrecord, Nat.mul_comm]

/-- How many lines a frame has is a matter of its records alone: the other ten are always there. -/
theorem length_lines : (r.lines snapshot status now).length
    = if snapshot.records = [] then 12 else 10 + 4 * snapshot.records.length := by
  rw [lines, List.length_map]
  simp only [outline, List.length_append, length_recordsOutline]
  have hstatus : (statusOutline status).length = 3 := rfl
  have hfooter : (footerOutline snapshot.source now).length = 2 := rfl
  rw [hstatus, hfooter]
  split
  · rfl
  · simp only [List.length_cons, List.length_nil]
    omega

/-- The lines of the records one behind the other are found by counting in fours. -/
theorem getElem?_flatMap_recordOutline (records : List QuotaRecord) (i j : Nat) (hj : j < 4) :
    (records.flatMap r.recordOutline)[4 * i + j]?
      = records[i]?.bind fun record => (r.recordOutline record)[j]? := by
  induction records generalizing i with
  | nil => simp
  | cons record records ih =>
    have hlength : (r.recordOutline record).length = 4 := rfl
    rw [List.flatMap_cons]
    cases i with
    | zero =>
      rw [List.getElem?_append_left (by omega)]
      simp
    | succ i =>
      rw [List.getElem?_append_right (by omega), hlength, List.getElem?_cons_succ, ← ih i]
      congr 1
      omega

/-- The lines of a record stand behind those of the records before it, and two lines stand in front
of all of them. -/
theorem getElem?_outline {i : Nat} {record : QuotaRecord}
    (hrecord : snapshot.records[i]? = some record) {j : Nat} (hj : j < 4) :
    (r.outline snapshot status now)[2 + (4 * i + j)]? = (r.recordOutline record)[j]? := by
  have hi : i < snapshot.records.length := (List.getElem?_eq_some_iff.mp hrecord).1
  have hnonempty : snapshot.records ≠ [] := List.ne_nil_of_length_pos (by omega)
  -- with records there is no line that says there are none
  have hblock : r.recordsOutline snapshot.records = snapshot.records.flatMap r.recordOutline := by
    simp [recordsOutline, hnonempty]
  have hlength : (snapshot.records.flatMap r.recordOutline).length
      = 4 * snapshot.records.length := by
    rw [← hblock, length_recordsOutline, if_neg hnonempty]
  simp only [outline, hblock, List.append_assoc]
  rw [List.getElem?_append_right (by simp), List.getElem?_append_left, List.length_cons]
  · rw [show 2 + (4 * i + j) - ([BoxLine.row []].length + 1) = 4 * i + j by simp,
      getElem?_flatMap_recordOutline _ _ _ hj, hrecord]
    rfl
  · rw [hlength]
    simp
    omega

/-! ## The bar of a record -/

/-- There are never more filled cells than the bar has, also where more than everything is used up.
-/
theorem filled_le (r : Renderer) (record : QuotaRecord) : r.filled record ≤ r.barWidth := by
  unfold filled
  cases record.percentUsed with
  | none => exact Nat.zero_le _
  | some p => exact filledCells_le p _

/-- A bar as it is drawn: filled cells, then the others, and together as many as the bar is to have.
-/
theorem draw_progress (hcolour : r.colour = false) (record : QuotaRecord) :
    r.draw (.row (r.progress record)) = '║' :: "   Progress:  [".toList
      ++ (List.replicate (r.filled record) '█'
        ++ List.replicate (r.barWidth - r.filled record) '░')
      ++ "] ".toList ++ percentText record.percentUsed
      ++ List.replicate (r.trail (.row (r.progress record))) ' ' ++ ['║'] := by
  have hcontent : BoxLine.content r.title (.row (r.progress record))
      = "   Progress:  [".toList ++ (List.replicate (r.filled record) '█'
        ++ (List.replicate (r.barWidth - r.filled record) '░'
          ++ ("] ".toList ++ (percentText record.percentUsed ++ [])))) := rfl
  rw [draw_of_plain hcolour, hcontent]
  simp only [BoxLine.boxed, BoxLine.left, BoxLine.right, BoxLine.fill, lead, List.replicate_zero,
    List.nil_append, List.append_nil, List.append_assoc, List.cons_append]

/-! ## Frames -/

/-- Putting lines together is what the library calls `intercalate`, whose lemmas take them apart
again. -/
theorem joinLines_eq_intercalate (lines : List (List Char)) :
    joinLines lines = ['\n'].intercalate lines := by
  induction lines with
  | nil => rfl
  | cons line lines ih =>
    -- no line end behind the last line
    cases lines with
    | nil => simp [joinLines, List.intercalate]
    | cons next lines =>
      have hjoin : joinLines (line :: next :: lines)
          = line ++ '\n' :: joinLines (next :: lines) := rfl
      rw [hjoin, ih]
      simp [List.intercalate]

/-- **The shape of a frame.** A frame without colour is its lines, of which there are four for each
record; every line shows its whole content between its borders, and is as wide as the box, or as
its content where that does not fit; every bar has its filled cells first, and all the cells there
are to be. -/
theorem frame_shape (hmeasure : Additive r.measure) (hcolour : r.colour = false)
    (hfree : Free '\n' r snapshot status) (now : Time.LocalTime) :
    (r.frame snapshot status now).toList.splitOn '\n' = r.lines snapshot status now
      ∧ (r.lines snapshot status now).length
        = (if snapshot.records = [] then 12 else 10 + 4 * snapshot.records.length)
      ∧ List.Forall₂
          (fun part line =>
            (∃ lead trail, line = part.boxed lead (part.content r.title) trail)
              ∧ r.measure line = 2 + max (r.width - 2) (r.measure (part.content r.title)))
          (r.outline snapshot status now) (r.lines snapshot status now)
      ∧ ((∀ part ∈ r.outline snapshot status now,
            r.measure (part.content r.title) ≤ r.width - 2) →
          ∀ line ∈ r.lines snapshot status now, r.measure line = max r.width 2)
      ∧ (∀ record : QuotaRecord, r.filled record ≤ r.barWidth)
      ∧ ∀ i record, snapshot.records[i]? = some record →
          ∃ text trail, '█' ∉ text ∧ '░' ∉ text
            ∧ (r.lines snapshot status now)[4 * i + 4]?
              = some ('║' :: "   Progress:  [".toList
                ++ (List.replicate (r.filled record) '█'
                  ++ List.replicate (r.barWidth - r.filled record) '░')
                ++ "] ".toList ++ text ++ List.replicate trail ' ' ++ ['║']) := by
  have hlines : r.lines snapshot status now = (r.outline snapshot status now).map r.draw := rfl
  have hwidth (part : BoxLine) := measure_draw hmeasure hcolour part
  refine ⟨?_, length_lines, ?_, ?_, ?_, ?_⟩
  · -- no line has a line break in it, so the frame is split where lines were put together
    have hbreak : ∀ line ∈ r.lines snapshot status now, '\n' ∉ line := by
      rw [hlines]
      exact List.forall_mem_map.mpr fun part hpart =>
        notMem_draw hcolour (hfree.segments (by decide) part hpart) (by decide)
    have hnonempty : r.lines snapshot status now ≠ [] := by simp [lines, outline]
    rw [frame, String.toList_ofList, joinLines_eq_intercalate,
      List.splitOn_intercalate _ hbreak hnonempty]
  · rw [hlines, List.forall₂_map_right_iff, List.forall₂_same]
    exact fun part _ => ⟨⟨_, _, draw_of_plain hcolour part⟩, hwidth part⟩
  · intro hfits line hline
    rw [hlines] at hline
    obtain ⟨part, hpart, rfl⟩ := List.mem_map.mp hline
    have hfit := hfits part hpart
    rw [hwidth, innerWidth]
    omega
  · exact filled_le r
  · intro i record hrecord
    have hnot {c : Char} (hc : 0x80 ≤ c.toNat) : c ∉ percentText record.percentUsed :=
      fun hmem => absurd (ascii_percentText _ c hmem).2 (by omega)
    refine ⟨percentText record.percentUsed, r.trail (.row (r.progress record)), hnot (by decide),
      hnot (by decide), ?_⟩
    rw [hlines, List.getElem?_map, show 4 * i + 4 = 2 + (4 * i + 2) by omega,
      getElem?_outline hrecord (by decide)]
    exact congrArg some (draw_progress hcolour record)

/-- Columns of a text in which no characters are drawn as one. -/
def separateColumns (cs : List Char) : Nat := (cs.map fun c => Text.charColumns c.toNat).sum

theorem additive_separateColumns : Additive separateColumns where
  append a b := by simp [separateColumns]
  single c hc := by
    have hall : " ╔╗╚╝═║╠╣".toList.all (fun c => separateColumns [c] == 1) = true := by
      decide +kernel
    exact eq_of_beq (List.all_eq_true.mp hall c hc)

/-- A box too narrow for its own borders. -/
def narrow : Renderer :=
  { width := 1, barWidth := 3, colour := false, title := "Gauge", measure := separateColumns }

def oneRecord : Snapshot :=
  { timestamp := default, records := [⟨"Model", none, some 1200, "credits"⟩],
    source := "state.db" }

/-- The title of a narrow box is shown whole, and so is the bar of a record. The box is one column
wide here, which is less than its own borders take. -/
theorem frame_shape_narrow :
    Additive narrow.measure ∧ narrow.colour = false
      ∧ Free '\n' narrow oneRecord (Status.unknown "no quota" default)
      ∧ (narrow.lines oneRecord (Status.unknown "no quota" default) default).length = 14
      ∧ (narrow.frame oneRecord (Status.unknown "no quota" default) default).toList.splitOn '\n'
        = narrow.lines oneRecord (Status.unknown "no quota" default) default := by
  have hfree : Free '\n' narrow oneRecord (Status.unknown "no quota" default) := by
    constructor <;> decide
  obtain ⟨hsplit, hlength, -⟩ := frame_shape additive_separateColumns rfl hfree default
  exact ⟨additive_separateColumns, rfl, hfree, hlength, hsplit⟩

end Renderer

end QuotaWatch
