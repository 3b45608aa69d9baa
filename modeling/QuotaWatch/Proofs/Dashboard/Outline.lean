import QuotaWatch.Dashboard.Frame
import QuotaWatch.Proofs.Text.Grouped
import QuotaWatch.Proofs.Text.Padded

/-!
# What stands in a frame

`Renderer.lines` draws `Renderer.outline`, so what holds of every line of the outline holds of a
frame, and what holds of every drawn line as well.

What a frame shows on its own account are printable characters (`Text.Printable`). A control
character can only come into it with a string that it is given (`Renderer.Free`), and then it stands
in the content of a line (`Free.segments`).
-/

namespace QuotaWatch

open Time

/-! ## Printable text -/

namespace Text

/-- A text without control characters. -/
def Printable (cs : List Char) : Prop := ∀ c ∈ cs, 0x20 ≤ c.toNat

instance (cs : List Char) : Decidable (Printable cs) := List.decidableBAll _ cs

/-- A printable text of ASCII. -/
def Ascii (cs : List Char) : Prop := ∀ c ∈ cs, 0x20 ≤ c.toNat ∧ c.toNat < 0x80

instance (cs : List Char) : Decidable (Ascii cs) := List.decidableBAll _ cs

theorem Ascii.printable {cs : List Char} (h : Ascii cs) : Printable cs := fun c hc => (h c hc).1

@[simp]
theorem printable_append {a b : List Char} : Printable (a ++ b) ↔ Printable a ∧ Printable b := by
  simp only [Printable, List.mem_append, or_imp, forall_and]

@[simp]
theorem printable_cons {c : Char} {cs : List Char} :
    Printable (c :: cs) ↔ 0x20 ≤ c.toNat ∧ Printable cs := by
  simp only [Printable, List.mem_cons, forall_eq_or_imp]

/-- A control character is not in printable text. This is how the characters of a frame's own texts
are told from those of the strings that it is given. -/
theorem Printable.notMem {cs : List Char} (h : Printable cs) {c : Char} (hc : c.toNat < 0x20) :
    c ∉ cs :=
  fun hmem => absurd (h c hmem) (by omega)

theorem printable_replicate {c : Char} (h : 0x20 ≤ c.toNat) (n : Nat) :
    Printable (List.replicate n c) := by
  intro x hx
  rwa [List.eq_of_mem_replicate hx]

theorem printable_of_digits {cs : List Char} (h : ∀ c ∈ cs, isDigit c = true) : Printable cs :=
  fun c hc => Nat.le_trans (by decide) (bounds_of_isDigit (h c hc)).1

theorem printable_padded (width n : Nat) : Printable (padded width n) :=
  printable_of_digits fun _ => isDigit_of_mem_padded

/-- A number with separators is printable, since it has only digits and commas. -/
theorem printable_grouped (n : Nat) : Printable (grouped n) := by
  intro c hc
  rcases mem_groupDigits hc with rfl | hc
  · decide
  · exact printable_of_digits (fun _ => isDigit_of_mem_decimal) c hc

end Text

open Text

/-- A number with one place is spelled in ASCII, also when it is no finite number: then it is a
word. -/
theorem Decimal.ascii_onePlace (x : Float) : Ascii (Decimal.onePlace x) := by
  have hplaces (n : Nat) : Ascii (Decimal.placesText 1 n) := by
    intro c hc
    have hdigit (h : c ∈ padded (1 + 1) n) : 0x20 ≤ c.toNat ∧ c.toNat < 0x80 := by
      have := bounds_of_isDigit (isDigit_of_mem_padded h)
      omega
    simp only [Decimal.placesText, List.mem_append, List.mem_cons] at hc
    rcases hc with hc | rfl | hc
    · exact hdigit (List.mem_of_mem_take hc)
    · decide
    · exact hdigit (List.mem_of_mem_drop hc)
  -- a number has digits and a point, perhaps a sign; the rest are words
  unfold Decimal.onePlace
  split
  · dsimp only
    split
    · exact List.forall_mem_cons.mpr ⟨by decide, hplaces _⟩
    · exact hplaces _
  · split
    · decide
    · split <;> decide

/-- What a clock shows is printable in every zone, also where the offset is more than a day. -/
theorem Time.LocalTime.printable_clockFace (t : LocalTime) : Printable t.clockFace.toList := by
  have hyear : Printable (Time.yearText t.date.year) := by
    unfold Time.yearText
    split
    · exact printable_padded _ _
    · refine printable_cons.mpr ⟨?_, printable_padded _ _⟩
      split <;> decide
  have hpadded := printable_padded
  simp [LocalTime.clockFace, Date.text, clockText, hyear, hpadded]

namespace Renderer

/-! ## Lines of the box -/

namespace BoxLine

/-- What a line shows between its borders as bare text. -/
def content (title : String) (part : BoxLine) : List Char :=
  (part.segments title).flatMap (·.text)

/-- A character stands nowhere in what a line shows. -/
def Lacks (c : Char) (title : String) (part : BoxLine) : Prop :=
  ∀ segment ∈ part.segments title, c ∉ segment.text

/-- Borders and fill are printable, whatever stands between them. -/
theorem printable_borders (part : BoxLine) :
    Printable [part.left, part.right, part.fill] := by
  cases part with
  | title => decide
  | row line => exact (by decide : Printable ['║', '║', ' '])
  | divider => decide
  | bottom => decide

end BoxLine

variable {r : Renderer} {snapshot : Snapshot} {status : Status} {now : LocalTime} {c : Char}

/-! ## Strings that are given -/

/-- No string that a frame is given to show holds a character. -/
structure Free (c : Char) (r : Renderer) (snapshot : Snapshot) (status : Status) : Prop where
  title : c ∉ r.title.toList
  identity : ∀ record ∈ snapshot.records, c ∉ record.identity.toList
  units : ∀ record ∈ snapshot.records, c ∉ record.units.toList
  source : c ∉ snapshot.source.toList
  recommendation : c ∉ status.recommendation.toList
  reasoning : c ∉ status.reasoning.toList

/-- A limit or a count is printable, known or not. -/
theorem printable_countText (count : Option UInt64) : Printable (countText count) := by
  cases count with
  | none => decide
  | some n => exact printable_grouped _

/-- What is written behind a bar is ASCII. So it has neither of the two characters that a bar
consists of. -/
theorem ascii_percentText (percent : Option Float) : Ascii (percentText percent) := by
  have hused : Ascii "% used".toList := by decide
  cases percent with
  | none => decide
  | some p => exact List.forall_mem_append.mpr ⟨Decimal.ascii_onePlace p, hused⟩

/-- A bar is printable, its cells and what is written around it. -/
theorem printable_progress (r : Renderer) (record : QuotaRecord) :
    ∀ segment ∈ r.progress record, Printable segment.text := by
  have hbar : Printable (List.replicate (r.filled record) '█') := printable_replicate (by decide) _
  have hrest : Printable (List.replicate (r.barWidth - r.filled record) '░') :=
    printable_replicate (by decide) _
  have hpercent : Printable (percentText record.percentUsed) := (ascii_percentText _).printable
  simp only [progress, List.forall_mem_cons]
  exact ⟨by decide, hbar, hrest, by decide, hpercent, List.forall_mem_nil _⟩

/-- The lines of a record hold no control character but one of its name or its units. The other
texts are the program's own. -/
theorem Free.recordOutline (h : Free c r snapshot status) (hc : c.toNat < 0x20)
    {record : QuotaRecord} (hrecord : record ∈ snapshot.records) :
    ∀ part ∈ r.recordOutline record, part.Lacks c r.title := by
  have hlabel {cs : List Char} (hcs : Printable cs) : c ∉ cs := hcs.notMem hc
  -- the units are the text of the blob, everything else is printable
  have hquota :
      c ∉ " / Quota: ".toList ++ countText record.limit ++ ' ' :: record.units.toList := by
    simp only [List.mem_append, List.mem_cons, not_or]
    exact ⟨⟨hlabel (by decide), hlabel (printable_countText _)⟩, fun heq => by simp [heq] at hc,
      h.units record hrecord⟩
  simp only [Renderer.recordOutline, List.forall_mem_cons, BoxLine.Lacks, BoxLine.segments]
  exact ⟨⟨hlabel (by decide), h.identity record hrecord, List.forall_mem_nil _⟩,
    ⟨hlabel (by decide), hlabel (printable_countText _), hquota, List.forall_mem_nil _⟩,
    fun segment hsegment => hlabel (printable_progress r record segment hsegment),
    List.forall_mem_nil _, List.forall_mem_nil _⟩

/-- The lines of all records, and the two lines that stand there if there are none. -/
theorem Free.recordsOutline (h : Free c r snapshot status) (hc : c.toNat < 0x20) :
    ∀ part ∈ r.recordsOutline snapshot.records, part.Lacks c r.title := by
  unfold Renderer.recordsOutline
  split
  · simp only [List.forall_mem_cons, BoxLine.Lacks, BoxLine.segments]
    exact ⟨⟨Printable.notMem (by decide) hc, List.forall_mem_nil _⟩, List.forall_mem_nil _,
      List.forall_mem_nil _⟩
  · intro part hpart
    obtain ⟨record, hrecord, hpart⟩ := List.mem_flatMap.mp hpart
    exact h.recordOutline hc hrecord part hpart

/-- The lines of the status hold no control character but one of the recommendation or the
reasoning. -/
theorem Free.statusOutline (h : Free c r snapshot status) (hc : c.toNat < 0x20) :
    ∀ part ∈ statusOutline status, part.Lacks c r.title := by
  have hlabel {cs : List Char} (hcs : Printable cs) : c ∉ cs := hcs.notMem hc
  have htier : Printable status.tier.label.toList := by cases status.tier <;> decide
  have hquota : Printable ("  (high-tier quota ".toList
      ++ Text.grouped status.highQuota.toNat ++ [')']) := by
    simp only [printable_append]
    exact ⟨⟨by decide, printable_grouped _⟩, by decide⟩
  have hrecommendation : c ∉ " Recommendation: ".toList ++ status.recommendation.toList :=
    fun hmem => (List.mem_append.mp hmem).elim (hlabel (by decide)) h.recommendation
  simp only [Renderer.statusOutline, List.forall_mem_cons, BoxLine.Lacks, BoxLine.segments,
    List.forall_mem_append]
  refine ⟨⟨⟨hlabel (by decide), hlabel htier, List.forall_mem_nil _⟩, ?_⟩,
    ⟨hrecommendation, List.forall_mem_nil _⟩,
    ⟨hlabel (by decide), h.reasoning, List.forall_mem_nil _⟩, List.forall_mem_nil _⟩
  -- the quota is shown for a known tier only
  split
  · exact List.forall_mem_nil _
  · exact List.forall_mem_singleton.mpr (hlabel hquota)

/-- The last two lines hold no control character but one of the source. The clock is printable in
every zone. -/
theorem Free.footerOutline (h : Free c r snapshot status) (hc : c.toNat < 0x20) :
    ∀ part ∈ footerOutline snapshot.source now, part.Lacks c r.title := by
  have hlabel {cs : List Char} (hcs : Printable cs) : c ∉ cs := hcs.notMem hc
  have hupdated : Printable (" Last Updated: ".toList ++ now.clockFace.toList) :=
    printable_append.mpr ⟨by decide, now.printable_clockFace⟩
  simp only [Renderer.footerOutline, List.forall_mem_cons, BoxLine.Lacks, BoxLine.segments]
  exact ⟨⟨hlabel hupdated, List.forall_mem_nil _⟩,
    ⟨hlabel (by decide), h.source, List.forall_mem_nil _⟩, List.forall_mem_nil _⟩

/-- **A control character stands in no line when it is in none of the strings.** This is used for
the escape character, and for the line break, which would make two lines of one. -/
theorem Free.segments (h : Free c r snapshot status) (hc : c.toNat < 0x20) :
    ∀ part ∈ r.outline snapshot status now, part.Lacks c r.title := by
  have htitle : BoxLine.title.Lacks c r.title := by
    have hblank : c ≠ ' ' := fun heq => by simp [heq] at hc
    simp [BoxLine.Lacks, BoxLine.segments, hblank, h.title]
  have hhead : ∀ part ∈ [BoxLine.title, .row []], part.Lacks c r.title :=
    List.forall_mem_cons.mpr ⟨htitle, List.forall_mem_singleton.mpr (List.forall_mem_nil _)⟩
  -- a rule has no segments
  have hdivider : ∀ part ∈ [BoxLine.divider], part.Lacks c r.title :=
    List.forall_mem_singleton.mpr (List.forall_mem_nil _)
  have hbottom : ∀ part ∈ [BoxLine.bottom], part.Lacks c r.title :=
    List.forall_mem_singleton.mpr (List.forall_mem_nil _)
  simp only [outline, List.forall_mem_append]
  exact ⟨⟨⟨⟨⟨⟨hhead, h.recordsOutline hc⟩, hdivider⟩, h.statusOutline hc⟩, hdivider⟩,
    h.footerOutline hc⟩, hbottom⟩

/-- A line that is drawn without colour holds nothing but its content, its borders and its fill. -/
theorem notMem_draw {part : BoxLine} (hcolour : r.colour = false) (h : part.Lacks c r.title)
    (hc : c.toNat < 0x20) : c ∉ r.draw part := by
  have hborders := part.printable_borders.notMem hc
  have hcontent : c ∉ writtenLine false (part.segments r.title) := by
    simpa [writtenLine, Segment.written, BoxLine.Lacks] using h
  simp only [List.mem_cons, List.not_mem_nil, or_false, not_or] at hborders
  simp [draw, BoxLine.boxed, hcolour, hcontent, hborders]

/-- Lines put together hold no other characters than the lines do, line breaks apart. -/
theorem notMem_joinLines {lines : List (List Char)} (hc : c ≠ '\n')
    (h : ∀ line ∈ lines, c ∉ line) : c ∉ joinLines lines := by
  induction lines with
  | nil => exact List.not_mem_nil
  | cons line lines ih =>
    obtain ⟨hline, hlines⟩ := List.forall_mem_cons.mp h
    cases lines with
    | nil => exact hline
    | cons next lines => simp [joinLines, hline, hc, ih hlines]

end Renderer

end QuotaWatch
