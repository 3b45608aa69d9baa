import QuotaWatch.Proofs.Ledger.File
import QuotaWatch.Proofs.Ledger.Table

/-!
# A ledger whose last write was cut off

A write that is interrupted leaves a part of a ledger: some whole rows and a part of the next one,
or only a part of the header. Opening such a file leaves it as it is, and the next entry is written
right behind the part.

* **`foldl_read_cut_joinFields`**: a part of a row is read as some of its fields and a part of the
  next one.
* **`records_cut`**: a row behind it, if it was cut off outside quotes, makes one record with it.
* **`append_behind_cut`**: what the next entry does to the file, and what is read then. The whole
  rows are read as they were. The new entry is read only if the cut is at the end of a line.
-/

namespace QuotaWatch

/-! ## Rows that were cut off -/

namespace Csv

variable {records : List (List (List Char))} {fields : List (List Char)} {pending : List Char}
  {mode : Mode}

/-- Quoted text that was cut off leaves a part of itself pending. Where the cut is in the middle of
a doubled quote, the reader takes the first half for the closing one. -/
theorem foldl_read_cut_doubleQuotes (fields : List (List Char))
    (records : List (List (List Char))) (cs : List Char) :
    ∀ {torn : List Char} (pending : List Char), torn <+: doubleQuotes cs ++ ['"'] →
      ∃ mode part, part <+: cs ∧ torn.foldl State.read ⟨.quoted, pending, fields, records⟩
        = ⟨mode, part.reverse ++ pending, fields, records⟩ := by
  -- wherever the cut is, what was read of the field is pending
  induction cs with
  | nil =>
    intro torn pending h
    rcases List.prefix_cons_iff.mp h with rfl | ⟨rest, rfl, hrest⟩
    · exact ⟨.quoted, [], List.prefix_rfl, rfl⟩
    · rw [List.prefix_nil.mp hrest]
      exact ⟨.closing, [], List.prefix_rfl, by simp [State.read]⟩
  | cons c cs ih =>
    intro torn pending h
    by_cases hc : c = '"'
    · subst hc
      simp only [doubleQuotes, if_true, List.cons_append] at h
      rcases List.prefix_cons_iff.mp h with rfl | ⟨rest, rfl, hrest⟩
      · exact ⟨.quoted, [], List.nil_prefix, rfl⟩
      · rcases List.prefix_cons_iff.mp hrest with rfl | ⟨rest', rfl, hrest'⟩
        · -- between the halves of a doubled quote
          exact ⟨.closing, [], List.nil_prefix, by simp [State.read]⟩
        · obtain ⟨mode, part, hpart, hread⟩ := ih ( '"' :: pending) hrest'
          refine ⟨mode, '"' :: part, List.cons_prefix_cons.mpr ⟨rfl, hpart⟩, ?_⟩
          simp [State.read, hread]
    · simp only [doubleQuotes, hc, if_false, List.cons_append] at h
      rcases List.prefix_cons_iff.mp h with rfl | ⟨rest, rfl, hrest⟩
      · exact ⟨.quoted, [], List.nil_prefix, rfl⟩
      · obtain ⟨mode, part, hpart, hread⟩ := ih (c :: pending) hrest
        refine ⟨mode, c :: part, List.cons_prefix_cons.mpr ⟨rfl, hpart⟩, ?_⟩
        simp [State.read, hc, hread]

/-- A written field, cut off anywhere, leaves a part of itself pending. -/
theorem foldl_read_cut_field (fields : List (List Char)) (records : List (List (List Char)))
    {cs torn : List Char} (h : torn <+: field cs) :
    ∃ mode part, part <+: cs ∧ torn.foldl State.read ⟨.plain, [], fields, records⟩
      = ⟨mode, part.reverse, fields, records⟩ := by
  rw [field] at h
  split at h
  · rcases List.prefix_cons_iff.mp h with rfl | ⟨rest, rfl, hrest⟩
    · exact ⟨.plain, [], List.nil_prefix, rfl⟩
    · obtain ⟨mode, part, hpart, hread⟩ :=
        foldl_read_cut_doubleQuotes fields records cs [] hrest
      rw [List.append_nil] at hread
      exact ⟨mode, part, hpart, hread⟩
  next hplain =>
    refine ⟨.plain, torn, h, ?_⟩
    rw [foldl_read_plain torn, List.append_nil]
    intro c hc
    simpa using (List.any_eq_false.mp (by simpa using hplain)) c (h.mem hc)

/-- **A row that was cut off leaves whole fields and a part of the next one**, and no record. -/
theorem foldl_read_cut_joinFields (records : List (List (List Char))) :
    ∀ {row : List (List Char)} {torn : List Char} (fields : List (List Char)), row ≠ [] →
      torn <+: joinFields (row.map field) →
        ∃ mode j f part, row[j]? = some f ∧ part <+: f
          ∧ torn.foldl State.read ⟨.plain, [], fields, records⟩
            = ⟨mode, part.reverse, (row.take j).reverse ++ fields, records⟩
  | [f], torn, fields, _, h => by
    obtain ⟨mode, part, hpart, hread⟩ := foldl_read_cut_field fields records h
    exact ⟨mode, 0, f, part, rfl, hpart, by simpa using hread⟩
  | f :: g :: rest, torn, fields, _, h => by
    have hjoin : joinFields ((f :: g :: rest).map field)
        = (field f ++ [',']) ++ joinFields ((g :: rest).map field) := by simp [joinFields]
    rw [hjoin] at h
    -- the cut is in the first field, or behind its comma
    have hcut : torn <+: field f ∨ ∃ more, torn = (field f ++ [',']) ++ more
        ∧ more <+: joinFields ((g :: rest).map field) := by
      rcases List.prefix_or_prefix_of_prefix h (List.prefix_append _ _) with hfirst | ⟨more, rfl⟩
      · rcases List.prefix_concat_iff.mp hfirst with rfl | hin
        · exact .inr ⟨[], by simp, List.nil_prefix⟩
        · exact .inl hin
      · exact .inr ⟨more, rfl, (List.prefix_append_right_inj _).mp h⟩
    rcases hcut with hin | ⟨more, rfl, hmore⟩
    · obtain ⟨mode, part, hpart, hread⟩ := foldl_read_cut_field fields records hin
      exact ⟨mode, 0, f, part, rfl, hpart, by simpa using hread⟩
    · obtain ⟨mode, j, f', part, hj, hpart, hread⟩ :=
        foldl_read_cut_joinFields records (f :: fields) (by simp) hmore
      refine ⟨mode, j + 1, f', part, hj, hpart, ?_⟩
      rw [List.foldl_append, foldl_read_field_comma, hread]
      simp

/-! ## Rows behind them -/

/-- Behind a closing quote, and in front of something that is none, a reader goes on as if there had
been no quotes. -/
theorem foldl_read_of_head_ne (hmode : mode ≠ .quoted) {text : List Char} {c : Char}
    (hc : c ≠ '"') :
    (c :: text).foldl State.read ⟨mode, pending, fields, records⟩
      = (c :: text).foldl State.read ⟨.plain, pending, fields, records⟩ := by
  rw [List.foldl_cons, List.foldl_cons, read_of_ne_quoted (by exact hmode) hc,
    read_of_ne_quoted (by simp) hc]
  simp [State.readPlain, State.endField, State.endRecord]

/-- A written field is read onto what is pending. Behind a closing quote, an opening one counts as a
character. -/
theorem foldl_read_field_onto (hmode : mode ≠ .quoted) (pending : List Char)
    (fields : List (List Char)) (records : List (List (List Char))) (cs : List Char) :
    ∃ mode' glue, mode' ≠ .quoted ∧ (glue = [] ∨ glue = ['"']) ∧
      (field cs).foldl State.read ⟨mode, pending, fields, records⟩
        = ⟨mode', cs.reverse ++ (glue ++ pending), fields, records⟩ := by
  rw [field]
  split
  · rw [List.cons_append, List.foldl_cons, List.foldl_append]
    cases mode with
    | quoted => exact absurd rfl hmode
    | plain =>
      refine ⟨.closing, [], by decide, .inl rfl, ?_⟩
      simp [State.read, State.readPlain, foldl_read_doubleQuotes]
    -- a quote right behind a closing one is a quote in the field
    | closing =>
      refine ⟨.closing, ['"'], by decide, .inr rfl, ?_⟩
      simp [State.read, foldl_read_doubleQuotes]
  next hplain =>
    have hall : ∀ c ∈ cs, isSpecial c = false := by simpa using hplain
    cases cs with
    | nil => exact ⟨mode, [], hmode, .inl rfl, by simp⟩
    | cons c rest =>
      have hc : c ≠ '"' := by
        rintro rfl
        exact absurd (hall '"' List.mem_cons_self) (by decide)
      refine ⟨.plain, [], by decide, .inl rfl, ?_⟩
      rw [foldl_read_of_head_ne hmode hc, foldl_read_plain _ hall, List.nil_append]

/-- A row behind fields and a part of one, outside quotes, ends the record of these fields. The
part and the first field of the row run together. -/
theorem foldl_read_row_onto (hmode : mode ≠ .quoted) (records : List (List (List Char)))
    (done : List (List Char)) (part f : List Char) {rest : List (List Char)} (hne : rest ≠ []) :
    ∃ glue, (glue = [] ∨ glue = ['"']) ∧
      (row (f :: rest)).foldl State.read ⟨mode, part.reverse, done.reverse, records⟩
        = .between ((done ++ (part ++ glue ++ f) :: rest) :: records) := by
  obtain ⟨init, last, rfl⟩ : ∃ init last, rest = init ++ [last] :=
    ⟨_, _, (List.dropLast_concat_getLast hne).symm⟩
  obtain ⟨mode', glue, hmode', hglue, hfirst⟩ :=
    foldl_read_field_onto hmode part.reverse done.reverse records f
  obtain ⟨mode'', hmode'', hjoin⟩ :=
    foldl_read_joinFields records init last ((part ++ glue ++ f) :: done.reverse)
  refine ⟨glue, hglue, ?_⟩
  have hrow : row (f :: (init ++ [last]))
      = field f ++ ',' :: (joinFields ((init ++ [last]).map field) ++ ['\n']) := by
    cases init <;> simp [row, joinFields]
  -- the first comma ends the field that was glued together
  have hcomma : State.read ⟨mode', f.reverse ++ (glue ++ part.reverse), done.reverse, records⟩ ','
      = ⟨.plain, [], (part ++ glue ++ f) :: done.reverse, records⟩ := by
    rw [read_of_ne_quoted (by exact hmode') (by decide)]
    rcases hglue with rfl | rfl <;> simp [State.readPlain, State.endField]
  have hfields : init.reverse ++ (part ++ glue ++ f) :: done.reverse
      = (done ++ (part ++ glue ++ f) :: init).reverse := by simp
  -- a row of more than one field is no blank line
  have hblank : (done ++ (part ++ glue ++ f) :: init) ++ [last] ≠ [[]] := by
    intro heq
    have hlen := congrArg List.length heq
    simp only [List.length_append, List.length_cons, List.length_nil] at hlen
    omega
  rw [hrow, List.foldl_append, hfirst, List.foldl_cons, hcomma, List.foldl_append, hjoin,
    foldl_read_lineEnd (.inl rfl) hmode'', hfields, endRecord_concat hblank, List.append_assoc,
    List.cons_append]

/-- **A row behind a row that was cut off outside quotes makes one record with it.** It has the
whole fields that are left, then the part that is left and the first field of the row in one, and
then the other fields of the row. -/
theorem records_cut {rows : List (List (List Char))}
    (hrows : ∀ fields ∈ rows, fields ≠ [] ∧ fields ≠ [[]]) {cut rest : List (List Char)}
    {torn : List Char} (f : List Char) (hcut : cut ≠ []) (htorn : torn <+: row cut)
    (hne : torn ≠ row cut) (hquotes : torn.count '"' % 2 = 0) (hrest : rest ≠ []) :
    ∃ j next part glue, cut[j]? = some next ∧ part <+: next ∧ (glue = [] ∨ glue = ['"'])
      ∧ Csv.records (rows.flatMap row ++ torn ++ row (f :: rest))
        = rows ++ [cut.take j ++ (part ++ glue ++ f) :: rest] := by
  have hin : torn <+: joinFields (cut.map field) := by
    rcases List.prefix_concat_iff.mp htorn with heq | hin
    · exact absurd heq hne
    · exact hin
  obtain ⟨mode, j, next, part, hj, hpart, hread⟩ :=
    foldl_read_cut_joinFields [] [] hcut hin
  rw [List.append_nil] at hread
  -- an even number of quotes leaves the reader outside
  have hmode : mode ≠ .quoted := by
    have hparity := mode_foldl_read torn .start
    simp only [State.start, hread] at hparity
    simp [hparity, hquotes]
  obtain ⟨glue, hglue, hrow⟩ := foldl_read_row_onto hmode [] (cut.take j) part f hrest
  refine ⟨j, next, part, glue, hj, hpart, hglue, ?_⟩
  rw [List.append_assoc, records_rows_append hrows, Csv.records, List.foldl_append, State.start,
    hread, hrow, finish_between]
  rfl

end Csv

/-! ## What is read behind a cut -/

/-- The first line of a text, without its end. -/
def firstLine (text : String) : String := String.ofList (text.toList.takeWhile (· ≠ '\n'))

/-- What is read for an entry that was written behind whole fields and a part of a field. -/
def LogEntry.behind (whole : List (List Char)) (part : List Char) (e : LogEntry) : LogEntry :=
  .ofRecord ledgerColumns (whole ++ (part ++ e.timestamp.toList) :: e.fields.tail)

variable {kept torn text : String} {next e : LogEntry}

/-- A row of a ledger as the characters that are written. -/
theorem toList_row (e : LogEntry) : e.row.toList = Csv.row e.fields := by
  rw [LogEntry.row, String.toList_ofList]

/-- The first field of an entry is its time. It is the one that meets what was cut off. -/
theorem fields_eq_cons (e : LogEntry) : e.fields = e.timestamp.toList :: e.fields.tail := by
  rw [LogEntry.fields, List.tail_cons]

theorem fields_tail_ne_nil (e : LogEntry) : e.fields.tail ≠ [] := by simp [LogEntry.fields]

/-- **Whole rows are read as they were written**, whatever text follows them. -/
theorem prefix_readEntries (entries : List LogEntry)
    (h : (ledgerText entries).toList <+: text.toList) : entries <+: readEntries text := by
  obtain ⟨rest, hrest⟩ := h
  have hrecords := Csv.records_rows_append (ledger_rows_ne entries) rest
  rw [← toList_ledgerText, hrest] at hrecords
  rw [readEntries, hrecords, List.cons_append, entriesOfRecords, List.map_append,
    map_ofRecord_fields]
  exact List.prefix_append _ _

/-- **A row behind a part of a row is read as one entry with it**, if the cut is outside quotes. -/
theorem readEntries_behind_cut (entries : List LogEntry) (e : LogEntry)
    (htorn : torn.toList <+: next.row.toList) (hne : torn ≠ next.row)
    (hquotes : torn.toList.count '"' % 2 = 0) :
    ∃ j field part glue, next.fields[j]? = some field ∧ part <+: field
      ∧ (glue = [] ∨ glue = ['"'])
      ∧ readEntries (ledgerText entries ++ torn ++ e.row)
        = entries ++ [e.behind (next.fields.take j) (part ++ glue)] := by
  have hne' : torn.toList ≠ Csv.row next.fields :=
    fun heq => hne (String.toList_inj.mp (heq.trans (toList_row next).symm))
  rw [toList_row] at htorn
  obtain ⟨j, field, part, glue, hj, hpart, hglue, hrecords⟩ :=
    Csv.records_cut (ledger_rows_ne entries) e.timestamp.toList (by simp [LogEntry.fields]) htorn
      hne' hquotes (fields_tail_ne_nil e)
  refine ⟨j, field, part, glue, hj, hpart, hglue, ?_⟩
  rw [readEntries, String.toList_append, String.toList_append, toList_ledgerText, toList_row,
    fields_eq_cons e, hrecords, List.cons_append, entriesOfRecords, List.map_append,
    map_ofRecord_fields]
  rfl

/-! ### The header -/

/-- A row behind a part of the header makes one record with it, with at least nine fields. -/
theorem records_behind_header (e : LogEntry) (hkept : kept.toList <+: (ledgerText []).toList)
    (hne : kept ≠ ledgerText []) :
    ∃ j part, j < ledgerColumns.length
      ∧ Csv.records (kept ++ e.row).toList = [ledgerColumns.take j ++ part :: e.fields.tail] := by
  have hheader : (ledgerText []).toList = Csv.row ledgerColumns := by
    rw [ledgerText_nil, toList_header]
  have hne' : kept.toList ≠ Csv.row ledgerColumns :=
    fun heq => hne (String.toList_inj.mp (heq.trans hheader.symm))
  -- the header has no quotes, so neither has a part of it
  have hquotes : kept.toList.count '"' = 0 := by
    refine List.count_eq_zero.mpr fun hmem => ?_
    exact absurd (hkept.mem hmem) (by decide +kernel)
  rw [hheader] at hkept
  obtain ⟨j, next, part, glue, hj, _, _, hrecords⟩ :=
    Csv.records_cut (by simp : ∀ fields ∈ ([] : List (List (List Char))), _) e.timestamp.toList
      (by decide +kernel) hkept hne' (by omega) (fields_tail_ne_nil e)
  obtain ⟨hlt, _⟩ := List.getElem?_eq_some_iff.mp hj
  refine ⟨j, part ++ glue ++ e.timestamp.toList, hlt, ?_⟩
  rw [String.toList_append, toList_row, fields_eq_cons]
  simpa using hrecords

/-- A text with a line end begins with the header line if that is its first line. -/
theorem firstLine_eq_header_iff (hfeed : '\n' ∈ text.toList) :
    firstLine text = ledgerHeader ↔ (ledgerText []).toList <+: text.toList := by
  -- the first line ends at the first line end
  have htake : ∀ {line rest : List Char}, '\n' ∉ line →
      (line ++ '\n' :: rest).takeWhile (· ≠ '\n') = line := by
    intro line rest hline
    have hall : ∀ c ∈ line, decide (c ≠ '\n') = true := fun c hc =>
      decide_eq_true fun heq => hline (heq ▸ hc)
    rw [List.takeWhile_append_of_pos hall]
    simp
  have hheader : (ledgerText []).toList = ledgerHeader.toList ++ ['\n'] := by
    rw [ledgerText_nil, String.toList_append]
    rfl
  rw [firstLine, hheader]
  constructor
  · intro hfirst
    obtain ⟨line, rest, htext, hline⟩ := List.eq_append_cons_of_mem hfeed
    rw [htext, htake hline] at hfirst
    rw [htext, ← hfirst, String.toList_ofList]
    exact ⟨rest, by simp⟩
  · rintro ⟨rest, htext⟩
    rw [← htext, List.append_assoc, List.singleton_append, htake (by decide +kernel),
      String.ofList_toList]

/-- **Behind a part of the header nothing is read**, and the first line is not the header. -/
theorem readEntries_behind_header (e : LogEntry) (hkept : kept.toList <+: (ledgerText []).toList)
    (hne : kept ≠ ledgerText []) :
    firstLine (kept ++ e.row) ≠ ledgerHeader ∧ readEntries (kept ++ e.row) = [] := by
  obtain ⟨j, part, hj, hrecords⟩ := records_behind_header e hkept hne
  refine ⟨fun hfirst => ?_, by rw [readEntries, hrecords]; rfl⟩
  have hfeed : '\n' ∈ (kept ++ e.row).toList := by
    simp [String.toList_append, toList_row, Csv.row]
  -- the one record would be that of the header
  obtain ⟨rest, hrest⟩ := (firstLine_eq_header_iff hfeed).mp hfirst
  have hfirst := Csv.records_rows_append (ledger_rows_ne []) rest
  rw [← toList_ledgerText, hrest, hrecords] at hfirst
  have hcolumns := (List.cons.inj hfirst).1.symm
  -- it has nine fields, so all but the first are those of the entry
  have hlen := congrArg List.length hcolumns
  have hnine : ledgerColumns.length = 9 := by decide +kernel
  have htail : e.fields.tail.length = 8 := by simp [LogEntry.fields]
  rw [List.length_append, List.length_cons, List.length_take_of_le hj.le, hnine, htail] at hlen
  obtain rfl : j = 0 := by omega
  -- but the third one of the header is no number
  have hthird : some "thinking_tokens".toList = some (Text.decimal e.thinkingTokens.toNat) := by
    have := congrArg (·[2]?) hcolumns
    simpa [LogEntry.fields, ledgerColumns] using this
  have hdigit : 't' ∈ Text.decimal e.thinkingTokens.toNat := by
    rw [← Option.some.inj hthird]
    decide
  exact Text.notMem_decimal (by decide) _ hdigit

/-! ## The next entry -/

/-- An entry with a quoted field. -/
def quotedRow (timestamp : String) : LogEntry := ⟨timestamp, "a,\"b\"", 0, 0, 5, 5, "c", "s", "h"⟩

/-- A ledger in the working directory. -/
def localLedger : Ledger := ⟨⟨"usage.csv"⟩⟩

/-- A disk with a text at the place of that ledger. -/
def diskWith (kept : String) : Disk :=
  Disk.put ⟨[], .root⟩ (.ofNames ["usage.csv"]) (.file (.bytes (Bytes.ofText kept)))

/-- The disk after an entry has been written to that ledger. -/
def diskAfter (kept : String) (e : LogEntry) : Disk :=
  ((localLedger.append e).run (diskWith kept)).2

theorem file?_diskWith (kept : String) :
    (diskWith kept).file? localLedger.path = some (.bytes (Bytes.ofText kept)) := by rfl

/-- Opening a ledger that is there leaves the disk as it is. -/
theorem prepare_diskWith (kept : String) :
    localLedger.prepare.run (diskWith kept) = (.ok (), diskWith kept) := by rfl

/-- The lock can be taken there, so an append succeeds. -/
theorem append_diskWith (kept : String) (e : LogEntry) :
    (localLedger.append e).run (diskWith kept) = (.ok (), diskAfter kept e) :=
  Prod.ext (by rfl) (by rfl)

/-- Afterwards the file has the row at its end. -/
theorem file?_diskAfter (kept : String) (e : LogEntry) :
    (diskAfter kept e).file? localLedger.path = some (.bytes (Bytes.ofText (kept ++ e.row))) := by
  rcases Ledger.append_file? (e := e) (file?_diskWith kept) with ⟨_, hrun⟩ | ⟨_, hrun, hfile⟩
  · rw [append_diskWith] at hrun
    cases hrun
  · rw [append_diskWith] at hrun
    cases hrun
    rw [hfile, Content.grow, Bytes.ofText_append]

end QuotaWatch
