import QuotaWatch.Ledger.Csv

/-!
# Rows read back

A reader that stands between two records has nothing pending: its mode is plain, and it holds whole
records only (`State.between`). From there a written row brings it to the next such place, with the
fields of the row as one more record, whatever characters are in the fields (`foldl_read_row`).

* **`foldl_read_field`**: a written field leaves its characters pending and nothing else. If it was
  quoted, the reader stands behind the closing quote; either way it is outside quotes.
* **`foldl_read_joinFields`**: fields with commas in between pile up one by one.
* **`records_rows`**: the records of written rows are their fields, row by row, and they are read
  first whatever text follows (`records_rows_append`).
* **`records_append`**: any two texts are read one after the other, if the first one ends with a
  line outside quotes.

Of any text at all, the quotes alone decide whether a reader is inside quotes (`mode_foldl_read`).
What was read before makes no difference to a reader between two records
(`finish_foldl_read_between`).
-/

namespace QuotaWatch.Csv

/-- Between two records: `records` read, the last one first, and nothing pending. -/
def State.between (records : List (List (List Char))) : State := ⟨.plain, [], [], records⟩

variable {records : List (List (List Char))} {fields : List (List Char)} {pending : List Char}

/-! ## Fields -/

/-- Inside quotes a doubled quote is one quote and everything else is itself. -/
theorem foldl_read_doubleQuotes (cs : List Char) :
    ∀ pending, (doubleQuotes cs).foldl State.read ⟨.quoted, pending, fields, records⟩
      = ⟨.quoted, cs.reverse ++ pending, fields, records⟩ := by
  induction cs with
  | nil => intro pending; rfl
  | cons c rest ih =>
    intro pending
    by_cases hc : c = '"'
    · subst hc
      simp [doubleQuotes, State.read, ih]
    · simp [doubleQuotes, State.read, hc, ih]

/-- Outside quotes every character that is not special is itself. -/
theorem foldl_read_plain (cs : List Char) (h : ∀ c ∈ cs, isSpecial c = false) :
    ∀ pending, cs.foldl State.read ⟨.plain, pending, fields, records⟩
      = ⟨.plain, cs.reverse ++ pending, fields, records⟩ := by
  induction cs with
  | nil => intro pending; rfl
  | cons c rest ih =>
    intro pending
    have hc := h c List.mem_cons_self
    simp only [isSpecial, Bool.or_eq_false_iff, decide_eq_false_iff_not] at hc
    obtain ⟨⟨⟨hcomma, hquote⟩, hfeed⟩, hreturn⟩ := hc
    rw [List.foldl_cons]
    simp only [State.read, State.readPlain, hquote, hcomma, hreturn, hfeed, if_false]
    rw [ih (fun x hx => h x (List.mem_cons_of_mem _ hx))]
    simp

/-- **A written field is pending when it has been read**, and the reader is outside quotes. -/
theorem foldl_read_field (fields : List (List Char)) (records : List (List (List Char)))
    (cs : List Char) :
    ∃ mode, mode ≠ .quoted ∧
      (field cs).foldl State.read ⟨.plain, [], fields, records⟩
        = ⟨mode, cs.reverse, fields, records⟩ := by
  rw [field]
  split
  · -- the quote at the end may still turn out to be half of a doubled one
    refine ⟨.closing, by decide, ?_⟩
    rw [List.cons_append, List.foldl_cons, List.foldl_append]
    simp [State.read, State.readPlain, foldl_read_doubleQuotes]
  next hplain =>
    refine ⟨.plain, by decide, ?_⟩
    rw [foldl_read_plain cs, List.append_nil]
    simpa using hplain

/-- Outside quotes a character that is no quote is read as if the field had not been quoted. -/
theorem read_of_ne_quoted {s : State} {c : Char} (hmode : s.mode ≠ .quoted) (hc : c ≠ '"') :
    s.read c = s.readPlain c := by
  rw [State.read]
  split
  · rfl
  · contradiction
  · rw [if_neg hc]

/-- A comma behind a written field ends it. -/
theorem foldl_read_field_comma (cs : List Char) :
    (field cs ++ [',']).foldl State.read ⟨.plain, [], fields, records⟩
      = ⟨.plain, [], cs :: fields, records⟩ := by
  obtain ⟨mode, hmode, hfield⟩ := foldl_read_field fields records cs
  rw [List.foldl_append, hfield, List.foldl_cons, List.foldl_nil,
    read_of_ne_quoted hmode (by decide)]
  simp [State.readPlain, State.endField]

/-! ## Rows -/

/-- **Fields pile up.** The last one has no comma behind it and is still pending, outside quotes. -/
theorem foldl_read_joinFields (records : List (List (List Char))) :
    ∀ (row : List (List Char)) (last : List Char) (fields : List (List Char)),
      ∃ mode, mode ≠ .quoted ∧
        (joinFields ((row ++ [last]).map field)).foldl State.read ⟨.plain, [], fields, records⟩
          = ⟨mode, last.reverse, row.reverse ++ fields, records⟩
  | [], last, fields => by simpa [joinFields] using foldl_read_field fields records last
  | f :: row, last, fields => by
    obtain ⟨mode, hmode, hrest⟩ := foldl_read_joinFields records row last (f :: fields)
    refine ⟨mode, hmode, ?_⟩
    -- every field but the last has a comma behind it
    have hjoin : joinFields (((f :: row) ++ [last]).map field)
        = (field f ++ [',']) ++ joinFields ((row ++ [last]).map field) := by
      cases row <;> simp [joinFields]
    rw [hjoin, List.foldl_append, foldl_read_field_comma, hrest]
    simp

/-- The ends of lines: a line feed, or a carriage return and a line feed. -/
def IsLineEnd (text : List Char) : Prop := text = ['\n'] ∨ text = ['\r', '\n']

/-- The end of a line ends a record, outside quotes. -/
theorem foldl_read_lineEnd {ending : List Char} (hend : IsLineEnd ending) {s : State}
    (hmode : s.mode ≠ .quoted) : ending.foldl State.read s = s.endRecord := by
  rcases hend with rfl | rfl
  · rw [List.foldl_cons, List.foldl_nil, read_of_ne_quoted hmode (by decide)]
    rfl
  · rw [List.foldl_cons, read_of_ne_quoted hmode (by decide)]
    rfl

/-- Fields that are not those of an empty line end as a record. -/
theorem endRecord_concat {mode : Mode} {row : List (List Char)} {last : List Char}
    (hblank : row ++ [last] ≠ [[]]) :
    State.endRecord ⟨mode, last.reverse, row.reverse, records⟩
      = .between ((row ++ [last]) :: records) := by
  simp only [State.endRecord, State.endField, List.reverse_reverse, List.reverse_cons,
    isBlankRecord, hblank, decide_false]
  rfl

/-- **A written line is one more record**, whichever way it ends. A line of a single empty field is
an empty line instead. -/
theorem foldl_read_line {fields : List (List Char)} (hne : fields ≠ []) (hblank : fields ≠ [[]])
    {ending : List Char} (hend : IsLineEnd ending) :
    (joinFields (fields.map field) ++ ending).foldl State.read (.between records)
      = .between (fields :: records) := by
  obtain ⟨init, last, rfl⟩ : ∃ init last, fields = init ++ [last] :=
    ⟨_, _, (List.dropLast_concat_getLast hne).symm⟩
  obtain ⟨mode, hmode, hjoin⟩ := foldl_read_joinFields records init last []
  rw [List.foldl_append, State.between, hjoin, foldl_read_lineEnd hend hmode, List.append_nil,
    endRecord_concat hblank]

/-- A row as a ledger writes it, with a line feed at its end. -/
theorem foldl_read_row {fields : List (List Char)} (hne : fields ≠ []) (hblank : fields ≠ [[]]) :
    (row fields).foldl State.read (.between records) = .between (fields :: records) :=
  foldl_read_line hne hblank (.inl rfl)

/-- Whole rows lead from one place between two records to another. -/
theorem foldl_read_rows {rows : List (List (List Char))}
    (h : ∀ fields ∈ rows, fields ≠ [] ∧ fields ≠ [[]]) :
    ∀ records, (rows.flatMap row).foldl State.read (.between records)
      = .between (rows.reverse ++ records) := by
  induction rows with
  | nil => intro records; rfl
  | cons fields rest ih =>
    intro records
    obtain ⟨hne, hblank⟩ := h fields List.mem_cons_self
    rw [List.flatMap_cons, List.foldl_append, foldl_read_row hne hblank,
      ih fun f hf => h f (List.mem_cons_of_mem _ hf)]
    simp

theorem finish_between (records : List (List (List Char))) :
    (State.between records).finish = records.reverse := rfl

/-! ## A text behind records -/

/-- A reader that had read records before. -/
def State.behind (s : State) (before : List (List (List Char))) : State :=
  { s with records := s.records ++ before }

/-- To end a record adds it to those before, or leaves them if the line is empty. -/
theorem endRecord_behind (s : State) (before : List (List (List Char))) :
    (s.behind before).endRecord = s.endRecord.behind before := by
  have hfields : (s.behind before).endField.fields = s.endField.fields := rfl
  rw [State.endRecord, State.endRecord, hfields]
  by_cases hblank : isBlankRecord s.endField.fields.reverse = true
  · simp only [hblank, if_true, State.behind]
  · simp only [hblank, Bool.false_eq_true, if_false, State.behind, List.cons_append]

theorem readPlain_behind (s : State) (before : List (List (List Char))) (c : Char) :
    (s.behind before).readPlain c = (s.readPlain c).behind before := by
  simp only [State.readPlain, endRecord_behind]
  split
  · rfl
  split
  · rfl
  split
  · rfl
  split <;> rfl

/-- No character is read with a look at the records before. -/
theorem read_behind (s : State) (before : List (List (List Char))) (c : Char) :
    (s.behind before).read c = (s.read c).behind before := by
  have hmode : (s.behind before).mode = s.mode := rfl
  rw [State.read, State.read, hmode, readPlain_behind]
  split
  · rfl
  · split <;> rfl
  · split <;> rfl

theorem foldl_read_behind (before : List (List (List Char))) (text : List Char) :
    ∀ s : State,
      text.foldl State.read (s.behind before) = (text.foldl State.read s).behind before := by
  induction text with
  | nil => exact fun s => rfl
  | cons c rest ih =>
    intro s
    rw [List.foldl_cons, List.foldl_cons, read_behind, ih]

/-- What was read before comes first in the end. -/
theorem finish_behind (s : State) (before : List (List (List Char))) :
    (s.behind before).finish = before.reverse ++ s.finish := by
  simp only [State.finish, endRecord_behind]
  simp only [State.behind, List.reverse_append]
  split <;> rfl

/-- From between two records a text is read as it is alone. -/
theorem finish_foldl_read_between (before : List (List (List Char))) (text : List Char) :
    (text.foldl State.read (.between before)).finish = before.reverse ++ Csv.records text := by
  have hbetween : State.between before = State.start.behind before := rfl
  rw [hbetween, foldl_read_behind, finish_behind, Csv.records]

/-- **Whole rows are read first**, and then the text behind them as if it were alone. -/
theorem records_rows_append {rows : List (List (List Char))}
    (h : ∀ fields ∈ rows, fields ≠ [] ∧ fields ≠ [[]]) (rest : List Char) :
    Csv.records (rows.flatMap row ++ rest) = rows ++ Csv.records rest := by
  have hstart : State.start = .between [] := rfl
  rw [Csv.records, List.foldl_append, hstart, foldl_read_rows h, List.append_nil,
    finish_foldl_read_between, List.reverse_reverse]

/-- **Written rows are read back**, one record for each. -/
theorem records_rows (rows : List (List (List Char)))
    (h : ∀ fields ∈ rows, fields ≠ [] ∧ fields ≠ [[]]) : Csv.records (rows.flatMap row) = rows := by
  have hread := records_rows_append h []
  rw [List.append_nil] at hread
  exact hread.trans (List.append_nil rows)

/-! ## Any text -/

/-- **A reader is inside quotes if it has read an odd number of quotes** since it was outside.
Nothing else counts, neither commas nor line breaks, so this holds of texts that nobody wrote as a
table. -/
theorem mode_foldl_read (text : List Char) :
    ∀ s : State, (text.foldl State.read s).mode = .quoted ↔
      (text.count '"' + if s.mode = .quoted then 1 else 0) % 2 = 1 := by
  induction text with
  | nil => intro s; by_cases h : s.mode = .quoted <;> simp [h]
  | cons c rest ih =>
    intro s
    rw [List.foldl_cons, ih, List.count_cons]
    -- a quote turns the mode over, and nothing else does
    have hstep : (s.read c).mode = .quoted ↔ (c = '"' ↔ s.mode ≠ .quoted) := by
      have hplain : (s.readPlain c).mode = .quoted ↔ c = '"' := by
        simp only [State.readPlain, State.endField, State.endRecord]
        grind
      rw [State.read]
      cases hmode : s.mode with
      | plain => simpa using hplain
      | quoted => by_cases hc : c = '"' <;> simp [hc]
      | closing => by_cases hc : c = '"' <;> simp [hc, hplain]
    by_cases hc : c = '"'
    · by_cases hs : s.mode = .quoted
      · -- the mode has been turned over twice
        simp_all
        omega
      · simp_all
    · by_cases hs : s.mode = .quoted
      · simp_all
      · simp_all

/-- **A text that ends in a line feed outside quotes leaves nothing pending.** -/
theorem foldl_read_closed {text : List Char} (hfeed : text.getLast? = some '\n')
    (hquotes : text.count '"' % 2 = 0) :
    text.foldl State.read .start = .between (Csv.records text).reverse := by
  obtain ⟨front, rfl⟩ := List.getLast?_eq_some_iff.mp hfeed
  -- with an even number of quotes the reader is not within any
  have hmode : (front.foldl State.read .start).mode ≠ .quoted := by
    have hparity := mode_foldl_read front .start
    simp only [List.count_append, List.count_singleton] at hquotes
    simp only [State.start] at hparity ⊢
    grind
  have hread : (front ++ ['\n']).foldl State.read .start
      = .between (front.foldl State.read .start).endRecord.records := by
    rw [List.foldl_append, foldl_read_lineEnd (.inl rfl) hmode]
    rfl
  rw [Csv.records, hread, finish_between, List.reverse_reverse]

/-- A row behind such a text is one more record, whatever the text was. -/
theorem records_closed_row {text : List Char} (hfeed : text.getLast? = some '\n')
    (hquotes : text.count '"' % 2 = 0) {fields : List (List Char)} (hne : fields ≠ [])
    (hblank : fields ≠ [[]]) :
    Csv.records (text ++ row fields) = Csv.records text ++ [fields] := by
  rw [Csv.records, List.foldl_append, foldl_read_closed hfeed hquotes, foldl_read_row hne hblank,
    finish_between, List.reverse_cons, List.reverse_reverse]

/-- **Reading composes where a line ends outside quotes.** Behind a text that is empty, or that ends
in a line feed and has an even number of quotes, any text is read as it is alone. -/
theorem records_append {front : List Char} (hend : front = [] ∨ front.getLast? = some '\n')
    (hquotes : front.count '"' % 2 = 0) (back : List Char) :
    Csv.records (front ++ back) = Csv.records front ++ Csv.records back := by
  rcases hend with rfl | hfeed
  · rfl
  · have hfront := foldl_read_closed hfeed hquotes
    calc Csv.records (front ++ back)
        = (back.foldl State.read (front.foldl State.read .start)).finish := by
          rw [Csv.records, List.foldl_append]
      _ = (back.foldl State.read (.between (Csv.records front).reverse)).finish := by rw [hfront]
      _ = Csv.records front ++ Csv.records back := by
          rw [finish_foldl_read_between, List.reverse_reverse]

/-- Quotes inside fields and between them, and a text behind that begins with one. -/
theorem records_append_strayQuotes :
    let front := "a\"b,\"c\nd\"\r\n\"e\"\"f\n".toList
    let back := "\"\nf".toList
    (front = [] ∨ front.getLast? = some '\n') ∧ front.count '"' % 2 = 0
      ∧ Csv.records (front ++ back) = Csv.records front ++ Csv.records back := by
  intro front back
  have hend : front = [] ∨ front.getLast? = some '\n' := .inr (by decide +kernel)
  have hquotes : front.count '"' % 2 = 0 := by decide +kernel
  exact ⟨hend, hquotes, records_append hend hquotes back⟩

end QuotaWatch.Csv
