import QuotaWatch.Proofs.Ledger.Torn

/-!
# Tables with columns in any order

The columns of a table are known by their names. `Csv.Shows` says which texts show some rows: lines
may end in two ways and empty ones may stand between them.

* **`records_of_shows`**: the rows that a text shows are its records.
* **`readAll_by_name`**: each row of a table that has the columns of a ledger, among others and in
  any order, is read as the entry that stands under these names (`ReadsAs`).
-/

namespace QuotaWatch

/-! ## Texts that show rows -/

namespace Csv

variable {rows : List (List (List Char))} {text : List Char}

/-- A text shows rows: each is written with the end of a line behind it, which the last one may
lack, and empty lines may stand before and behind each of them. -/
inductive Shows : List (List (List Char)) → List Char → Prop
  | nothing : Shows [] []
  | blank {ending text : List Char} {rows : List (List (List Char))} (hend : IsLineEnd ending)
      (hrest : Shows rows text) : Shows rows (ending ++ text)
  | line {fields : List (List Char)} {ending text : List Char} {rows : List (List (List Char))}
      (hend : IsLineEnd ending) (hrest : Shows rows text) :
      Shows (fields :: rows) (joinFields (fields.map field) ++ ending ++ text)
  | last {fields : List (List Char)} : Shows [fields] (joinFields (fields.map field))

/-- An empty line in front of a text is no record. -/
theorem records_blank_append {ending : List Char} (hend : IsLineEnd ending) (text : List Char) :
    Csv.records (ending ++ text) = Csv.records text := by
  have hblank : ending.foldl State.read .start = .between [] := by
    rw [foldl_read_lineEnd hend (by simp [State.start])]
    rfl
  rw [Csv.records, List.foldl_append, hblank, finish_foldl_read_between, List.reverse_nil,
    List.nil_append]

/-- A line in front of a text is its first record. -/
theorem records_line_append {fields : List (List Char)} (hne : fields ≠ []) (hblank : fields ≠ [[]])
    {ending : List Char} (hend : IsLineEnd ending) (text : List Char) :
    Csv.records (joinFields (fields.map field) ++ ending ++ text) = fields :: Csv.records text := by
  have hstart : State.start = .between [] := rfl
  rw [Csv.records, List.foldl_append, hstart, foldl_read_line hne hblank hend,
    finish_foldl_read_between, List.reverse_singleton, List.singleton_append]

/-- A row without the end of its line is a record at the end of a text. -/
theorem records_joinFields {fields : List (List Char)} (hne : fields ≠ [])
    (hblank : fields ≠ [[]]) :
    Csv.records (joinFields (fields.map field)) = [fields] := by
  obtain ⟨init, last, rfl⟩ : ∃ init last, fields = init ++ [last] :=
    ⟨_, _, (List.dropLast_concat_getLast hne).symm⟩
  obtain ⟨mode, -, hjoin⟩ := foldl_read_joinFields [] init last []
  -- a line without a line end still ends a record, unless it is empty
  have hpending : ¬(last.reverse.isEmpty && init.reverse.isEmpty) = true := by
    intro h
    obtain ⟨rfl, rfl⟩ : last = [] ∧ init = [] := by simpa using h
    exact hblank rfl
  have hstart : State.start = ⟨.plain, [], [], []⟩ := rfl
  rw [Csv.records, hstart, hjoin, List.append_nil, State.finish, if_neg hpending,
    endRecord_concat hblank]
  rfl

/-- **The rows that a text shows are its records**, if none is an empty line. The induction follows
how the text shows them. -/
theorem records_of_shows (h : Shows rows text)
    (hrows : ∀ fields ∈ rows, fields ≠ [] ∧ fields ≠ [[]]) :
    Csv.records text = rows := by
  induction h with
  | nothing => rfl
  | blank hend _ ih => rw [records_blank_append hend, ih hrows]
  | line hend _ ih =>
    obtain ⟨⟨hne, hblank⟩, hrest⟩ := List.forall_mem_cons.mp hrows
    rw [records_line_append hne hblank hend, ih hrest]
  | last =>
    obtain ⟨hne, hblank⟩ := hrows _ List.mem_cons_self
    exact records_joinFields hne hblank

end Csv

/-! ## Entries by the names of columns -/

variable {columns row : List (List Char)} {name : String} {value : List Char}

/-- What a row has in a column of a name. Blanks around a name do not count. -/
def InColumn (columns row : List (List Char)) (name : String) (value : List Char) : Prop :=
  ∃ column, (column, value) ∈ columns.zip row ∧ Text.trim column = name.toList

/-- The count that a text stands for: the number of 64 bits that it spells among blanks, or zero if
it spells none. -/
def StandsFor (value : List Char) (n : UInt64) : Prop :=
  Text.SpellsCount (Text.trim value) n.toNat
    ∨ n = 0 ∧ ∀ m < UInt64.size, ¬Text.SpellsCount (Text.trim value) m

/-- An entry is what a row has in the columns of a ledger. -/
structure ReadsAs (columns row : List (List Char)) (e : LogEntry) : Prop where
  timestamp : InColumn columns row "timestamp" e.timestamp.toList
  model : InColumn columns row "model" e.model.toList
  thinkingTokens : ∃ value, InColumn columns row "thinking_tokens" value
    ∧ StandsFor value e.thinkingTokens
  inputTokens : ∃ value, InColumn columns row "input_tokens" value ∧ StandsFor value e.inputTokens
  outputTokens : ∃ value, InColumn columns row "output_tokens" value
    ∧ StandsFor value e.outputTokens
  totalTokens : ∃ value, InColumn columns row "total_tokens" value ∧ StandsFor value e.totalTokens
  conversationId : InColumn columns row "conversation_id" e.conversationId.toList
  sessionId : InColumn columns row "session_id" e.sessionId.toList
  system : InColumn columns row "system" e.system.toList

/-! What stands under a name, and what a text stands for, is one thing. -/

/-- A value stands under a column at a position that both have. -/
theorem getElem?_of_mem_zip {column : List Char} (h : (column, value) ∈ columns.zip row) :
    ∃ i : Nat, columns[i]? = some column ∧ row[i]? = some value := by
  obtain ⟨i, hget⟩ := List.mem_iff_getElem?.mp h
  obtain ⟨hcolumn, hvalue⟩ := List.getElem?_zip_eq_some.mp hget
  exact ⟨i, hcolumn, hvalue⟩

/-- What stands under a name is what is read for it. The name stands once, so the last column of
this name is the one. -/
theorem fieldNamed_of_inColumn (hdistinct : (columns.map Text.trim).Nodup)
    (h : InColumn columns row name value) : fieldNamed columns row name = value := by
  obtain ⟨column, hmem, htrim⟩ := h
  obtain ⟨i, hcolumn, hvalue⟩ := getElem?_of_mem_zip hmem
  have hlt : i < (columns.map Text.trim).length := by
    simpa using (List.getElem?_eq_some_iff.mp hcolumn).1
  have hindex : columnIndex? columns name = some i := by
    refine columnIndex?_eq_some_iff.mpr
      ⟨⟨column, hcolumn, htrim⟩, fun j ⟨other, hother, hsame⟩ => ?_⟩
    refine ((List.getElem?_inj hlt hdistinct).mp ?_).ge
    rw [List.getElem?_map, List.getElem?_map, hcolumn, hother, Option.map_some, Option.map_some,
      htrim, hsame]
  rw [fieldNamed, hindex, Option.bind_some, hvalue, Option.getD_some]

/-- What is read for a name stands under it, if the name is a column and the row is long enough. -/
theorem inColumn_fieldNamed (hdistinct : (columns.map Text.trim).Nodup)
    (hlength : row.length = columns.length) (hname : name.toList ∈ columns.map Text.trim) :
    InColumn columns row name (fieldNamed columns row name) := by
  obtain ⟨column, hmem, htrim⟩ := List.mem_map.mp hname
  obtain ⟨i, hlt, rfl⟩ := List.mem_iff_getElem.mp hmem
  have hrow : i < row.length := hlength ▸ hlt
  have hin : InColumn columns row name row[i] :=
    ⟨columns[i], List.mem_iff_getElem?.mpr ⟨i, List.getElem?_zip_eq_some.mpr
      ⟨List.getElem?_eq_getElem hlt, List.getElem?_eq_getElem hrow⟩⟩, htrim⟩
  rwa [fieldNamed_of_inColumn hdistinct hin]

/-- What a text stands for is what is read of it. A text that spells no number of 64 bits is read as
zero, a number that is too large among them. -/
theorem standsFor_iff {n : UInt64} :
    StandsFor value n ↔ (Text.count? (Text.trim value)).getD 0 = n := by
  constructor
  · rintro (hspells | ⟨rfl, hnone⟩)
    · rw [Text.count?_eq_some_iff.mpr hspells, Option.getD_some]
    · cases hcount : Text.count? (Text.trim value) with
      | none => rfl
      | some n => exact absurd (Text.count?_eq_some_iff.mp hcount) (hnone _ n.toNat_lt_size)
  · rintro rfl
    cases hcount : Text.count? (Text.trim value) with
    | some n => exact .inl (Text.count?_eq_some_iff.mp hcount)
    | none =>
      refine .inr ⟨rfl, fun m hm hspells => ?_⟩
      -- a number that is spelled and fits is the one that is read
      have hfits : (UInt64.ofNat m).toNat = m := by
        rw [UInt64.toNat_ofNat', Nat.mod_eq_of_lt hm]
      cases hcount.symm.trans (Text.count?_eq_some_iff.mpr (hfits.symm ▸ hspells))

/-- **A row reads as one entry**, the one that is made of it. -/
theorem readsAs_iff (hdistinct : (columns.map Text.trim).Nodup)
    (hnames : ∀ name ∈ ledgerColumns, name ∈ columns.map Text.trim)
    (hlength : row.length = columns.length) {e : LogEntry} :
    ReadsAs columns row e ↔ LogEntry.ofRecord columns row = e := by
  constructor
  · rintro ⟨htimestamp, hmodel, ⟨_, hthinking, hthinks⟩, ⟨_, hinput, hinputs⟩,
      ⟨_, houtput, houtputs⟩, ⟨_, htotal, htotals⟩, hconversation, hsession, hsystem⟩
    rw [standsFor_iff] at hthinks hinputs houtputs htotals
    cases e
    simp only [LogEntry.ofRecord, countNamed, fieldNamed_of_inColumn hdistinct htimestamp,
      fieldNamed_of_inColumn hdistinct hmodel, fieldNamed_of_inColumn hdistinct hthinking,
      fieldNamed_of_inColumn hdistinct hinput, fieldNamed_of_inColumn hdistinct houtput,
      fieldNamed_of_inColumn hdistinct htotal, fieldNamed_of_inColumn hdistinct hconversation,
      fieldNamed_of_inColumn hdistinct hsession, fieldNamed_of_inColumn hdistinct hsystem,
      hthinks, hinputs, houtputs, htotals, String.ofList_toList]
  · rintro rfl
    -- each column of a ledger is there, so the field under it is
    have hin : ∀ name : String, name.toList ∈ ledgerColumns →
        InColumn columns row name (fieldNamed columns row name) :=
      fun name hname => inColumn_fieldNamed hdistinct hlength (hnames _ hname)
    have htext : ∀ name : String, name.toList ∈ ledgerColumns →
        InColumn columns row name (String.ofList (fieldNamed columns row name)).toList :=
      fun name hname => by rw [String.toList_ofList]; exact hin name hname
    have hcount : ∀ name : String, name.toList ∈ ledgerColumns →
        ∃ value, InColumn columns row name value ∧ StandsFor value (countNamed columns row name) :=
      fun name hname => ⟨_, hin name hname, standsFor_iff.mpr rfl⟩
    exact ⟨htext _ (by decide +kernel), htext _ (by decide +kernel), hcount _ (by decide +kernel),
      hcount _ (by decide +kernel), hcount _ (by decide +kernel), hcount _ (by decide +kernel),
      htext _ (by decide +kernel), htext _ (by decide +kernel), htext _ (by decide +kernel)⟩

/-- Rows read as entries just if these are the ones that are made of them. -/
theorem forall₂_readsAs_iff (hdistinct : (columns.map Text.trim).Nodup)
    (hnames : ∀ name ∈ ledgerColumns, name ∈ columns.map Text.trim)
    {rows : List (List (List Char))} (hrows : ∀ row ∈ rows, row.length = columns.length) :
    ∀ {described : List LogEntry}, List.Forall₂ (ReadsAs columns) rows described
      ↔ rows.map (LogEntry.ofRecord columns) = described := by
  induction rows with
  | nil => simp [eq_comm]
  | cons row rows ih =>
    obtain ⟨hlength, hrest⟩ := List.forall_mem_cons.mp hrows
    rintro (_ | ⟨e, described⟩)
    · simp
    · rw [List.forall₂_cons, readsAs_iff hdistinct hnames hlength, ih hrest, List.map_cons,
        List.cons.injEq]

/-- A row with a field for every column is no empty line. -/
theorem ne_of_columns (hnames : ∀ name ∈ ledgerColumns, name ∈ columns.map Text.trim)
    (hlength : row.length = columns.length) : row ≠ [] ∧ row ≠ [[]] := by
  have hnine : ledgerColumns.length ≤ (columns.map Text.trim).length :=
    (nodup_ledgerColumns.subperm hnames).length_le
  rw [List.length_map, ← hlength] at hnine
  have hlong : 9 ≤ row.length := hnine
  constructor
  · rintro rfl
    simp at hlong
  · rintro rfl
    simp at hlong

/-- **Rows are read by the names of their columns.** A file shows a row of column names and then
other rows with a field for each; no two names are the same but for blanks around them, and those of
a ledger are among them. Then reading gives an entry for each of these rows, in order, and it is the
one entry that stands in the columns of that name. -/
theorem readAll_by_name (l : Ledger) {columns : List (List Char)} {rows : List (List (List Char))}
    {text : String} (hdistinct : (columns.map Text.trim).Nodup)
    (hnames : ∀ name ∈ ledgerColumns, name ∈ columns.map Text.trim)
    (hrows : ∀ row ∈ rows, row.length = columns.length)
    (htext : Csv.Shows (columns :: rows) text.toList) {d : Disk}
    (hfile : d.file? l.path = some (.bytes (Bytes.ofText text))) :
    ∃ entries, l.readAll d = .ok entries
      ∧ ∀ described, List.Forall₂ (ReadsAs columns) rows described ↔ described = entries := by
  have hrecords : Csv.records text.toList = columns :: rows := by
    refine Csv.records_of_shows htext fun row hrow => ?_
    rcases List.mem_cons.mp hrow with rfl | hrow
    · exact ne_of_columns hnames rfl
    · exact ne_of_columns hnames (hrows row hrow)
  have hread : readEntries text = rows.map (LogEntry.ofRecord columns) := by
    rw [readEntries, hrecords]
    rfl
  exact ⟨_, hread ▸ Ledger.readAll_of_text hfile,
    fun described => (forall₂_readsAs_iff hdistinct hnames hrows).trans eq_comm⟩

/-- The columns of a ledger and another one, in another order. -/
def shuffledColumns : List (List Char) :=
  ["system", " model\t", "note", "timestamp", "total_tokens", "output_tokens", "input_tokens",
    "thinking_tokens", "session_id", "conversation_id"].map String.toList

/-- A row with line breaks, quotes and all kinds of counts, and one without anything. -/
def shuffledRows : List (List (List Char)) :=
  [["h", "a\r\n\"b\"", ",", " 1 ", " +5 ", "007", "-0", "18446744073709551616", "s", "c"],
    ["", "", "", "", "", "", "", "", "", ""]].map (List.map String.toList)

def shuffledText : String :=
  "\nsystem, model\t,note,timestamp,total_tokens,output_tokens,input_tokens,thinking_tokens,"
    ++ "session_id,conversation_id\r\n\r\n\n"
    ++ "h,\"a\r\n\"\"b\"\"\",\",\", 1 , +5 ,007,-0,18446744073709551616,s,c\n,,,,,,,,,"

/-- Columns in another order and with blanks, one column too many, empty lines, quotes, and counts
that are none. -/
theorem readAll_by_name_shuffled :
    (shuffledColumns.map Text.trim).Nodup
      ∧ (∀ name ∈ ledgerColumns, name ∈ shuffledColumns.map Text.trim)
      ∧ (∀ row ∈ shuffledRows, row.length = shuffledColumns.length)
      ∧ Csv.Shows (shuffledColumns :: shuffledRows) shuffledText.toList
      ∧ (diskWith shuffledText).file? localLedger.path = some (.bytes (Bytes.ofText shuffledText))
      ∧ ∃ entries, localLedger.readAll (diskWith shuffledText) = .ok entries
        ∧ ∀ described, List.Forall₂ (ReadsAs shuffledColumns) shuffledRows described
          ↔ described = entries := by
  have hdistinct : (shuffledColumns.map Text.trim).Nodup := by decide +kernel
  have hnames : ∀ name ∈ ledgerColumns, name ∈ shuffledColumns.map Text.trim := by decide +kernel
  have hrows : ∀ row ∈ shuffledRows, row.length = shuffledColumns.length := by decide +kernel
  have hlines : Csv.Shows (shuffledColumns :: shuffledRows) _ :=
    .blank (.inl rfl) (.line (.inr rfl) (.blank (.inr rfl) (.blank (.inl rfl)
      (.line (.inl rfl) .last))))
  -- the text is given by its lines; that it is this one is evaluated
  obtain ⟨text, htext, heq⟩ : ∃ text, Csv.Shows (shuffledColumns :: shuffledRows) text
      ∧ text = shuffledText.toList := ⟨_, hlines, by decide +kernel⟩
  rw [heq] at htext
  exact ⟨hdistinct, hnames, hrows, htext, file?_diskWith _,
    readAll_by_name localLedger hdistinct hnames hrows htext (file?_diskWith _)⟩

end QuotaWatch
