import Mathlib.Data.List.Induction
import Mathlib.Order.Bounds.Basic
import QuotaWatch.Ledger.File
import QuotaWatch.Proofs.Ledger.Csv
import QuotaWatch.Proofs.Text.Decimal

/-!
# The text of a ledger

`ledgerText entries` is what a ledger holds after its header and then the rows of some entries have
been written. Reading it gives the entries (`readEntries_ledgerText`): the header names the columns
in the order in which `LogEntry.fields` writes them, texts come back by the round trip of rows, and
counts by the round trip of decimal numbers.

Of several columns with one name the last one counts (`columnIndex?_eq_some_iff`). So entries come
back under all columns that begin like those of a ledger and use their names only there
(`ofRecord_fields_of_beginsAsLedger`).
-/

namespace QuotaWatch

/-! ## Columns -/

/-- The positions of the columns with a name. Blanks around a name do not count. -/
def columnsNamed (columns : List (List Char)) (name : String) : Set Nat :=
  {i | ∃ column, columns[i]? = some column ∧ Text.trim column = name.toList}

variable {columns : List (List Char)} {name : String} {i : Nat}

/-- One column more at the end: it is found if it has the name, and otherwise the search goes on in
front of it. -/
theorem columnIndex?_concat (columns : List (List Char)) (column : List Char) (name : String) :
    columnIndex? (columns ++ [column]) name
      = if Text.trim column = name.toList then some columns.length
        else columnIndex? columns name := by
  simp only [columnIndex?, List.reverse_append, List.reverse_singleton, List.singleton_append,
    List.findIdx?_cons, decide_eq_true_eq, List.length_append, List.length_singleton]
  split
  · rfl
  · rw [Option.map_map]
    congr 1
    funext i
    show columns.length + 1 - 1 - (i + 1) = columns.length - 1 - i
    omega

/-- **A column is found at the last position of its name.** Blanks around a name do not count. -/
theorem columnIndex?_eq_some_iff :
    columnIndex? columns name = some i ↔ IsGreatest (columnsNamed columns name) i := by
  induction columns using List.reverseRecOn with
  | nil => simp [columnIndex?, columnsNamed, IsGreatest]
  | append_singleton columns column ih =>
    have hmem : ∀ j, j ∈ columnsNamed (columns ++ [column]) name ↔
        j ∈ columnsNamed columns name ∨ j = columns.length ∧ Text.trim column = name.toList := by
      intro j
      simp only [columnsNamed, Set.mem_ofPred_eq, List.getElem?_append, List.getElem?_singleton]
      grind
    -- the new column is behind all others, so it is the greatest if it has the name
    have hlt : ∀ j ∈ columnsNamed columns name, j < columns.length := by
      rintro j ⟨_, hget, _⟩
      exact (List.getElem?_eq_some_iff.mp hget).1
    rw [columnIndex?_concat]
    split
    next hname =>
      have hgreatest : IsGreatest (columnsNamed (columns ++ [column]) name) columns.length := by
        refine ⟨(hmem _).mpr (.inr ⟨rfl, hname⟩), fun j hj => ?_⟩
        rcases (hmem j).mp hj with hj | ⟨rfl, -⟩
        · exact (hlt j hj).le
        · exact le_rfl
      rw [Option.some.injEq]
      exact ⟨fun heq => heq ▸ hgreatest, hgreatest.unique⟩
    next hname =>
      have hsame : columnsNamed (columns ++ [column]) name = columnsNamed columns name :=
        Set.ext fun j => (hmem j).trans (or_iff_left fun h => hname h.2)
      rw [ih, hsame]

/-- The names in the header, in order. -/
def ledgerColumns : List (List Char) :=
  ["timestamp", "model", "thinking_tokens", "input_tokens", "output_tokens", "total_tokens",
    "conversation_id", "session_id", "system"].map String.toList

/-- The header is written as a row of the names, none of which needs quotes. -/
theorem toList_header : (ledgerHeader ++ "\n").toList = Csv.row ledgerColumns := by
  decide +kernel

theorem nodup_ledgerColumns : ledgerColumns.Nodup := by decide +kernel

/-- Columns of which the first nine have the names of the header, in order, and no other one has one
of them. -/
structure BeginsAsLedger (columns : List (List Char)) : Prop where
  names : (columns.map Text.trim).take 9 = ledgerColumns
  others : ∀ column ∈ columns.drop 9, Text.trim column ∉ ledgerColumns

theorem beginsAsLedger_ledgerColumns : BeginsAsLedger ledgerColumns where
  names := by decide +kernel
  others := by decide +kernel

/-- Under such columns every name of a ledger is found at its own position. -/
theorem columnIndex?_of_beginsAsLedger (h : BeginsAsLedger columns)
    (hname : ledgerColumns[i]? = some name.toList) : columnIndex? columns name = some i := by
  have hnames : ∀ j < 9, (columns[j]?).map Text.trim = ledgerColumns[j]? := by
    intro j hj
    rw [← h.names, List.getElem?_take_of_lt hj, List.getElem?_map]
  have hnine : i < 9 := (List.getElem?_eq_some_iff.mp hname).1
  refine columnIndex?_eq_some_iff.mpr ⟨?_, fun j ⟨column, hget, htrim⟩ => ?_⟩
  · obtain ⟨column, hget, htrim⟩ := Option.map_eq_some_iff.mp ((hnames i hnine).trans hname)
    exact ⟨column, hget, htrim⟩
  · refine Nat.le_of_not_lt fun hlt => ?_
    rcases Nat.lt_or_ge j 9 with hj | hj
    · -- no name stands twice among the first nine
      have hsame := hnames j hj
      rw [hget, Option.map_some, htrim, ← hname] at hsame
      exact hlt.ne ((List.getElem?_inj hnine nodup_ledgerColumns).mp hsame)
    · refine h.others column (List.mem_iff_getElem?.mpr ⟨j - 9, ?_⟩) ?_
      · rw [List.getElem?_drop, Nat.add_sub_cancel' hj, hget]
      · exact htrim ▸ List.mem_of_getElem? hname

/-- **The fields of an entry give the entry again** under such columns. -/
theorem ofRecord_fields_of_beginsAsLedger (h : BeginsAsLedger columns) (e : LogEntry) :
    LogEntry.ofRecord columns e.fields = e := by
  have htext : ∀ (i : Nat) (name : String), ledgerColumns[i]? = some name.toList →
      fieldNamed columns e.fields name = e.fields[i]?.getD [] := by
    intro i name hname
    rw [fieldNamed, columnIndex?_of_beginsAsLedger h hname, Option.bind_some]
  have hcount : ∀ (i : Nat) (name : String) {n : UInt64}, ledgerColumns[i]? = some name.toList →
      e.fields[i]? = some (Text.decimal n.toNat) → countNamed columns e.fields name = n := by
    intro i name n hname hfield
    rw [countNamed, htext i name hname, hfield, Option.getD_some, Text.count?_trim_decimal,
      Option.getD_some]
  -- where each column stands
  have htimestamp := htext 0 "timestamp" (by decide +kernel)
  have hmodel := htext 1 "model" (by decide +kernel)
  have hthinking := hcount 2 "thinking_tokens" (by decide +kernel) rfl
  have hinput := hcount 3 "input_tokens" (by decide +kernel) rfl
  have houtput := hcount 4 "output_tokens" (by decide +kernel) rfl
  have htotal := hcount 5 "total_tokens" (by decide +kernel) rfl
  have hconversation := htext 6 "conversation_id" (by decide +kernel)
  have hsession := htext 7 "session_id" (by decide +kernel)
  have hsystem := htext 8 "system" (by decide +kernel)
  simp only [LogEntry.ofRecord, htimestamp, hmodel, hthinking, hinput, houtput, htotal,
    hconversation, hsession, hsystem]
  simp [LogEntry.fields]

/-- The same under the columns of a ledger themselves. -/
theorem ofRecord_fields (e : LogEntry) : LogEntry.ofRecord ledgerColumns e.fields = e :=
  ofRecord_fields_of_beginsAsLedger beginsAsLedger_ledgerColumns e

/-! ## The whole text -/

/-- What a ledger holds after the rows of some entries have been written. -/
def ledgerText (entries : List LogEntry) : String :=
  ledgerHeader ++ "\n" ++ String.ofList (entries.flatMap fun e => Csv.row e.fields)

theorem ledgerText_nil : ledgerText [] = ledgerHeader ++ "\n" := by
  simp [ledgerText]

/-- One more entry is one more row at the end. -/
theorem ledgerText_concat (entries : List LogEntry) (e : LogEntry) :
    ledgerText (entries ++ [e]) = ledgerText entries ++ e.row := by
  simp [ledgerText, LogEntry.row, String.append_assoc]

/-- A ledger is a table: the header is the row of the names, and every entry has a row. -/
theorem toList_ledgerText (entries : List LogEntry) :
    (ledgerText entries).toList
      = (ledgerColumns :: entries.map LogEntry.fields).flatMap Csv.row := by
  rw [ledgerText, String.toList_append, toList_header, String.toList_ofList, List.flatMap_cons,
    List.flatMap_map]

/-- No row of a ledger is an empty line: all have nine fields. -/
theorem ledger_rows_ne (entries : List LogEntry) :
    ∀ fields ∈ ledgerColumns :: entries.map LogEntry.fields, fields ≠ [] ∧ fields ≠ [[]] := by
  intro fields hf
  rcases List.mem_cons.mp hf with rfl | hf
  · exact ⟨by decide +kernel, by decide +kernel⟩
  · obtain ⟨e, _, rfl⟩ := List.mem_map.mp hf
    exact ⟨by simp [LogEntry.fields], by simp [LogEntry.fields]⟩

/-- Rows that entries were written as are read as these entries. -/
theorem map_ofRecord_fields (entries : List LogEntry) :
    (entries.map LogEntry.fields).map (LogEntry.ofRecord ledgerColumns) = entries := by
  rw [List.map_map]
  exact (List.map_congr_left fun e _ => ofRecord_fields e).trans (List.map_id _)

/-- **A ledger is read as it was written**, whatever the texts in its entries. -/
theorem readEntries_ledgerText (entries : List LogEntry) :
    readEntries (ledgerText entries) = entries := by
  rw [readEntries, toList_ledgerText, Csv.records_rows _ (ledger_rows_ne entries),
    entriesOfRecords, map_ofRecord_fields]

/-! ## Its bytes -/

/-- The text of a ledger in bytes. -/
def ledgerBytes (entries : List LogEntry) : Bytes := Bytes.ofText (ledgerText entries)

theorem text?_ledgerBytes (entries : List LogEntry) :
    Bytes.text? (ledgerBytes entries) = some (ledgerText entries) := Bytes.text?_ofText _

/-- A ledger without entries is its header. -/
theorem ledgerBytes_nil : ledgerBytes [] = Ledger.headerLine := by
  rw [ledgerBytes, ledgerText_nil, Ledger.headerLine]

/-- One more entry is one more row at the end, in bytes. -/
theorem ledgerBytes_concat (entries : List LogEntry) (e : LogEntry) :
    ledgerBytes (entries ++ [e]) = ledgerBytes entries ++ Bytes.ofText e.row := by
  rw [ledgerBytes, ledgerText_concat, Bytes.ofText_append, ledgerBytes]

/-- The bytes of a ledger begin with the header. -/
theorem ledgerBytes_eq_append (entries : List LogEntry) :
    ∃ rows, ledgerBytes entries = Ledger.headerLine ++ rows :=
  ⟨_, Bytes.ofText_append _ _⟩

/-- Different entries make different bytes, because they are read back. -/
theorem ledgerBytes_injective {a b : List LogEntry} (h : ledgerBytes a = ledgerBytes b) :
    a = b := by
  have htext : some (ledgerText a) = some (ledgerText b) := by
    rw [← text?_ledgerBytes, h, text?_ledgerBytes]
  rw [← readEntries_ledgerText a, Option.some.inj htext, readEntries_ledgerText]

end QuotaWatch
