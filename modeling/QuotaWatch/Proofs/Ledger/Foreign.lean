import QuotaWatch.Proofs.Ledger.Torn

/-!
# Ledgers that were not written here

A file that another program wrote may serve as a ledger, if it begins like one. Its other columns
and its rows may be anything; what counts is that it ends with a line, outside quotes.

* **`append_foreign`**: the next entry is written behind it as one row, and it is read last, behind
  all that was read before.
-/

namespace QuotaWatch

variable {text : String} {columns : List (List Char)} {rows : List (List (List Char))}

/-- What was read before is read again, and then the entry. The reader stands between two records
where the table ends, and the entry is read by the columns of that table. -/
theorem readEntries_append_row (hfeed : text.toList.getLast? = some '\n')
    (hquotes : text.toList.count '"' % 2 = 0) (hrecords : Csv.records text.toList = columns :: rows)
    (hcolumns : BeginsAsLedger columns) (e : LogEntry) :
    readEntries (text ++ e.row) = readEntries text ++ [e] := by
  have hrow : Csv.records (text ++ e.row).toList = (columns :: rows) ++ [e.fields] := by
    rw [String.toList_append, toList_row, ← hrecords]
    exact Csv.records_closed_row hfeed hquotes (by simp [LogEntry.fields])
      (by simp [LogEntry.fields])
  rw [readEntries, readEntries, hrow, hrecords, List.cons_append, entriesOfRecords,
    entriesOfRecords, List.map_append, List.map_singleton,
    ofRecord_fields_of_beginsAsLedger hcolumns]

/-- **An entry is added to any table that begins like a ledger.** The table ends in a line feed and
has an even number of quotes, the first nine of its columns are those of a ledger, and these names
do not come again. Then the file grows by the row of the entry, and the entries read are those read
before and the new one. -/
theorem append_foreign (l : Ledger) (e : LogEntry) (hfeed : text.toList.getLast? = some '\n')
    (hquotes : text.toList.count '"' % 2 = 0) (hrecords : Csv.records text.toList = columns :: rows)
    (hcolumns : BeginsAsLedger columns) {d d' : Disk}
    (hfile : d.file? l.path = some (.bytes (Bytes.ofText text)))
    (happend : (l.append e).run d = (.ok (), d')) :
    d'.file? l.path = some (.bytes (Bytes.ofText (text ++ e.row)))
      ∧ ∃ before, l.readAll d = .ok before ∧ l.readAll d' = .ok (before ++ [e]) := by
  have hafter := Ledger.file?_of_append hfile happend
  refine ⟨hafter, readEntries text, Ledger.readAll_of_text hfile, ?_⟩
  rw [Ledger.readAll_of_text hafter, readEntries_append_row hfeed hquotes hrecords hcolumns]

/-- Empty lines, names in quotes and among blanks, a column more, a row that is too short, and one
with a line break in quotes. -/
def foreignText : String :=
  "\r\n\ntimestamp,\"model\", thinking_tokens ,input_tokens,output_tokens,total_tokens,"
    ++ "conversation_id,session_id,system,note\r\nshort\n\r\n1,\"a\n\"\"b\",x,2,3,4,c,s,h,n,more\n"

/-- The columns of this table. -/
def foreignColumns : List (List Char) :=
  ["timestamp", "model", " thinking_tokens ", "input_tokens", "output_tokens", "total_tokens",
    "conversation_id", "session_id", "system", "note"].map String.toList

/-- A table with all that is allowed in it takes the next entry and is read with it. -/
theorem append_foreign_sample :
    let e := quotedRow "3"
    foreignText.toList.getLast? = some '\n' ∧ foreignText.toList.count '"' % 2 = 0
      ∧ (∃ columns rows, Csv.records foreignText.toList = columns :: rows ∧ BeginsAsLedger columns)
      ∧ (diskWith foreignText).file? localLedger.path
        = some (.bytes (Bytes.ofText foreignText))
      ∧ (localLedger.append e).run (diskWith foreignText) = (.ok (), diskAfter foreignText e)
      ∧ (diskAfter foreignText e).file? localLedger.path
        = some (.bytes (Bytes.ofText (foreignText ++ e.row)))
      ∧ ∃ before, localLedger.readAll (diskWith foreignText) = .ok before
        ∧ localLedger.readAll (diskAfter foreignText e) = .ok (before ++ [e]) := by
  intro e
  -- one evaluation of the text for all that has to be known about it
  obtain ⟨hfeed, hquotes, hrecords⟩ : foreignText.toList.getLast? = some '\n'
      ∧ foreignText.toList.count '"' % 2 = 0
      ∧ Csv.records foreignText.toList = foreignColumns ::
        [["short"], ["1", "a\n\"b", "x", "2", "3", "4", "c", "s", "h", "n", "more"]].map
          (List.map String.toList) := by
    decide +kernel
  have hcolumns : BeginsAsLedger foreignColumns := ⟨by decide +kernel, by decide +kernel⟩
  obtain ⟨hfile, hread⟩ := append_foreign localLedger e hfeed hquotes hrecords hcolumns
    (file?_diskWith foreignText) (append_diskWith foreignText e)
  exact ⟨hfeed, hquotes, ⟨_, _, hrecords, hcolumns⟩, file?_diskWith _, append_diskWith _ _,
    hfile, hread⟩

end QuotaWatch
