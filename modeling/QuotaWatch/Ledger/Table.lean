import QuotaWatch.Ledger.Csv
import QuotaWatch.Ledger.Entry

/-!
# Entries as rows of a table

The first record of a table names its columns. `LogEntry.row` writes an entry under the columns of
the ledger; `readEntries` finds each part of an entry by the name of its column, so columns may
come in any order, and a missing part is empty or zero.
-/

namespace QuotaWatch

/-- The first line of a ledger: the names of its columns. -/
def ledgerHeader : String :=
  "timestamp,model,thinking_tokens,input_tokens,output_tokens,total_tokens,"
    ++ "conversation_id,session_id,system"

def LogEntry.fields (e : LogEntry) : List (List Char) :=
  [e.timestamp.toList, e.model.toList, Text.decimal e.thinkingTokens.toNat,
   Text.decimal e.inputTokens.toNat, Text.decimal e.outputTokens.toNat,
   Text.decimal e.totalTokens.toNat, e.conversationId.toList, e.sessionId.toList,
   e.system.toList]

def LogEntry.row (e : LogEntry) : String := String.ofList (Csv.row e.fields)

/-- Position of the last column with a given name. Blanks around a name do not count. -/
def columnIndex? (columns : List (List Char)) (name : String) : Option Nat :=
  let found := columns.reverse.findIdx? fun column => Text.trim column = name.toList
  found.map fun i => columns.length - 1 - i

/-- The field of a record under a name; empty if there is none. -/
def fieldNamed (columns record : List (List Char)) (name : String) : List Char :=
  ((columnIndex? columns name).bind fun i => record[i]?).getD []

/-- The count of a record under a name. What is not a number counts as zero. -/
def countNamed (columns record : List (List Char)) (name : String) : UInt64 :=
  (Text.count? (Text.trim (fieldNamed columns record name))).getD 0

def LogEntry.ofRecord (columns record : List (List Char)) : LogEntry :=
  let text (name : String) := String.ofList (fieldNamed columns record name)
  let count := countNamed columns record
  { timestamp := text "timestamp"
    model := text "model"
    thinkingTokens := count "thinking_tokens"
    inputTokens := count "input_tokens"
    outputTokens := count "output_tokens"
    totalTokens := count "total_tokens"
    conversationId := text "conversation_id"
    sessionId := text "session_id"
    system := text "system" }

/-- The entries of a table. -/
def entriesOfRecords : List (List (List Char)) → List LogEntry
  | [] => []
  | columns :: rows => rows.map (LogEntry.ofRecord columns)

/-- The entries in the text of a ledger. -/
def readEntries (text : String) : List LogEntry := entriesOfRecords (Csv.records text.toList)

end QuotaWatch
