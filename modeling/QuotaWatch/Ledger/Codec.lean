import QuotaWatch.Ledger.Entry
import QuotaWatch.Quota.Codec

/-!
# Ledger entries and summaries as JSON
-/

namespace QuotaWatch

open Json

def LogEntry.toJson (e : LogEntry) : Value :=
  .object
    [("timestamp", .string e.timestamp), ("model", .string e.model),
     ("thinking_tokens", .count e.thinkingTokens), ("input_tokens", .count e.inputTokens),
     ("output_tokens", .count e.outputTokens), ("total_tokens", .count e.totalTokens),
     ("conversation_id", .string e.conversationId), ("session_id", .string e.sessionId),
     ("system", .string e.system)]

def LogEntry.read : Reader LogEntry := fun n => do
  let found ← n.fields false
    [.of "timestamp" Node.text, .of "model" Node.text, .of "thinking_tokens" Node.count,
     .of "input_tokens" Node.count, .of "output_tokens" Node.count,
     .of "total_tokens" Node.count, .of "conversation_id" Node.text, .of "session_id" Node.text,
     .of "system" Node.text]
  let timestamp ← found.need "timestamp" Node.text
  let model ← found.need "model" Node.text
  let thinkingTokens ← found.need "thinking_tokens" Node.count
  let inputTokens ← found.need "input_tokens" Node.count
  let outputTokens ← found.need "output_tokens" Node.count
  let totalTokens ← found.need "total_tokens" Node.count
  let conversationId ← found.need "conversation_id" Node.text
  let sessionId ← found.need "session_id" Node.text
  let system ← found.need "system" Node.text
  .ok { timestamp, model, thinkingTokens, inputTokens, outputTokens, totalTokens, conversationId,
        sessionId, system }

def Bucket.toJson (b : Bucket) : Value :=
  .object [("count", .count b.count), ("tokens", .count b.tokens)]

def Bucket.read : Reader Bucket := fun n => do
  let found ← n.fields false [.of "count" Node.count, .of "tokens" Node.count]
  let count ← found.need "count" Node.count
  let tokens ← found.need "tokens" Node.count
  .ok { count, tokens }

def Buckets.toJson (b : Buckets) : Value :=
  .object (b.entries.map fun (name, bucket) => (name, bucket.toJson))

/-- Reads buckets. The last one of a name counts. -/
def Buckets.read : Reader Buckets := fun n => do
  let entries ← n.entries Bucket.read
  .ok (entries.foldl (fun buckets (name, b) => buckets.update name fun _ => b) .empty)

def Summary.toJson (s : Summary) : Value :=
  .object
    [("total_entries", .count s.totalEntries), ("total_tokens", .count s.totalTokens),
     ("by_model", s.byModel.toJson), ("by_system", s.bySystem.toJson),
     ("first_entry", .ofOption .string s.firstEntry),
     ("last_entry", .ofOption .string s.lastEntry)]

def Summary.read : Reader Summary := fun n => do
  let found ← n.fields false
    [.of "total_entries" Node.count, .of "total_tokens" Node.count, .of "by_model" Buckets.read,
     .of "by_system" Buckets.read, .of "first_entry" (Node.optional Node.text),
     .of "last_entry" (Node.optional Node.text)]
  let totalEntries ← found.need "total_entries" Node.count
  let totalTokens ← found.need "total_tokens" Node.count
  let byModel ← found.need "by_model" Buckets.read
  let bySystem ← found.need "by_system" Buckets.read
  let firstEntry ← found.getOr "first_entry" (Node.optional Node.text) none
  let lastEntry ← found.getOr "last_entry" (Node.optional Node.text) none
  .ok { totalEntries, totalTokens, byModel, bySystem, firstEntry, lastEntry }

end QuotaWatch
