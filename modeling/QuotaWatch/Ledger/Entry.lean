import QuotaWatch.Quota.Status
import QuotaWatch.Time.Stamp

/-!
# Ledger entries and their summary

An entry books the consumption of one model at one time. `Summary.add` counts an entry in; counts
of tokens stop at the greatest 64-bit number.
-/

namespace QuotaWatch

open Time

/-- One row of the usage ledger. -/
structure LogEntry where
  timestamp : String
  model : String
  thinkingTokens : UInt64
  inputTokens : UInt64
  outputTokens : UInt64
  totalTokens : UInt64
  conversationId : String
  sessionId : String
  system : String
  deriving DecidableEq, Repr, Inhabited

/-- The entry of a record whose consumption is known. It is booked as output. -/
def LogEntry.ofRecord? (r : QuotaRecord) (now : Instant) (sessionId system : String) :
    Option LogEntry :=
  r.used.map fun used =>
    { timestamp := now.stamp .millis, model := r.identity, thinkingTokens := 0, inputTokens := 0,
      outputTokens := used, totalTokens := used, conversationId := "auto-sync", sessionId, system }

/-! ## Summaries -/

/-- The sum of two counts, or the greatest count if that is less. -/
def saturatingAdd (a b : UInt64) : UInt64 :=
  if a.toNat + b.toNat < UInt64.size then a + b else 0xFFFFFFFFFFFFFFFF

/-- Rows and tokens that belong together. -/
structure Bucket where
  count : UInt64
  tokens : UInt64
  deriving DecidableEq, Repr, Inhabited

/-- A bucket with one more row. -/
def Bucket.add (b : Bucket) (tokens : UInt64) : Bucket :=
  ⟨b.count + 1, saturatingAdd b.tokens tokens⟩

/-- Changes the bucket of a name in a list in ascending order of names; a name without a bucket
starts with an empty one. -/
def updateBucket (name : String) (f : Bucket → Bucket) :
    List (String × Bucket) → List (String × Bucket)
  | [] => [(name, f ⟨0, 0⟩)]
  | (n, b) :: rest =>
    if name < n then (name, f ⟨0, 0⟩) :: (n, b) :: rest
    else if name = n then (n, f b) :: rest
    else (n, b) :: updateBucket name f rest

theorem mem_updateBucket {name : String} {f : Bucket → Bucket} {x : String × Bucket} :
    ∀ {entries : List (String × Bucket)}, x ∈ updateBucket name f entries →
      x.1 = name ∨ x ∈ entries
  | [], h => by
    simp only [updateBucket, List.mem_singleton] at h
    exact .inl (by rw [h])
  | (n, b) :: rest, h => by
    rw [updateBucket] at h
    split at h
    · rcases List.mem_cons.mp h with rfl | h
      · exact .inl rfl
      · exact .inr h
    · split at h
      · rcases List.mem_cons.mp h with rfl | h
        · exact .inl (Eq.symm ‹name = n›)
        · exact .inr (List.mem_cons_of_mem _ h)
      · rcases List.mem_cons.mp h with rfl | h
        · exact .inr List.mem_cons_self
        · exact (mem_updateBucket h).imp id (List.mem_cons_of_mem _)

theorem sorted_updateBucket {name : String} {f : Bucket → Bucket} :
    ∀ {entries : List (String × Bucket)}, entries.Pairwise (fun a b => a.1 < b.1) →
      (updateBucket name f entries).Pairwise fun a b => a.1 < b.1
  | [], _ => by simp [updateBucket]
  | (n, b) :: rest, h => by
    have first : ∀ a ∈ rest, n < a.1 := fun a ha => List.rel_of_pairwise_cons h ha
    rw [updateBucket]
    split
    next hlt =>
      refine h.cons fun a ha => ?_
      rcases List.mem_cons.mp ha with rfl | ha
      · exact hlt
      · exact String.lt_trans hlt (first a ha)
    next hnot =>
      split
      next => exact h.of_cons.cons fun a ha => first a ha
      next hne =>
        refine (sorted_updateBucket h.of_cons).cons fun a ha => ?_
        rcases mem_updateBucket ha with rfl | ha
        · exact Std.lt_of_le_of_ne (Std.not_lt.mp hnot) (Ne.symm hne)
        · exact first a ha

/-- Buckets by name, in ascending order of names. -/
structure Buckets where
  entries : List (String × Bucket)
  sorted : entries.Pairwise fun a b => a.1 < b.1
  deriving DecidableEq, Repr

def Buckets.empty : Buckets := ⟨[], .nil⟩

instance : Inhabited Buckets := ⟨Buckets.empty⟩

/-- Changes the bucket of a name; a name without a bucket starts with an empty one. -/
def Buckets.update (buckets : Buckets) (name : String) (f : Bucket → Bucket) : Buckets :=
  ⟨updateBucket name f buckets.entries, sorted_updateBucket buckets.sorted⟩

def Buckets.get? (buckets : Buckets) (name : String) : Option Bucket :=
  (buckets.entries.find? fun b => b.1 = name).map (·.2)

/-- Totals over entries. -/
structure Summary where
  totalEntries : UInt64
  totalTokens : UInt64
  byModel : Buckets
  bySystem : Buckets
  firstEntry : Option String
  lastEntry : Option String
  deriving DecidableEq, Repr

/-- The summary of no entries. -/
def Summary.empty : Summary := ⟨0, 0, .empty, .empty, none, none⟩

instance : Inhabited Summary := ⟨Summary.empty⟩

/-- A summary with one more entry. -/
def Summary.add (s : Summary) (e : LogEntry) : Summary :=
  { totalEntries := s.totalEntries + 1
    totalTokens := saturatingAdd s.totalTokens e.totalTokens
    byModel := s.byModel.update e.model (·.add e.totalTokens)
    bySystem := s.bySystem.update e.system (·.add e.totalTokens)
    firstEntry := some (s.firstEntry.getD e.timestamp)
    lastEntry := some e.timestamp }

/-- The summary of entries in order. -/
def Summary.ofEntries (entries : List LogEntry) : Summary := entries.foldl Summary.add .empty

end QuotaWatch
