import QuotaWatch.Config.Codec
import QuotaWatch.Ledger.Codec
import QuotaWatch.Proofs.Json.Readers
import QuotaWatch.Proofs.Time.Stamp

/-!
# What is written as JSON is read back

For each type of the program there are two facts: its reader accepts the value that `toJson` gives
(`accepts`), and that value is plain (`plain`). A type is settled from the types of its members.
-/

namespace QuotaWatch

open Json Time

variable {α : Type} {depth : Nat} {read : Reader α} {toJson : α → Value}

/-! ## Parts -/

theorem Json.plain_count (n : UInt64) : Plain depth (.count n) := .count n

/-- An array of plain values is plain, one bracket further out. -/
theorem Json.plain_array (h : ∀ a, Plain (depth + 1) (toJson a)) (as : List α) :
    Plain (depth + 2) (.array (as.map toJson)) :=
  .array (List.forall_mem_map.mpr fun a _ => h a)

/-- A value that may be absent is plain: it is null, or the value. -/
theorem Json.plain_ofOption (h : ∀ a, Plain depth (toJson a)) (o : Option α) :
    Plain depth (.ofOption toJson o) := by
  cases o with
  | none => exact .null
  | some a => exact h a

/-- A value that may be absent is accepted as it is, if nothing is written as null that is there. -/
theorem Json.accepts_ofOption (h : ∀ a, Accepts read (toJson a) a) (hne : ∀ a, toJson a ≠ .null)
    (o : Option α) : Accepts (Node.optional read) (.ofOption toJson o) o := by
  cases o with
  | none => exact accepts_null
  | some a => exact (h a).optional (hne a)

/-- Counts are never written as null. -/
theorem Json.accepts_optionalCount (o : Option UInt64) :
    Accepts (Node.optional Node.count) (.ofOption .count o) o :=
  accepts_ofOption accepts_count (fun _ => Value.noConfusion) o

/-- Texts are never written as null, the empty one included. -/
theorem Json.accepts_optionalText (o : Option String) :
    Accepts (Node.optional Node.text) (.ofOption .string o) o :=
  accepts_ofOption accepts_text (fun _ => Value.noConfusion) o

/-- An instant is written as its stamp, with all the digits that it needs. -/
theorem Time.Instant.accepts (t : Instant) : Accepts Instant.read t.toJson t :=
  accepts_textAs (read?_stamp t)

/-- A path is written as its text. -/
theorem Path.accepts (p : Path) : Accepts Path.read p.toJson p := (accepts_text p.text).map

theorem Tier.accepts (t : Tier) : Accepts Tier.read t.toJson t := by
  intro n hn
  rw [hn.eq_leaf rfl]
  cases t <;> rfl

/-! ## Records and snapshots -/

/-- A record is read member by member. Each member is taken from what `Fills.reads` says was found,
and the other types below follow the same three steps. -/
theorem QuotaRecord.accepts (r : QuotaRecord) : Accepts QuotaRecord.read r.toJson r := by
  intro n hn
  obtain ⟨found, hfound, held⟩ := Fills.reads
    (.member (accepts_text r.identity) <|
      .member (accepts_optionalCount r.limit) <|
      .member (accepts_optionalCount r.remaining) <|
      .member (accepts_text r.units) .nil) (by decide) false hn
  have hidentity : found.need "identity" Node.text = .ok r.identity :=
    held.need (by simp) (accepts_text _)
  have hlimit : found.getOr "limit" (Node.optional Node.count) none = .ok r.limit :=
    held.getOr (by simp) (accepts_optionalCount _) none
  have hremaining : found.getOr "remaining" (Node.optional Node.count) none = .ok r.remaining :=
    held.getOr (by simp) (accepts_optionalCount _) none
  have hunits : found.need "units" Node.text = .ok r.units := held.need (by simp) (accepts_text _)
  simp only [QuotaRecord.read, hfound, hidentity, hlimit, hremaining, hunits, bind, Except.bind]

theorem QuotaRecord.plain (r : QuotaRecord) : Plain (depth + 2) r.toJson :=
  .object (by simp [Plain.string, plain_ofOption plain_count])

/-- A snapshot is read with its records in their order. -/
theorem Snapshot.accepts (s : Snapshot) : Accepts Snapshot.read s.toJson s := by
  intro n hn
  obtain ⟨found, hfound, held⟩ := Fills.reads
    (.member s.timestamp.accepts <|
      .member (accepts_list QuotaRecord.accepts s.records) <|
      .member (accepts_text s.source) .nil) (by decide) false hn
  have htimestamp : found.need "timestamp" Instant.read = .ok s.timestamp :=
    held.need (by simp) s.timestamp.accepts
  have hrecords : found.need "records" (Node.list QuotaRecord.read) = .ok s.records :=
    held.need (by simp) (accepts_list QuotaRecord.accepts _)
  have hsource : found.need "source" Node.text = .ok s.source :=
    held.need (by simp) (accepts_text _)
  simp only [Snapshot.read, hfound, htimestamp, hrecords, hsource, bind, Except.bind]

theorem Snapshot.plain (s : Snapshot) : Plain (depth + 4) s.toJson :=
  .object (by simp [Instant.toJson, Plain.string, plain_array QuotaRecord.plain])

/-! ## Thresholds and statuses -/

/-- Thresholds are read back, and the order of their floors, which the reader asks for, is a part of
them. -/
theorem Thresholds.accepts (t : Thresholds) : Accepts Thresholds.read t.toJson t := by
  intro n hn
  obtain ⟨found, hfound, held⟩ := Fills.reads
    (.member (accepts_count t.greenFloor) <|
      .member (accepts_count t.yellowFloor) .nil) (by decide) false hn
  have hgreen : found.need "green_floor" Node.count = .ok t.greenFloor :=
    held.need (by simp) (accepts_count _)
  have hyellow : found.need "yellow_floor" Node.count = .ok t.yellowFloor :=
    held.need (by simp) (accepts_count _)
  simp only [Thresholds.read, hfound, hgreen, hyellow, Thresholds.make, dif_pos t.yellow_lt_green,
    except_mapError_ok, bind, Except.bind]

theorem Thresholds.plain (t : Thresholds) : Plain (depth + 2) t.toJson :=
  .object (by simp [plain_count])

theorem Status.accepts (s : Status) : Accepts Status.read s.toJson s := by
  intro n hn
  obtain ⟨found, hfound, held⟩ := Fills.reads
    (.member s.timestamp.accepts <|
      .member (accepts_count s.highQuota) <|
      .member s.tier.accepts <|
      .member (accepts_text s.recommendation) <|
      .member (accepts_text s.reasoning) .nil) (by decide) false hn
  -- each field is then needed by the reader, and is there
  have htimestamp : found.need "timestamp" Instant.read = .ok s.timestamp :=
    held.need (by simp) s.timestamp.accepts
  have hquota : found.need "high_quota" Node.count = .ok s.highQuota :=
    held.need (by simp) (accepts_count _)
  have htier : found.need "tier" Tier.read = .ok s.tier := held.need (by simp) s.tier.accepts
  have hrecommendation : found.need "recommendation" Node.text = .ok s.recommendation :=
    held.need (by simp) (accepts_text _)
  have hreasoning : found.need "reasoning" Node.text = .ok s.reasoning :=
    held.need (by simp) (accepts_text _)
  simp only [Status.read, hfound, htimestamp, hquota, htier, hrecommendation, hreasoning, bind,
    Except.bind]

theorem Status.plain (s : Status) : Plain (depth + 2) s.toJson :=
  .object (by simp [Instant.toJson, Tier.toJson, Plain.string, plain_count])

/-! ## Ledger entries and summaries -/

theorem LogEntry.accepts (e : LogEntry) : Accepts LogEntry.read e.toJson e := by
  intro n hn
  obtain ⟨found, hfound, held⟩ := Fills.reads
    (.member (accepts_text e.timestamp) <|
      .member (accepts_text e.model) <|
      .member (accepts_count e.thinkingTokens) <|
      .member (accepts_count e.inputTokens) <|
      .member (accepts_count e.outputTokens) <|
      .member (accepts_count e.totalTokens) <|
      .member (accepts_text e.conversationId) <|
      .member (accepts_text e.sessionId) <|
      .member (accepts_text e.system) .nil) (by decide) false hn
  -- each field is then needed by the reader, and is there
  have htimestamp : found.need "timestamp" Node.text = .ok e.timestamp :=
    held.need (by simp) (accepts_text _)
  have hmodel : found.need "model" Node.text = .ok e.model := held.need (by simp) (accepts_text _)
  have hthinking : found.need "thinking_tokens" Node.count = .ok e.thinkingTokens :=
    held.need (by simp) (accepts_count _)
  have hinput : found.need "input_tokens" Node.count = .ok e.inputTokens :=
    held.need (by simp) (accepts_count _)
  have houtput : found.need "output_tokens" Node.count = .ok e.outputTokens :=
    held.need (by simp) (accepts_count _)
  have htotal : found.need "total_tokens" Node.count = .ok e.totalTokens :=
    held.need (by simp) (accepts_count _)
  have hconversation : found.need "conversation_id" Node.text = .ok e.conversationId :=
    held.need (by simp) (accepts_text _)
  have hsession : found.need "session_id" Node.text = .ok e.sessionId :=
    held.need (by simp) (accepts_text _)
  have hsystem : found.need "system" Node.text = .ok e.system :=
    held.need (by simp) (accepts_text _)
  simp only [LogEntry.read, hfound, htimestamp, hmodel, hthinking, hinput, houtput, htotal,
    hconversation, hsession, hsystem, bind, Except.bind]

theorem LogEntry.plain (e : LogEntry) : Plain (depth + 2) e.toJson :=
  .object (by simp [Plain.string, plain_count])

theorem Bucket.accepts (b : Bucket) : Accepts Bucket.read b.toJson b := by
  intro n hn
  obtain ⟨found, hfound, held⟩ := Fills.reads
    (.member (accepts_count b.count) <| .member (accepts_count b.tokens) .nil) (by decide) false hn
  have hcount : found.need "count" Node.count = .ok b.count :=
    held.need (by simp) (accepts_count _)
  have htokens : found.need "tokens" Node.count = .ok b.tokens :=
    held.need (by simp) (accepts_count _)
  simp only [Bucket.read, hfound, hcount, htokens, bind, Except.bind]

/-- The counts of a bucket are plain. -/
theorem Bucket.plain (b : Bucket) : Plain (depth + 2) b.toJson :=
  .object (by simp [plain_count])

/-- A name behind all others gets its bucket at the end. -/
theorem updateBucket_last {name : String} {f : Bucket → Bucket} :
    ∀ {entries : List (String × Bucket)}, (∀ e ∈ entries, e.1 < name) →
      updateBucket name f entries = entries ++ [(name, f ⟨0, 0⟩)]
  | [], _ => rfl
  | (n, b) :: rest, h => by
    have hlt : n < name := h (n, b) List.mem_cons_self
    have hnotLt : ¬ name < n := Std.not_lt.mpr (Std.le_of_lt hlt)
    have hne : name ≠ n := fun heq => Std.lt_irrefl (heq ▸ hlt)
    rw [updateBucket, if_neg hnotLt, if_neg hne,
      updateBucket_last fun e he => h e (List.mem_cons_of_mem _ he), List.cons_append]

/-- Buckets that come in ascending order of their names stay in the order they come in. Reading puts
them in one by one, and what was written is sorted. -/
theorem entries_foldl_update : ∀ (entries : List (String × Bucket)) (buckets : Buckets),
    (buckets.entries ++ entries).Pairwise (fun a b => a.1 < b.1) →
      (entries.foldl (fun buckets (name, b) => buckets.update name fun _ => b) buckets).entries
        = buckets.entries ++ entries
  | [], buckets, _ => (List.append_nil _).symm
  | (name, b) :: rest, buckets, h => by
    have hbehind : ∀ e ∈ buckets.entries, e.1 < name := fun e he =>
      (List.pairwise_append.mp h).2.2 e he (name, b) List.mem_cons_self
    have hupdate : (buckets.update name fun _ => b).entries = buckets.entries ++ [(name, b)] :=
      updateBucket_last hbehind
    rw [List.foldl_cons, entries_foldl_update rest _ (by rw [hupdate]; simpa using h), hupdate,
      List.append_assoc, List.singleton_append]

/-- Buckets are their entries; that these are sorted is a proof. -/
theorem Buckets.eq_of_entries {b b' : Buckets} (h : b.entries = b'.entries) : b = b' := by
  cases b
  cases b'
  simpa using h

/-- Buckets are read back, since they are written in the order that reading them keeps. -/
theorem Buckets.accepts (b : Buckets) : Accepts Buckets.read b.toJson b := by
  intro n hn
  have hentries : n.entries Bucket.read = .ok b.entries :=
    accepts_entries Bucket.accepts b.entries n hn
  simp only [Buckets.read, hentries, bind, Except.bind]
  exact congrArg Except.ok (Buckets.eq_of_entries (entries_foldl_update b.entries .empty b.sorted))

theorem Buckets.plain (b : Buckets) : Plain (depth + 4) b.toJson :=
  .object (List.forall_mem_map.mpr fun e _ => e.2.plain)

/-- A summary is read back, with both of its tables. The first and the last entry may be missing. -/
theorem Summary.accepts (s : Summary) : Accepts Summary.read s.toJson s := by
  intro n hn
  obtain ⟨found, hfound, held⟩ := Fills.reads
    (.member (accepts_count s.totalEntries) <|
      .member (accepts_count s.totalTokens) <|
      .member s.byModel.accepts <|
      .member s.bySystem.accepts <|
      .member (accepts_optionalText s.firstEntry) <|
      .member (accepts_optionalText s.lastEntry) .nil) (by decide) false hn
  have hentries : found.need "total_entries" Node.count = .ok s.totalEntries :=
    held.need (by simp) (accepts_count _)
  have htokens : found.need "total_tokens" Node.count = .ok s.totalTokens :=
    held.need (by simp) (accepts_count _)
  have hmodel : found.need "by_model" Buckets.read = .ok s.byModel :=
    held.need (by simp) s.byModel.accepts
  have hsystem : found.need "by_system" Buckets.read = .ok s.bySystem :=
    held.need (by simp) s.bySystem.accepts
  -- the first and last entry may be missing, but here they are written
  have hfirst : found.getOr "first_entry" (Node.optional Node.text) none = .ok s.firstEntry :=
    held.getOr (by simp) (accepts_optionalText _) none
  have hlast : found.getOr "last_entry" (Node.optional Node.text) none = .ok s.lastEntry :=
    held.getOr (by simp) (accepts_optionalText _) none
  simp only [Summary.read, hfound, hentries, htokens, hmodel, hsystem, hfirst, hlast, bind,
    Except.bind]

theorem Summary.plain (s : Summary) : Plain (depth + 6) s.toJson :=
  .object (by simp [Buckets.plain, plain_count, plain_ofOption Plain.string])

/-! ## Scan settings and configurations -/

/-- A marker is written as an array of counts. -/
theorem Json.accepts_bytes (bytes : Bytes) :
    Accepts (Node.list Node.byte) (.array (bytes.map fun b => .count b.toUInt64)) bytes :=
  accepts_list accepts_byte bytes

theorem Json.accepts_texts (texts : List String) :
    Accepts (Node.list Node.text) (.array (texts.map .string)) texts :=
  accepts_list accepts_text texts

/-- The settings of a scan are read from what is written of them. All of it is written, an absent
limit as null, so no default stands in for anything. -/
theorem ScanSettings.accepts (s : ScanSettings) : Accepts ScanSettings.read s.toJson s := by
  intro n hn
  obtain ⟨found, hfound, held⟩ := Fills.reads
    (.member (accepts_count s.window) <|
      .member (accepts_bytes s.marker) <|
      .member (accepts_count s.maxVarintBytes) <|
      .member (accepts_optionalCount s.assumedLimit) <|
      .member (accepts_text s.units) <|
      .member (accepts_flag s.preferLengthPrefixed) .nil) (by decide) true hn
  -- a setting may be missing; as all are written, no default is taken
  have hwindow (default) : found.getOr "window" Node.count default = .ok s.window :=
    held.getOr (by simp) (accepts_count _) default
  have hmarker (default) : found.getOr "marker" (Node.list Node.byte) default = .ok s.marker :=
    held.getOr (by simp) (accepts_bytes _) default
  have hmax (default) : found.getOr "max_varint_bytes" Node.count default = .ok s.maxVarintBytes :=
    held.getOr (by simp) (accepts_count _) default
  have hlimit (default) :
      found.getOr "assumed_limit" (Node.optional Node.count) default = .ok s.assumedLimit :=
    held.getOr (by simp) (accepts_optionalCount _) default
  have hunits (default) : found.getOr "units" Node.text default = .ok s.units :=
    held.getOr (by simp) (accepts_text _) default
  have hprefer (default) :
      found.getOr "prefer_length_prefixed" Node.flag default = .ok s.preferLengthPrefixed :=
    held.getOr (by simp) (accepts_flag _) default
  simp only [ScanSettings.read, hfound, hwindow, hmarker, hmax, hlimit, hunits, hprefer, bind,
    Except.bind]

theorem ScanSettings.plain (s : ScanSettings) : Plain (depth + 4) s.toJson :=
  .object (by simp [plain_array, Plain.bool, Plain.string, plain_count, plain_ofOption])

/-- A member that may be left out has a field. -/
theorem Json.Fills.optional {fields : List Field} {ms : List (String × Value)} (name : String)
    (h : ∀ a, Accepts read (toJson a) a) (hne : ∀ a, toJson a ≠ .null) (o : Option α)
    (rest : Fills fields ms) :
    Fills (.of name (Node.optional read) :: fields) (optionalMember name toJson o ++ ms) := by
  cases o with
  | none => exact rest.skipped
  | some a => exact rest.member ((h a).optional (hne a))

/-- A configuration is read back. Its paths are left out if they are absent, and then their fields
find nothing. -/
theorem Config.accepts (c : Config) : Accepts Config.read c.toJson c := by
  intro n hn
  have hne : ∀ p : Path, p.toJson ≠ .null := fun _ => Value.noConfusion
  rw [Config.toJson] at hn
  simp only [List.append_assoc, List.cons_append, List.nil_append] at hn
  obtain ⟨found, hfound, held⟩ := Fills.reads
    (.member (accepts_count c.refreshIntervalMs) <|
      .member (accepts_count c.logIntervalMs) <|
      .optional "store_path" Path.accepts hne c.storePath <|
      .optional "ledger_path" Path.accepts hne c.ledgerPath <|
      .member (accepts_text c.highTierModel) <|
      .member (accepts_text c.systemLabel) <|
      .member (accepts_texts c.catalog) <|
      .member c.thresholds.accepts <|
      .member c.scan.accepts .nil) (by decide) true hn
  have hrefresh (default) :
      found.getOr "refresh_interval_ms" Node.count default = .ok c.refreshIntervalMs :=
    held.getOr (by simp) (accepts_count _) default
  have hlog (default) : found.getOr "log_interval_ms" Node.count default = .ok c.logIntervalMs :=
    held.getOr (by simp) (accepts_count _) default
  -- a path that is left out is not found, whatever the other one does
  have hstore : found.getOr "store_path" (Node.optional Path.read) none = .ok c.storePath := by
    cases hpath : c.storePath with
    | some p => exact held.getOr (by simp [hpath, optionalMember]) (p.accepts.optional (hne p)) _
    | none =>
      refine held.getOr_missing ?_ none
      cases c.ledgerPath <;> simp [hpath, optionalMember]
  have hledger : found.getOr "ledger_path" (Node.optional Path.read) none = .ok c.ledgerPath := by
    cases hpath : c.ledgerPath with
    | some p => exact held.getOr (by simp [hpath, optionalMember]) (p.accepts.optional (hne p)) _
    | none =>
      refine held.getOr_missing ?_ none
      cases c.storePath <;> simp [hpath, optionalMember]
  have hmodel (default) : found.getOr "high_tier_model" Node.text default = .ok c.highTierModel :=
    held.getOr (by simp) (accepts_text _) default
  have hlabel (default) : found.getOr "system_label" Node.text default = .ok c.systemLabel :=
    held.getOr (by simp) (accepts_text _) default
  have hcatalog (default) :
      found.getOr "catalog" (Node.list Node.text) default = .ok c.catalog :=
    held.getOr (by simp) (accepts_texts _) default
  have hthresholds (default) :
      found.getOr "thresholds" Thresholds.read default = .ok c.thresholds :=
    held.getOr (by simp) c.thresholds.accepts default
  have hscan (default) : found.getOr "scan" ScanSettings.read default = .ok c.scan :=
    held.getOr (by simp) c.scan.accepts default
  simp only [Config.read, hfound, hrefresh, hlog, Config.standard, hstore, hledger, hmodel, hlabel,
    hcatalog, hthresholds, hscan, bind, Except.bind]

theorem Json.plain_optionalMember {name : String} (h : ∀ a, Plain depth (toJson a))
    (o : Option α) : ∀ m ∈ optionalMember name toJson o, Plain depth m.2 := by
  cases o with
  | none => simp [optionalMember]
  | some a => simp [optionalMember, h a]

/-- The brackets of a configuration are three deep at most, around the marker in its scan settings.
-/
theorem Config.plain (c : Config) : Plain (depth + 6) c.toJson := by
  have hpath (p : Path) : Plain (depth + 5) p.toJson := .string p.text
  refine .object ?_
  simp only [List.forall_mem_append]
  refine ⟨⟨⟨?_, plain_optionalMember hpath c.storePath⟩,
    plain_optionalMember hpath c.ledgerPath⟩, ?_⟩
  · simp [plain_count]
  · simp [Plain.string, plain_array, Thresholds.plain, ScanSettings.plain]

/-! ## Floors -/

/-- Two floors, whatever their order. -/
def Thresholds.floors : Reader (UInt64 × UInt64) := fun n => do
  let found ← n.fields false [.of "green_floor" Node.count, .of "yellow_floor" Node.count]
  let greenFloor ← found.need "green_floor" Node.count
  let yellowFloor ← found.need "yellow_floor" Node.count
  .ok (greenFloor, yellowFloor)

/-- Thresholds are made of their own floors only. -/
theorem Thresholds.make_ok_iff {greenFloor yellowFloor : UInt64} {t : Thresholds} :
    Thresholds.make greenFloor yellowFloor = .ok t
      ↔ greenFloor = t.greenFloor ∧ yellowFloor = t.yellowFloor := by
  constructor
  · intro h
    unfold Thresholds.make at h
    split at h
    · cases h
      exact ⟨rfl, rfl⟩
    · cases h
  · rintro ⟨rfl, rfl⟩
    exact dif_pos t.yellow_lt_green

/-- Thresholds are read where their floors are. Both readers ask for the same members in the same
way; what is left of the difference is the order. -/
theorem Thresholds.read_ok_iff {n : Node} {t : Thresholds} :
    Thresholds.read n = .ok t ↔ Thresholds.floors n = .ok (t.greenFloor, t.yellowFloor) := by
  simp only [Thresholds.read, Thresholds.floors, except_bind_ok_iff, except_mapError_ok_iff,
    make_ok_iff, Except.ok.injEq, Prod.mk.injEq]

/-- Floors are read as thresholds just if they are in order. -/
theorem Thresholds.exists_read_iff {n : Node} {greenFloor yellowFloor : UInt64}
    (h : Thresholds.floors n = .ok (greenFloor, yellowFloor)) :
    (∃ t, Thresholds.read n = .ok t) ↔ yellowFloor < greenFloor := by
  constructor
  · rintro ⟨t, ht⟩
    rw [read_ok_iff, h] at ht
    cases ht
    exact t.yellow_lt_green
  · intro hlt
    exact ⟨⟨greenFloor, yellowFloor, hlt⟩, read_ok_iff.mpr h⟩

/-- The thresholds of a configuration are read of the part for them, or standard without one. In an
array that is the part at position 7. -/
theorem Config.thresholds_of_read {n : Node} {c : Config} (h : Config.read n = .ok c) :
    match n.part? "thresholds" 7 with
    | some part => Thresholds.floors part = .ok (c.thresholds.greenFloor, c.thresholds.yellowFloor)
    | none => c.thresholds = .standard := by
  simp only [Config.read, except_bind_ok_iff] at h
  obtain ⟨found, hfound, _, _, _, _, _, _, _, _, _, _, _, _, _, _, thresholds, hthresholds, _, _,
    ⟨⟩⟩ := h
  -- the thresholds are the field at place 7
  have hpart : found.get? "thresholds" = n.part? "thresholds" 7 :=
    get?_of_fields hfound (by decide)
      (show _ = some (Field.of "thresholds" Thresholds.read) from rfl)
  rw [← hpart]
  unfold Found.getOr at hthresholds
  cases hget : found.get? "thresholds" with
  | some part =>
    rw [hget] at hthresholds
    exact Thresholds.read_ok_iff.mp hthresholds
  | none =>
    rw [hget] at hthresholds
    cases hthresholds
    rfl

/-! ## Texts -/

/-- A way to write values and one to read them that fit together, whichever way the text is laid
out. -/
structure RoundTrips (toJson : α → Value) (read : Reader α) : Prop where
  compact : ∀ a, Reader.run read (toJson a).compact = .ok a
  pretty : ∀ a, Reader.run read (toJson a).pretty = .ok a

/-- A type is read back from both layouts if its reader accepts what is written and that is plain.
This is where its two facts meet. -/
theorem RoundTrips.of_plain (haccepts : ∀ a, Accepts read (toJson a) a)
    (hplain : ∀ a, Plain depthLimit (toJson a)) : RoundTrips toJson read where
  compact a := (haccepts a).run (hplain a).writes_compact
  pretty a := by
    have hwrites := (hplain a).writes_pretty blank_nil
    rw [List.append_nil] at hwrites
    exact (haccepts a).run hwrites

/-- **Every type is read back from what is written of it, and thresholds are read, alone or in a
configuration, from floors in the right order only.** -/
theorem json_round_trip :
    RoundTrips QuotaRecord.toJson QuotaRecord.read
      ∧ RoundTrips Snapshot.toJson Snapshot.read
      ∧ RoundTrips Status.toJson Status.read
      ∧ RoundTrips LogEntry.toJson LogEntry.read
      ∧ RoundTrips Summary.toJson Summary.read
      ∧ RoundTrips Thresholds.toJson Thresholds.read
      ∧ RoundTrips ScanSettings.toJson ScanSettings.read
      ∧ RoundTrips Config.toJson Config.read
      ∧ (∀ text t, Reader.run Thresholds.read text = .ok t →
          Reader.run Thresholds.floors text = .ok (t.greenFloor, t.yellowFloor)
            ∧ t.yellowFloor < t.greenFloor)
      ∧ (∀ text greenFloor yellowFloor,
          Reader.run Thresholds.floors text = .ok (greenFloor, yellowFloor) →
            ((∃ t, Reader.run Thresholds.read text = .ok t) ↔ yellowFloor < greenFloor))
      ∧ (∀ text c, Reader.run Config.read text = .ok c →
          c.thresholds.yellowFloor < c.thresholds.greenFloor
            ∧ match (Document.read text).root.part? "thresholds" 7 with
              | some part =>
                Thresholds.floors part = .ok (c.thresholds.greenFloor, c.thresholds.yellowFloor)
              | none => c.thresholds = .standard) := by
  refine ⟨.of_plain QuotaRecord.accepts QuotaRecord.plain,
    .of_plain Snapshot.accepts Snapshot.plain, .of_plain Status.accepts Status.plain,
    .of_plain LogEntry.accepts LogEntry.plain, .of_plain Summary.accepts Summary.plain,
    .of_plain Thresholds.accepts Thresholds.plain,
    .of_plain ScanSettings.accepts ScanSettings.plain, .of_plain Config.accepts Config.plain,
    fun text t ht => ⟨?_, t.yellow_lt_green⟩, fun text greenFloor yellowFloor hfloors => ?_,
    fun text c hc => ⟨c.thresholds.yellow_lt_green, ?_⟩⟩
  · obtain ⟨ht, hsurplus⟩ := run_ok_iff.mp ht
    exact run_ok_iff.mpr ⟨Thresholds.read_ok_iff.mp ht, hsurplus⟩
  · obtain ⟨hfloors, hsurplus⟩ := run_ok_iff.mp hfloors
    simp only [run_ok_iff, hsurplus, and_true]
    exact Thresholds.exists_read_iff hfloors
  · exact Config.thresholds_of_read (run_ok_iff.mp hc).1

/-- Thresholds with their floors exchanged. -/
def exchangedFloors : Bytes := Bytes.ofText "\x7b\"green_floor\":300,\"yellow_floor\":700\x7d"

/-- The standard configuration is read back; floors that are exchanged are read as floors and
refused as thresholds. -/
theorem json_round_trip_exchangedFloors :
    Reader.run Config.read Config.standard.toJson.compact = .ok .standard
      ∧ Config.standard.thresholds.yellowFloor < Config.standard.thresholds.greenFloor
      ∧ Reader.run Thresholds.floors exchangedFloors = .ok (300, 700)
      ∧ ¬ ∃ t, Reader.run Thresholds.read exchangedFloors = .ok t := by
  obtain ⟨-, -, -, -, -, -, -, hconfig, -, hfloors, hthresholds⟩ := json_round_trip
  have hstandard := hconfig.compact .standard
  have hexchanged : Reader.run Thresholds.floors exchangedFloors = .ok (300, 700) := by
    decide +kernel
  exact ⟨hstandard, (hthresholds _ _ hstandard).1, hexchanged,
    (hfloors _ 300 700 hexchanged).not.mpr (by decide)⟩

end QuotaWatch
