import QuotaWatch.Proofs.Blob.Search
import QuotaWatch.Proofs.Ledger.File
import QuotaWatch.Proofs.Watch.Tick

/-!
# What a tick writes to the ledger

* **`accounting`**: a tick changes a ledger that is there only by rows at its end. They are the rows
  of the first `Look.logged` records of the snapshot whose consumption is known, and these are all
  such records unless a write failed; that one is reported, and no other is tried after it.

What has to be written is the `Session.batch` of the tick, whatever source the snapshot came from. A
probe adds that its snapshots carry the time of the tick and that nothing is lost in the
subtraction.

`Writes` is the course of the rows that were written, whatever writes them. `Watch.writeAll_spec`
says how a course ends, and `Writes.file?` what it does to the file of a ledger.
-/

namespace QuotaWatch

open Disk Time

/-! ## Writing until a failure -/

/-- Entries are written one after the other, from one disk to another. Only writes that succeed are
part of a course. -/
inductive Writes (write : LogEntry → DiskM Unit) : Disk → List LogEntry → Disk → Prop where
  | nil (d : Disk) : Writes write d [] d
  | cons {d d' d'' : Disk} {e : LogEntry} {rest : List LogEntry}
      (first : (write e).run d = (.ok (), d')) (more : Writes write d' rest d'') :
      Writes write d (e :: rest) d''

/-- The report of a write that failed. -/
def ledgerReport (fault : DiskFault) : String := s!"Ledger error: {fault.message}"

/-- How writing ends with `logged` entries written: with all of them, or with one that failed. -/
inductive WriteEnd (write : LogEntry → DiskM Unit) (w : Watch) (entries : List LogEntry)
    (logged : Nat) : Watch → Prop where
  | all {d : Disk} (length : logged = entries.length) (writes : Writes write w.disk entries d) :
      WriteEnd write w entries logged { w with disk := d }
  | failed {d d' : Disk} {e : LogEntry} {fault : DiskFault} (next : entries[logged]? = some e)
      (writes : Writes write w.disk (entries.take logged) d)
      (failure : (write e).run d = (.error fault, d')) :
      WriteEnd write w entries logged (Watch.report { w with disk := d' } (ledgerReport fault))

/-- Writing until a failure ends in one of the two ways of `WriteEnd`, whatever the disk is like.
Induction on the entries: the way in which the rest ends is that of the whole. -/
theorem Watch.writeAll_spec (write : LogEntry → DiskM Unit) (entries : List LogEntry) (w : Watch) :
    WriteEnd write w entries (w.writeAll write entries).1 (w.writeAll write entries).2 := by
  induction entries generalizing w with
  | nil => exact .all rfl (.nil _)
  | cons e rest ih =>
    rw [writeAll]
    rcases hfirst : (write e).run w.disk with ⟨fault | _, d⟩
    · exact .failed rfl (.nil _) hfirst
    · -- the rest ends as it does from the disk that this entry leaves
      have hrest := ih { w with disk := d }
      simp only
      generalize ({ w with disk := d } : Watch).writeAll write rest = r at hrest ⊢
      obtain ⟨logged, w'⟩ := r
      cases hrest with
      | all length writes =>
        exact .all (by simp only [List.length_cons, ← length]) (.cons hfirst writes)
      | failed next writes failure =>
        exact .failed (by simpa using next) (.cons hfirst writes) failure

@[simp] theorem Watch.reports_report (w : Watch) (text : String) :
    (w.report text).screen.reports = w.screen.reports ++ [text] := by
  simp [Watch.report, Screen.report, Screen.reports, Shown.report?]

/-- A failure is reported once, and nothing is tried after it. The entry that failed and the disk
that it was tried on are those right behind the course of what was written. -/
theorem WriteEnd.outcome {write : LogEntry → DiskM Unit} {w w' : Watch} {entries : List LogEntry}
    {logged : Nat} (h : WriteEnd write w entries logged w') :
    (logged = entries.length ∧ w'.screen.reports = w.screen.reports)
      ∨ (logged < entries.length ∧ ∃ d e fault, entries[logged]? = some e
          ∧ Writes write w.disk (entries.take logged) d
          ∧ (write e).run d = (.error fault, w'.disk)
          ∧ w'.screen.reports = w.screen.reports ++ [ledgerReport fault]) := by
  cases h with
  | all length writes => exact .inl ⟨length, rfl⟩
  | @failed d d' e fault next writes failure =>
    obtain ⟨hlt, _⟩ := List.getElem?_eq_some_iff.mp next
    exact .inr ⟨hlt, d, e, fault, next, writes, failure, by simp⟩

/-! ## What writing does to a ledger that is there -/

/-- Rows as bytes. -/
def rowBytes (entries : List LogEntry) : Bytes := entries.flatMap fun e => Bytes.ofText e.row

section Ledger

variable {l : Ledger} {d d' : Disk} {content : Content} {e : LogEntry}

/-- A write to a ledger that is there and failed has changed nothing: the only thing that can fail
is the lock, and it comes first. -/
theorem eq_of_append_error {fault : DiskFault} (hfile : d.file? l.path = some content)
    (h : (l.append e).run d = (.error fault, d')) : d' = d := by
  rcases Ledger.append_file? (e := e) hfile with ⟨_, hrun⟩ | ⟨_, hrun, _⟩
  · rw [hrun] at h
    cases h
    rfl
  · rw [hrun] at h
    cases h

/-- **The ledger grows by what was written.** Induction on the course; each entry that was written
grows the file by its row, and what other files do does not matter. -/
theorem Writes.file? {entries : List LogEntry} (h : Writes l.append d entries d') :
    ∀ {content : Content}, d.file? l.path = some content →
      d'.file? l.path = some (content.grow (rowBytes entries)) := by
  induction h with
  | nil d =>
    intro content hfile
    simpa [rowBytes] using hfile
  | @cons d d₁ d₂ e rest first more ih =>
    intro content hfile
    rcases Ledger.append_file? (e := e) hfile with ⟨_, hrun⟩ | ⟨_, hrun, hfile'⟩
    · rw [hrun] at first
      cases first
    · rw [hrun] at first
      cases first
      rw [ih hfile', Content.grow_grow]
      rfl

/-- However writing ends, the ledger has grown by what was written, and never by a part of a row. -/
theorem WriteEnd.file? {w w' : Watch} {entries : List LogEntry} {logged : Nat}
    (h : WriteEnd l.append w entries logged w') (hfile : w.disk.file? l.path = some content) :
    w'.disk.file? l.path = some (content.grow (rowBytes (entries.take logged))) := by
  cases h with
  | all length writes =>
    rw [length, List.take_length]
    exact writes.file? hfile
  | failed next writes failure =>
    -- the write that failed comes last and changes nothing
    have hgrown := writes.file? hfile
    rw [Watch.report_disk, eq_of_append_error hgrown failure]
    exact hgrown

end Ledger

/-! ## Records as rows -/

/-- Whether limit and rest are both known. -/
def QuotaRecord.isKnown (r : QuotaRecord) : Bool := r.limit.isSome && r.remaining.isSome

namespace Session

variable {s : Session} {w : Watch}

/-- The row of a record whose limit and rest are known. -/
def booked (s : Session) (now : Instant) (r : QuotaRecord) : LogEntry :=
  let used := r.used.getD 0
  { timestamp := now.stamp .millis, model := r.identity, thinkingTokens := 0, inputTokens := 0,
    outputTokens := used, totalTokens := used, conversationId := "auto-sync", sessionId := s.name,
    system := s.config.systemLabel }

/-- The records that a tick hands to the ledger and whose limit and rest are known. -/
def dueRecords (s : Session) (w : Watch) : List QuotaRecord :=
  match s.handed? w with
  | some snapshot => snapshot.records.filter QuotaRecord.isKnown
  | none => []

/-- The rows that a tick has to write. -/
def batch (s : Session) (w : Watch) : List LogEntry :=
  match s.handed? w with
  | some snapshot => s.entries snapshot
  | none => []

/-- A record makes a row exactly if its limit and its rest are known. The row takes no notice of
which of them the blob gave. -/
theorem ofRecord?_eq (s : Session) (r : QuotaRecord) (now : Instant) :
    LogEntry.ofRecord? r now s.name s.config.systemLabel =
      if r.isKnown then some (s.booked now r) else none := by
  cases hlimit : r.limit with
  | none => simp [LogEntry.ofRecord?, QuotaRecord.used, QuotaRecord.isKnown, hlimit]
  | some limit =>
    cases hremaining : r.remaining with
    | none => simp [LogEntry.ofRecord?, QuotaRecord.used, QuotaRecord.isKnown, hlimit, hremaining]
    | some remaining =>
      simp [LogEntry.ofRecord?, QuotaRecord.used, QuotaRecord.isKnown, booked, hlimit, hremaining]

/-- The rows of a snapshot are those of the records that are known, in order. They carry the time of
the snapshot, which need not be that of the tick. -/
theorem entries_eq (s : Session) (snapshot : Snapshot) :
    s.entries snapshot
      = (snapshot.records.filter QuotaRecord.isKnown).map (s.booked snapshot.timestamp) := by
  unfold entries
  -- both sides pick the records that are known, one by one
  induction snapshot.records with
  | nil => rfl
  | cons r rest ih =>
    rw [List.filterMap_cons, ih, s.ofRecord?_eq]
    cases hknown : r.isKnown <;> simp [hknown]

/-- A tick that hands nothing over has no rows to write. -/
theorem batch_of_not_handed (h : s.handed? w = none) : s.batch w = [] := by
  simp [batch, h]

/-- A tick that hands a snapshot over has all rows of the snapshot to write. -/
theorem batch_of_handed {snapshot : Snapshot} (h : s.handed? w = some snapshot) :
    s.batch w = s.entries snapshot := by
  simp [batch, h]

/-- **The rows of a tick** are those of the records that are due, stamped with the time of the tick,
if the source stamps its snapshots so. -/
theorem batch_eq (hsource : s.source.Punctual) :
    s.batch w = (s.dueRecords w).map (s.booked w.now) := by
  unfold batch dueRecords
  cases hhanded : s.handed? w with
  | none => rfl
  | some snapshot =>
    have htime := hsource _ _ _ _ (handed?_eq_some_iff.mp hhanded).1
    simp only
    rw [entries_eq, htime]

/-- What a probe has scanned is booked without a loss: no more is left than allowed, so the
subtraction does not go below zero. A source of another kind need not keep to that. -/
theorem dueRecords_exact {probe : Probe} (hsource : s.source = probe.source) {r : QuotaRecord}
    (h : r ∈ s.dueRecords w) :
    ∃ limit remaining, r.limit = some limit ∧ r.remaining = some remaining
      ∧ (s.booked w.now r).outputTokens.toNat + remaining.toNat = limit.toNat := by
  rw [dueRecords] at h
  split at h
  next snapshot hsnapshot =>
    obtain ⟨hr, hknown⟩ := List.mem_filter.mp h
    have hread := (handed?_eq_some_iff.mp hsnapshot).1
    rw [read, hsource] at hread
    obtain ⟨-, blob, -, hrecords⟩ := Probe.snapshot_ok hread
    rw [QuotaRecord.isKnown, Bool.and_eq_true, Option.isSome_iff_exists,
      Option.isSome_iff_exists] at hknown
    obtain ⟨⟨limit, hlimit⟩, remaining, hremaining⟩ := hknown
    -- the scanner gives no rest above the limit
    have hle := remaining_le_limit (hrecords ▸ hr) hlimit hremaining
    refine ⟨limit, remaining, hlimit, hremaining, ?_⟩
    have hle' : remaining.toNat ≤ limit.toNat := UInt64.le_iff_toNat_le.mp hle
    simp only [booked, QuotaRecord.used, hlimit, hremaining, hle, if_true, Option.getD_some]
    rw [UInt64.toNat_sub_of_le _ _ hle]
    omega
  next => cases h

/-! ## The tick -/

@[simp] theorem reports_present (s : Session) (look : Look) (w : Watch) :
    (s.present look w).screen.reports = w.screen.reports := by
  simp [present, Screen.draw, Screen.reports, Shown.report?]

@[simp] theorem noteLog_screen (s : Session) (w : Watch) : (s.noteLog w).screen = w.screen := by
  rw [noteLog]
  split <;> rfl

/-- A tick that hands a snapshot over writes its rows until a write fails. It starts from a state
with the disk and the reports that the tick began with, so what is said of writing is said of the
tick. -/
theorem tick_of_handed {snapshot : Snapshot} (h : s.handed? w = some snapshot) {l : Ledger}
    (hledger : s.ledger = some l) :
    ∃ w₁, w₁.disk = w.disk ∧ w₁.screen.reports = w.screen.reports
      ∧ WriteEnd l.append w₁ (s.batch w) (s.tick w).1.logged (s.tick w).2 := by
  refine ⟨s.noteLog (s.present (s.found snapshot) w.count), by simp, by simp [Watch.count], ?_⟩
  rw [tick_logging h, batch_of_handed h]
  simp only [log, hledger, Watch.append]
  exact Watch.writeAll_spec _ _ _

/-- **What a tick writes.** Without a ledger it writes nothing. With one whose file is there,

* the file grows by the first `logged` rows that are due, and is otherwise the same;
* nothing is logged by a tick that fails or is not a logging tick;
* a logging tick logs all that is due, and reports nothing, or it stops at the first write that
  fails, leaves the disk as that write does, and reports it.

The rows are those of the records whose limit and rest are known, stamped with the time of the tick.
What a row books of a record that a probe has scanned is exactly the limit without the rest. -/
theorem accounting (s : Session) (w : Watch) :
    let rows := s.batch w
    let logged := (s.tick w).1.logged
    let w' := (s.tick w).2
    (s.ledger = none → logged = 0)
      ∧ (s.source.Punctual → rows = (s.dueRecords w).map (s.booked w.now))
      ∧ (∀ probe : Probe, s.source = probe.source →
          s.source.Punctual
          ∧ ∀ r ∈ s.dueRecords w, ∃ limit remaining,
              r.limit = some limit ∧ r.remaining = some remaining
              ∧ (s.booked w.now r).outputTokens.toNat + remaining.toNat = limit.toNat
              ∧ (s.booked w.now r).totalTokens = (s.booked w.now r).outputTokens
              ∧ (s.booked w.now r).thinkingTokens = 0 ∧ (s.booked w.now r).inputTokens = 0)
      ∧ ∀ l content, s.ledger = some l → w.disk.file? l.path = some content →
        w'.disk.file? l.path = some (content.grow (rowBytes (rows.take logged)))
        ∧ (s.handed? w = none → logged = 0)
        ∧ (s.handed? w ≠ none →
            (logged = rows.length ∧ w'.screen.reports = w.screen.reports)
            ∨ (logged < rows.length ∧ ∃ d e fault, rows[logged]? = some e
                ∧ Writes l.append w.disk (rows.take logged) d
                ∧ (l.append e).run d = (.error fault, w'.disk)
                ∧ w'.screen.reports = w.screen.reports ++ [ledgerReport fault])) := by
  intro rows logged w'
  refine ⟨fun hledger => ?_, batch_eq, fun probe hsource => ⟨?_, fun r hr => ?_⟩,
    fun l content hledger hfile => ⟨?_, fun hhanded => (tick_of_not_handed hhanded).1, ?_⟩⟩
  · -- without a ledger there is nothing to write to
    cases hhanded : s.handed? w with
    | none => exact (tick_of_not_handed hhanded).1
    | some snapshot =>
      show (s.tick w).1.logged = 0
      rw [tick_logging hhanded]
      simp [log, hledger]
  · rw [hsource]
    exact probe.punctual
  · obtain ⟨limit, remaining, hlimit, hremaining, hexact⟩ := dueRecords_exact hsource hr
    exact ⟨limit, remaining, hlimit, hremaining, hexact, rfl, rfl, rfl⟩
  · -- the file grows by the rows that were written, which may be none
    cases hhanded : s.handed? w with
    | none =>
      obtain ⟨hlogged, hdisk⟩ := tick_of_not_handed hhanded
      show (s.tick w).2.disk.file? l.path = _
      rw [hdisk, show rows.take logged = [] by simp [logged, hlogged]]
      simpa [rowBytes] using hfile
    | some snapshot =>
      obtain ⟨w₁, hdisk, _, hend⟩ := tick_of_handed hhanded hledger
      exact hend.file? (hdisk ▸ hfile)
  · intro hhanded
    obtain ⟨snapshot, hsnapshot⟩ := Option.ne_none_iff_exists'.mp hhanded
    obtain ⟨w₁, hdisk, hreports, hend⟩ := tick_of_handed hsnapshot hledger
    rw [← hdisk, ← hreports]
    exact hend.outcome

/-- A tick a minute after the start of the interval writes the one row that is due. -/
theorem accounting_one_row :
    let w : Watch := { Watch.start Sample.disk Sample.minute default with lastLog := some .epoch }
    let row := "1970-01-01T00:01:00.000Z,Gemini 3 Pro (High),0,0,100,100,auto-sync,s,quota-gauge\n"
    (Sample.session.tick w).1.logged = 1
      ∧ (Sample.session.tick w).2.disk.file? ⟨"usage.csv"⟩
        = some (.bytes (Ledger.headerLine ++ Bytes.ofText row)) := by
  intro w row
  have hlogged : (Sample.session.tick w).1.logged = 1 := by decide +kernel
  obtain ⟨-, hrows, hprobe, hledger⟩ := accounting Sample.session w
  have hfile := (hledger ⟨⟨"usage.csv"⟩⟩ (.bytes Ledger.headerLine) rfl rfl).1
  have hbytes : rowBytes (((Sample.session.dueRecords w).map (Sample.session.booked w.now)).take
      (Sample.session.tick w).1.logged) = Bytes.ofText row := by decide +kernel
  rw [hrows (hprobe _ rfl).1, hbytes] at hfile
  exact ⟨hlogged, hfile⟩

end Session

end QuotaWatch
