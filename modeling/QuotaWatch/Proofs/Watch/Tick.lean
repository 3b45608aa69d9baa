import QuotaWatch.Proofs.Except
import QuotaWatch.Watch.Run

/-!
# What a tick does

A tick that finds a snapshot while the ledger is due hands it to the ledger; `Session.handed?` is
that snapshot. Everything a tick can do is one of three things (`Session.TickCase`): the source
cannot be read, the ledger is not due, or a snapshot is handed over. What it does then is
`Session.tick_missed`, `Session.tick_idle` or `Session.tick_logging`. This holds of every source; a
probe is one that is `Source.Punctual`.

Only the last one touches the disk, and it leaves the clock and the interval as they are
(`Watch.sameTime_writeAll`).
-/

namespace QuotaWatch

open Time

/-! ## Sources -/

/-- Every snapshot of a source carries the time of the look that found it. -/
def Source.Punctual (source : Source) : Prop :=
  ∀ looks d now snapshot, source.snapshot looks d now = .ok snapshot → snapshot.timestamp = now

/-- What a probe finds was scanned just now, in the blob that is in its store. The scan itself
cannot fail, so the extraction is all that has to succeed. -/
theorem Probe.snapshot_ok {probe : Probe} {d : Disk} {now : Instant} {snapshot : Snapshot}
    (h : probe.snapshot d now = .ok snapshot) :
    snapshot.timestamp = now ∧ ∃ blob, d.extract probe.path = .ok blob
      ∧ snapshot.records = probe.scanner.scan blob := by
  rw [Probe.snapshot, except_bind_ok_iff] at h
  obtain ⟨blob, hblob, hsnapshot⟩ := h
  cases hsnapshot
  exact ⟨rfl, blob, hblob, rfl⟩

/-- A probe reads the clock it is given and no other, so what it finds is never older than the look.
-/
theorem Probe.punctual (probe : Probe) : probe.source.Punctual :=
  fun _ _ _ _ h => (Probe.snapshot_ok h).1

/-! ## Parts of a state that an action leaves alone -/

/-- Two states that differ in nothing but disk and screen. Writing and drawing keep this, and so
whatever depends on the clock and the interval need not be looked at again. -/
structure Watch.SameTime (w w' : Watch) : Prop where
  now : w'.now = w.now
  lastLog : w'.lastLog = w.lastLog
  phase : w'.phase = w.phase
  looks : w'.looks = w.looks

namespace Watch

variable {w : Watch}

@[simp] theorem count_disk (w : Watch) : w.count.disk = w.disk := rfl

@[simp] theorem count_now (w : Watch) : w.count.now = w.now := rfl

@[simp] theorem count_lastLog (w : Watch) : w.count.lastLog = w.lastLog := rfl

@[simp] theorem report_disk (w : Watch) (text : String) : (w.report text).disk = w.disk := rfl

/-- Writing takes no time, however many entries there are and however it ends. Induction on the
entries. -/
theorem sameTime_writeAll (write : LogEntry → DiskM Unit) (entries : List LogEntry) (w : Watch) :
    w.SameTime (w.writeAll write entries).2 := by
  induction entries generalizing w with
  | nil => exact ⟨rfl, rfl, rfl, rfl⟩
  | cons e rest ih =>
    rw [writeAll]
    rcases (write e).run w.disk with ⟨_ | _, disk⟩
    · exact ⟨rfl, rfl, rfl, rfl⟩
    · have hrest := ih { w with disk }
      exact ⟨hrest.now, hrest.lastLog, hrest.phase, hrest.looks⟩

end Watch

namespace Session

variable {s : Session} {w : Watch}

@[simp] theorem present_disk (s : Session) (look : Look) (w : Watch) :
    (s.present look w).disk = w.disk := rfl

@[simp] theorem present_now (s : Session) (look : Look) (w : Watch) :
    (s.present look w).now = w.now := rfl

@[simp] theorem present_lastLog (s : Session) (look : Look) (w : Watch) :
    (s.present look w).lastLog = w.lastLog := rfl

/-- Handing a snapshot to the ledger takes no time either, with a ledger or without one. -/
theorem sameTime_log (s : Session) (snapshot : Snapshot) (w : Watch) :
    w.SameTime (s.log snapshot w).2 := by
  rw [log]
  split
  · exact ⟨rfl, rfl, rfl, rfl⟩
  · exact Watch.sameTime_writeAll _ _ _

@[simp] theorem noteLog_disk (s : Session) (w : Watch) : (s.noteLog w).disk = w.disk := by
  rw [noteLog]
  split <;> rfl

@[simp] theorem noteLog_now (s : Session) (w : Watch) : (s.noteLog w).now = w.now := by
  rw [noteLog]
  split <;> rfl

/-- Whether the ledger is due depends on the clock and the interval alone, so what a tick does
before it asks makes no difference. -/
theorem logDue_congr {w' : Watch} (hnow : w'.now = w.now) (hlast : w'.lastLog = w.lastLog) :
    s.logDue w' = s.logDue w := by
  rw [logDue, logDue, hnow, hlast]

/-! ## The three ways of a tick -/

/-- The snapshot that a tick hands to the ledger. -/
def handed? (s : Session) (w : Watch) : Option Snapshot :=
  match s.read w with
  | .ok snapshot => if s.logDue w then some snapshot else none
  | .error _ => none

/-- A snapshot is handed over exactly if the source gives it and the ledger is due. The proofs about
ticks split by this and do not open the tick. -/
theorem handed?_eq_some_iff {snapshot : Snapshot} :
    s.handed? w = some snapshot ↔
      s.read w = .ok snapshot ∧ s.logDue w = true := by
  rw [handed?]
  cases s.read w with
  | error fault => simp
  | ok found => cases s.logDue w <;> simp

/-- A source that cannot be read is shown and reported, and nothing else happens: the interval is
not noted and nothing is written. -/
theorem tick_missed {fault : ExtractionFault} (h : s.read w = .error fault) :
    s.tick w = (s.missed fault w.now, (s.present (s.missed fault w.now) w.count).report
      s!"Dashboard error: {fault.message}") := by
  simp only [tick, h, Watch.count_now]

/-- Before the ledger is due a tick shows what it found and, the first time, starts the interval. -/
theorem tick_idle {snapshot : Snapshot} (h : s.read w = .ok snapshot)
    (hdue : s.logDue w = false) :
    s.tick w = (s.found snapshot, s.noteLog (s.present (s.found snapshot) w.count)) := by
  have hdue' : s.logDue (s.present (s.found snapshot) w.count) = false :=
    (logDue_congr rfl rfl).trans hdue
  simp only [tick, h, hdue', Bool.false_eq_true, if_false]

/-- When the ledger is due the frame comes first, then the interval starts again, and only then are
rows written. A write that fails therefore does not make the ledger due any sooner. -/
theorem tick_logging {snapshot : Snapshot} (h : s.handed? w = some snapshot) :
    s.tick w =
      let r := s.log snapshot (s.noteLog (s.present (s.found snapshot) w.count))
      ({ s.found snapshot with logged := r.1 }, r.2) := by
  obtain ⟨hread, hdue⟩ := handed?_eq_some_iff.mp h
  have hdue' : s.logDue (s.present (s.found snapshot) w.count) = true :=
    (logDue_congr rfl rfl).trans hdue
  simp only [tick, hread, hdue', if_true]

/-- Which of the three ways a tick goes. -/
inductive TickCase (s : Session) (w : Watch) : Prop where
  | missed {fault : ExtractionFault} (read : s.read w = .error fault)
  | idle {snapshot : Snapshot} (read : s.read w = .ok snapshot) (early : s.logDue w = false)
  | logging {snapshot : Snapshot} (read : s.read w = .ok snapshot)
      (handed : s.handed? w = some snapshot)

/-- There is no other way: what source and clock say decides it. -/
theorem tickCase (s : Session) (w : Watch) : s.TickCase w := by
  cases hread : s.read w with
  | error fault => exact .missed hread
  | ok snapshot =>
    cases hdue : s.logDue w with
    | false => exact .idle hread hdue
    | true => exact .logging hread (handed?_eq_some_iff.mpr ⟨hread, hdue⟩)

/-! ## When the ledger was last due -/

/-- The interval starts again if the ledger is due, and starts if it has not; otherwise it runs on.
-/
theorem noteLog_lastLog (s : Session) (w : Watch) :
    (s.noteLog w).lastLog =
      if s.logDue w = true then some w.now else w.lastLog.or (some w.now) := by
  rw [noteLog]
  cases hdue : s.logDue w with
  | true => simp
  | false => cases hlast : w.lastLog <;> simp [hlast]

/-- A tick takes no time: the clock of a run moves in its sleeps only. -/
theorem tick_now (s : Session) (w : Watch) : (s.tick w).2.now = w.now := by
  cases s.tickCase w with
  | missed hread => rw [tick_missed hread]; rfl
  | idle hread hdue => rw [tick_idle hread hdue]; simp
  | logging hread hhanded =>
    rw [tick_logging hhanded]
    simp only
    -- the ledger is written to last, and that takes no time
    rw [(s.sameTime_log _ _).now]
    simp

/-- A tick that hands nothing over writes nothing. It may still show a frame and start the interval.
-/
theorem tick_of_not_handed (h : s.handed? w = none) :
    (s.tick w).1.logged = 0 ∧ (s.tick w).2.disk = w.disk := by
  cases s.tickCase w with
  | missed hread =>
    rw [tick_missed hread]
    exact ⟨rfl, rfl⟩
  | idle hread hdue =>
    rw [tick_idle hread hdue]
    exact ⟨rfl, by simp⟩
  | logging hread hhanded => cases h.symm.trans hhanded

/-- A tick that fails leaves the interval alone, so an outage does not put the ledger off. -/
theorem tick_lastLog_missed (h : (s.read w).isOk = false) :
    (s.tick w).2.lastLog = w.lastLog := by
  obtain ⟨fault, hread⟩ := except_isOk_eq_false_iff.mp h
  rw [tick_missed hread]
  rfl

/-- A tick that finds something starts the interval if it has not started, and again if the ledger
is due. -/
theorem tick_lastLog_found (h : (s.read w).isOk = true) :
    (s.tick w).2.lastLog =
      if (s.handed? w).isSome = true then some w.now else w.lastLog.or (some w.now) := by
  -- presenting a look makes the ledger due no sooner and no later
  have hpresent (look : Look) : s.logDue (s.present look w.count) = s.logDue w :=
    logDue_congr rfl rfl
  cases s.tickCase w with
  | missed hread =>
    obtain ⟨snapshot, hok⟩ := except_isOk_iff.mp h
    cases hok.symm.trans hread
  | idle hread hdue =>
    have hnone : s.handed? w = none := by simp [handed?, hread, hdue]
    rw [tick_idle hread hdue, noteLog_lastLog, hpresent, hdue, hnone]
    simp
  | logging hread hhanded =>
    have hdue := (handed?_eq_some_iff.mp hhanded).2
    rw [tick_logging hhanded, hhanded]
    simp only
    rw [(s.sameTime_log _ _).lastLog, noteLog_lastLog, hpresent, hdue]
    simp

theorem glance_now (s : Session) (w : Watch) : (s.glance w).2.now = w.now := by
  simp only [glance]
  split
  · rfl
  · split <;> rfl

/-- A single look leaves the interval alone. -/
theorem glance_lastLog (s : Session) (w : Watch) : (s.glance w).2.lastLog = w.lastLog := by
  simp only [glance]
  split
  · rfl
  · split <;> rfl

end Session

/-! ## A small session -/

namespace Sample

/-- A store with one model, of which 900 are left, and a ledger without entries. -/
def disk : Disk :=
  let encoded := "CAEKE0dlbWluaSAzIFBybyAoSGlnaCkaAgAAEgMIhAc="
  let envelope := "\x7b\"userStatusProtoBinaryBase64\":\"" ++ encoded ++ "\"\x7d"
  let store := Database.items [(authStatusKey, .text (Bytes.ofText envelope))]
  Disk.put (Disk.put ⟨[], .root⟩ (.ofNames ["state.vscdb"]) (.file (.database store)))
    (.ofNames ["usage.csv"]) (.file (.bytes Ledger.headerLine))

def session : Session :=
  { config := .standard, source := Probe.source ⟨⟨"state.vscdb"⟩, ⟨defaultCatalog, .standard⟩⟩,
    renderer := .standard false, zone := fun _ => 0, ledger := some ⟨⟨"usage.csv"⟩⟩, name := "s" }

/-- A session that looks every second and whose ledger is due every second. -/
def hasty : Session :=
  { session with
    config := { Config.standard with refreshIntervalMs := 1000, logIntervalMs := 1000 } }

/-- A minute after the start of 1970. -/
def minute : Instant := (Instant.ofMillis? 60000 0).getD .epoch

end Sample

end QuotaWatch
