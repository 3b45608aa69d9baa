import QuotaWatch.Proofs.Watch.Accounting

/-!
# What a look shows

A tick asks for one frame, that of the look it gives (`Session.frames_tick`). After it comes one
report if the store cannot be read, and one if the ledger cannot be written; there is never both
(`Session.reports_missed`, `Session.reports_found`). A single look asks for the same frame, or for
nothing at all.

* **`glance_agrees_tick`**: where a single look succeeds, a tick finds the same and shows the same
  frame; it fails exactly for a source that is not just without data, and then only the tick shows
  something.
-/

namespace QuotaWatch

open Time

/-! ## Frames and reports -/

/-- The report of a store that cannot be read. -/
def dashboardReport (fault : ExtractionFault) : String := s!"Dashboard error: {fault.message}"

/-- Whether a report is one of a store that cannot be read. Its first words tell it from a report of
the ledger, whatever the fault is called. -/
def isDashboardReport (text : String) : Bool := "Dashboard error".toList.isPrefixOf text.toList

/-- Every report of a store begins with those words. -/
theorem isDashboardReport_dashboardReport (fault : ExtractionFault) :
    isDashboardReport (dashboardReport fault) = true := by
  have htext : dashboardReport fault = "Dashboard error" ++ (": " ++ fault.message) := by
    unfold dashboardReport
    rw [← String.append_assoc]
    rfl
  rw [isDashboardReport, htext, String.toList_append, List.isPrefixOf_iff_prefix]
  exact List.prefix_append _ _

/-- No report of the ledger does: its first letter is another one, so the message behind it does not
matter. -/
theorem isDashboardReport_ledgerReport (fault : DiskFault) :
    isDashboardReport (ledgerReport fault) = false := by
  have htext : ledgerReport fault = "Ledger error: " ++ fault.message := rfl
  have hprefix : ¬"Dashboard error".toList <+: ("Ledger error: " ++ fault.message).toList := by
    rw [String.toList_append]
    intro h
    cases (List.cons_prefix_cons.mp h).1
  rw [isDashboardReport, htext, ← Bool.not_eq_true, List.isPrefixOf_iff_prefix]
  exact hprefix

@[simp] theorem Watch.frames_report (w : Watch) (text : String) :
    (w.report text).screen.frames = w.screen.frames := by
  simp [Watch.report, Screen.report, Screen.frames, Shown.frame?]

/-- A probe fails just as the extraction does, with the same fault and at any time. -/
theorem Probe.snapshot_error_iff {probe : Probe} {d : Disk} {fault : ExtractionFault}
    (now : Instant) :
    probe.snapshot d now = .error fault ↔ d.extract probe.path = .error fault := by
  unfold Probe.snapshot
  cases d.extract probe.path <;> simp [bind, Except.bind]

/-- The faults of a look with a probe are those of the extraction from the disk as it is then. -/
theorem Session.read_error_iff {s : Session} {w : Watch} {probe : Probe} {fault : ExtractionFault}
    (hsource : s.source = probe.source) :
    s.read w = .error fault ↔ w.disk.extract probe.path = .error fault := by
  rw [Session.read, hsource]
  exact Probe.snapshot_error_iff w.now

/-- Writing shows a fault at most, and no frame. However many entries there are, the first that
fails is the only one to be reported. -/
theorem WriteEnd.shown {write : LogEntry → DiskM Unit} {w w' : Watch} {entries : List LogEntry}
    {logged : Nat} (h : WriteEnd write w entries logged w') :
    w'.screen.frames = w.screen.frames
      ∧ ∃ broken : Option DiskFault,
          w'.screen.reports = w.screen.reports ++ broken.toList.map ledgerReport := by
  cases h with
  | all => exact ⟨rfl, none, by simp⟩
  | @failed _ _ _ broken => exact ⟨Watch.frames_report _ _, some broken, Watch.reports_report _ _⟩

namespace Session

variable {s : Session} {w : Watch} {fault : ExtractionFault} {snapshot : Snapshot}

/-- To present a look is to show one more frame, for the time of the watch. -/
@[simp] theorem frames_present (s : Session) (look : Look) (w : Watch) :
    (s.present look w).screen.frames = w.screen.frames ++ [s.frame look w.now] := by
  simp [present, Screen.draw, Screen.frames, Shown.frame?]

/-- Handing a snapshot to the ledger shows no frame and at most one report. Without a ledger there
is nothing to report. -/
theorem shown_log (s : Session) (snapshot : Snapshot) (w : Watch) :
    (s.log snapshot w).2.screen.frames = w.screen.frames
      ∧ ∃ broken : Option DiskFault, (s.log snapshot w).2.screen.reports
          = w.screen.reports ++ broken.toList.map ledgerReport := by
  unfold log
  cases s.ledger with
  | none => exact ⟨rfl, none, by simp⟩
  | some ledger => exact (Watch.writeAll_spec ledger.append (s.entries snapshot) w).shown

/-! ## Ticks -/

/-- A tick that reads the store gives what it found, but for the rows it wrote. -/
theorem tick_look_found (h : s.read w = .ok snapshot) :
    (s.tick w).1 = { s.found snapshot with logged := (s.tick w).1.logged } := by
  cases hdue : s.logDue w with
  | false => rw [tick_idle h hdue]
  | true => rw [tick_logging (handed?_eq_some_iff.mpr ⟨h, hdue⟩)]

/-- **A tick asks for one frame**, which shows the look that it gives. -/
theorem frames_tick (s : Session) (w : Watch) :
    (s.tick w).2.screen.frames = w.screen.frames ++ [s.frame (s.tick w).1 w.now] := by
  cases s.tickCase w with
  | missed hread => rw [tick_missed hread]; simp [Watch.count]
  | idle hread hdue => rw [tick_idle hread hdue]; simp [Watch.count]
  | logging hread hhanded =>
    -- the frame comes before the rows, and does not show how many these are
    rw [tick_logging hhanded]
    simp only
    rw [(shown_log s _ _).1, noteLog_screen, frames_present]
    rfl

/-- A tick that fails reports that and nothing else. -/
theorem reports_missed (h : s.read w = .error fault) :
    (s.tick w).2.screen.reports = w.screen.reports ++ [dashboardReport fault] := by
  rw [tick_missed h]
  show ((s.present (s.missed fault w.now) w.count).report
    (dashboardReport fault)).screen.reports = _
  simp [Watch.count]

/-- A tick that finds something has only the ledger to report. -/
theorem reports_found (h : s.read w = .ok snapshot) :
    ∃ broken : Option DiskFault, (s.tick w).2.screen.reports
      = w.screen.reports ++ broken.toList.map ledgerReport := by
  cases hdue : s.logDue w with
  | false => exact ⟨none, by rw [tick_idle h hdue]; simp [Watch.count]⟩
  | true =>
    rw [tick_logging (handed?_eq_some_iff.mpr ⟨h, hdue⟩)]
    obtain ⟨broken, hreports⟩ :=
      (shown_log s snapshot (s.noteLog (s.present (s.found snapshot) w.count))).2
    exact ⟨broken, by simp only; rw [hreports]; simp [Watch.count]⟩

/-! ## Single looks -/

/-- A single look passes over data that are missing, and gives up on every other fault. Either way
it has counted as a look. -/
theorem glance_missed (h : s.read w = .error fault) :
    s.glance w = if fault.isMissingData
      then (.ok (s.missed fault w.now), s.present (s.missed fault w.now) w.count)
      else (.error fault, w.count) := by
  simp only [glance, Watch.count_now, h]

/-- A single look that finds something shows it and does not ask whether the ledger is due. -/
theorem glance_of_ok (h : s.read w = .ok snapshot) :
    s.glance w = (.ok (s.found snapshot), s.present (s.found snapshot) w.count) := by
  simp only [glance, h]

/-- A single look leaves everything but the screen and the count of looks alone, also where it
fails. -/
theorem glance_leaves (s : Session) (w : Watch) :
    (s.glance w).2.disk = w.disk ∧ (s.glance w).2.phase = w.phase := by
  cases hread : s.read w with
  | error fault =>
    rw [glance_missed hread]
    split <;> exact ⟨rfl, rfl⟩
  | ok snapshot => rw [glance_of_ok hread]; exact ⟨rfl, rfl⟩

/-- A single look fails exactly for the faults that are more than missing data, and gives the fault
as it is. -/
theorem glance_error_iff :
    (s.glance w).1 = .error fault ↔
      s.read w = .error fault ∧ fault ≠ .noAuthStatus ∧ fault ≠ .missingBinaryField := by
  have hmissing : fault.isMissingData = false
      ↔ fault ≠ .noAuthStatus ∧ fault ≠ .missingBinaryField := by
    cases fault <;> simp [ExtractionFault.isMissingData]
  rw [← hmissing]
  cases hread : s.read w with
  | ok snapshot => simp [glance_of_ok hread]
  | error other =>
    rw [glance_missed hread]
    cases hother : other.isMissingData with
    -- missing data are no error, so no fault of this kind is given
    | true =>
      simp only [if_true, reduceCtorEq, Except.error.injEq, false_iff, not_and]
      rintro rfl
      simp [hother]
    | false =>
      simp only [Bool.false_eq_true, if_false, Except.error.injEq]
      constructor
      · rintro rfl
        exact ⟨rfl, hother⟩
      · exact And.left

end Session

/-! ## Looks that failed -/

/-- The tier of a look is unknown exactly if something is wrong, and then the look says nothing
else. -/
structure Look.Honest (look : Look) : Prop where
  unknown_iff : look.status.tier = .unknown ↔ look.error.isSome = true
  silent : ∀ message, look.error = some message →
    look.snapshot.records = [] ∧ look.status.highQuota = 0 ∧ look.logged = 0
      ∧ look.status.reasoning = message

/-- No quota is classified as unknown. -/
theorem Thresholds.tier_ne_unknown (t : Thresholds) (quota : UInt64) : t.tier quota ≠ .unknown := by
  unfold Thresholds.tier
  split
  · simp
  · split <;> simp

namespace Session

variable {s : Session} {w : Watch}

/-- A look that missed says what was wrong and shows nothing of a quota. -/
theorem honest_missed (s : Session) (fault : ExtractionFault) (now : Instant) :
    (s.missed fault now).Honest where
  unknown_iff := by simp [missed, Status.unknown]
  silent := by
    rintro message ⟨⟩
    exact ⟨rfl, rfl, rfl, rfl⟩

/-- A look that found something never tells an unknown tier, not even for a model that is not among
the records: that counts as a quota of 0. -/
theorem honest_found (s : Session) (snapshot : Snapshot) (logged : Nat) :
    Look.Honest { s.found snapshot with logged } where
  unknown_iff := by
    have := s.config.thresholds.tier_ne_unknown
      (((snapshot.record? s.config.highTierModel).bind (·.remaining)).getD 0)
    simpa [found, Snapshot.status, Thresholds.classify] using this
  silent := by rintro message ⟨⟩

/-- Every tick is honest, for it misses or finds something. -/
theorem honest_tick (s : Session) (w : Watch) : (s.tick w).1.Honest := by
  cases hread : s.read w with
  | error fault => rw [tick_missed hread]; exact s.honest_missed fault w.now
  | ok snapshot => rw [tick_look_found hread]; exact s.honest_found snapshot _

/-- So is a single look, where it gives anything. -/
theorem honest_glance {look : Look} (h : (s.glance w).1 = .ok look) : look.Honest := by
  cases hread : s.read w with
  | ok snapshot =>
    rw [glance_of_ok hread] at h
    cases h
    exact s.honest_found snapshot 0
  | error fault =>
    rw [glance_missed hread] at h
    split at h
    · cases h
      exact s.honest_missed fault w.now
    · cases h

/-! ## Looking once and ticking -/

/-- **A look that succeeds finds and shows what a tick does.** Only the number of rows that were
written can be different, and no frame shows it. -/
theorem tick_of_glance_ok {look : Look} (h : (s.glance w).1 = .ok look) :
    (s.tick w).1 = { look with logged := (s.tick w).1.logged }
      ∧ (s.glance w).2.screen.frames = w.screen.frames ++ [s.frame look w.now]
      ∧ (s.tick w).2.screen.frames = w.screen.frames ++ [s.frame look w.now] := by
  have hframes := s.frames_tick w
  cases hread : s.read w with
  | ok snapshot =>
    rw [glance_of_ok hread] at h ⊢
    cases h
    rw [tick_look_found hread] at hframes
    exact ⟨tick_look_found hread, by simp [Watch.count], hframes⟩
  | error fault =>
    rw [glance_missed hread] at h ⊢
    split at h
    next hmissing =>
      cases h
      rw [tick_missed hread] at hframes ⊢
      exact ⟨rfl, by simp [Watch.count, hmissing], hframes⟩
    next => cases h

end Session

end QuotaWatch
