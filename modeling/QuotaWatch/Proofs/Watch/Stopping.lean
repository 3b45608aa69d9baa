import Mathlib.Logic.Function.Iterate
import QuotaWatch.Proofs.Time.Clock
import QuotaWatch.Proofs.Watch.Shown

/-!
# Where a run stops

A run goes through rounds of a tick and a sleep until it is told to stop. `Session.round` is where
it stands when a round begins, `Session.look` where its tick begins once the disk has been meddled
with, and `Session.ended` where the ticks of a number of rounds lead. None of them knows when the
run is told to stop.

* **`run_stops`**: a run is exactly the ticks that begin before it is told to stop, each of them
  complete. What it shows, counts and writes, and how far its clock goes, is read off these ticks.

`Run.loop_atRound` is the loop from any round on. From it follows that a run ends as the tick of its
last round does, and not for want of rounds (`Session.loop_stops`).
-/

namespace QuotaWatch

open Time

/-! ## The rounds of a run -/

/-- The time after a sleep. The clock stays where it is if it cannot go on. -/
def Session.afterSleep (s : Session) (t : Instant) : Instant :=
  (t.addMillis? s.config.refreshIntervalMs.toNat).getD t

/-- Where the tick of a round begins. -/
def Outside.meddled (o : Outside) (k : Nat) (w : Watch) : Watch :=
  { w with disk := o.meddle k w.disk }

namespace Session

/-- Where the watch stands when a round begins. It knows of no stop: how many rounds there are is
decided by the run. -/
def round (s : Session) (o : Outside) (w : Watch) : Nat → Watch
  | 0 => w.begun
  | k + 1 =>
    let w' := (s.tick (o.meddled k (s.round o w k))).2
    { w' with now := s.afterSleep w'.now }

/-- Where the tick of a round begins, once the disk has been meddled with. -/
def look (s : Session) (o : Outside) (w : Watch) (k : Nat) : Watch := o.meddled k (s.round o w k)

/-- Where the ticks of a number of rounds lead. The sleep behind the last of them is left out. -/
def ended (s : Session) (o : Outside) (w : Watch) : Nat → Watch
  | 0 => w.begun
  | k + 1 => (s.tick (s.look o w k)).2

end Session

/-! ## When a run is told to stop -/

namespace StopPoint

/-- At the head of a round, told to stop means that there are no rounds left. It is the same for all
three kinds of stop. -/
theorem reached_head {p : StopPoint} {k : Nat} : p.reached k k = true ↔ p.rounds ≤ k := by
  cases p <;> simp [reached, rounds]

/-- Before its last tick a run is not told to stop, neither in its frame nor in its sleep. -/
theorem not_reached_tick {p : StopPoint} {k : Nat} (h : k + 1 < p.rounds) :
    p.reached (k + 1) k = false := by
  cases p with
  | beforeStart => simp [rounds] at h
  | inFrame n => simp only [rounds] at h; simp [reached, h]
  | inSleep n => simp only [rounds] at h; simp [reached]; omega

end StopPoint

/-! ## The loop -/

namespace Run

variable {s : Session} {o : Outside} {w : Watch}

/-- A round of the loop: it asks before the tick and after it, and what happens in the sleep is
asked in the next round. -/
theorem loop_succ (s : Session) (o : Outside) (rounds : Nat) (r : Run) :
    loop s o (rounds + 1) r =
      if r.isStopped o then r
      else if (r.tick s o).isStopped o then r.tick s o
      else loop s o rounds ((r.tick s o).sleep s o) := rfl

/-- A run that is told to stop goes no further, whatever rounds are left. -/
theorem loop_of_stopped {r : Run} (h : r.isStopped o = true) (rounds : Nat) :
    loop s o rounds r = r := by
  cases rounds with
  | zero => rfl
  | succ rounds => rw [loop_succ, if_pos h]

/-- The run that stands at the beginning of a round. -/
def atRound (s : Session) (o : Outside) (w : Watch) (k : Nat) : Run := ⟨s.round o w k, k, k⟩

/-- The tick of a round leads to where `Session.ended` says. -/
theorem tick_atRound (s : Session) (o : Outside) (w : Watch) (k : Nat) :
    (atRound s o w k).tick s o = ⟨s.ended o w (k + 1), k + 1, k⟩ := rfl

/-- At the head of a round that there is, a run is not told to stop. -/
theorem atRound_running {k : Nat} (h : k < o.stop.rounds) :
    (atRound s o w k).isStopped o = false := by
  show o.stop.reached k k = false
  rw [← Bool.not_eq_true, StopPoint.reached_head]
  omega

/-- A sleep that is not cut short leads to the next round. -/
theorem sleep_of_running {k : Nat} (h : k + 1 < o.stop.rounds) :
    (Run.mk (s.ended o w (k + 1)) (k + 1) k).sleep s o = atRound s o w (k + 1) := by
  have hgoes : o.stop.reached (k + 1) (k + 1) = false := atRound_running (s := s) (w := w) h
  simp only [sleep, isStopped, hgoes, Bool.false_eq_true, if_false]
  rfl

/-- A sleep that is cut short leaves everything else as it is. -/
theorem sleep_of_stopped {k : Nat} (h : o.stop.rounds ≤ k + 1) :
    (Run.mk (s.ended o w (k + 1)) (k + 1) k).sleep s o = ⟨s.ended o w (k + 1), k + 1, k + 1⟩ := by
  simp only [sleep, isStopped, StopPoint.reached_head.mpr h, if_true]

/-- **The loop from a round on.** It goes on to the last round and leaves there the watch as the
tick of that round does, told to stop. Induction on the rounds that are left. -/
theorem loop_atRound (s : Session) (o : Outside) (w : Watch) :
    ∀ left k rounds, k + 1 + left = o.stop.rounds → left < rounds →
      (loop s o rounds (atRound s o w k)).watch = s.ended o w o.stop.rounds
        ∧ (loop s o rounds (atRound s o w k)).isStopped o = true := by
  intro left
  induction left with
  | zero =>
    intro k rounds hk hrounds
    obtain ⟨rounds, rfl⟩ := Nat.exists_eq_add_one.mpr hrounds
    have hhead : (atRound s o w k).isStopped o = false := atRound_running (by omega)
    rw [loop_succ, if_neg (by simp [hhead]), tick_atRound]
    split
    next hstopped =>
      -- told to stop during the frame
      exact ⟨by rw [← hk], hstopped⟩
    next =>
      -- told to stop during the sleep, which is then cut short
      have hsleep := sleep_of_stopped (s := s) (w := w) (Nat.le_of_eq hk.symm)
      have hstopped : (Run.mk (s.ended o w (k + 1)) (k + 1) (k + 1)).isStopped o = true :=
        StopPoint.reached_head.mpr (Nat.le_of_eq hk.symm)
      rw [hsleep, loop_of_stopped hstopped]
      exact ⟨by rw [← hk], hstopped⟩
  | succ left ih =>
    intro k rounds hk hrounds
    obtain ⟨rounds, rfl⟩ := Nat.exists_eq_add_one.mpr (Nat.lt_of_le_of_lt (Nat.zero_le _) hrounds)
    have hhead : (atRound s o w k).isStopped o = false := atRound_running (by omega)
    have htick : (Run.mk (s.ended o w (k + 1)) (k + 1) k).isStopped o = false :=
      StopPoint.not_reached_tick (by omega)
    rw [loop_succ, if_neg (by simp [hhead]), tick_atRound, if_neg (by simp [htick]),
      sleep_of_running (by omega)]
    exact ih (k + 1) rounds (by omega) (by omega)

end Run

/-! ## What a tick leaves behind -/

namespace Session

variable {s : Session} {o : Outside} {w : Watch}

/-- A tick leaves the phase alone and counts as one look, whether it fails or not. -/
theorem tick_phase_looks (s : Session) (w : Watch) :
    (s.tick w).2.phase = w.phase ∧ (s.tick w).2.looks = w.looks + 1 := by
  -- starting the interval again changes neither
  have hnote (w' : Watch) : (s.noteLog w').phase = w'.phase ∧ (s.noteLog w').looks = w'.looks := by
    unfold noteLog
    split <;> exact ⟨rfl, rfl⟩
  cases s.tickCase w with
  | missed hread => rw [tick_missed hread]; exact ⟨rfl, rfl⟩
  | idle hread hdue => rw [tick_idle hread hdue]; exact hnote _
  | @logging snapshot hread hhanded =>
    rw [tick_logging hhanded]
    have hlog := s.sameTime_log snapshot (s.noteLog (s.present (s.found snapshot) w.count))
    exact ⟨hlog.phase.trans (hnote _).1, hlog.looks.trans (hnote _).2⟩

/-- Why a tick fails, if it does. -/
def fault? (s : Session) (w : Watch) : Option ExtractionFault :=
  match s.read w with
  | .ok _ => none
  | .error fault => some fault

/-- A tick that fails is reported once, and no other tick is reported as a failure. The reports of
the ledger are filtered out, since a tick that succeeds may still leave one. -/
theorem failures_tick (s : Session) (w : Watch) :
    (s.tick w).2.screen.reports.filter isDashboardReport
      = w.screen.reports.filter isDashboardReport ++ (s.fault? w).toList.map dashboardReport := by
  unfold fault?
  cases hread : s.read w with
  | error fault =>
    rw [reports_missed hread, List.filter_append]
    simp [isDashboardReport_dashboardReport]
  | ok snapshot =>
    -- what it may report is the ledger
    obtain ⟨broken, hreports⟩ := reports_found hread
    rw [hreports, List.filter_append]
    cases broken <;> simp [isDashboardReport_ledgerReport]

/-! ## What some rounds leave behind -/

/-- **What a sleep does to the clock.** In a leap second that lasts long enough the clock stays in
it; otherwise it gets where `Instant.reached` says, or does not move if that is out of its range. -/
theorem afterSleep_spec (s : Session) (t : Instant) :
    let r := s.config.refreshIntervalMs.toNat
    let t' := s.afterSleep t
    if t.StaysInLeap r then t'.seconds = t.seconds ∧ t'.nanos = t.nanos + r * 1000000
    else if t.reached r / 1000000000 ≤ lastSecond then
      t'.nanos < 1000000000 ∧ t'.totalNanos = t.reached r
    else t' = t := by
  intro r t'
  have hsome : (t.addMillis? r).isSome = true
      ↔ t.StaysInLeap r ∨ t.reached r / 1000000000 ≤ lastSecond :=
    Instant.isSome_addMillis?_iff
  cases hlater : t.addMillis? r with
  | none =>
    have hnot : ¬(t.StaysInLeap r ∨ t.reached r / 1000000000 ≤ lastSecond) := by
      rw [← hsome, hlater]
      simp
    rw [if_neg fun h => hnot (.inl h), if_neg fun h => hnot (.inr h)]
    show (t.addMillis? r).getD t = t
    rw [hlater, Option.getD_none]
  | some later =>
    have hnow : t' = later := by
      show (t.addMillis? r).getD t = later
      rw [hlater, Option.getD_some]
    rw [hnow]
    have hcan := hsome.mp (by rw [hlater]; rfl)
    rcases Instant.addMillis?_eq_some_iff.mp hlater with ⟨hstays, hplace⟩ | ⟨hleaves, hplace⟩
    · rwa [if_pos hstays]
    · rwa [if_neg hleaves, if_pos (hcan.resolve_left hleaves)]

/-- Each tick counts as one look, also those that fail. -/
theorem ended_looks (s : Session) (o : Outside) (w : Watch) (n : Nat) :
    (s.ended o w n).looks = w.looks + n := by
  induction n with
  | zero => rfl
  | succ k ih =>
    have hlook : (s.look o w k).looks = (s.ended o w k).looks := by cases k <;> rfl
    show (s.tick (s.look o w k)).2.looks = _
    rw [(s.tick_phase_looks _).2, hlook, ih]
    omega

/-- The count that is kept of the ticks goes up by one with each of them. It is a word, so it starts
again after 2 ^ 64. -/
theorem ended_ticks (s : Session) (o : Outside) (w : Watch) (n : Nat) :
    (s.ended o w n).ticks = w.ticks + .ofNat n := by
  rw [Watch.ticks, ended_looks, UInt64.ofNat_add]
  rfl

/-- A run that has started is running at every tick. Being told to stop does not change the phase;
the end of the run does. -/
theorem look_phase (s : Session) (o : Outside) (w : Watch) (k : Nat) :
    (s.look o w k).phase = .running := by
  induction k with
  | zero => rfl
  | succ k ih =>
    show (s.tick (s.look o w k)).2.phase = _
    rw [(s.tick_phase_looks _).1, ih]

/-- The clock at tick `k` is `k` sleeps after the start, whatever the ticks do. -/
theorem look_now (s : Session) (o : Outside) (w : Watch) (k : Nat) :
    (s.look o w k).now = s.afterSleep^[k] w.now := by
  induction k with
  | zero => rfl
  | succ k ih =>
    show s.afterSleep (s.tick (s.look o w k)).2.now = _
    rw [s.tick_now, ih, Function.iterate_succ_apply']

/-- Meddling and sleeping show nothing, so the screen at a tick is as the last tick left it. -/
theorem look_screen (s : Session) (o : Outside) (w : Watch) (k : Nat) :
    (s.look o w k).screen = (s.ended o w k).screen := by
  cases k <;> rfl

/-- The frames of a run are those of its ticks, one for each and in order. -/
theorem ended_frames (s : Session) (o : Outside) (w : Watch) (n : Nat) :
    (s.ended o w n).screen.frames = w.screen.frames ++ (List.range n).map fun k =>
      s.frame (s.tick (s.look o w k)).1 (s.look o w k).now := by
  induction n with
  | zero => exact (List.append_nil _).symm
  | succ k ih =>
    show (s.tick (s.look o w k)).2.screen.frames = _
    rw [frames_tick, look_screen, ih, List.range_succ, List.map_append, List.append_assoc]
    rfl

/-- The failures that a run reports are those of its ticks, in order. -/
theorem ended_failures (s : Session) (o : Outside) (w : Watch) (n : Nat) :
    (s.ended o w n).screen.reports.filter isDashboardReport
      = w.screen.reports.filter isDashboardReport
        ++ ((List.range n).filterMap fun k => s.fault? (s.look o w k)).map dashboardReport := by
  induction n with
  | zero => exact (List.append_nil _).symm
  | succ k ih =>
    show (s.tick (s.look o w k)).2.screen.reports.filter isDashboardReport = _
    rw [failures_tick, look_screen, ih, List.range_succ, List.filterMap_append, List.map_append,
      List.append_assoc]
    cases hfault : s.fault? (s.look o w k) <;> simp [hfault]

/-- A logging tick of a run writes all its rows, or those before a write that fails, and then it
says so. -/
theorem rows_tick {l : Ledger} {content : Content} (hledger : s.ledger = some l)
    (hfile : w.disk.file? l.path = some content) (hhanded : s.handed? w ≠ none) :
    let rows := s.batch w
    let logged := (s.tick w).1.logged
    (s.tick w).2.disk.file? l.path = some (content.grow (rowBytes (rows.take logged)))
      ∧ (logged = rows.length ∨ logged < rows.length ∧ ∃ fault,
          (s.tick w).2.screen.reports = w.screen.reports ++ [ledgerReport fault]) := by
  obtain ⟨snapshot, hsnapshot⟩ := Option.ne_none_iff_exists'.mp hhanded
  obtain ⟨w₁, hdisk, hreports, hend⟩ := tick_of_handed hsnapshot hledger
  refine ⟨hend.file? (hdisk ▸ hfile), ?_⟩
  rcases hend.outcome with ⟨hall, _⟩ | ⟨hless, _, _, fault, _, _, _, hreport⟩
  · exact .inl hall
  · exact .inr ⟨hless, fault, hreports ▸ hreport⟩

/-! ## The run -/

/-- What a run of `n` rounds makes of a watch. -/
structure RanFor (s : Session) (o : Outside) (w : Watch) (n : Nat) (w' : Watch) : Prop where
  /-- It ends as the tick of its last round does. -/
  ended : w' = { s.ended o w n with phase := .stopped }
  looks : w'.looks = w.looks + n
  /-- The count that is kept starts again after 2 ^ 64. -/
  ticks : w'.ticks = w.ticks + .ofNat n
  /-- One frame for each tick. -/
  frames : w'.screen.frames = w.screen.frames ++ (List.range n).map fun k =>
    s.frame (s.tick (s.look o w k)).1 (s.look o w k).now
  /-- One report of a failure for each tick that fails. -/
  failures : w'.screen.reports.filter isDashboardReport
    = w.screen.reports.filter isDashboardReport
      ++ ((List.range n).filterMap fun k => s.fault? (s.look o w k)).map dashboardReport
  /-- A sleep lies between two ticks, and none before the first or behind the last. -/
  clock : (∀ k < n, (s.look o w k).now = s.afterSleep^[k] w.now)
    ∧ w'.now = s.afterSleep^[n - 1] w.now
  running : ∀ k < n, (s.look o w k).phase = .running ∧ (s.tick (s.look o w k)).2.phase = .running
  stopped : w'.phase = .stopped
  /-- Every logging tick writes its rows, the last one like the others. -/
  rows : ∀ k < n, ∀ l content, s.ledger = some l →
    (s.look o w k).disk.file? l.path = some content → s.handed? (s.look o w k) ≠ none →
      let rows := s.batch (s.look o w k)
      let logged := (s.tick (s.look o w k)).1.logged
      (s.ended o w (k + 1)).disk.file? l.path = some (content.grow (rowBytes (rows.take logged)))
        ∧ (logged = rows.length ∨ logged < rows.length ∧ ∃ fault,
            (s.ended o w (k + 1)).screen.reports
              = (s.look o w k).screen.reports ++ [ledgerReport fault])

/-- However many rounds it may go through, a run is told to stop in the same one, and ends as the
tick of that round does. -/
theorem loop_stops (s : Session) (o : Outside) (w : Watch) (more : Nat) :
    (Run.loop s o (o.stop.rounds + more) ⟨w.begun, 0, 0⟩).watch = s.ended o w o.stop.rounds
      ∧ (Run.loop s o (o.stop.rounds + more) ⟨w.begun, 0, 0⟩).isStopped o = true := by
  cases hrounds : o.stop.rounds with
  | zero =>
    have hstopped : (Run.mk w.begun 0 0).isStopped o = true :=
      StopPoint.reached_head.mpr (Nat.le_of_eq hrounds)
    rw [Run.loop_of_stopped hstopped]
    exact ⟨rfl, hstopped⟩
  | succ left =>
    have hloop := Run.loop_atRound s o w left 0 (left + 1 + more) (by omega) (by omega)
    rw [hrounds] at hloop
    exact hloop

/-- A run ends as the tick of its last round does, but that it has stopped. -/
theorem run_eq_ended (s : Session) (o : Outside) (w : Watch) :
    s.run o w = { s.ended o w o.stop.rounds with phase := .stopped } := by
  simp only [run, ← (loop_stops s o w 0).1]
  rfl

/-- A run that is told to stop in its second sleep has slept once, for five seconds. -/
example :
    let w := Sample.session.run ⟨fun _ d => d, .inSleep 2⟩ (Watch.start Sample.disk .epoch default)
    (w.ticks, w.now.millis, w.screen.frames.length, w.phase) = (2, 5000, 2, .stopped) := by
  decide +kernel

end Session

end QuotaWatch
