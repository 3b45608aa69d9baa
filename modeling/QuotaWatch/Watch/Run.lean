import QuotaWatch.Watch.Session

/-!
# Watching until told to stop

`Session.run` ticks, sleeps and ticks again until it is told to stop. That can happen before it
starts, while a frame is drawn or during a sleep; the tick in progress is completed, and a sleep
that is cut short does not move the clock.
-/

namespace QuotaWatch

open Time

/-- When a run is told to stop. Frames and sleeps of the run are counted from 1. -/
inductive StopPoint where
  | beforeStart
  | inFrame (n : Nat)
  | inSleep (n : Nat)
  deriving DecidableEq, Repr

/-- Whether a run has been told to stop when it has begun some frames and sleeps. -/
def StopPoint.reached (p : StopPoint) (frames sleeps : Nat) : Bool :=
  match p with
  | .beforeStart => true
  | .inFrame n => n ≤ frames
  | .inSleep n => n ≤ sleeps

/-- As many rounds as a run can have before it is told to stop. -/
def StopPoint.rounds : StopPoint → Nat
  | .beforeStart => 0
  | .inFrame n => n
  | .inSleep n => n

/-- What happens from outside during a run. -/
structure Outside where
  /-- What becomes of the disk before a look, by the number of looks of the run before it. What the
  look before it left beside the store is part of that. -/
  meddle : Nat → Disk → Disk
  stop : StopPoint

/-- A run in progress. -/
structure Run where
  watch : Watch
  /-- Frames begun. -/
  frames : Nat
  /-- Sleeps begun. -/
  sleeps : Nat

namespace Run

/-- Whether a run has been told to stop. -/
def isStopped (r : Run) (o : Outside) : Bool := o.stop.reached r.frames r.sleeps

/-- The tick of a round. -/
def tick (s : Session) (o : Outside) (r : Run) : Run :=
  let disk := o.meddle r.frames r.watch.disk
  let (_, watch) := s.tick { r.watch with disk }
  { r with watch, frames := r.frames + 1 }

/-- The sleep of a round. The clock stays where it is if it cannot go on, or if the sleep is cut
short. -/
def sleep (s : Session) (o : Outside) (r : Run) : Run :=
  let r := { r with sleeps := r.sleeps + 1 }
  if r.isStopped o then r
  else
    let later := r.watch.now.addMillis? s.config.refreshIntervalMs.toNat
    { r with watch.now := later.getD r.watch.now }

/-- Ticks and sleeps until told to stop. -/
def loop (s : Session) (o : Outside) : (rounds : Nat) → Run → Run
  | 0, r => r
  | rounds + 1, r =>
    if r.isStopped o then r
    else
      let r := r.tick s o
      if r.isStopped o then r else loop s o rounds (r.sleep s o)

end Run

/-- A session that starts to run. The interval of the ledger starts with it. -/
def Watch.begun (w : Watch) : Watch := { w with phase := .running, lastLog := some w.now }

/-- Watches until told to stop. -/
def Session.run (s : Session) (o : Outside) (w : Watch) : Watch :=
  let r := Run.loop s o o.stop.rounds ⟨w.begun, 0, 0⟩
  { r.watch with phase := .stopped }

end QuotaWatch
