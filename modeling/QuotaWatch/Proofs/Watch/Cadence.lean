import QuotaWatch.Proofs.Time.Clock
import QuotaWatch.Proofs.Watch.Tick

/-!
# When the ledger is due

A `History` is all that happens to a watch from its start on, in any order: ticks, single looks,
whole runs, time that passes, and whatever happens to the store, the ledger and the screen in
between. A `Mark` is left by each start of a run, tick and look. `referenceTime` is read off the
marks alone: the latest of the last start of a run and the last logging tick, or else the first tick
that found something.

* **`cadence`**: a tick is a logging tick exactly if it finds something and the interval of the
  ledger has passed since the reference time. So logging ticks are an interval apart, and an outage
  neither skips nor hoards them.
* **`cadence_restarted`**: where a run starts between two ticks, neither of these has to be so.

`Agrees` says that the watch keeps the reference time, `Agrees.tick`, `Agrees.glance` and
`Agrees.run` that each act keeps that so.
-/

namespace QuotaWatch

open Time

namespace Cadence

/-! ## Marks and the reference time -/

/-- What is left by an act, with its time. -/
inductive Mark where
  | runStart (time : Instant)
  | glance (time : Instant)
  /-- A tick: whether it found a snapshot, and whether it handed that to the ledger. -/
  | tick (time : Instant) (found logging : Bool)
  deriving DecidableEq

namespace Mark

def time : Mark → Instant
  | .runStart time => time
  | .glance time => time
  | .tick time _ _ => time

/-- The time of a start of a run. -/
def runStart? : Mark → Option Instant
  | .runStart time => some time
  | _ => none

/-- The time of a logging tick. -/
def logging? : Mark → Option Instant
  | .tick time _ true => some time
  | _ => none

/-- The time of a tick that found something. -/
def found? : Mark → Option Instant
  | .tick time true _ => some time
  | _ => none

/-- The time of an act that sets the reference time again: a start of a run or a logging tick. -/
def sets? (m : Mark) : Option Instant := m.runStart?.or m.logging?

/-- Whether a mark is left by a look or a tick that failed. -/
def isIdle : Mark → Bool
  | .glance _ => true
  | .tick _ found _ => !found
  | .runStart _ => false

end Mark

/-- The later of the last start of a run and the last logging tick, as far as there are any, or else
the first tick that found something. -/
def referenceTime (marks : List Mark) : Option Instant :=
  (Option.merge max (marks.filterMap Mark.runStart?).getLast?
    (marks.filterMap Mark.logging?).getLast?).or (marks.filterMap Mark.found?).head?

section Reference

variable {marks : List Mark} {t : Instant}

/-- A look leaves the reference time alone. -/
theorem referenceTime_glance (marks : List Mark) (t : Instant) :
    referenceTime (marks ++ [.glance t]) = referenceTime marks := by
  simp [referenceTime, Mark.runStart?, Mark.logging?, Mark.found?]

/-- A tick that fails leaves it alone as well. -/
theorem referenceTime_missed (marks : List Mark) (t : Instant) :
    referenceTime (marks ++ [.tick t false false]) = referenceTime marks := by
  simp [referenceTime, Mark.runStart?, Mark.logging?, Mark.found?]

/-- A tick that finds something before the ledger is due sets the reference time only if there is
none yet. -/
theorem referenceTime_idle (marks : List Mark) (t : Instant) :
    referenceTime (marks ++ [.tick t true false]) = (referenceTime marks).or (some t) := by
  simp [referenceTime, Mark.runStart?, Mark.logging?, Mark.found?]

/-- The times that are singled out are times of marks, so none of them is later than all marks are.
-/
theorem time_le_of_getLast? {f : Mark → Option Instant} (hf : ∀ m u, f m = some u → u = m.time)
    (hpast : ∀ m ∈ marks, m.time ≤ t) {u : Instant} (h : (marks.filterMap f).getLast? = some u) :
    u ≤ t := by
  obtain ⟨m, hm, hu⟩ := List.mem_filterMap.mp (List.mem_of_getLast? h)
  rw [hf m u hu]
  exact hpast m hm

/-- The time of a start of a run is the time of its mark. -/
theorem runStart?_eq_time (m : Mark) (u : Instant) (h : m.runStart? = some u) : u = m.time := by
  cases m <;> simp_all [Mark.runStart?, Mark.time]

theorem logging?_eq_time (m : Mark) (u : Instant) (h : m.logging? = some u) : u = m.time := by
  cases m with
  | tick time found logging => cases logging <;> simp_all [Mark.logging?, Mark.time]
  | _ => simp [Mark.logging?] at h

/-- A run that starts sets the reference time to its own: no logging tick is later, for the clock
does not move back. -/
theorem referenceTime_runStart (hpast : ∀ m ∈ marks, m.time ≤ t) :
    referenceTime (marks ++ [.runStart t]) = some t := by
  have hlogging := fun u => time_le_of_getLast? (u := u) logging?_eq_time hpast
  cases h : (marks.filterMap Mark.logging?).getLast? with
  | none => simp [referenceTime, Mark.runStart?, Mark.logging?, Mark.found?, h]
  | some u => simp [referenceTime, Mark.runStart?, Mark.logging?, Mark.found?, h, hlogging u h]

/-- A logging tick sets the reference time to its own, for the same reason. -/
theorem referenceTime_logging (hpast : ∀ m ∈ marks, m.time ≤ t) :
    referenceTime (marks ++ [.tick t true true]) = some t := by
  have hstart := fun u => time_le_of_getLast? (u := u) runStart?_eq_time hpast
  cases h : (marks.filterMap Mark.runStart?).getLast? with
  | none => simp [referenceTime, Mark.runStart?, Mark.logging?, Mark.found?, h]
  | some u => simp [referenceTime, Mark.runStart?, Mark.logging?, Mark.found?, h, hstart u h]

end Reference

/-! ## Histories -/

/-- What happens to a watch. -/
inductive Act where
  | tick
  | glance
  /-- A run on a clock that moves only when the run sleeps. -/
  | run (o : Outside)
  /-- A run on any other clock starts; its ticks and the time in between are acts of their own. -/
  | begin
  /-- The clock moves on. It never moves back. -/
  | lapse (later : Instant)
  /-- Disk and screen change. -/
  | meddle (disk : Disk) (screen : Screen)

/-- Where a watch stands and the marks it has left, in order. -/
structure History where
  watch : Watch
  marks : List Mark

/-- The mark of a tick. -/
def tickMark (s : Session) (w : Watch) : Mark :=
  .tick w.now (s.read w).isOk (s.handed? w).isSome

/-- The marks of the ticks of `Run.loop`. -/
def loopMarks (s : Session) (o : Outside) : (rounds : Nat) → Run → List Mark
  | 0, _ => []
  | rounds + 1, r =>
    if r.isStopped o then []
    else
      let mark := tickMark s { r.watch with disk := o.meddle r.frames r.watch.disk }
      let r := r.tick s o
      if r.isStopped o then [mark] else mark :: loopMarks s o rounds (r.sleep s o)

namespace History

def step (s : Session) (h : History) : Act → History
  | .tick => ⟨(s.tick h.watch).2, h.marks ++ [tickMark s h.watch]⟩
  | .glance => ⟨(s.glance h.watch).2, h.marks ++ [.glance h.watch.now]⟩
  | .run o =>
    ⟨s.run o h.watch, h.marks ++ [.runStart h.watch.now]
      ++ loopMarks s o o.stop.rounds ⟨h.watch.begun, 0, 0⟩⟩
  | .begin => ⟨h.watch.begun, h.marks ++ [.runStart h.watch.now]⟩
  | .lapse later =>
    if h.watch.now ≤ later then { h with watch.now := later } else h
  | .meddle disk screen => { h with watch := { h.watch with disk, screen } }

def ofActs (s : Session) (w : Watch) (acts : List Act) : History := acts.foldl (step s) ⟨w, []⟩

end History

/-! ## The watch keeps the reference time -/

/-- The interval of the ledger in nanoseconds. -/
def interval (s : Session) : Int := s.config.logIntervalMs.toNat * 1000000

/-- Ticks log exactly if they find something and the interval has passed. The marks before a tick
decide it, so this is a property of the marks alone. -/
def Lawful (s : Session) (marks : List Mark) : Prop :=
  ∀ before t found logging after, marks = before ++ .tick t found logging :: after →
    (logging = true ↔ found = true ∧ ∃ r, referenceTime before = some r ∧ interval s ≤ r.elapsed t)

/-- The watch keeps the reference time, its marks are in the order of time, and its ticks log when
they should. This is what every act preserves. -/
structure Agrees (s : Session) (h : History) : Prop where
  reference : h.watch.lastLog = referenceTime h.marks
  past : ∀ m ∈ h.marks, m.time ≤ h.watch.now
  sorted : h.marks.Pairwise fun a b => a.time ≤ b.time
  lawful : Lawful s h.marks

variable {s : Session} {w w' : Watch} {marks : List Mark} {m : Mark}

/-- One more mark keeps the law if the mark itself does. The ticks before it are decided by the
marks before them, which are still the same. -/
theorem lawful_concat (h : Lawful s marks)
    (hlast : ∀ t found logging, m = .tick t found logging →
      (logging = true ↔
        found = true ∧ ∃ r, referenceTime marks = some r ∧ interval s ≤ r.elapsed t)) :
    Lawful s (marks ++ [m]) := by
  intro before t found logging after hsplit
  -- the tick is the new mark or one of those before
  rcases List.eq_nil_or_concat after with rfl | ⟨init, last, rfl⟩
  · obtain ⟨rfl, hmark⟩ := List.append_inj' hsplit rfl
    exact hlast t found logging (List.cons.inj hmark).1
  · have hsplit' : marks ++ [m] = (before ++ .tick t found logging :: init) ++ [last] := by
      simpa using hsplit
    exact h before t found logging init (List.append_inj' hsplit' rfl).1

/-- Time passes, and nothing is marked. Only the bound on the times of the marks has to be looked
at. -/
theorem Agrees.lapse (h : Agrees s ⟨w, marks⟩) (hlast : w'.lastLog = w.lastLog)
    (hnow : w.now ≤ w'.now) : Agrees s ⟨w', marks⟩ where
  reference := by rw [hlast]; exact h.reference
  past := fun m hm => le_trans (h.past m hm) hnow
  sorted := h.sorted
  lawful := h.lawful

/-- Something is marked, and no time passes. What is left to show for an act is where the reference
time is now and, for a tick, that it logs when it should. -/
theorem Agrees.mark (h : Agrees s ⟨w, marks⟩) (hnow : w'.now = w.now)
    (htime : m.time = w.now)
    (hreference : w'.lastLog = referenceTime (marks ++ [m]))
    (hlast : ∀ t found logging, m = .tick t found logging →
      (logging = true ↔
        found = true ∧ ∃ r, referenceTime marks = some r ∧ interval s ≤ r.elapsed t)) :
    Agrees s ⟨w', marks ++ [m]⟩ where
  reference := hreference
  past := by
    intro a ha
    show a.time ≤ w'.now
    rw [hnow]
    rcases List.mem_append.mp ha with ha | ha
    · exact h.past a ha
    · rw [List.mem_singleton.mp ha]
      exact le_of_eq htime
  sorted := by
    refine List.pairwise_append.mpr ⟨h.sorted, List.pairwise_singleton _ _, fun a ha b hb => ?_⟩
    -- the new mark is not before any other
    rw [List.mem_singleton.mp hb, htime]
    exact h.past a ha
  lawful := lawful_concat h.lawful hlast

/-! ### Each act -/

/-- Whether the ledger is due is a matter of the reference time. -/
theorem Agrees.logDue_iff (h : Agrees s ⟨w, marks⟩) :
    s.logDue w = true ↔
      ∃ r, referenceTime marks = some r ∧ interval s ≤ r.elapsed w.now := by
  rw [← h.reference]
  simp only [Session.logDue, Option.any_eq_true, Instant.hasPassed, decide_eq_true_eq, interval]

/-- A tick keeps the reference time. It is set as `Session.tick_lastLog_missed` and
`Session.tick_lastLog_found` say, and the marks say the same in each case. -/
theorem Agrees.tick (h : Agrees s ⟨w, marks⟩) :
    Agrees s ⟨(s.tick w).2, marks ++ [tickMark s w]⟩ := by
  refine h.mark (s.tick_now w) rfl ?_ ?_
  · rw [tickMark]
    cases hfound : (s.read w).isOk with
    | false =>
      -- a tick that fails hands nothing over
      have hnone : (s.handed? w).isSome = false := by
        obtain ⟨fault, hread⟩ := except_isOk_eq_false_iff.mp hfound
        rw [Session.handed?, hread]
        rfl
      rw [hnone, referenceTime_missed, Session.tick_lastLog_missed hfound]
      exact h.reference
    | true =>
      rw [Session.tick_lastLog_found hfound]
      cases hlogging : (s.handed? w).isSome with
      | true =>
        rw [referenceTime_logging h.past]
        rfl
      | false =>
        rw [referenceTime_idle, ← h.reference]
        cases w.lastLog <;> simp
  · -- whether the interval has passed since the reference time is what the tick looks at
    rintro _ _ _ ⟨⟩
    rw [← h.logDue_iff, Option.isSome_iff_exists]
    simp only [Session.handed?_eq_some_iff, exists_and_right]
    exact and_congr_left fun _ => except_isOk_iff.symm

/-- A single look keeps the reference time: neither the watch nor the marks set it. -/
theorem Agrees.glance (h : Agrees s ⟨w, marks⟩) :
    Agrees s ⟨(s.glance w).2, marks ++ [.glance w.now]⟩ := by
  refine h.mark (s.glance_now w) rfl ?_ (by rintro _ _ _ ⟨⟩)
  rw [referenceTime_glance, Session.glance_lastLog]
  exact h.reference

/-- A run that starts sets the reference time on both sides, to the time of its start. -/
theorem Agrees.begun (h : Agrees s ⟨w, marks⟩) :
    Agrees s ⟨w.begun, marks ++ [.runStart w.now]⟩ := by
  refine h.mark rfl rfl ?_ (by rintro _ _ _ ⟨⟩)
  rw [referenceTime_runStart h.past]
  rfl

/-- A sleep is time that passes. It is never negative, and at the end of the calendar it is none at
all. -/
theorem Agrees.sleep {r : Run} (h : Agrees s ⟨r.watch, marks⟩) (o : Outside) :
    Agrees s ⟨(r.sleep s o).watch, marks⟩ := by
  have hforward : ∀ t : Instant,
      t ≤ (t.addMillis? s.config.refreshIntervalMs.toNat).getD t := by
    intro t
    cases hlater : t.addMillis? s.config.refreshIntervalMs.toNat with
    | none => exact le_refl t
    | some later => exact Instant.le_of_addMillis? hlater
  simp only [Run.sleep]
  split
  · exact h
  · exact h.lapse rfl (hforward _)

/-- The rounds of a run keep the reference time, with one mark for each tick. Induction on the
rounds. -/
theorem Agrees.loop (o : Outside) :
    ∀ (rounds : Nat) {r : Run} {marks : List Mark}, Agrees s ⟨r.watch, marks⟩ →
      Agrees s ⟨(Run.loop s o rounds r).watch, marks ++ loopMarks s o rounds r⟩
  | 0, r, marks, h => by simpa [Run.loop, loopMarks] using h
  | rounds + 1, r, marks, h => by
    have hmeddled : Agrees s ⟨{ r.watch with disk := o.meddle r.frames r.watch.disk }, marks⟩ :=
      h.lapse rfl le_rfl
    -- the disk is meddled with before the tick, which takes no time
    have htick : Agrees s ⟨(r.tick s o).watch,
        marks ++ [tickMark s { r.watch with disk := o.meddle r.frames r.watch.disk }]⟩ :=
      hmeddled.tick
    rw [Run.loop, loopMarks]
    split
    · simpa using h
    · simp only
      split
      · exact htick
      · have hrest := Agrees.loop o rounds (htick.sleep o)
        simpa using hrest

/-- A run keeps the reference time: it starts, goes through its rounds and stops, which is no act
that is marked. -/
theorem Agrees.run (h : Agrees s ⟨w, marks⟩) (o : Outside) :
    Agrees s ⟨s.run o w, marks ++ [.runStart w.now]
      ++ loopMarks s o o.stop.rounds ⟨w.begun, 0, 0⟩⟩ :=
  -- told to stop, the watch keeps its clock and its interval
  (Agrees.loop o o.stop.rounds (r := ⟨w.begun, 0, 0⟩) h.begun).lapse rfl le_rfl

/-- **Each act keeps the reference time.** -/
theorem Agrees.step {h : History} (ha : Agrees s h) (act : Act) : Agrees s (h.step s act) := by
  cases act with
  | tick => exact ha.tick
  | glance => exact ha.glance
  | run o => exact ha.run o
  | begin => exact ha.begun
  | lapse later =>
    rw [History.step]
    split
    next hlater => exact ha.lapse rfl hlater
    next => exact ha
  | meddle disk screen => exact ha.lapse rfl le_rfl

/-- What each act keeps is kept by all of them. Induction on the acts. -/
theorem Agrees.foldl (acts : List Act) :
    ∀ {h : History}, Agrees s h → Agrees s (acts.foldl (History.step s) h) := by
  induction acts with
  | nil => exact id
  | cons act rest ih => exact fun ha => ih (ha.step act)

/-- Whatever happens to a watch from its start on, it keeps the reference time. At the start there
are no marks and the ledger was never due. -/
theorem agrees_ofActs (s : Session) (disk : Disk) (now : Instant) (screen : Screen)
    (acts : List Act) : Agrees s (.ofActs s (Watch.start disk now screen) acts) :=
  Agrees.foldl acts ⟨rfl, by simp, .nil, by simp [Lawful]⟩

/-! ## What follows -/

section Gaps

variable {before between gap after : List Mark} {t u r : Instant} {found found' logging : Bool}

/-- Behind a logging tick the reference time is that of the tick, or of an act after it that sets it
again. It is never earlier, but a run that starts in a leap second can make it count for more. -/
theorem referenceTime_behind_logging
    (hsorted : (before ++ .tick t found true :: between).Pairwise fun a b => a.time ≤ b.time)
    (hr : referenceTime (before ++ .tick t found true :: between) = some r) :
    t ≤ r ∧ (r = t ∨ ∃ m ∈ between, m.sets? = some r) := by
  obtain ⟨-, hbehind, hacross⟩ := List.pairwise_append.mp hsorted
  -- the last logging tick is this one or one between
  obtain ⟨last, hlast⟩ : ∃ last, (t :: between.filterMap Mark.logging?).getLast? = some last :=
    Option.isSome_iff_exists.mp (by simp)
  have hlogging : ((before ++ .tick t found true :: between).filterMap Mark.logging?).getLast?
      = some last := by
    have hcons : (Mark.tick t found true :: between).filterMap Mark.logging?
        = t :: between.filterMap Mark.logging? := rfl
    rw [List.filterMap_append, hcons, List.getLast?_append, hlast, Option.some_or]
  have hset : t ≤ last ∧ (last = t ∨ ∃ m ∈ between, m.sets? = some last) := by
    rcases List.mem_cons.mp (List.mem_of_getLast? hlast) with rfl | hmem
    · exact ⟨le_rfl, .inl rfl⟩
    · obtain ⟨m, hm, hm'⟩ := List.mem_filterMap.mp hmem
      refine ⟨?_, .inr ⟨m, hm, ?_⟩⟩
      · rw [logging?_eq_time m last hm']
        exact List.rel_of_pairwise_cons hbehind hm
      · cases m with
        | tick time found logging => exact hm'
        | _ => cases hm'
  rw [referenceTime, hlogging] at hr
  cases hstart :
    ((before ++ .tick t found true :: between).filterMap Mark.runStart?).getLast? with
  | none =>
    simp only [hstart, Option.merge, Option.some_or, Option.some.injEq] at hr
    subst hr
    exact hset
  | some start =>
    simp only [hstart, Option.merge, Option.some_or, Option.some.injEq] at hr
    subst hr
    refine ⟨hset.1.trans (le_max_right _ _), ?_⟩
    rcases le_total start last with hle | hle
    · rw [max_eq_right hle]
      exact hset.2
    -- a run that started not before the last logging tick is this tick's time or one between
    rw [max_eq_left hle]
    obtain ⟨m, hm, hm'⟩ := List.mem_filterMap.mp (List.mem_of_getLast? hstart)
    rcases List.mem_append.mp hm with hbefore | hcons
    · have := hacross m hbefore _ List.mem_cons_self
      rw [← runStart?_eq_time m start hm'] at this
      exact .inl (le_antisymm this (hset.1.trans hle))
    · rcases List.mem_cons.mp hcons with rfl | hbetween
      · cases hm'
      · exact .inr ⟨m, hbetween, by rw [Mark.sets?, hm', Option.some_or]⟩

/-- **Logging ticks are an interval apart**, if nothing in between sets the reference time again, or
if no leap second is in play. With a leap second the time that has passed is no difference of two
numbers, and what passed since the later time may be more than what passed since the earlier. -/
theorem Agrees.apart {h : History} (ha : Agrees s h)
    (hsplit : h.marks
      = before ++ .tick t found true :: between ++ .tick u found' true :: after)
    (hquiet : (∀ m ∈ between, m.sets? = none)
      ∨ t.isLeap = false ∧ u.isLeap = false
        ∧ ∀ m ∈ between, ∀ r, m.sets? = some r → r.isLeap = false) :
    interval s ≤ t.elapsed u := by
  obtain ⟨_, r, hr, hpassed⟩ := (ha.lawful _ _ _ _ _ hsplit).mp rfl
  have hsorted := ha.sorted
  rw [hsplit] at hsorted
  obtain ⟨hle, rfl | ⟨m, hm, hset⟩⟩ :=
    referenceTime_behind_logging (List.pairwise_append.mp hsorted).1 hr
  · exact hpassed
  · rcases hquiet with hnone | ⟨ht, hu, hplain⟩
    · rw [hnone m hm] at hset
      cases hset
    · -- the tick is not after the reference time, and time is a plain difference here
      rw [Instant.elapsed_of_not_isLeap (hplain m hm r hset) hu] at hpassed
      rw [Instant.elapsed_of_not_isLeap ht hu]
      have := Instant.totalNanos_le_of_le ht hle
      omega

/-- Looks and ticks that fail leave the reference time alone. A tick that fails cannot be a logging
tick, which is where the law is needed. Induction on the gap. -/
theorem Lawful.referenceTime_gap (hl : Lawful s (before ++ gap ++ after))
    (hidle : ∀ m ∈ gap, m.isIdle = true) :
    referenceTime (before ++ gap) = referenceTime before := by
  induction gap generalizing before with
  | nil => simp
  | cons m rest ih =>
    have hrest : referenceTime (before ++ [m] ++ rest) = referenceTime (before ++ [m]) :=
      ih (by simpa using hl) fun m hm => hidle m (List.mem_cons_of_mem _ hm)
    rw [List.append_assoc, List.singleton_append] at hrest
    rw [hrest]
    have hfirst := hidle m List.mem_cons_self
    cases m with
    | runStart time => cases hfirst
    | glance time => exact referenceTime_glance before time
    | tick time found logging =>
      obtain rfl : found = false := by simpa [Mark.isIdle] using hfirst
      have hlaw := hl before time false logging (rest ++ after) (by simp)
      obtain rfl : logging = false := by
        rw [Bool.eq_false_iff]
        intro hlogging
        cases (hlaw.mp hlogging).1
      exact referenceTime_missed before time

/-- **After an outage the first tick that finds something logs**, if the interval is over by then.
Nothing that was missed is made up for: it is one tick, and the interval starts again with it. -/
theorem Agrees.after_outage {h : History} (ha : Agrees s h)
    (hsplit : h.marks = before ++ gap ++ .tick t true logging :: after)
    (hidle : ∀ m ∈ gap, m.isIdle = true) (hr : referenceTime before = some r)
    (hpassed : interval s ≤ r.elapsed t) : logging = true := by
  have hl := ha.lawful
  rw [hsplit] at hl
  rw [← hl.referenceTime_gap hidle] at hr
  exact (ha.lawful _ _ _ _ _ hsplit).mpr ⟨rfl, r, hr, hpassed⟩

end Gaps

/-- **The cadence of the ledger** in every history from the start of a watch on. How much time has
passed is what `Instant.elapsed` finds.

* A tick is a logging tick exactly if it finds something and a reference time is set from which on
  the interval has passed.
* A logging tick hands its snapshot to the ledger, and the time of the tick is kept; a tick that is
  none writes nothing.
* Logging ticks with no start of a run and no logging tick in between are an interval apart. Where
  no leap second is in play, so are any two of them, also in different runs.
* The watch keeps the reference time. Looks, and ticks that fail, leave it alone, so after an outage
  that is longer than the interval the first tick that finds something logs. -/
theorem cadence (s : Session) (disk : Disk) (now : Instant) (screen : Screen) (acts : List Act) :
    let h := History.ofActs s (Watch.start disk now screen) acts
    (∀ before t found logging after, h.marks = before ++ .tick t found logging :: after →
        (logging = true ↔
          found = true ∧ ∃ r, referenceTime before = some r ∧ interval s ≤ r.elapsed t))
      ∧ (∀ w, (∀ snapshot, s.handed? w = some snapshot → s.tick w =
            let r := s.log snapshot (s.noteLog (s.present (s.found snapshot) w.count))
            ({ s.found snapshot with logged := r.1 }, r.2))
          ∧ (s.handed? w = none → (s.tick w).1.logged = 0 ∧ (s.tick w).2.disk = w.disk))
      ∧ (∀ before t found between u found' after,
          h.marks = before ++ .tick t found true :: between ++ .tick u found' true :: after →
            ((∀ m ∈ between, m.sets? = none)
              ∨ t.isLeap = false ∧ u.isLeap = false
                ∧ ∀ m ∈ between, ∀ r, m.sets? = some r → r.isLeap = false) →
              interval s ≤ t.elapsed u)
      ∧ h.watch.lastLog = referenceTime h.marks
      ∧ (s.glance h.watch).2.lastLog = h.watch.lastLog
      ∧ ((s.read h.watch).isOk = false → (s.tick h.watch).2.lastLog = h.watch.lastLog)
      ∧ (∀ before gap t logging after r,
          h.marks = before ++ gap ++ .tick t true logging :: after →
            (∀ m ∈ gap, m.isIdle = true) → referenceTime before = some r →
              interval s ≤ r.elapsed t → logging = true) := by
  have ha := agrees_ofActs s disk now screen acts
  refine ⟨ha.lawful, fun w => ⟨fun _ => Session.tick_logging, Session.tick_of_not_handed⟩, ?_,
    ha.reference, s.glance_lastLog _, Session.tick_lastLog_missed, ?_⟩
  · intro before t found between u found' after hsplit hquiet
    exact ha.apart hsplit hquiet
  · intro before gap t logging after r hsplit hidle hr hpassed
    exact ha.after_outage hsplit hidle hr hpassed

/-- The store is away when the interval ends, and the first tick that finds it again logs. -/
theorem cadence_outage :
    let acts : List Act := [.tick, .meddle ⟨[], .root⟩ default, .lapse Sample.minute, .tick,
      .glance, .meddle Sample.disk default, .tick]
    let h := History.ofActs Sample.session (Watch.start Sample.disk .epoch default) acts
    h.marks = [.tick .epoch true false, .tick Sample.minute false false, .glance Sample.minute,
        .tick Sample.minute true true]
      ∧ ∀ logging, h.marks = [.tick .epoch true false]
        ++ [.tick Sample.minute false false, .glance Sample.minute]
        ++ .tick Sample.minute true logging :: [] → logging = true := by
  intro acts h
  refine ⟨by decide +kernel, fun logging hsplit => ?_⟩
  have houtage := (cadence Sample.session Sample.disk .epoch default acts).2.2.2.2.2.2
  exact houtage _ _ _ _ _ _ hsplit (by decide) rfl (by decide)

/-! ## Runs in between -/

/-- The last second before a leap second, when less than half of it is left. -/
def beforeLeap : Instant := (Instant.make? 59 600000000).getD .epoch

/-- The middle of that leap second. -/
def inLeap : Instant := (Instant.make? 59 1500000000).getD .epoch

/-- The middle of the second after it. -/
def afterLeap : Instant := (Instant.make? 60 500000000).getD .epoch

/-- **A run that starts in between sets the reference time again**, and then

* two logging ticks can be less than the interval apart: from the start of the run the leap second
  is counted, from the logging tick before it it is not;
* the first tick after an outage that was longer than the interval need not log. -/
theorem cadence_restarted :
    let start := Watch.start Sample.disk .epoch default
    let hurried := History.ofActs Sample.hasty start
      [.tick, .lapse beforeLeap, .tick, .lapse inLeap, .run ⟨fun _ d => d, .inFrame 2⟩]
    let recovered := History.ofActs Sample.session start
      [.tick, .meddle ⟨[], .root⟩ default, .lapse Sample.minute, .tick,
        .meddle Sample.disk default, .run ⟨fun _ d => d, .inFrame 1⟩]
    (hurried.marks = [.tick .epoch true false, .tick beforeLeap true true, .runStart inLeap,
          .tick inLeap true false, .tick afterLeap true true]
        ∧ beforeLeap.elapsed afterLeap < interval Sample.hasty)
      ∧ recovered.marks = [.tick .epoch true false, .tick Sample.minute false false,
          .runStart Sample.minute, .tick Sample.minute true false]
        ∧ referenceTime [.tick .epoch true false] = some .epoch
        ∧ interval Sample.session ≤ Instant.epoch.elapsed Sample.minute := by
  intro start hurried recovered
  refine ⟨⟨?_, by decide⟩, ?_, rfl, by decide⟩
  · decide +kernel
  · decide +kernel

end Cadence

end QuotaWatch
