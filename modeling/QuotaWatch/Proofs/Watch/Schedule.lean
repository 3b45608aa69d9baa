import Mathlib.Algebra.Order.Floor.Div
import QuotaWatch.Proofs.Watch.Stopping

/-!
# The schedule of a steady run

In a steady run the clock goes on with every sleep and the source can always be read. Its ticks are
then a refresh interval apart, and the interval of the ledger starts again with each logging tick,
not when it was due. So the logging ticks are every `c`-th tick from the start on, where `c` is the
number of refresh intervals that first make up the interval of the ledger.

The exception is a run that starts in a leap second and goes on past the end of the day: the clock
took a second for it that is not found again (`Session.KeepsLeap`).

* **`schedule`**: when the ticks of a steady run are, which of them log, and what a ledger that
  works has gained at the end.
* **`schedule_leap_start`**: a run of which this is not so.

`lastLog_look` is the invariant: before tick `k` the ledger was last due at tick
`c * ((k - 1) / c)`.
-/

namespace QuotaWatch

open Disk Time

/-! ## Multiples of a stride -/

section Stride

variable {α : Type} {c k : Nat}

/-- The last multiple of `c` before `k` is a stride behind just if `k` is a multiple as well. This
is when the interval of the ledger has passed at tick `k`. -/
theorem le_behind_multiple_iff (hc : 0 < c) : c ≤ k - c * ((k - 1) / c) ↔ 1 ≤ k ∧ c ∣ k := by
  cases k with
  | zero =>
    rw [Nat.zero_sub]
    exact iff_of_false (by omega) (by omega)
  | succ k =>
    have hsplit := Nat.div_add_mod k c
    have hlt := Nat.mod_lt k hc
    have hrest : k + 1 - c * (k / c) = k % c + 1 := by omega
    rw [Nat.add_sub_cancel, hrest]
    constructor
    · intro hle
      have hsum : k + 1 = c * (k / c) + c := by omega
      exact ⟨by omega, hsum ▸ Nat.dvd_add (Nat.dvd_mul_right _ _) (Nat.dvd_refl c)⟩
    · rintro ⟨-, hdvd⟩
      have hsum : k + 1 = c * (k / c) + (k % c + 1) := by omega
      rw [hsum, Nat.dvd_add_right (Nat.dvd_mul_right _ _)] at hdvd
      exact Nat.le_of_dvd (Nat.succ_pos _) hdvd

/-- With a multiple of `c` the last one is the number itself, otherwise it stays what it was. So the
interval starts again with each logging tick. -/
theorem last_multiple (c k : Nat) :
    (if 1 ≤ k ∧ c ∣ k then k else c * ((k - 1) / c)) = c * (k / c) := by
  cases k with
  | zero => simp
  | succ k =>
    by_cases hdvd : c ∣ k + 1
    · rw [if_pos ⟨by omega, hdvd⟩, Nat.mul_div_cancel' hdvd]
    · rw [if_neg fun h => hdvd h.2, Nat.succ_div_of_not_dvd hdvd, Nat.add_sub_cancel]

/-- Of lists that are empty but at the multiples of `c`, only those are left. Induction on how many
there are: the next list either is at a multiple or adds nothing. -/
theorem flatMap_multiples {f : Nat → List α} {n : Nat}
    (hf : ∀ k < n, ¬ (1 ≤ k ∧ c ∣ k) → f k = []) :
    (List.range n).flatMap f = (List.range ((n - 1) / c)).flatMap fun j => f ((j + 1) * c) := by
  induction n with
  | zero => simp
  | succ k ih =>
    rw [List.range_succ, List.flatMap_append, ih fun i hi => hf i (Nat.lt_succ_of_lt hi),
      List.flatMap_singleton, Nat.add_sub_cancel]
    cases k with
    | zero => simp [hf 0]
    | succ k =>
      rw [Nat.add_sub_cancel]
      by_cases hdvd : c ∣ k + 1
      · have hnext : (k + 1) / c = k / c + 1 := Nat.succ_div_of_dvd hdvd
        have hlast : (k / c + 1) * c = k + 1 := by rw [← hnext, Nat.div_mul_cancel hdvd]
        rw [hnext, List.range_succ, List.flatMap_append, List.flatMap_singleton, hlast]
      · rw [hf (k + 1) (Nat.lt_succ_self _) fun h => hdvd h.2, List.append_nil,
          Nat.succ_div_of_not_dvd hdvd]

end Stride

/-! ## Ledgers that work -/

/-- A ledger that is there and whose lock can be opened. -/
structure Ledger.Works (l : Ledger) (d : Disk) : Prop where
  file : ∃ content, d.file? l.path = some content
  lock : ∃ d', d.touch l.lockPath = .ok d'

section Works

variable {l : Ledger} {d d' : Disk}

/-- **A ledger that works takes an entry and works on.** Only the lock could fail, and it is still
there. -/
theorem Ledger.Works.append (h : l.Works d) (e : LogEntry) :
    ∃ d', (l.append e).run d = (.ok (), d') ∧ l.Works d' := by
  obtain ⟨content, hfile⟩ := h.file
  obtain ⟨home, hl, hget⟩ := file?_eq_some_iff.mp hfile
  obtain ⟨d₁, htouch⟩ := h.lock
  have hslash := noSlash_of_locate hl (ne_directory_of_file hget)
  have hext := touch_extends htouch
  have hl₁ := locate_keeps hext.keepsDirectories hl
  have hget₁ := hext.entry hget
  have hheader := ensureHeader_of_file (locateNew_of_locate hslash hl₁) hget₁
  obtain ⟨d₂, happend, hkeep, hget₂, -⟩ := append_file hl₁ hget₁ (Bytes.ofText e.row)
  have hdirectories := hkeep.keepsDirectories (ne_directory_of_file hget₁)
  refine ⟨d₂, ?_, ⟨_, file?_eq_some_iff.mpr ⟨home, locate_keeps hdirectories hl₁, hget₂⟩⟩, ?_⟩
  · simp [Ledger.append, Ledger.lock, exceptT_run_bind, DiskM.run_change, htouch, hheader, happend]
  · obtain ⟨place, old, hlock, hold⟩ := touch_file htouch
    have hlock₂ := locateNew_keeps hdirectories hlock
    -- nothing here rules out that lock and ledger are one file
    by_cases heq : place = home
    · exact ⟨d₂, touch_of_file hlock₂ (heq ▸ hget₂)⟩
    · exact ⟨d₂, touch_of_file hlock₂ (hkeep.entry heq hold)⟩

/-- A ledger that works still does after any number of entries. -/
theorem Writes.works {entries : List LogEntry} (h : Writes l.append d entries d')
    (hworks : l.Works d) : l.Works d' := by
  induction h with
  | nil => exact hworks
  | cons first _ ih =>
    obtain ⟨d₁, hrun, hworks₁⟩ := hworks.append _
    rw [first] at hrun
    cases hrun
    exact ih hworks₁

/-- Writing to a ledger that works is not cut short. The only failure would be that of the next
entry, and a ledger that works takes that. -/
theorem WriteEnd.of_works {w w' : Watch} {entries : List LogEntry} {logged : Nat}
    (h : WriteEnd l.append w entries logged w') (hworks : l.Works w.disk) :
    logged = entries.length ∧ l.Works w'.disk := by
  cases h with
  | all length writes => exact ⟨length, writes.works hworks⟩
  | failed next writes failure =>
    obtain ⟨_, hrun, _⟩ := (writes.works hworks).append _
    rw [failure] at hrun
    cases hrun

end Works

namespace Session

variable {s : Session} {o : Outside} {w : Watch} {l : Ledger} {content : Content} {n : Nat}

/-- **A tick adds its rows to a ledger that works**, if it has any. -/
theorem tick_of_works (hledger : s.ledger = some l) (hworks : l.Works w.disk)
    (hfile : w.disk.file? l.path = some content) :
    l.Works (s.tick w).2.disk
      ∧ (s.tick w).2.disk.file? l.path = some (content.grow (rowBytes (s.batch w))) := by
  cases hhanded : s.handed? w with
  -- without rows the disk stays as it is
  | none =>
    rw [(tick_of_not_handed hhanded).2, batch_of_not_handed hhanded]
    exact ⟨hworks, by simpa [rowBytes] using hfile⟩
  | some snapshot =>
    obtain ⟨w₁, hdisk, -, hend⟩ := tick_of_handed hhanded hledger
    obtain ⟨hlogged, hworks'⟩ := hend.of_works (hdisk ▸ hworks)
    have hgrown := hend.file? (hdisk ▸ hfile)
    rw [hlogged, List.take_length] at hgrown
    exact ⟨hworks', hgrown⟩

/-- **The ticks of a run add their rows** one after the other. What happens between the ticks has to
leave the ledger as it is, and working. Induction on the ticks. -/
theorem ended_of_works (hledger : s.ledger = some l) (hworks : l.Works w.disk)
    (hfile : w.disk.file? l.path = some content)
    (hmeddle : ∀ k d, l.Works d →
      l.Works (o.meddle k d) ∧ (o.meddle k d).file? l.path = d.file? l.path) (n : Nat) :
    l.Works (s.ended o w n).disk
      ∧ (s.ended o w n).disk.file? l.path = some
        (content.grow (rowBytes ((List.range n).flatMap fun k => s.batch (s.look o w k)))) := by
  induction n with
  | zero =>
    refine ⟨hworks, ?_⟩
    show w.disk.file? l.path = _
    simpa [rowBytes] using hfile
  | succ k ih =>
    obtain ⟨hworks, hfile⟩ := ih
    have hlook : (s.look o w k).disk = o.meddle k (s.ended o w k).disk := by cases k <;> rfl
    obtain ⟨hmeddled, hsame⟩ := hmeddle k _ hworks
    rw [← hlook] at hmeddled hsame
    obtain ⟨hworks', hfile'⟩ := tick_of_works hledger hmeddled (hsame.trans hfile)
    refine ⟨hworks', hfile'.trans ?_⟩
    rw [Content.grow_grow, List.range_succ, List.flatMap_append, List.flatMap_singleton]
    simp [rowBytes]

/-! ## Steady runs -/

/-- A run of `n` ticks in which the clock goes on and the source can always be read. -/
structure Steady (s : Session) (o : Outside) (w : Watch) (n : Nat) : Prop where
  refresh : 0 < s.config.refreshIntervalMs.toNat
  interval : 0 < s.config.logIntervalMs.toNat
  clock : ∀ k < n, (w.now.addMillis? (k * s.config.refreshIntervalMs.toNat)).isSome = true
  found : ∀ k < n, (s.read (s.look o w k)).isOk = true

/-- A run of `n` ticks does not carry a leap second into the next day: it does not start in one, or
it is over before the day is. On the next day the second in which it started no longer counts, so a
tick that the clock took it to in time is too early for the ledger. -/
def KeepsLeap (s : Session) (o : Outside) (w : Watch) (n : Nat) : Prop :=
  w.now.isLeap = false ∨ ∀ k < n, (s.look o w k).now.date = w.now.date

/-- How many refresh intervals first make up the interval of the ledger. -/
def stride (s : Session) : Nat :=
  s.config.logIntervalMs.toNat ⌈/⌉ s.config.refreshIntervalMs.toNat

/-- So many refresh intervals are as long as the interval of the ledger just if there are at least
as many of them as the stride. -/
theorem Steady.stride_le_iff (h : s.Steady o w n) (m : Nat) :
    s.stride ≤ m ↔ s.config.logIntervalMs.toNat ≤ m * s.config.refreshIntervalMs.toNat := by
  rw [stride, ceilDiv_le_iff_le_mul h.refresh, Nat.mul_comm]

/-- At least one refresh interval goes by between two logging ticks, since the interval of the
ledger is not empty. -/
theorem Steady.stride_pos (h : s.Steady o w n) : 0 < s.stride := by
  have hnot : ¬ s.stride ≤ 0 := by
    rw [h.stride_le_iff, Nat.zero_mul]
    exact Nat.not_le_of_lt h.interval
  omega

/-- **The ticks of a steady run are a refresh interval apart**, wherever it starts: the sleeps take
the clock as far as one that is as long as all of them. -/
theorem Steady.now_look (h : s.Steady o w n) {k : Nat} (hk : k < n) :
    w.now.addMillis? (k * s.config.refreshIntervalMs.toNat) = some (s.look o w k).now := by
  induction k with
  | zero =>
    rw [Nat.zero_mul, Instant.addMillis?_zero]
    rfl
  | succ k ih =>
    have hsleep : (s.look o w (k + 1)).now = s.afterSleep (s.look o w k).now := by
      rw [look_now, look_now, Function.iterate_succ_apply']
    have hclock := h.clock (k + 1) hk
    rw [Nat.succ_mul, Instant.addMillis?_add, ih (by omega), Option.bind_some] at hclock ⊢
    obtain ⟨later, hlater⟩ := Option.isSome_iff_exists.mp hclock
    rw [hsleep, afterSleep, hlater, Option.getD_some]

/-- From a start in no leap second, the ticks are so many nanoseconds after it. From a start in one
they are not: the rest of that second counts, too. -/
theorem Steady.totalNanos_look (h : s.Steady o w n) {k : Nat} (hk : k < n)
    (hstart : w.now.isLeap = false) :
    (s.look o w k).now.totalNanos
      = w.now.totalNanos + (k * s.config.refreshIntervalMs.toNat : Nat) * 1000000 := by
  -- only a start in a leap second can stay in it
  rcases Instant.addMillis?_eq_some_iff.mp (h.now_look hk) with ⟨⟨hleap, -⟩, -⟩ | ⟨-, -, htotal⟩
  · rw [hstart] at hleap
    cases hleap
  · rw [htotal, Instant.reached_of_not_isLeap hstart]

/-- If the ledger was last due at the last multiple of the stride before a tick, it is due at this
tick if this is a multiple as well. -/
theorem Steady.logDue_look_iff (h : s.Steady o w n) (hleap : s.KeepsLeap o w n) {k : Nat}
    (hk : k < n) {last : Instant} (hlast : (s.look o w k).lastLog = some last)
    (htime : w.now.addMillis?
      (s.stride * ((k - 1) / s.stride) * s.config.refreshIntervalMs.toNat) = some last) :
    s.logDue (s.look o w k) = true ↔ 1 ≤ k ∧ s.stride ∣ k := by
  have hpassed : s.logDue (s.look o w k) = true
      ↔ (s.config.logIntervalMs.toNat * 1000000 : Int) ≤ last.elapsed (s.look o w k).now := by
    simp [logDue, hlast, Instant.hasPassed]
  have hle : s.stride * ((k - 1) / s.stride) ≤ k :=
    Nat.le_trans (Nat.mul_div_le _ _) (Nat.sub_le k 1)
  have hmul := Nat.mul_le_mul_right s.config.refreshIntervalMs.toNat hle
  have helapsed := Instant.elapsed_addMillis? htime (h.now_look hk) hmul
    (hleap.imp_right fun hday => hday k hk)
  rw [← le_behind_multiple_iff h.stride_pos, hpassed, h.stride_le_iff, Nat.sub_mul, helapsed]
  omega

/-- A tick of a steady run logs if the ledger is due, since there is always something to be found.
-/
theorem Steady.handed_look (h : s.Steady o w n) {k : Nat} (hk : k < n) :
    (s.handed? (s.look o w k)).isSome = s.logDue (s.look o w k) := by
  obtain ⟨snapshot, hread⟩ := except_isOk_iff.mp (h.found k hk)
  simp only [handed?, hread]
  cases s.logDue (s.look o w k) <;> rfl

/-- **Where the interval of the ledger starts**: before a tick of a steady run that is the last
multiple of the stride. Induction on the ticks. -/
theorem Steady.lastLog_look (h : s.Steady o w n) (hleap : s.KeepsLeap o w n) {k : Nat}
    (hk : k < n) :
    ∃ last, (s.look o w k).lastLog = some last
      ∧ w.now.addMillis? (s.stride * ((k - 1) / s.stride) * s.config.refreshIntervalMs.toNat)
        = some last := by
  induction k with
  | zero => exact ⟨w.now, rfl, by simpa using w.now.addMillis?_zero⟩
  | succ k ih =>
    have hk' : k < n := by omega
    obtain ⟨last, hlast, htime⟩ := ih hk'
    have hdue := h.logDue_look_iff hleap hk' hlast htime
    have hnext : (s.look o w (k + 1)).lastLog = (s.tick (s.look o w k)).2.lastLog := rfl
    rw [hnext, tick_lastLog_found (h.found k hk'), h.handed_look hk', Nat.add_sub_cancel,
      ← last_multiple s.stride k]
    -- the interval starts again at a multiple of the stride, and only there
    by_cases hlogging : 1 ≤ k ∧ s.stride ∣ k
    · rw [if_pos (hdue.mpr hlogging), if_pos hlogging]
      exact ⟨_, rfl, h.now_look hk'⟩
    · rw [if_neg fun hd => hlogging (hdue.mp hd), if_neg hlogging, hlast]
      exact ⟨last, rfl, htime⟩

/-- **The logging ticks of a steady run** are those at the multiples of the stride. -/
theorem Steady.handed_look_iff (h : s.Steady o w n) (hleap : s.KeepsLeap o w n) {k : Nat}
    (hk : k < n) : s.handed? (s.look o w k) ≠ none ↔ 1 ≤ k ∧ s.stride ∣ k := by
  obtain ⟨last, hlast, htime⟩ := h.lastLog_look hleap hk
  rw [Option.ne_none_iff_isSome, h.handed_look hk, h.logDue_look_iff hleap hk hlast htime]

/-- A run of `n` ticks reaches each multiple of the stride that is counted. -/
theorem Steady.multiple_lt (h : s.Steady o w n) {j : Nat} (hj : j < (n - 1) / s.stride) :
    (j + 1) * s.stride < n := by
  have hle : (j + 1) * s.stride ≤ n - 1 :=
    Nat.le_trans (Nat.mul_le_mul_right _ hj) (Nat.div_mul_le_self (n - 1) _)
  have hpos : 0 < (j + 1) * s.stride := Nat.mul_pos (Nat.succ_pos j) h.stride_pos
  omega

/-- The logging ticks that are counted do log. -/
theorem Steady.handed_multiple (h : s.Steady o w n) (hleap : s.KeepsLeap o w n) {j : Nat}
    (hj : j < (n - 1) / s.stride) : s.handed? (s.look o w ((j + 1) * s.stride)) ≠ none :=
  (h.handed_look_iff hleap (h.multiple_lt hj)).mpr
    ⟨Nat.mul_pos (Nat.succ_pos j) h.stride_pos, Nat.dvd_mul_left _ _⟩

/-! ## What the ledger gains -/

/-- A tick that hands its snapshot over has a row for each record that is known. -/
theorem length_batch {m : Nat} (hhanded : s.handed? w ≠ none)
    (hknown : ∀ snapshot, s.read w = .ok snapshot →
      (snapshot.records.filter QuotaRecord.isKnown).length = m) : (s.batch w).length = m := by
  obtain ⟨snapshot, hsnapshot⟩ := Option.ne_none_iff_exists'.mp hhanded
  rw [batch_of_handed hsnapshot, entries_eq, List.length_map]
  exact hknown snapshot (handed?_eq_some_iff.mp hsnapshot).1

/-- Each row carries the time of its tick, if the source stamps its snapshots so. -/
theorem timestamp_of_mem_batch (hsource : s.source.Punctual) {e : LogEntry} (h : e ∈ s.batch w) :
    e.timestamp = w.now.stamp .millis := by
  rw [batch_eq hsource] at h
  obtain ⟨r, -, rfl⟩ := List.mem_map.mp h
  rfl

/-- **The schedule of a steady run** that is told to stop in its `n`-th frame, with `r` the refresh
interval, and `c` how many of these first make up the interval of the ledger.

* It has `n` ticks, an interval `r` apart.
* If it does not carry a leap second into the next day, its logging ticks are those at the multiples
  of `c` from `c` on.
* If also `m` records of each snapshot are known, a ledger that works, and that nobody else changes,
  has gained `m` rows for each logging tick, in the order of these ticks. The rows of a source that
  stamps its snapshots when it is looked at carry the times of the ticks, rounded down to
  milliseconds. -/
theorem schedule (s : Session) (o : Outside) (w : Watch) (n : Nat) (hstop : o.stop = .inFrame n)
    (h : s.Steady o w n) :
    let r := s.config.refreshIntervalMs.toNat
    let c := s.config.logIntervalMs.toNat ⌈/⌉ r
    (s.run o w = { s.ended o w n with phase := .stopped }
        ∧ (s.run o w).looks = w.looks + n ∧ (s.run o w).ticks = w.ticks + .ofNat n)
      ∧ (∀ k < n, w.now.addMillis? (k * r) = some (s.look o w k).now
          ∧ (w.now.isLeap = false →
            (s.look o w k).now.totalNanos = w.now.totalNanos + (k * r : Nat) * 1000000))
      ∧ (s.KeepsLeap o w n →
          (∀ k < n, s.handed? (s.look o w k) ≠ none ↔ 1 ≤ k ∧ c ∣ k)
            ∧ ∀ l content m, s.ledger = some l → w.disk.file? l.path = some content →
              l.Works w.disk →
              (∀ k d, l.Works d →
                l.Works (o.meddle k d) ∧ (o.meddle k d).file? l.path = d.file? l.path) →
              (∀ k < n, ∀ snapshot, s.read (s.look o w k) = .ok snapshot →
                (snapshot.records.filter QuotaRecord.isKnown).length = m) →
              let batches :=
                (List.range ((n - 1) / c)).map fun j => s.batch (s.look o w ((j + 1) * c))
              (s.run o w).disk.file? l.path = some (content.grow (rowBytes batches.flatten))
                ∧ batches.flatten.length = m * ((n - 1) / c)
                ∧ ∀ j batch, batches[j]? = some batch →
                  batch.length = m ∧ (s.source.Punctual → ∃ t : Instant,
                    w.now.addMillis? ((j + 1) * c * r) = some t
                      ∧ ∀ e ∈ batch, e.timestamp = t.stamp .millis)) := by
  intro r c
  have hrun : s.run o w = { s.ended o w n with phase := .stopped } := by
    rw [run_eq_ended, hstop]
    rfl
  refine ⟨⟨hrun, by rw [hrun]; exact s.ended_looks o w n, by rw [hrun]; exact s.ended_ticks o w n⟩,
    fun k hk => ⟨h.now_look hk, h.totalNanos_look hk⟩,
    fun hleap => ⟨fun k hk => h.handed_look_iff hleap hk, ?_⟩⟩
  intro l content m hledger hfile hworks hmeddle hknown batches
  have hlength {j : Nat} (hj : j < (n - 1) / c) :
      (s.batch (s.look o w ((j + 1) * c))).length = m :=
    length_batch (h.handed_multiple hleap hj) (hknown _ (h.multiple_lt hj))
  refine ⟨?_, ?_, ?_⟩
  · -- the other ticks have no rows
    have hempty : ∀ k < n, ¬ (1 ≤ k ∧ c ∣ k) → s.batch (s.look o w k) = [] := fun k hk hnot =>
      batch_of_not_handed
        (not_not.mp fun hhanded => hnot ((h.handed_look_iff hleap hk).mp hhanded))
    have hgained := (ended_of_works hledger hworks hfile hmeddle n).2
    rw [flatMap_multiples hempty] at hgained
    rw [hrun]
    exact hgained
  · have hall : ∀ b ∈ batches, b.length = m := by
      intro b hb
      obtain ⟨j, hj, rfl⟩ := List.mem_map.mp hb
      exact hlength (List.mem_range.mp hj)
    rw [List.length_flatten, List.map_congr_left hall, List.map_const', List.sum_replicate_nat]
    simp [batches, Nat.mul_comm]
  · intro j b hb
    obtain ⟨i, hi, rfl⟩ : ∃ i, (List.range ((n - 1) / c))[j]? = some i
        ∧ s.batch (s.look o w ((i + 1) * c)) = b := by
      simpa [batches] using hb
    obtain ⟨hj, rfl⟩ := List.getElem?_eq_some_iff.mp hi
    rw [List.length_range] at hj
    rw [List.getElem_range]
    exact ⟨hlength hj, fun hsource => ⟨_, h.now_look (h.multiple_lt hj),
      fun e => timestamp_of_mem_batch hsource⟩⟩

/-- A session that looks every two milliseconds and logs when three have passed. -/
def quick : Session :=
  { Sample.session with
    config := { Config.standard with refreshIntervalMs := 2, logIntervalMs := 3 } }

/-- In four ticks the quick session logs once, four milliseconds after the start. -/
theorem schedule_quick :
    let o : Outside := ⟨fun _ d => d, .inFrame 4⟩
    let w := Watch.start Sample.disk .epoch default
    let row := "1970-01-01T00:00:00.004Z,Gemini 3 Pro (High),0,0,100,100,auto-sync,s,quota-gauge\n"
    (quick.run o w).ticks = 4
      ∧ (∀ k < 4, quick.handed? (quick.look o w k) ≠ none ↔ k = 2)
      ∧ (quick.run o w).disk.file? ⟨"usage.csv"⟩
        = some (.bytes (Ledger.headerLine ++ Bytes.ofText row)) := by
  intro o w row
  have hsteady : quick.Steady o w 4 :=
    ⟨by decide, by decide, by decide +kernel, by decide +kernel⟩
  obtain ⟨⟨-, -, hticks⟩, -, hleap⟩ := schedule quick o w 4 rfl hsteady
  obtain ⟨hlogging, hledger⟩ := hleap (.inl rfl)
  have hknown : ∀ k < 4, ∀ snapshot, quick.read (quick.look o w k) = .ok snapshot →
      (snapshot.records.filter QuotaRecord.isKnown).length = 1 := by
    have hall : ∀ k < 4, (quick.read (quick.look o w k)).toOption.map
        (fun snapshot => (snapshot.records.filter QuotaRecord.isKnown).length) = some 1 := by
      decide +kernel
    intro k hk snapshot hread
    have hone := hall k hk
    rw [hread] at hone
    exact Option.some.inj hone
  -- one refresh interval is a millisecond short of it, two are enough
  have hstride : quick.config.logIntervalMs.toNat ⌈/⌉ quick.config.refreshIntervalMs.toNat = 2 := by
    decide
  simp only [hstride] at hlogging hledger
  have hgained := (hledger ⟨⟨"usage.csv"⟩⟩ (.bytes Ledger.headerLine) 1 rfl rfl
    ⟨⟨_, rfl⟩, ⟨_, rfl⟩⟩ (fun _ _ hworks => ⟨hworks, rfl⟩) hknown).1
  have hrows : rowBytes ((List.range ((4 - 1) / 2)).map fun j =>
      quick.batch (quick.look o w ((j + 1) * 2))).flatten = Bytes.ofText row := by
    decide +kernel
  refine ⟨hticks, fun k hk => ?_, hgained.trans ?_⟩
  · rw [hlogging k hk]
    omega
  · rw [hrows]
    rfl

/-- The middle of the leap second at the end of 2016. -/
def yearEnd : Instant := (Instant.make? 1483228799 1500000000).getD .epoch

/-- A nanosecond before the end of the first millisecond of 1970. -/
def almostMilli : Instant := (Instant.make? 0 999999).getD .epoch

/-- **The schedule can be missed, and is not kept to the nanosecond.** A run that starts in the leap
second at the end of a year finds no time passed at its second tick, although it has slept for the
interval of the ledger. And the time of a tick that does log loses what is below a millisecond. -/
theorem schedule_leap_start :
    let w := Watch.start Sample.disk yearEnd default
    let w' := Watch.start Sample.disk almostMilli default
    Sample.hasty.Steady ⟨fun _ d => d, .inFrame 2⟩ w 2
      ∧ Sample.hasty.stride = 1
      ∧ (Sample.hasty.look ⟨fun _ d => d, .inFrame 2⟩ w 1).now.stamp .millis
        = "2017-01-01T00:00:00.500Z"
      ∧ Sample.hasty.handed? (Sample.hasty.look ⟨fun _ d => d, .inFrame 2⟩ w 1) = none
      ∧ (quick.look ⟨fun _ d => d, .inFrame 3⟩ w' 2).now.totalNanos = 4999999
      ∧ (quick.batch (quick.look ⟨fun _ d => d, .inFrame 3⟩ w' 2)).map (·.timestamp)
        = ["1970-01-01T00:00:00.004Z"] := by
  intro w w'
  refine ⟨⟨by decide, by decide, by decide +kernel, by decide +kernel⟩, by decide, ?_, ?_, ?_, ?_⟩
  · decide +kernel
  · decide +kernel
  · decide +kernel
  · decide +kernel

end Session

end QuotaWatch
