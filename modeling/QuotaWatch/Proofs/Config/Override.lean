import QuotaWatch.Proofs.Config.Creation
import QuotaWatch.Proofs.Config.Given
import QuotaWatch.Proofs.Text.Decimal

/-!
# What the environment overrides

The overrides of an environment come in an order: store, ledger, refresh interval, log interval, and
then the configuration is validated. `Overriding` has one case for each way this can end, with the
configuration that is left.

* **`overridden_eq_iff`**: these are the ways in which overriding a configuration ends.
* **`Overriding.again`**: overriding once more ends in the same way and changes nothing.
* **`setUp_merges`**: what is set up from a configuration file that is there.
-/

namespace QuotaWatch

open Text Toml

variable {e : Environment} {c c' : Config} {key value : String} {old n : UInt64}
  {result : Except ConfigFault Unit}

/-! ## One variable -/

/-- An interval as a variable leaves it: as it was, or the number that the variable writes. -/
inductive OverridesMillis (e : Environment) (key : String) (old n : UInt64) : Prop
  | unset (h : e.get? key = none) (hsame : n = old)
  | given {value : String} (h : e.get? key = some value)
      (hspells : SpellsCount (trim value.toList) n.toNat)

/-- A variable that is set, but not to a whole number of 64 bits. -/
structure Garbled (e : Environment) (key value : String) : Prop where
  given : e.get? key = some value
  no_count : ∀ n : UInt64, ¬ SpellsCount (trim value.toList) n.toNat

theorem millis?_eq_some_iff : millis? value = some n ↔ SpellsCount (trim value.toList) n.toNat :=
  count?_eq_some_iff

/-- A variable overrides an interval, leaves it, or is garbled. There is no fourth way. -/
theorem overridesMillis_or_garbled (e : Environment) (key : String) (old : UInt64) :
    (∃ n, OverridesMillis e key old n) ∨ ∃ value, Garbled e key value := by
  cases hget : e.get? key with
  | none => exact .inl ⟨old, .unset hget rfl⟩
  | some value =>
    cases hread : millis? value with
    | some n => exact .inl ⟨n, .given hget (millis?_eq_some_iff.mp hread)⟩
    | none =>
      refine .inr ⟨value, hget, fun n hspells => ?_⟩
      rw [millis?_eq_some_iff.mpr hspells] at hread
      cases hread

/-- An interval that was overridden is overridden to the same again. -/
theorem OverridesMillis.again (h : OverridesMillis e key old n) : OverridesMillis e key n n := by
  cases h with
  | unset hget _ => exact .unset hget rfl
  | given hget hspells => exact .given hget hspells

/-! ## Running the overrides -/

/-- A path is set from a variable that is there and not empty, and this cannot fail. -/
theorem run_overridePath (e : Environment) (key : String) (set : Path → Config → Config)
    (c : Config) :
    (overridePath e key set).run c
      = (.ok (), (e.filled? key).elim c fun value => set ⟨value⟩ c) := by
  unfold overridePath
  cases e.filled? key <;> rfl

/-- An override that is a number, or that is not set, succeeds and leaves the interval that it says.
-/
theorem OverridesMillis.run (h : OverridesMillis e key old n) {set : UInt64 → Config → Config}
    (hold : set old c = c) : (overrideMillis e key set).run c = (.ok (), set n c) := by
  unfold overrideMillis
  cases h with
  | unset hget hsame =>
    simp only [hget, hsame, hold]
    rfl
  | given hget hspells =>
    simp only [hget, millis?_eq_some_iff.mpr hspells]
    rfl

/-- A garbled variable fails with its own text and changes nothing. -/
theorem Garbled.run (h : Garbled e key value) (set : UInt64 → Config → Config) (c : Config) :
    (overrideMillis e key set).run c = (.error (.notMillis key value), c) := by
  have hnone : millis? value = none :=
    Option.eq_none_iff_forall_ne_some.mpr fun n hn => h.no_count n (millis?_eq_some_iff.mp hn)
  unfold overrideMillis
  simp only [h.given, hnone]
  rfl

/-! ## How overriding ends -/

/-- A configuration with the paths of an environment, and with other intervals. -/
def Config.under (c : Config) (e : Environment) (refresh log : UInt64) : Config :=
  { c with
    storePath := ((e.filled? "GAUGE_STORE_PATH").map Path.mk).or c.storePath
    ledgerPath := ((e.filled? "GAUGE_LEDGER_PATH").map Path.mk).or c.ledgerPath
    refreshIntervalMs := refresh
    logIntervalMs := log }

/-- The paths of an environment are set once: to set them again under the same environment makes no
difference. -/
theorem Config.under_under (c : Config) (e : Environment) (refresh log refresh' log' : UInt64) :
    (c.under e refresh log).under e refresh' log' = c.under e refresh' log' := by
  have hor (o x : Option Path) : o.or (o.or x) = o.or x := by cases o <;> rfl
  simp only [under, hor]

/-- A configuration that all overrides are applied to. -/
structure Overridden (e : Environment) (c c' : Config) : Prop where
  refresh : OverridesMillis e "GAUGE_REFRESH_INTERVAL_MS" c.refreshIntervalMs c'.refreshIntervalMs
  log : OverridesMillis e "GAUGE_LOG_INTERVAL_MS" c.logIntervalMs c'.logIntervalMs
  others : c' = c.under e c'.refreshIntervalMs c'.logIntervalMs

/-- What becomes of a configuration under the overrides of an environment: they are applied in
order up to the first that fails. -/
inductive Overriding (e : Environment) (c : Config) : Except ConfigFault Unit → Config → Prop
  | good {c' : Config} (h : Overridden e c c') (hvalid : c'.validate = .ok ()) :
      Overriding e c (.ok ()) c'
  | defective {c' : Config} (h : Overridden e c c') {defect : Defect}
      (hdefect : c'.validate = .error defect) : Overriding e c (.error (.defect defect)) c'
  | garbledLog {refresh : UInt64} {garbage : String}
      (hrefresh : OverridesMillis e "GAUGE_REFRESH_INTERVAL_MS" c.refreshIntervalMs refresh)
      (hlog : Garbled e "GAUGE_LOG_INTERVAL_MS" garbage) :
      Overriding e c (.error (.notMillis "GAUGE_LOG_INTERVAL_MS" garbage))
        (c.under e refresh c.logIntervalMs)
  | garbledRefresh {garbage : String} (hrefresh : Garbled e "GAUGE_REFRESH_INTERVAL_MS" garbage) :
      Overriding e c (.error (.notMillis "GAUGE_REFRESH_INTERVAL_MS" garbage))
        (c.under e c.refreshIntervalMs c.logIntervalMs)

/-- The overrides behind the paths, and the validation. -/
def Environment.overrideIntervals (e : Environment) : ConfigM Unit := do
  overrideMillis e "GAUGE_REFRESH_INTERVAL_MS" fun n c => { c with refreshIntervalMs := n }
  overrideMillis e "GAUGE_LOG_INTERVAL_MS" fun n c => { c with logIntervalMs := n }
  match (← get).validate with
  | .ok () => pure ()
  | .error d => throw (.defect d)

/-- The paths come first, and they cannot fail. What is left to do starts from a configuration that
has them. -/
theorem Config.overridden_eq (c : Config) (e : Environment) :
    c.overridden e = e.overrideIntervals.run (c.under e c.refreshIntervalMs c.logIntervalMs) := by
  -- the two paths are independent, so their order does not matter
  have hpaths : (e.filled? "GAUGE_LEDGER_PATH").elim
      ((e.filled? "GAUGE_STORE_PATH").elim c fun value => { c with storePath := some ⟨value⟩ })
      (fun value =>
        { (e.filled? "GAUGE_STORE_PATH").elim c fun value => { c with storePath := some ⟨value⟩ }
          with ledgerPath := some ⟨value⟩ })
      = c.under e c.refreshIntervalMs c.logIntervalMs := by
    unfold under
    cases e.filled? "GAUGE_STORE_PATH" <;> cases e.filled? "GAUGE_LEDGER_PATH" <;> rfl
  rw [overridden, Environment.override, exceptT_run_bind, run_overridePath]
  simp only
  rw [exceptT_run_bind, run_overridePath]
  simp only [hpaths]
  rfl

/-- Good overrides leave it to the validation how overriding ends. The configuration is left as
overridden even where the validation refuses it. -/
theorem Overridden.overridden (h : Overridden e c c') :
    c.overridden e = (c'.validate.mapError .defect, c') := by
  rw [c.overridden_eq, Environment.overrideIntervals, exceptT_run_bind, h.refresh.run rfl]
  simp only
  rw [exceptT_run_bind, h.log.run rfl]
  -- the two intervals are all that was left to set
  have hlast : { { c.under e c.refreshIntervalMs c.logIntervalMs with
      refreshIntervalMs := c'.refreshIntervalMs } with logIntervalMs := c'.logIntervalMs } = c' :=
    h.others.symm
  simp only [hlast, exceptT_run_bind]
  show ExceptT.run (match c'.validate with
    | .ok () => pure ()
    | .error defect => throw (ConfigFault.defect defect) : ConfigM Unit) c' = _
  cases c'.validate <;> rfl

/-- Each of the four ways is taken: this runs the overrides case by case. -/
theorem Overriding.overridden (h : Overriding e c result c') : c.overridden e = (result, c') := by
  cases h with
  | good h hvalid => rw [h.overridden, hvalid, except_mapError_ok]
  | defective h hdefect => rw [h.overridden, hdefect, except_mapError_error]
  | garbledLog hrefresh hlog =>
    rw [c.overridden_eq, Environment.overrideIntervals, exceptT_run_bind, hrefresh.run rfl]
    simp only
    rw [exceptT_run_bind, hlog.run]
    rfl
  | garbledRefresh hrefresh =>
    rw [c.overridden_eq, Environment.overrideIntervals, exceptT_run_bind, hrefresh.run]

/-- One of the four ways is always there, since each variable is good or garbled. -/
theorem exists_overriding (e : Environment) (c : Config) :
    ∃ result c', Overriding e c result c' := by
  -- the intervals are read in order, and the first that is garbled ends it
  rcases overridesMillis_or_garbled e "GAUGE_REFRESH_INTERVAL_MS" c.refreshIntervalMs with
    ⟨refresh, hrefresh⟩ | ⟨garbage, hrefresh⟩
  · rcases overridesMillis_or_garbled e "GAUGE_LOG_INTERVAL_MS" c.logIntervalMs with
      ⟨log, hlog⟩ | ⟨garbage, hlog⟩
    · have hall : Overridden e c (c.under e refresh log) := ⟨hrefresh, hlog, rfl⟩
      cases hvalid : (c.under e refresh log).validate with
      | ok => exact ⟨_, _, .good hall hvalid⟩
      | error defect => exact ⟨_, _, .defective hall hvalid⟩
    · exact ⟨_, _, .garbledLog hrefresh hlog⟩
  · exact ⟨_, _, .garbledRefresh hrefresh⟩

/-- **How overriding a configuration ends.** Overriding is a function, and one of the ways applies,
so none of the others does. -/
theorem overridden_eq_iff : c.overridden e = (result, c') ↔ Overriding e c result c' := by
  refine ⟨fun h => ?_, Overriding.overridden⟩
  obtain ⟨result', c₁, hends⟩ := exists_overriding e c
  obtain ⟨rfl, rfl⟩ := Prod.mk.inj (hends.overridden.symm.trans h)
  exact hends

/-- A configuration with all overrides is one that they lead to again. -/
theorem Overridden.again (h : Overridden e c c') : Overridden e c' c' where
  refresh := h.refresh.again
  log := h.log.again
  others := by
    have hunder := c.under_under e c'.refreshIntervalMs c'.logIntervalMs c'.refreshIntervalMs
      c'.logIntervalMs
    rw [← h.others] at hunder
    exact hunder.symm

/-- What is overridden already is overridden in the same way again, also if that was a failure. -/
theorem Overriding.again (h : Overriding e c result c') : Overriding e c' result c' := by
  cases h with
  | good h hvalid => exact .good h.again hvalid
  | defective h hdefect => exact .defective h.again hdefect
  | @garbledLog refresh _ hrefresh hlog =>
    -- the first variable is applied again, and the second one fails again
    have hends := Overriding.garbledLog (c := c.under e refresh c.logIntervalMs)
      hrefresh.again hlog
    rwa [Config.under_under] at hends
  | garbledRefresh hrefresh =>
    have hends := Overriding.garbledRefresh
      (c := c.under e c.refreshIntervalMs c.logIntervalMs) hrefresh
    rwa [Config.under_under] at hends

/-! ## Setting up from a file -/

/-- From a configuration file that is there a run is set up if the file gives a valid configuration
and overriding it ends well. The disk plays no part beyond the text of the file. -/
theorem run_setUp_of_text {explicit : Option Path} {d : Disk} {text : String} {s : Setup}
    (hfile : d.file? (e.configFile explicit) = some (.bytes (Bytes.ofText text))) :
    ((e.setUp explicit).run d).1 = .ok s ↔
      ∃ c, Config.ofFile (e.configFile explicit) text = .ok c
        ∧ c.overridden e = (.ok (), s.config)
        ∧ s.locations = e.locations (e.configFile explicit) s.config ∧ s.created = false := by
  rw [e.run_setUp, Config.loadOrCreate_of_text hfile]
  cases Config.ofFile (e.configFile explicit) text with
  | error fault => simp
  | ok c =>
    simp only [Except.ok.injEq, exists_eq_left']
    -- what the environment makes of the configuration decides the rest
    generalize c.overridden e = ended
    obtain ⟨fault | _, c'⟩ := ended
    · simp
    · cases s
      simp only [Except.ok.injEq, Setup.mk.injEq, Prod.mk.injEq, true_and]
      constructor
      · rintro ⟨rfl, rfl, rfl⟩
        exact ⟨rfl, rfl, rfl⟩
      · rintro ⟨rfl, rfl, rfl⟩
        exact ⟨rfl, rfl, rfl⟩

/-- **A configuration file and the environment, merged.** From a file that is there a run is set up
just if the file gives a valid configuration, the intervals of the environment are whole numbers,
and the overridden configuration is valid. Every setting is then the override, or else what the file
gives, or else the standard one. If overriding a configuration fails, it leaves the overrides in
front of the one that failed; and it ends in the same way if it is tried again. -/
theorem setUp_merges (e : Environment) :
    (∀ (explicit : Option Path) (d : Disk) (text : String),
      d.file? (e.configFile explicit) = some (.bytes (Bytes.ofText text)) →
        let file := Config.ofFile (e.configFile explicit) text
        let outcome := ((e.setUp explicit).run d).1
        ((∃ s, outcome = .ok s) ↔
            ∃ c c', file = .ok c ∧ Overridden e c c' ∧ c'.validate = .ok ())
          ∧ ∀ s, outcome = .ok s →
              s.config.validate = .ok ()
                ∧ s.config.thresholds.yellowFloor < s.config.thresholds.greenFloor
                ∧ ∃ members c, Toml.parse text = some members ∧ file = .ok c ∧ c.GivenBy members
                    ∧ Overridden e c s.config)
      ∧ ∀ c : Config, Overriding e c (c.overridden e).1 (c.overridden e).2
          ∧ (c.overridden e).2.overridden e = c.overridden e := by
  refine ⟨fun explicit d text hfile => ⟨?_, fun s hs => ?_⟩, fun c => ?_⟩
  · constructor
    · rintro ⟨s, hs⟩
      obtain ⟨c, hc, hends, -⟩ := (run_setUp_of_text hfile).mp hs
      cases overridden_eq_iff.mp hends with
      | good hall hvalid => exact ⟨c, s.config, hc, hall, hvalid⟩
    · rintro ⟨c, c', hc, hall, hvalid⟩
      exact ⟨⟨c', e.locations (e.configFile explicit) c', false⟩,
        (run_setUp_of_text hfile).mpr ⟨c, hc, (Overriding.good hall hvalid).overridden, rfl, rfl⟩⟩
  · obtain ⟨c, hc, hends, -⟩ := (run_setUp_of_text hfile).mp hs
    obtain ⟨members, hparse, hread, -⟩ := Config.ofFile_ok_iff.mp hc
    cases overridden_eq_iff.mp hends with
    | good hall hvalid =>
      exact ⟨hvalid, s.config.thresholds.yellow_lt_green, members, c, hparse, hc,
        Config.givenBy_of_ofMembers hread, hall⟩
  · -- what has been overridden once is not changed by the same environment
    have hends : Overriding e c (c.overridden e).1 (c.overridden e).2 := overridden_eq_iff.mp rfl
    exact ⟨hends, hends.again.overridden⟩

namespace Sample

/-- An environment with an empty store, a ledger, and an interval between blanks. -/
def overrides : Environment :=
  let values : String → Option String
    | "GAUGE_STORE_PATH" => some ""
    | "GAUGE_LEDGER_PATH" => some "l.csv"
    | "GAUGE_REFRESH_INTERVAL_MS" => some " 250\n"
    | _ => none
  ⟨values, none⟩

/-- A file that sets the other interval, the store and the window of the scan. -/
def fileText : String := "log_interval_ms = 9000\nstore_path = \"s.db\"\nscan.window = 80\n"

def configDisk : Disk :=
  (⟨[], .root⟩ : Disk).put (.ofNames ["config.toml"]) (.file (.bytes (Bytes.ofText fileText)))

/-- The file and the environment together. -/
def merged : Config :=
  { Config.standard with
    refreshIntervalMs := 250
    logIntervalMs := 9000
    storePath := some ⟨"s.db"⟩
    ledgerPath := some ⟨"l.csv"⟩
    scan := { ScanSettings.standard with window := 80 } }

end Sample

/-- A file that gives the store, one interval and the window, and an environment that gives the
ledger and the other interval. The store of the environment is empty, and so it does not count. -/
theorem setUp_merges_sample :
    let path : Path := ⟨"config.toml"⟩
    Sample.configDisk.file? path = some (.bytes (Bytes.ofText Sample.fileText))
      ∧ ∃ s, ((Sample.overrides.setUp (some path)).run Sample.configDisk).1 = .ok s
        ∧ s.config = Sample.merged ∧ s.config.validate = .ok ()
        ∧ ∃ c, Config.ofFile path Sample.fileText = .ok c
          ∧ Overridden Sample.overrides c Sample.merged := by
  intro path
  have hfile : Sample.configDisk.file? path = some (.bytes (Bytes.ofText Sample.fileText)) :=
    Disk.file?_eq_some_iff.mpr ⟨.ofNames ["config.toml"], by decide +kernel, rfl⟩
  have hrun : ((Sample.overrides.setUp (some path)).run Sample.configDisk).1
      = .ok ⟨Sample.merged, ⟨path, ⟨"s.db"⟩, ⟨"l.csv"⟩⟩, false⟩ := by
    decide +kernel
  obtain ⟨hset, -⟩ := setUp_merges Sample.overrides
  obtain ⟨-, hmerged⟩ := hset (some path) Sample.configDisk Sample.fileText hfile
  obtain ⟨hvalid, -, -, c, -, hc, -, hall⟩ := hmerged _ hrun
  exact ⟨hfile, _, hrun, rfl, hvalid, c, hc, hall⟩

end QuotaWatch
