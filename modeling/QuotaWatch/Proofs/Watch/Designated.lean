import QuotaWatch.Command.Program
import QuotaWatch.Proofs.Blob.Search
import QuotaWatch.Proofs.Watch.Shown

/-!
# The model that decides the status

A configuration designates one model, whose quota decides the status, and lists the models that are
looked for. The designated model is looked up among the records found, so it counts only if it is
listed; a configuration that does not list it is valid all the same.

* **`status_of_designated`**: the status follows what a scan for the designated model alone finds,
  or 0 if the model is not listed.
-/

namespace QuotaWatch

open Time

variable {settings : ScanSettings} {blob : Bytes} {model : String} {catalog : List String}

/-! ## What counts -/

/-- What a scan for the designated model alone finds left of it; nothing found counts as 0. -/
def Config.designatedQuota (c : Config) (blob : Bytes) : UInt64 :=
  ((Scanner.scan ⟨[c.highTierModel], c.scan⟩ blob).head?.bind (·.remaining)).getD 0

/-- The quota that decides the status. A model that is not looked for has none left, whatever the
blob says of it. -/
def Config.decidingQuota (c : Config) (blob : Bytes) : UInt64 :=
  if c.highTierModel ∈ c.catalog then c.designatedQuota blob else 0

/-- A status shows a quota, and the tier of the band that the quota falls into. -/
structure Status.Shows (status : Status) (t : Thresholds) (quota : UInt64) : Prop where
  highQuota : status.highQuota = quota
  green : status.tier = .green ↔ t.greenFloor < quota
  yellow : status.tier = .yellow ↔ t.yellowFloor < quota ∧ quota ≤ t.greenFloor
  red : status.tier = .red ↔ quota ≤ t.yellowFloor

/-- The status of a quota shows it, in the band that it falls into. The bands leave no gap and do
not overlap, since the yellow floor is below the green one. -/
theorem Thresholds.shows_classify (t : Thresholds) (quota : Option UInt64) (now : Instant) :
    (t.classify quota now).Shows t (quota.getD 0) := by
  -- thresholds come with the order of their floors
  have hfloors := UInt64.lt_iff_toNat_lt.mp t.yellow_lt_green
  constructor
  case highQuota => rfl
  all_goals
    show t.tier (quota.getD 0) = _ ↔ _
    rw [Thresholds.tier]
    simp only [UInt64.lt_iff_toNat_lt, UInt64.le_iff_toNat_le]
    split_ifs <;> simp <;> omega

/-! ## Looking a model up -/

/-- A model is found exactly if it is listed, with the record that a scan for it alone gives. It
does not matter where it is listed or how often: every entry asks the same of the blob. -/
theorem find?_scan :
    (Scanner.scan ⟨catalog, settings⟩ blob).find? (fun r => r.identity = model)
      = if model ∈ catalog then settings.record? blob model else none := by
  rw [Scanner.scan]
  -- an entry of another model is passed over, with a record or without one
  induction catalog with
  | nil => rfl
  | cons identity others ih =>
    simp only at ih ⊢
    cases hrecord : settings.record? blob identity with
    | none =>
      rw [List.filterMap_cons_none hrecord, ih]
      by_cases hsame : model = identity
      · subst hsame
        simp [hrecord]
      · simp [hsame]
    | some r =>
      rw [List.filterMap_cons_some hrecord, List.find?_cons, ih, identity_of_record? hrecord]
      by_cases hsame : identity = model
      · subst hsame
        simp [hrecord]
      · simp [hsame, Ne.symm hsame]

/-- A scan for one model has at most one record, so its first is the record of that model. -/
theorem designatedQuota_eq (c : Config) (blob : Bytes) :
    c.designatedQuota blob = ((c.scan.record? blob c.highTierModel).bind (·.remaining)).getD 0 := by
  rw [Config.designatedQuota, Scanner.scan]
  cases hrecord : c.scan.record? blob c.highTierModel with
  | none => simp [List.filterMap_cons_none hrecord]
  | some r => simp [List.filterMap_cons_some hrecord]

/-- The status of a look at a blob follows the quota that decides, if the scanner looks for what the
configuration lists. It does not matter when the look was, or what the store is called. -/
theorem Session.shows_found {scanner : Scanner} (s : Session) (now : Instant) (blob : Bytes)
    (label : String) (hscanner : scanner = ⟨s.config.catalog, s.config.scan⟩) :
    (s.found ⟨now, scanner.scan blob, label⟩).status.Shows s.config.thresholds
      (s.config.decidingQuota blob) := by
  have hquota : s.config.decidingQuota blob
      = ((Snapshot.record? ⟨now, scanner.scan blob, label⟩ s.config.highTierModel).bind
          (·.remaining)).getD 0 := by
    rw [Snapshot.record?, hscanner, find?_scan, Config.decidingQuota, designatedQuota_eq]
    split <;> rfl
  rw [hquota]
  exact s.config.thresholds.shows_classify _ now

/-! ## The status -/

/-- **The designated model decides the status** of a tick and of a single look, for every
configuration and every blob in its store. -/
theorem status_of_designated (setup : Setup) (h : Host) (colour : Bool) (ledger : Option Ledger)
    (w : Watch) {blob : Bytes} (hblob : w.disk.extract setup.locations.store = .ok blob) :
    let s := setup.session h colour ledger
    let quota := setup.config.decidingQuota blob
    (s.tick w).1.status.Shows setup.config.thresholds quota
      ∧ ∃ look, (s.glance w).1 = .ok look ∧ look.status.Shows setup.config.thresholds quota := by
  intro s quota
  have hread : s.read w = .ok ⟨w.now, setup.probe.scanner.scan blob, setup.probe.path.label⟩ := by
    show setup.probe.snapshot w.disk w.now = _
    rw [Probe.snapshot, show w.disk.extract setup.probe.path = .ok blob from hblob]
    rfl
  have hshows :
      (s.found ⟨w.now, setup.probe.scanner.scan blob, setup.probe.path.label⟩).status.Shows
        setup.config.thresholds quota :=
    s.shows_found w.now blob setup.probe.path.label rfl
  refine ⟨?_, _, ?_, hshows⟩
  · rw [Session.tick_look_found hread]
    exact hshows
  · rw [Session.glance_of_ok hread]

namespace Sample

/-- The blob in the sample store. -/
def stored : Bytes :=
  [0x08, 0x01, 0x0A, 0x13] ++ Bytes.ofText defaultHighTierModel
    ++ [0x1A, 0x02, 0x00, 0x00, 0x12, 0x03, 0x08, 0x84, 0x07]

/-- A run on the sample store. -/
def setup (config : Config) : Setup :=
  { config, locations := ⟨⟨"config.toml"⟩, ⟨"state.vscdb"⟩, ⟨"usage.csv"⟩⟩, created := false }

def host : Host :=
  { environment := ⟨fun _ => none, none⟩, now := minute, zone := fun _ => 0, onTerminal := false,
    outside := ⟨fun _ d => d, .beforeStart⟩, afterRead := fun _ d => d }

/-- A run that has not looked yet. -/
def watch : Watch := Watch.start disk minute default

/-- A configuration that lists another model only. -/
def unlisted : Config := { Config.standard with catalog := ["Gemini 3 Flash"] }

end Sample

/-- The standard configuration lists the model that it designates, and 900 are left of it. -/
theorem status_of_designated_listed :
    Sample.watch.disk.extract (Sample.setup .standard).locations.store = .ok Sample.stored
      ∧ (((Sample.setup .standard).session Sample.host false none).tick Sample.watch).1.status.Shows
          Config.standard.thresholds 900
      ∧ ∃ look, (((Sample.setup .standard).session Sample.host false none).glance Sample.watch).1
          = .ok look ∧ look.status.Shows Config.standard.thresholds 900 := by
  have hblob : Sample.watch.disk.extract ⟨"state.vscdb"⟩ = .ok Sample.stored := by decide +kernel
  have hquota : (Sample.setup .standard).config.decidingQuota Sample.stored = 900 := by
    decide +kernel
  obtain ⟨htick, hglance⟩ :=
    status_of_designated (Sample.setup .standard) Sample.host false none Sample.watch hblob
  rw [hquota] at htick hglance
  exact ⟨hblob, htick, hglance⟩

/-- **Not every valid configuration lists the model that it designates**, and then its quota does
not count, although a scan for it alone finds it. -/
theorem not_status_of_unlisted :
    ¬∀ (setup : Setup) (h : Host) (colour : Bool) (ledger : Option Ledger) (w : Watch)
      (blob : Bytes), setup.config.validate = .ok () →
        w.disk.extract setup.locations.store = .ok blob →
          ((setup.session h colour ledger).tick w).1.status.Shows setup.config.thresholds
            (setup.config.designatedQuota blob) := by
  intro hall
  have hblob : Sample.watch.disk.extract ⟨"state.vscdb"⟩ = .ok Sample.stored := by decide +kernel
  have hshown := (hall (Sample.setup Sample.unlisted) Sample.host false none Sample.watch
    Sample.stored (by decide) hblob).highQuota
  revert hshown
  decide +kernel

end QuotaWatch
