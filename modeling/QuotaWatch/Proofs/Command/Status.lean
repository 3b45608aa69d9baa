import QuotaWatch.Command.Arguments
import QuotaWatch.Command.Program
import QuotaWatch.Proofs.Config.Creation
import QuotaWatch.Proofs.Json.RoundTrip
import QuotaWatch.Proofs.Watch.Designated

/-!
# Showing the status

The status tool sets itself up, looks at the store once, and ends.

* **`run_status_cases`**: a run fails with nothing put out, or puts out what its look found.
* **`status_outcome`**: how it ends, what it puts out, and what it leaves on the disk.
* **`status_overwrites_through_missing_directory`**: the one way in which it changes a file.

It fails if it cannot be set up or the blob cannot be extracted, unless the data are just missing;
then nothing is put out. Otherwise it puts out one frame, or one JSON document that is read back as
the status of the look.

The store is only read. All that may change on the disk is what setting up creates
(`Config.Created`), and the files that SQLite keeps beside the store: it makes them for a store with
a log of changes, even if it opens that for reading. `Host.ReadsBeside` is that it changes nothing
else.
-/

namespace QuotaWatch

open Json Time

variable {h : Host} {d : Disk} {s : Setup} {json plain : Bool} {fault : ExtractionFault}

/-- The session in which the status tool looks at the store. -/
def Host.statusSession (h : Host) (json plain : Bool) (s : Setup) : Session :=
  s.session h (!plain && !json && h.onTerminal) none

/-- The look of the status tool. -/
def Host.statusLook (h : Host) (json plain : Bool) (s : Setup) (d : Disk) :
    Except ExtractionFault Look :=
  ((h.statusSession json plain s).glance (Watch.start d h.now default)).1

/-- What the status tool puts out for a look. -/
def Host.statusOutput (h : Host) (json plain : Bool) (s : Setup) (look : Look) : Bytes :=
  if json then look.status.toJson.pretty ++ Bytes.ofText "\n"
  else Bytes.ofText ((h.statusSession json plain s).frame look h.now ++ "\n")

/-! ## Files beside the store -/

/-- Two disks that are the same but for some places. It says of every other place what is there,
also that there is nothing. -/
structure Disk.SameBut (places : List Location) (d d' : Disk) : Prop where
  working : d'.working = d.working
  elsewhere : ∀ place, place ∉ places → d'.get? place = d.get? place

/-- Reading a store changes the files beside it at most. This is what is assumed of SQLite, which is
told to open the store for reading: the store itself and everything else stay as they are. -/
def Host.ReadsBeside (h : Host) : Prop :=
  ∀ (store : Path) (d : Disk), d.SameBut (d.sidePlaces store) (h.afterRead store d)

/-- What is assumed of reading a store holds as well if there is none to be read: then nothing is
opened. -/
theorem Host.ReadsBeside.readStore (hreads : h.ReadsBeside) (store : Path) (d : Disk) :
    d.SameBut (d.sidePlaces store) (h.readStore store d) := by
  unfold Host.readStore
  split
  · exact hreads store d
  · exact ⟨rfl, fun _ _ => rfl⟩

/-- Without a store nothing is read and nothing changes. -/
theorem Host.readStore_of_none {store : Path} (hnone : d.file? store = none) :
    h.readStore store d = d := by
  simp only [Host.readStore, hnone]

/-! ## The command line -/

/-- The command line of the status tool asks for the status; there is nothing else to be asked of
it. -/
theorem parse_status {words : List String} {invocation : Invocation}
    (hparse : Tool.status.parse words = .ok invocation) :
    ∃ config json plain, invocation = .status config json plain := by
  simp only [Tool.parse, except_bind_ok_iff] at hparse
  obtain ⟨given, _, hparse⟩ := hparse
  split at hparse
  · cases hparse
  · cases hparse
    exact ⟨_, _, _, rfl⟩

/-! ## The look -/

/-- A look that succeeds shows its frame and nothing else. That is all there is of it on the screen,
in the order in which it was shown. -/
theorem Session.glance_history {s : Session} {w : Watch} {look : Look}
    (h : (s.glance w).1 = .ok look) :
    (s.glance w).2.screen.history = w.screen.history ++ [.frame (s.frame look w.now)] := by
  cases hread : s.read w with
  | ok snapshot =>
    rw [glance_of_ok hread] at h ⊢
    cases h
    rfl
  | error fault =>
    rw [glance_missed hread] at h ⊢
    split at h
    next hmissing =>
      cases h
      simp only [hmissing, if_true]
      rfl
    next => cases h

/-- The tier of a look that succeeds is unknown just if the data are missing. With any other fault
there is no look. -/
theorem Session.glance_tier {s : Session} {w : Watch} {look : Look}
    (h : (s.glance w).1 = .ok look) :
    look.status.tier = .unknown ↔ ∃ fault, s.read w = .error fault
      ∧ (fault = .noAuthStatus ∨ fault = .missingBinaryField) := by
  rw [(honest_glance h).unknown_iff]
  cases hread : s.read w with
  | ok snapshot =>
    rw [glance_of_ok hread] at h
    cases h
    simp [found]
  -- of the looks that failed only those for want of data are given
  | error fault =>
    rw [glance_missed hread] at h
    split at h
    next hmissing =>
      cases h
      have hfault : fault = .noAuthStatus ∨ fault = .missingBinaryField := by
        cases fault <;> simp_all [ExtractionFault.isMissingData]
      simpa [missed] using hfault
    next => cases h

/-- The status tool looks at the store of its setup, on the disk that setting up leaves. -/
theorem Host.read_statusSession :
    (h.statusSession json plain s).read (Watch.start d h.now default) = .error fault
      ↔ d.extract s.locations.store = .error fault := by
  have hsource : (h.statusSession json plain s).source = s.probe.source := rfl
  have hdisk : (Watch.start d h.now default).disk = d := rfl
  have hpath : s.probe.path = s.locations.store := rfl
  rw [Session.read_error_iff hsource, hdisk, hpath]

/-- What the tier says of the look, in terms of the disk: it is unknown if the store was opened and
the data were not in it. -/
theorem Host.statusLook_tier {look : Look} (hlook : h.statusLook json plain s d = .ok look) :
    look.status.tier = .unknown ↔ ∃ fault, d.extract s.locations.store = .error fault
      ∧ (fault = .noAuthStatus ∨ fault = .missingBinaryField) := by
  have htier := Session.glance_tier hlook
  simpa only [Host.read_statusSession] using htier

/-- The look of the status tool fails exactly for the faults of the extraction that are more than
missing data. -/
theorem Host.statusLook_error_iff :
    h.statusLook json plain s d = .error fault ↔ d.extract s.locations.store = .error fault
      ∧ fault ≠ .noAuthStatus ∧ fault ≠ .missingBinaryField := by
  have hiff : h.statusLook json plain s d = .error fault ↔ _ := Session.glance_error_iff
  rwa [Host.read_statusSession] at hiff

/-! ## The run -/

/-- The status tool is set up and shows the status, or fails. -/
theorem run_status {words : List String} {config : Option Path}
    (hparse : Tool.status.parse words = .ok (.status config json plain)) :
    (Tool.status.run h words).run d =
      match (h.environment.setUp config).run d with
      | (.ok s, d') => (h.showStatus json plain s).run d'
      | (.error fault, d') => (.failure fault.message, d') := by
  have hrun : (Tool.status.run h words).run d
      = (h.withSetup config (h.showStatus json plain)).run d := by
    simp only [Tool.run, hparse, Host.carryOut]
  have hsetup : StateT.run (h.environment.setUp config).run d
      = (h.environment.setUp config).run d := rfl
  rw [hrun, Host.withSetup, StateT.run_bind, hsetup]
  -- a setup that fails is reported and ends the run
  rcases (h.environment.setUp config).run d with ⟨_ | _, d'⟩ <;> rfl

/-- Showing the status reads the store, and otherwise leaves the disk as it is. The store is read
before anything is put out, so also where the look fails. -/
theorem run_showStatus (h : Host) (json plain : Bool) (s : Setup) (d : Disk) :
    (h.showStatus json plain s).run d =
      match h.statusLook json plain s d with
      | .error fault => (.failure fault.message, h.readStore s.locations.store d)
      | .ok look =>
        (⟨0, h.statusOutput json plain s look, []⟩, h.readStore s.locations.store d) := by
  have hdisk := ((h.statusSession json plain s).glance_leaves (Watch.start d h.now default)).1
  have hhistory {look : Look} (hlook : ((h.statusSession json plain s).glance
      (Watch.start d h.now default)).1 = .ok look) := Session.glance_history hlook
  unfold Host.showStatus Host.statusLook Host.statusOutput
  simp only [StateT.run_bind, StateT.run_get, StateT.run_set, pure_bind]
  unfold Host.statusSession at hdisk hhistory ⊢
  -- all that counts of the look is what it found, its screen and its disk
  generalize (s.session h (!plain && !json && h.onTerminal) none).glance
    (Watch.start d h.now default) = looked at hdisk hhistory ⊢
  obtain ⟨found, w⟩ := looked
  obtain rfl : w.disk = d := hdisk
  cases found with
  | error fault => rfl
  | ok look =>
    have houtput : w.screen.output
        = (s.session h (!plain && !json && h.onTerminal) none).frame look h.now ++ "\n" := by
      -- the screen was empty, so the frame is all that is put out
      have hempty : (Watch.start w.disk h.now default).screen.history = [] := rfl
      rw [Screen.output, hhistory rfl, hempty]
      simp [Watch.start, Shown.lines]
    simp only [houtput]
    cases json <;> rfl

/-- When the status tool fails: it cannot be set up, or the blob cannot be extracted for another
reason than that the data are missing. -/
def Host.StatusFails (h : Host) (config : Option Path) (d : Disk) : Prop :=
  let setup := (h.environment.setUp config).run d
  (∃ fault, setup.1 = .error fault)
    ∨ ∃ s fault, setup.1 = .ok s ∧ setup.2.extract s.locations.store = .error fault
      ∧ fault ≠ .noAuthStatus ∧ fault ≠ .missingBinaryField

/-- What the status tool puts out as JSON is one document, which is read as the status. The line end
behind it is blank space for the reader. -/
theorem read_statusOutput (h : Host) (plain : Bool) (s : Setup) (look : Look) :
    Value.parse (h.statusOutput true plain s look) = .ok look.status.toJson
      ∧ Reader.run Status.read (h.statusOutput true plain s look) = .ok look.status := by
  have hblank : Blank (Bytes.ofText "\n") := blank_newLine 0
  have hwrites : Json.Writes (h.statusOutput true plain s look) look.status.toJson :=
    look.status.plain.writes_pretty hblank
  exact ⟨parse_ok_iff.mpr hwrites, look.status.accepts.run hwrites⟩

/-- **The status tool fails with nothing put out, or it puts out what its look found.** It leaves
the disk as setting up does, but for what reading the store makes of it. -/
theorem run_status_cases {words : List String} {config : Option Path}
    (hparse : Tool.status.parse words = .ok (.status config json plain)) :
    let setup := (h.environment.setUp config).run d
    let run := (Tool.status.run h words).run d
    (∀ fault, setup.1 = .error fault → run.2 = setup.2)
      ∧ (∀ s, setup.1 = .ok s → run.2 = h.readStore s.locations.store setup.2)
      ∧ (h.StatusFails config d ∧ run.1.code = 1 ∧ run.1.output = []
        ∨ ¬ h.StatusFails config d ∧ ∃ s look, setup.1 = .ok s
          ∧ h.statusLook json plain s setup.2 = .ok look
          ∧ run.1 = ⟨0, h.statusOutput json plain s look, []⟩) := by
  intro setup run
  have hrun : run = match setup with
      | (.ok s, d') => (h.showStatus json plain s).run d'
      | (.error fault, d') => (.failure fault.message, d') := run_status hparse
  -- both ways to fail, in terms of the look that the run takes
  have hfails : h.StatusFails config d ↔ (∃ fault, setup.1 = .error fault)
      ∨ ∃ s fault, setup.1 = .ok s ∧ h.statusLook json plain s setup.2 = .error fault := by
    simp only [Host.StatusFails, Host.statusLook_error_iff]
    rfl
  rw [hfails, hrun]
  obtain ⟨fault | s, d'⟩ := setup
  · exact ⟨fun _ _ => rfl, by simp, .inl ⟨.inl ⟨fault, rfl⟩, rfl, rfl⟩⟩
  · simp only [run_showStatus]
    cases hlook : h.statusLook json plain s d' with
    | error fault => exact ⟨by simp, by simp, .inl ⟨.inr ⟨s, fault, rfl, hlook⟩, rfl, rfl⟩⟩
    | ok look => exact ⟨by simp, by simp, .inr ⟨by simp [hlook], s, look, rfl, hlook, rfl⟩⟩

/-- **How the status tool ends, what it puts out, and what it leaves on the disk**, for every
command line that it accepts.

* It fails with nothing put out just if it cannot be set up, or if the blob cannot be extracted for
  another reason than that the data are missing.
* Otherwise it puts out the frame of its look, or one JSON document that is read as the status of
  the look; the tier is unknown just if the data are missing.
* If the configuration file is there, setting up leaves the disk as it is. If it is missing, it is
  created, and `Config.Created` says what that leaves at every place.
* What setting up leaves stays as it is, but for the files beside the store if that is there. -/
theorem status_outcome (h : Host) (hreads : h.ReadsBeside) {d : Disk} (ht : d.IsTree)
    {words : List String} {invocation : Invocation}
    (hparse : Tool.status.parse words = .ok invocation) :
    ∃ config json plain, invocation = .status config json plain ∧
      let path := h.environment.configFile config
      let setup := (h.environment.setUp config).run d
      let run := (Tool.status.run h words).run d
      (run.1.code = 1 ∧ run.1.output = [] ↔ h.StatusFails config d)
        ∧ (run.1.code = 0 ↔ ¬ h.StatusFails config d)
        ∧ (run.1.code = 0 → ∃ s look, setup.1 = .ok s
            ∧ h.statusLook json plain s setup.2 = .ok look
            ∧ (json = true → Value.parse run.1.output = .ok look.status.toJson
                ∧ Reader.run Status.read run.1.output = .ok look.status)
            ∧ (json = false → run.1.output
                = Bytes.ofText ((h.statusSession json plain s).frame look h.now ++ "\n"))
            ∧ (look.status.tier = .unknown ↔
                ∃ fault, setup.2.extract s.locations.store = .error fault
                  ∧ (fault = .noAuthStatus ∨ fault = .missingBinaryField)))
        ∧ (d.has path = true → setup.2 = d)
        ∧ (d.has path = false → Config.Created path d setup.2
            ∧ ∀ s, setup.1 = .ok s → setup.2.file? path = some Config.standardFile)
        ∧ (∀ fault, setup.1 = .error fault → run.2 = setup.2)
        ∧ ∀ s, setup.1 = .ok s →
            setup.2.SameBut (setup.2.sidePlaces s.locations.store) run.2
              ∧ (setup.2.file? s.locations.store = none → run.2 = setup.2) := by
  obtain ⟨config, json, plain, rfl⟩ := parse_status hparse
  refine ⟨config, json, plain, rfl, ?_⟩
  obtain ⟨hfailed, hread, hcases⟩ := run_status_cases (h := h) (d := d) hparse
  obtain ⟨hkept, hcreated⟩ := h.environment.setUp_disk ht config
  dsimp only
  -- from here on only the cases of the run are used, not how it comes about
  generalize (Tool.status.run h words).run d = run at hfailed hread hcases ⊢
  generalize (h.environment.setUp config).run d = setup at hfailed hread hcases hkept hcreated ⊢
  generalize h.StatusFails config d = Fails at hcases ⊢
  refine ⟨?_, ?_, ?_, hkept, hcreated, hfailed, fun s hs => ?_⟩
  · -- the code alone tells the two kinds of run apart
    rcases hcases with ⟨hfails, hcode, houtput⟩ | ⟨hfails, s, look, -, -, hrun⟩
    · exact iff_of_true ⟨hcode, houtput⟩ hfails
    · exact iff_of_false (fun hfailed => by simp [hrun] at hfailed) hfails
  · rcases hcases with ⟨hfails, hcode, houtput⟩ | ⟨hfails, s, look, -, -, hrun⟩
    · exact iff_of_false (by simp [hcode]) (not_not.mpr hfails)
    · exact iff_of_true (by rw [hrun]) hfails
  · intro hzero
    rcases hcases with ⟨-, hcode, -⟩ | ⟨-, s, look, hsetup, hlook, hrun⟩
    · simp [hcode] at hzero
    · refine ⟨s, look, hsetup, hlook, ?_, ?_, Host.statusLook_tier hlook⟩
      · rintro rfl
        rw [hrun]
        exact read_statusOutput h plain s look
      · rintro rfl
        rw [hrun]
        rfl
  · rw [hread s hs]
    exact ⟨hreads.readStore _ _, Host.readStore_of_none⟩

namespace Sample

/-- A run that is told where the configuration file and the store are. Its store keeps no log of
changes, so reading it leaves nothing beside it. -/
def placedHost : Host :=
  let places : String → Option String
    | "GAUGE_CONFIG" => some "config.toml"
    | "GAUGE_STORE_PATH" => some "state.vscdb"
    | _ => none
  { host with environment := ⟨places, none⟩ }

theorem readsBeside_placedHost : placedHost.ReadsBeside := fun _ _ => ⟨rfl, fun _ _ => rfl⟩

theorem readStore_placedHost (store : Path) (d : Disk) : placedHost.readStore store d = d := by
  unfold Host.readStore
  split <;> rfl

theorem isTree_disk : disk.IsTree := by
  unfold disk
  refine Disk.IsTree.put (Disk.isTree_empty.put (Disk.get?_root _) ?_ _) rfl ?_ _
  · simp [Disk.get?, Location.ofNames, Location.root]
  · simp [Disk.get?, Disk.put, Location.ofNames, Location.root]

end Sample

/-- On the sample store, and with no configuration file, the status is put out as JSON and the
standard configuration is left. -/
theorem status_outcome_placed :
    let run := (Tool.status.run Sample.placedHost ["--json"]).run Sample.disk
    Sample.placedHost.ReadsBeside ∧ Sample.disk.IsTree
      ∧ Tool.status.parse ["--json"] = .ok (.status none true false)
      ∧ run.1.code = 0
      ∧ (∃ status, Reader.run Status.read run.1.output = .ok status)
      ∧ run.2.file? ⟨"config.toml"⟩ = some Config.standardFile := by
  have hparse : Tool.status.parse ["--json"] = .ok (.status none true false) := by decide +kernel
  have hcode : ((Tool.status.run Sample.placedHost ["--json"]).run Sample.disk).1.code = 0 := by
    decide +kernel
  obtain ⟨-, hread, -⟩ := run_status_cases (h := Sample.placedHost) (d := Sample.disk) hparse
  obtain ⟨config, json, plain, hasked, -, -, hshown, -, hcreated, -, -⟩ :=
    status_outcome Sample.placedHost Sample.readsBeside_placedHost Sample.isTree_disk hparse
  obtain ⟨rfl, rfl, rfl⟩ := Invocation.status.inj hasked
  dsimp only
  generalize (Tool.status.run Sample.placedHost ["--json"]).run Sample.disk = run
    at hcode hread hshown ⊢
  obtain ⟨s, look, hsetup, -, hjson, -, -⟩ := hshown hcode
  refine ⟨Sample.readsBeside_placedHost, Sample.isTree_disk, hparse, hcode,
    ⟨look.status, (hjson rfl).2⟩, ?_⟩
  rw [hread s hsetup, Sample.readStore_placedHost]
  exact (hcreated (by decide +kernel)).2 s hsetup

/-- The sample store and a file. -/
def Sample.keptDisk : Disk :=
  disk.put (.ofNames ["notes.txt"]) (.file (.bytes (Bytes.ofText "keep")))

/-- **A file may be overwritten.** A configuration file that is missing may be there as soon as the
directory on the way to it is made, and then it gets the standard configuration. -/
theorem status_overwrites_through_missing_directory :
    let words := ["--config", "new/../notes.txt", "--json"]
    let run := (Tool.status.run Sample.placedHost words).run Sample.keptDisk
    Sample.keptDisk.IsTree
      ∧ Tool.status.parse words = .ok (.status (some ⟨"new/../notes.txt"⟩) true false)
      ∧ Sample.keptDisk.has ⟨"new/../notes.txt"⟩ = false ∧ run.1.code = 0
      ∧ Sample.keptDisk.file? ⟨"notes.txt"⟩ = some (.bytes (Bytes.ofText "keep"))
      ∧ run.2.file? ⟨"notes.txt"⟩ = some Config.standardFile
      ∧ Config.standardFile ≠ .bytes (Bytes.ofText "keep") := by
  intro words
  have htree : Sample.keptDisk.IsTree := by
    refine Sample.isTree_disk.put rfl ?_ _
    simp [Disk.get?, Disk.put, Sample.disk, Location.ofNames, Location.root]
  have hparse : Tool.status.parse words = .ok (.status (some ⟨"new/../notes.txt"⟩) true false) := by
    decide +kernel
  have hmissing : Sample.keptDisk.has ⟨"new/../notes.txt"⟩ = false := by decide +kernel
  have hkept : Sample.keptDisk.file? ⟨"notes.txt"⟩ = some (.bytes (Bytes.ofText "keep")) :=
    Disk.file?_eq_some_iff.mpr ⟨.ofNames ["notes.txt"], by decide +kernel, rfl⟩
  have hcode : ((Tool.status.run Sample.placedHost words).run Sample.keptDisk).1.code = 0 := by
    decide +kernel
  -- once the directory is made, both paths lead to the same file
  have hsame : ((Tool.status.run Sample.placedHost words).run Sample.keptDisk).2.locate
        ⟨"notes.txt"⟩
      = ((Tool.status.run Sample.placedHost words).run Sample.keptDisk).2.locate
        ⟨"new/../notes.txt"⟩ := by
    decide +kernel
  obtain ⟨-, hread, hcases⟩ :=
    run_status_cases (h := Sample.placedHost) (d := Sample.keptDisk) hparse
  obtain ⟨-, hfile⟩ := (Sample.placedHost.environment.setUp_disk htree
    (some ⟨"new/../notes.txt"⟩)).2 hmissing
  dsimp only
  generalize (Tool.status.run Sample.placedHost words).run Sample.keptDisk = run
    at hcode hsame hread hcases ⊢
  refine ⟨htree, hparse, hmissing, hcode, hkept, ?_, fun heq => ?_⟩
  · rcases hcases with ⟨-, hfailed, -⟩ | ⟨-, s, -, hsetup, -⟩
    · exact absurd (hcode.symm.trans hfailed) (by decide)
    · have hfind : run.2.find ⟨"notes.txt"⟩ = run.2.find ⟨"new/../notes.txt"⟩ := by
        simp only [Disk.find, hsame]
      rw [Disk.file?, hfind, ← Disk.file?, hread s hsetup, Sample.readStore_placedHost]
      exact hfile s hsetup
  · exact absurd (Content.bytes.inj heq) (by decide +kernel)

end QuotaWatch
