import QuotaWatch.Config.Setup
import QuotaWatch.Proofs.Disk.Making
import QuotaWatch.Proofs.Ledger.File

/-!
# What setting up a run does to a disk

A configuration file that is there is read, and the disk stays as it is. One that is missing is
created: first the directories on the way to it, then the file with the standard configuration
(`Creation`). The overrides touch nothing.

A missing directory may lead to a file as soon as it is made, and then it is this file that gets the
standard configuration. Nothing else is ever overwritten.
-/

namespace QuotaWatch

open Disk

variable {α : Type} {d d' : Disk} {path : Path} {place : Location} {entry : Entry}

/-! ## Running a setup -/

/-- To look at a disk does not change it. -/
theorem DiskM.run_look (f : Disk → Except DiskFault α) (d : Disk) :
    (DiskM.look f).run d = (f d, d) := by
  simp only [look, exceptT_run_bind, run_get]
  cases f d <;> rfl

namespace SetupM

theorem run_get (d : Disk) : (get : SetupM Disk).run d = (.ok d, d) := rfl

/-- What is done on the disk during a setup leaves the same disk, and its faults are named as faults
of a setup. -/
theorem run_onDisk (act : DiskM α) (d : Disk) :
    (onDisk act).run d = ((act.run d).1.mapError .disk, (act.run d).2) := by
  show (Except.mapError SetupFault.disk <$> act.run : StateM Disk _) d = _
  rfl

end SetupM

/-! ## Creating the file -/

/-- What the standard configuration is as a file. -/
def Config.standardFile : Content := .bytes (Bytes.ofText Config.standard.fileText)

/-- Creating the file in one step: the directories first, and then the file. What a failing step has
made so far stays. -/
theorem Config.run_create (path : Path) (d : Disk) :
    (Config.create path).run d =
      match d.makeParent path with
      | (d', .ok ()) =>
        match d'.write path Config.standardFile with
        | .ok d'' => (.ok (), d'')
        | .error fault => (.error fault, d')
      | (d', .error fault) => (.error fault, d') := by
  simp only [create, Disk.makeParent]
  cases path.parent? with
  | none => simp only [DiskM.run_change]; rfl
  | some directory =>
    simp only [DiskM.makeDirectories, exceptT_run_bind, DiskM.run_attempt, DiskM.run_change]
    rcases d.makeDirectories directory with ⟨d', _ | _⟩ <;> rfl

/-! ## What is created -/

namespace Config

/-- What creating a configuration file leaves at a place. -/
inductive Creation (path : Path) (d : Disk) (place : Location) : Entry → Prop
  /-- A directory on the way to the file. -/
  | parent {directory : Path} {made : List String} (hparent : path.parent? = some directory)
      (hmade : made <+: directory.names)
      (hplace : d.descend (d.start directory) made = .ok place) : Creation path d place .directory
  | file (hplace : d.locate path = .ok place) : Creation path d place (.file standardFile)

/-- What was created stays so, as long as directories are kept: a place is found through directories
alone. -/
theorem Creation.keep (h : Creation path d place entry) (hk : d.KeepsDirectories d') :
    Creation path d' place entry := by
  cases h with
  | parent hparent hmade hplace =>
    exact .parent hparent hmade (by rw [start_keeps hk]; exact descend_keeps hk hplace)
  | file hplace => exact .file (locate_keeps hk hplace)

/-- Every place is as it was, or it is one that was created; no directory is replaced. Nothing at
all is replaced if nothing stands at the path once its directory is made. -/
structure Created (path : Path) (d d' : Disk) : Prop where
  working : d'.working = d.working
  places : ∀ place, d'.get? place = d.get? place ∨
    ∃ entry, d'.get? place = some entry ∧ Creation path d' place entry
      ∧ d.get? place ≠ some .directory
  stands : (d.makeParent path).1.has path = false → d.Extends d'

/-- Making the directories on the way adds directories and changes nothing else, also if it stops
half-way. -/
theorem created_makeParent (ht : d.IsTree) (path : Path) :
    Created path d (d.makeParent path).1 where
  working := (makeParent_extends d path).working
  places := by
    intro place
    cases hget : d.get? place with
    | some entry => exact .inl ((makeParent_extends d path).entry hget)
    | none =>
      cases hget' : (d.makeParent path).1.get? place with
      | none => exact .inl rfl
      | some entry =>
        refine .inr ⟨entry, rfl, ?_, by simp⟩
        unfold Disk.makeParent at hget' ⊢
        split at hget'
        next directory hparent =>
          -- what is new is one of the directories on the way
          obtain ⟨rfl, -, made, hmade, hplace⟩ := ht.makeDirectories_adds hget hget'
          exact .parent hparent hmade hplace
        next => cases hget.symm.trans hget'
  stands := fun _ => makeParent_extends d path

/-- **Creating a configuration file** leaves what it created, also if it fails. If it does not fail,
the standard configuration stands at the path. -/
theorem created_create (ht : d.IsTree) (path : Path) :
    Created path d ((Config.create path).run d).2
      ∧ (((Config.create path).run d).1 = .ok () →
          ((Config.create path).run d).2.file? path = some standardFile) := by
  have hparent := created_makeParent ht path
  have htree := ht.makeParent path
  have hext := makeParent_extends d path
  rw [run_create]
  generalize hd : d.makeParent path = made at hparent htree hext ⊢
  obtain ⟨d₁, _ | _⟩ := made
  · exact ⟨hparent, nofun⟩
  simp only at hparent htree hext ⊢
  cases hwrite : d₁.write path standardFile with
  | error fault => exact ⟨hparent, nofun⟩
  | ok d₂ =>
    obtain ⟨place, hl, hnot, rfl⟩ := write_ok hwrite
    have hkeep := keepsBut_put d₁ place (.file standardFile)
    have hdirectories := hkeep.keepsDirectories hnot
    have hput := get?_put_self d₁ (.file standardFile) (ne_root_of_ne_directory hnot)
    have hslash := (htree.endsInName_of_locateNew hl hnot).1
    have hlocate := locate_keeps hdirectories (locate_of_locateNew hslash hl)
    refine ⟨⟨hdirectories.working.trans hparent.working, fun other => ?_, fun hmissing => ?_⟩,
      fun _ => file?_eq_some_iff.mpr ⟨place, hlocate, hput⟩⟩
    · -- the file, and any other place, which is as the directories left it
      by_cases heq : other = place
      · subst heq
        exact .inr ⟨_, hput, .file hlocate, fun hget => hnot (hext.entry hget)⟩
      · rw [get?_put_of_ne d₁ _ heq]
        refine (hparent.places other).imp_right ?_
        intro ⟨entry, hget, hcreated, hreplaced⟩
        exact ⟨entry, hget, hcreated.keep hdirectories, hreplaced⟩
    · rw [hd] at hmissing
      -- a file there would have been found at the path
      have hnone : d₁.get? place = none := by
        cases hget : d₁.get? place with
        | none => rfl
        | some entry =>
          rw [htree.has_of_locateNew hl hget] at hmissing
          cases hmissing
      exact hext.trans (extends_put hnone _)

end Config

/-! ## The disk afterwards -/

/-- What is read from a file depends on its text alone, and the disk is as before. -/
theorem Config.run_load_of_text {text : String}
    (h : d.file? path = some (.bytes (Bytes.ofText text))) :
    (Config.load path).run d = ((Config.ofFile path text).mapError .config, d) := by
  simp only [Config.load, exceptT_run_bind, SetupM.run_onDisk, DiskM.run_look, readText_of_text h,
    except_mapError_ok]
  cases Config.ofFile path text <;> rfl

/-- Where a text stands at the path, loading is reading it, and nothing is reported as created. -/
theorem Config.loadOrCreate_of_text {text : String}
    (h : d.file? path = some (.bytes (Bytes.ofText text))) :
    (Config.loadOrCreate path).run d =
      (match Config.ofFile path text with
        | .ok c => .ok ⟨c, false⟩
        | .error fault => .error (.config fault), d) := by
  obtain ⟨place, hl, hget⟩ := file?_eq_some_iff.mp h
  have hhas : d.has path = true := has_iff.mpr ⟨place, _, hl, hget⟩
  simp only [Config.loadOrCreate, exceptT_run_bind, SetupM.run_get, hhas, if_true,
    Config.run_load_of_text h]
  cases Config.ofFile path text <;> rfl

/-- A configuration file that is there is only read, whether it can be read or not. -/
theorem Config.loadOrCreate_of_has (h : d.has path = true) :
    ((Config.loadOrCreate path).run d).2 = d := by
  -- reading a file and what is in it may fail, but writes nothing
  have hload : ((Config.load path).run d).2 = d := by
    simp only [Config.load, exceptT_run_bind, SetupM.run_onDisk, DiskM.run_look]
    cases d.readText path with
    | error fault => rfl
    | ok text =>
      simp only [except_mapError_ok]
      cases Config.ofFile path text <;> rfl
  simp only [Config.loadOrCreate, exceptT_run_bind, SetupM.run_get, h, if_true]
  rcases hrun : (Config.load path).run d with ⟨_ | c, d'⟩
  · rw [← hload, hrun]
  · rw [← hload, hrun]
    rfl

/-- A configuration file that is missing is created. What is loaded is the standard configuration
itself, and not what was written. -/
theorem Config.loadOrCreate_of_missing (h : d.has path = false) :
    (Config.loadOrCreate path).run d =
      match (Config.create path).run d with
      | (.ok (), d') => (.ok ⟨.standard, true⟩, d')
      | (.error fault, d') => (.error (.disk fault), d') := by
  simp only [Config.loadOrCreate, exceptT_run_bind, SetupM.run_get, SetupM.run_onDisk, h,
    Bool.false_eq_true, if_false]
  rcases (Config.create path).run d with ⟨_ | _, d'⟩ <;> rfl

/-- Overrides are no matter of the disk: it is as loading left it, also if they fail. -/
theorem Environment.run_setUp (e : Environment) (explicit : Option Path) (d : Disk) :
    (e.setUp explicit).run d =
      match (Config.loadOrCreate (e.configFile explicit)).run d with
      | (.ok loaded, d') =>
        match loaded.config.overridden e with
        | (.error fault, _) => (.error (.config fault), d')
        | (.ok (), config) =>
          (.ok ⟨config, e.locations (e.configFile explicit) config, loaded.created⟩, d')
      | (.error fault, d') => (.error fault, d') := by
  simp only [Environment.setUp, exceptT_run_bind]
  rcases (Config.loadOrCreate (e.configFile explicit)).run d with ⟨_ | loaded, d'⟩
  · rfl
  · -- the disk is that of loading, overriding only looks at the environment
    simp only
    rcases loaded.config.overridden e with ⟨_ | _, config⟩ <;> rfl

/-- **Setting up a run** leaves the disk as it is, or creates the configuration file if it is
missing. It does so even if the overrides then fail. -/
theorem Environment.setUp_disk (ht : d.IsTree) (e : Environment) (explicit : Option Path) :
    (d.has (e.configFile explicit) = true → ((e.setUp explicit).run d).2 = d)
      ∧ (d.has (e.configFile explicit) = false →
        Config.Created (e.configFile explicit) d ((e.setUp explicit).run d).2
          ∧ ∀ s, ((e.setUp explicit).run d).1 = .ok s →
            ((e.setUp explicit).run d).2.file? (e.configFile explicit)
              = some Config.standardFile) := by
  rw [e.run_setUp]
  constructor
  · -- whatever becomes of a file that is there, it is only read
    intro hhas
    have hload := Config.loadOrCreate_of_has hhas
    generalize (Config.loadOrCreate (e.configFile explicit)).run d = loaded at hload ⊢
    obtain ⟨_ | loaded, d'⟩ := loaded
    · exact hload
    · simp only
      rcases loaded.config.overridden e with ⟨_ | _, config⟩ <;> exact hload
  · intro hmissing
    obtain ⟨hcreated, hfile⟩ := Config.created_create ht (e.configFile explicit)
    rw [Config.loadOrCreate_of_missing hmissing]
    generalize (Config.create (e.configFile explicit)).run d = made at hcreated hfile ⊢
    -- overriding comes after the file and does not touch the disk
    obtain ⟨_ | _, d'⟩ := made
    · exact ⟨hcreated, nofun⟩
    · simp only
      rcases Config.standard.overridden e with ⟨_ | _, config⟩
      · exact ⟨hcreated, nofun⟩
      · exact ⟨hcreated, fun _ _ => hfile rfl⟩

end QuotaWatch
