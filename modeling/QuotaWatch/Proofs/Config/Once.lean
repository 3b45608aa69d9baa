import QuotaWatch.Proofs.Config.Creation
import QuotaWatch.Proofs.Config.RoundTrip

/-!
# The configuration file is created once

Loading the configuration creates its file if nothing stands at the path. From then on the file is
there, it gives the standard configuration, and loading changes nothing any more.

* **`loadOrCreate_once`**: what a first load and all the later ones return and leave.
* **`loadOrCreate_overwrites`**: "nothing stands at the path" does not mean that nothing stands
  where the path leads once its directory is made.
-/

namespace QuotaWatch.Config

open Disk

variable {d : Disk} {path : Path} {loaded : LoadedConfig}

/-- The disk that a load leaves. -/
def afterLoad (path : Path) (d : Disk) : Disk := ((loadOrCreate path).run d).2

/-! ## A file that is there -/

theorem afterLoad_of_has (h : d.has path = true) : afterLoad path d = d := loadOrCreate_of_has h

/-- A load that finds something at the path never says that it created it. -/
theorem not_created_of_has (h : d.has path = true)
    (hload : ((loadOrCreate path).run d).1 = .ok loaded) : loaded.created = false := by
  simp only [loadOrCreate, exceptT_run_bind, SetupM.run_get, h, if_true] at hload
  generalize (load path).run d = read at hload
  obtain ⟨_ | c, d'⟩ := read
  · cases hload
  · cases hload
    rfl

/-! ## A file that is created -/

/-- The file that is created gives the standard configuration: its numbers fit, and it has an
assumed limit, the one value that a file cannot leave out. -/
theorem ofFile_standard (path : Path) : ofFile path standard.fileText = .ok standard := by
  have hvalid : standard.validate = .ok () := by decide
  have hlimit : standard.withLimit = standard := (withLimit_eq_iff standard).mpr (by decide)
  rw [ofFile_of_members hvalid (parse_fileText fits_standard), hlimit]

/-- A load that finds the file of an earlier one returns the standard configuration and changes
nothing. -/
theorem loadOrCreate_of_standardFile (h : d.file? path = some standardFile) :
    (loadOrCreate path).run d = (.ok ⟨standard, false⟩, d) := by
  rw [loadOrCreate_of_text h, ofFile_standard]

/-- A load of a missing file that succeeds has created it. -/
theorem create_of_loadOrCreate (h : d.has path = false)
    (hload : ((loadOrCreate path).run d).1 = .ok loaded) :
    loaded = ⟨standard, true⟩ ∧ ((create path).run d).1 = .ok ()
      ∧ afterLoad path d = ((create path).run d).2 := by
  unfold afterLoad
  rw [loadOrCreate_of_missing h] at hload ⊢
  generalize (create path).run d = made at hload ⊢
  obtain ⟨_ | _, d'⟩ := made
  · cases hload
  · cases hload
    exact ⟨rfl, rfl, rfl⟩

/-- The file is put where its path leads once its directory is made. This need not be where it led
before: a directory that was missing may have been on the way. -/
theorem create_ok (ht : d.IsTree) (hcreate : ((create path).run d).1 = .ok ()) :
    ∃ home, (d.makeParent path).1.locate path = .ok home
      ∧ (d.makeParent path).1.get? home ≠ some .directory
      ∧ ((create path).run d).2 = (d.makeParent path).1.put home (.file standardFile) := by
  have htree := ht.makeParent path
  rw [run_create] at hcreate ⊢
  generalize d.makeParent path = made at htree hcreate ⊢
  obtain ⟨d₁, _ | _⟩ := made
  · cases hcreate
  simp only at htree hcreate ⊢
  cases hwrite : d₁.write path standardFile with
  | error fault =>
    rw [hwrite] at hcreate
    cases hcreate
  | ok d₂ =>
    obtain ⟨home, hnew, hnot, rfl⟩ := write_ok hwrite
    -- a path that can be written to ends in a name, so it can be read from as well
    have hslash := (htree.endsInName_of_locateNew hnew hnot).1
    exact ⟨home, locate_of_locateNew hslash hnew, hnot, rfl⟩

/-- Creating the file takes nothing away but what stood at its own place. -/
theorem keepsBut_create (ht : d.IsTree) (hcreate : ((create path).run d).1 = .ok ())
    {home : Location} (hl : ((create path).run d).2.locate path = .ok home) :
    KeepsBut home d ((create path).run d).2 := by
  obtain ⟨place, hplace, hnot, hput⟩ := create_ok ht hcreate
  rw [hput] at hl ⊢
  have hkeep := keepsBut_put (d.makeParent path).1 place (.file standardFile)
  have hplace' := locate_keeps (hkeep.keepsDirectories hnot) hplace
  obtain rfl : place = home := Except.ok.inj (hplace'.symm.trans hl)
  exact ((makeParent_extends d path).keepsBut place).trans hkeep

/-- A path that does not go up cannot lead to another file than before. So nothing stood at its
place, and nothing is taken away at all. -/
theorem extends_create (ht : d.IsTree) (hmissing : d.has path = false) (hdown : ".." ∉ path.names)
    (hcreate : ((create path).run d).1 = .ok ()) : d.Extends ((create path).run d).2 := by
  obtain ⟨home, hl, hnot, hput⟩ := create_ok ht hcreate
  have hext := makeParent_extends d path
  have hnone : (d.makeParent path).1.get? home = none := by
    by_contra hsome
    obtain ⟨entry, hget⟩ := Option.ne_none_iff_exists'.mp hsome
    -- it was added as a directory, or it was there already and the path found it
    cases hbefore : d.get? home with
    | none => exact hnot (hget.trans (congrArg some (ht.makeParent_adds hbefore hget)))
    | some entry' =>
      have hfind := ht.find_of_extends hext hdown hl hbefore
      rw [has, hfind] at hmissing
      cases hmissing
  rw [hput]
  exact hext.trans (extends_put hnone _)

/-! ## The first load and the later ones -/

/-- **The configuration file is created once.** If something stands at the path, no load changes
the disk, none says that it created the file, and all of them have the same outcome. If nothing
stands there and the load succeeds, it returns the standard configuration and leaves its file,
and every later load returns the same configuration and changes nothing any more. Besides the file,
only missing directories on the way to it are created. What stood before still stands, but for a
file to which the path leads once its directory is made, and that takes a path that goes up. -/
theorem loadOrCreate_once (ht : d.IsTree) (path : Path) :
    (d.has path = true →
        afterLoad path d = d
          ∧ (∀ loaded, ((loadOrCreate path).run d).1 = .ok loaded → loaded.created = false)
          ∧ ∀ n, (loadOrCreate path).run ((afterLoad path)^[n] d) = (loadOrCreate path).run d)
      ∧ (d.has path = false → ∀ loaded, ((loadOrCreate path).run d).1 = .ok loaded →
        loaded = ⟨standard, true⟩
          ∧ (afterLoad path d).file? path = some standardFile
          ∧ (∀ n, (loadOrCreate path).run ((afterLoad path)^[n + 1] d)
              = (.ok ⟨standard, false⟩, afterLoad path d))
          ∧ Created path d (afterLoad path d)
          ∧ (∀ home, (afterLoad path d).locate path = .ok home →
              KeepsBut home d (afterLoad path d))
          ∧ (".." ∉ path.names → d.Extends (afterLoad path d))) := by
  refine ⟨fun hhas => ?_, fun hmissing loaded hload => ?_⟩
  · have hsame := afterLoad_of_has hhas
    refine ⟨hsame, fun loaded => not_created_of_has hhas, fun n => ?_⟩
    rw [Function.iterate_fixed hsame]
  · obtain ⟨hloaded, hcreate, hafter⟩ := create_of_loadOrCreate hmissing hload
    obtain ⟨hcreated, hfile⟩ := created_create ht path
    rw [← hafter] at hcreated hfile
    have hlater := loadOrCreate_of_standardFile (hfile hcreate)
    refine ⟨hloaded, hfile hcreate, fun n => ?_, hcreated, fun home hl => ?_, fun hdown => ?_⟩
    · -- the second load reads the file, so all later ones start from the same disk
      have hsame : afterLoad path (afterLoad path d) = afterLoad path d := by
        rw [afterLoad, hlater]
      rw [Function.iterate_succ_apply, Function.iterate_fixed hsame, hlater]
    · rw [hafter] at hl ⊢
      exact keepsBut_create ht hcreate hl
    · rw [hafter]
      exact extends_create ht hmissing hdown hcreate

/-- A file in two missing directories is created and then read; a directory in its place is left
alone. -/
theorem loadOrCreate_once_nested :
    let path : Path := ⟨"a/b/config.toml"⟩
    let d : Disk := ⟨[], .root⟩
    d.IsTree ∧ d.has path = false ∧ d.has ⟨"."⟩ = true
      ∧ ((loadOrCreate path).run d).1 = .ok ⟨standard, true⟩
      ∧ (loadOrCreate path).run (afterLoad path d) = (.ok ⟨standard, false⟩, afterLoad path d)
      ∧ afterLoad ⟨"."⟩ d = d := by
  intro path d
  have hmissing : d.has path = false := by decide +kernel
  have hstands : d.has ⟨"."⟩ = true := by decide +kernel
  have hload : ((loadOrCreate path).run d).1 = .ok ⟨standard, true⟩ := by decide +kernel
  obtain ⟨-, hfirst⟩ := loadOrCreate_once isTree_empty path
  obtain ⟨hkept, -⟩ := loadOrCreate_once isTree_empty ⟨"."⟩
  obtain ⟨-, -, hlater, -⟩ := hfirst hmissing _ hload
  exact ⟨isTree_empty, hmissing, hstands, hload, hlater 0, (hkept hstands).1⟩

/-- A disk with one file. -/
def notes : Disk :=
  (⟨[], .root⟩ : Disk).put (.ofNames ["notes.txt"]) (.file (.bytes (Bytes.ofText "keep")))

/-- **A file may be overwritten.** Nothing stands at a path through a missing directory and out of
it again, but as soon as the directory is made, the path leads to the file. -/
theorem loadOrCreate_overwrites :
    let path : Path := ⟨"new/../notes.txt"⟩
    notes.IsTree ∧ notes.has path = false
      ∧ ((loadOrCreate path).run notes).1 = .ok ⟨standard, true⟩
      ∧ notes.file? ⟨"notes.txt"⟩ = some (.bytes (Bytes.ofText "keep"))
      ∧ (afterLoad path notes).file? ⟨"notes.txt"⟩ = some standardFile
      ∧ standardFile ≠ .bytes (Bytes.ofText "keep") := by
  intro path
  have htree : notes.IsTree := by
    refine isTree_empty.put (get?_root _) ?_ _
    simp [Disk.get?, Location.ofNames, Location.root]
  have hmissing : notes.has path = false := by decide +kernel
  have hload : ((loadOrCreate path).run notes).1 = .ok ⟨standard, true⟩ := by decide +kernel
  have hkept : notes.file? ⟨"notes.txt"⟩ = some (.bytes (Bytes.ofText "keep")) :=
    file?_eq_some_iff.mpr ⟨.ofNames ["notes.txt"], by decide +kernel, rfl⟩
  -- once the directory is made, both paths lead to the same file
  have hsame :
      (afterLoad path notes).locate ⟨"notes.txt"⟩ = (afterLoad path notes).locate path := by
    decide +kernel
  obtain ⟨-, hcreate, hafter⟩ := create_of_loadOrCreate hmissing hload
  have hfile := (created_create htree path).2 hcreate
  rw [← hafter, file?_eq_some_iff, ← hsame, ← file?_eq_some_iff] at hfile
  exact ⟨htree, hmissing, hload, hkept, hfile,
    fun heq => absurd (Content.bytes.inj heq) (by decide +kernel)⟩

end QuotaWatch.Config
