import QuotaWatch.Proofs.Disk.Change
import QuotaWatch.Proofs.Ledger.Archive

/-!
# What the operations of a ledger do to a disk

A ledger is *settled* on a disk once its directory is there and nothing but a file stands at its
path (`Ledger.Settled`). `Ledger.standing` is what a settled ledger holds, or will hold as soon as
something makes it. Each operation on a settled ledger has one lemma for everything it can do:

* **`Settled.append`**: it fails and changes nothing, or the file grows by the row;
* **`Settled.rotate`**: it fails and keeps what the ledger holds, or that moves as it is to an
  archive where nothing stood, and the ledger starts again with its header;
* **`Settled.prepare`**, **`Settled.delete`**: the file is there with what it holds, or is gone.

Whatever stands elsewhere stays in all of them (`Disk.KeepsBut`).
-/

namespace QuotaWatch

open QuotaWatch.Path

/-! ## Running an operation -/

namespace DiskM

variable {α : Type}

theorem run_pure (a : α) (d : Disk) : (pure a : DiskM α).run d = (.ok a, d) := rfl

theorem run_get (d : Disk) : (get : DiskM Disk).run d = (.ok d, d) := rfl

theorem run_set (d d' : Disk) : (set d' : DiskM PUnit).run d = (.ok ⟨⟩, d') := rfl

/-- What a change does is seen in one step, with the disk as it was if it fails. -/
theorem run_change (f : Disk → Except DiskFault Disk) (d : Disk) :
    (change f).run d =
      match f d with
      | .ok d' => (.ok (), d')
      | .error fault => (.error fault, d) := by
  simp only [change, exceptT_run_bind, run_get]
  cases f d <;> rfl

/-- An attempt leaves its disk also if it fails. -/
theorem run_attempt (f : Disk → Disk × Except DiskFault Unit) (d : Disk) :
    (attempt f).run d = ((f d).2, (f d).1) := by
  simp only [attempt, exceptT_run_bind, run_get, run_set]
  cases (f d).2 <;> rfl

end DiskM

namespace Ledger

open Disk

variable {l : Ledger} {d d' : Disk} {home place : Location} {content : Content} {e : LogEntry}

/-! ## The steps that operations are made of -/

/-- Makes the directory of a ledger. -/
def makeParent (l : Ledger) (d : Disk) : Disk × Except DiskFault Unit :=
  match l.path.parent? with
  | some directory => d.makeDirectories directory
  | none => (d, .ok ())

/-- Starting a ledger is creating a file with its header. A file that is there is no failure. -/
theorem run_ensureHeader (l : Ledger) (d : Disk) :
    l.ensureHeader.run d =
      match d.createNew l.path headerLine with
      | .ok d' => (.ok true, d')
      | .error .alreadyExists => (.ok false, d)
      | .error fault => (.error fault, d) := by
  simp only [ensureHeader, exceptT_run_bind, DiskM.run_get]
  cases d.createNew l.path headerLine with
  | ok d' => rfl
  | error fault => cases fault <;> rfl

/-- A ledger is prepared in two steps; making the directory of the empty path is no step. -/
theorem run_prepare (l : Ledger) (d : Disk) :
    l.prepare.run d =
      match l.makeParent d with
      | (d', .ok ()) =>
        match l.ensureHeader.run d' with
        | (.ok _, d'') => (.ok (), d'')
        | (.error fault, d'') => (.error fault, d'')
      | (d', .error fault) => (.error fault, d') := by
  simp only [prepare, makeParent]
  cases l.path.parent? with
  | none =>
    simp only [exceptT_run_bind, DiskM.run_pure]
    rcases l.ensureHeader.run d with ⟨_ | _, _⟩ <;> rfl
  | some directory =>
    -- a parent without a name is where the path starts, and is there
    by_cases hempty : directory.text.isEmpty = true
    · simp only [hempty, Bool.not_true, Bool.false_eq_true, if_false, Disk.makeDirectories, if_true,
        exceptT_run_bind, DiskM.run_pure]
      rcases l.ensureHeader.run d with ⟨_ | _, _⟩ <;> rfl
    · rw [Bool.not_eq_true] at hempty
      simp only [hempty, Bool.not_false, if_true, DiskM.makeDirectories, exceptT_run_bind,
        DiskM.run_attempt, DiskM.run_pure]
      rcases d.makeDirectories directory with ⟨d', _ | _⟩
      · rfl
      · dsimp only
        rcases l.ensureHeader.run d' with ⟨_ | _, _⟩ <;> rfl

/-- The directory of a ledger is that of its path. -/
theorem makeParent_eq (l : Ledger) (d : Disk) : l.makeParent d = d.makeParent l.path := rfl

theorem makeParent_extends (l : Ledger) (d : Disk) : d.Extends (l.makeParent d).1 := by
  rw [makeParent_eq]
  exact Disk.makeParent_extends d l.path

theorem isTree_makeParent (ht : d.IsTree) (l : Ledger) : (l.makeParent d).1.IsTree := by
  rw [makeParent_eq]
  exact ht.makeParent l.path

/-- The directory of a ledger need not be made again, as long as it stays. -/
theorem makeParent_again {d'' : Disk} (h : l.makeParent d = (d', .ok ()))
    (hk : d'.KeepsDirectories d'') : l.makeParent d'' = (d'', .ok ()) := by
  rw [makeParent_eq] at h ⊢
  exact Disk.makeParent_again h hk

/-- Taking the lock fails and changes nothing, or it opens the file of the lock. -/
theorem lock_cases (l : Ledger) (d : Disk) :
    (∃ fault, l.lock.run d = (.error fault, d)) ∨
      ∃ d', d.touch l.lockPath = .ok d' ∧ l.lock.run d = (.ok (), d') := by
  rw [lock, DiskM.run_change]
  cases d.touch l.lockPath with
  | ok d' => exact .inr ⟨d', rfl, rfl⟩
  | error fault => exact .inl ⟨fault, rfl⟩

/-- A ledger that is there is not started again, whatever it holds. -/
theorem ensureHeader_of_file (hl : d.locateNew l.path = .ok home) {entry : Entry}
    (hget : d.get? home = some entry) : l.ensureHeader.run d = (.ok false, d) := by
  rw [run_ensureHeader, createNew_alreadyExists_iff.mpr ⟨home, entry, hl, hget⟩]

/-- A ledger that is missing is started with its header. -/
theorem ensureHeader_of_none (hl : d.locateNew l.path = .ok home) (hget : d.get? home = none) :
    l.ensureHeader.run d = (.ok true, d.put home (.file (.bytes headerLine))) := by
  rw [run_ensureHeader, createNew_ok_iff.mpr ⟨home, hl, hget, rfl⟩]

/-! ## A file that is there -/

/-- A ledger that holds a text is read as the entries of that text. -/
theorem readAll_of_text {text : String} (h : d.file? l.path = some (.bytes (Bytes.ofText text))) :
    l.readAll d = .ok (readEntries text) := by
  rw [Ledger.readAll, readText_of_text h]

/-- Opening a ledger that is there leaves it as it is. -/
theorem prepare_file? (hfile : d.file? l.path = some content)
    (h : l.prepare.run d = (.ok (), d')) : d'.file? l.path = some content := by
  obtain ⟨home, hl, hget⟩ := file?_eq_some_iff.mp hfile
  have hslash := noSlash_of_locate hl (ne_directory_of_file hget)
  have hext := makeParent_extends l d
  rw [run_prepare] at h
  rcases hmake : l.makeParent d with ⟨d₁, _ | _⟩
  · simp only [hmake] at h
    cases h
  · simp only [hmake] at h hext
    -- making directories leaves the file where it is
    have hl₁ := locate_keeps hext.keepsDirectories hl
    have hget₁ := hext.entry hget
    simp only [ensureHeader_of_file (locateNew_of_locate hslash hl₁) hget₁] at h
    obtain rfl : d₁ = d' := (Prod.mk.inj h).2
    exact file?_eq_some_iff.mpr ⟨home, hl₁, hget₁⟩

/-- **An entry is appended to a ledger that is there, or nothing happens to it.** Only the lock can
fail, and then nothing at all happens. -/
theorem append_of_file (hslash : l.path.endsWithSlash = false) (hl : d.locate l.path = .ok home)
    (hfile : d.get? home = some (.file content)) (e : LogEntry) :
    (∃ fault, (l.append e).run d = (.error fault, d)) ∨
      ∃ d', (l.append e).run d = (.ok (), d') ∧ KeepsBut home d d'
        ∧ d'.get? home = some (.file (content.grow (Bytes.ofText e.row))) := by
  rcases lock_cases l d with ⟨fault, hlock⟩ | ⟨d₁, htouch, hlock⟩
  · exact .inl ⟨fault, by simp [append, exceptT_run_bind, hlock]⟩
  · have hext := touch_extends htouch
    have hl₁ := locate_keeps hext.keepsDirectories hl
    -- the header is not written again, as there is a file
    have hheader := ensureHeader_of_file (locateNew_of_locate hslash hl₁) (hext.entry hfile)
    obtain ⟨d₂, happend, hkeep, hget, _⟩ :=
      append_file hl₁ (hext.entry hfile) (Bytes.ofText e.row)
    refine .inr ⟨d₂, ?_, (hext.keepsBut home).trans hkeep, hget⟩
    simp [append, exceptT_run_bind, hlock, hheader, DiskM.run_change, happend]

/-- A write to a ledger that is there adds a row, or changes nothing. -/
theorem append_file? (hfile : d.file? l.path = some content) :
    (∃ fault, (l.append e).run d = (.error fault, d)) ∨
      ∃ d', (l.append e).run d = (.ok (), d')
        ∧ d'.file? l.path = some (content.grow (Bytes.ofText e.row)) := by
  obtain ⟨home, hl, hget⟩ := file?_eq_some_iff.mp hfile
  have hnot := ne_directory_of_file hget
  rcases append_of_file (noSlash_of_locate hl hnot) hl hget e with
    hfail | ⟨d', hrun, hkeep, hget'⟩
  · exact .inl hfail
  · have hl' := locate_keeps (hkeep.keepsDirectories hnot) hl
    exact .inr ⟨d', hrun, file?_eq_some_iff.mpr ⟨home, hl', hget'⟩⟩

/-- A write to a ledger that holds a text adds the text of the row. -/
theorem file?_of_append {text : String} (hfile : d.file? l.path = some (.bytes (Bytes.ofText text)))
    (h : (l.append e).run d = (.ok (), d')) :
    d'.file? l.path = some (.bytes (Bytes.ofText (text ++ e.row))) := by
  rcases append_file? (e := e) hfile with ⟨_, hrun⟩ | ⟨_, hrun, hgrown⟩
  · rw [hrun] at h
    cases h
  · rw [hrun] at h
    cases h
    rw [hgrown, Content.grow, Bytes.ofText_append]

/-! ## Settled ledgers -/

/-- A ledger that has its place: its directory is made, and nothing but a file stands at its
path. -/
structure Settled (l : Ledger) (d : Disk) (home : Location) : Prop where
  isTree : d.IsTree
  located : d.locateNew l.path = .ok home
  noSlash : l.path.endsWithSlash = false
  endsInName : l.path.endsInName = true
  parentMade : l.makeParent d = (d, .ok ())
  notDirectory : d.get? home ≠ some .directory

/-- What a ledger holds, or will hold once it is made. -/
def standing (d : Disk) (home : Location) : Content :=
  match d.get? home with
  | some (.file content) => content
  | _ => .bytes headerLine

theorem standing_of_file (h : d.get? home = some (.file content)) : standing d home = content := by
  rw [standing, h]

theorem standing_of_none (h : d.get? home = none) : standing d home = .bytes headerLine := by
  rw [standing, h]

/-- What stands at a place depends on that place only. -/
theorem standing_congr (h : d'.get? home = d.get? home) : standing d' home = standing d home := by
  rw [standing, standing, h]

/-- A settled ledger stays so as long as directories do and no other one takes its place. -/
theorem Settled.keep (h : Settled l d home) (hk : d.KeepsDirectories d') (ht : d'.IsTree)
    (hhome : d'.get? home ≠ some .directory) : Settled l d' home where
  isTree := ht
  located := locateNew_keeps hk h.located
  noSlash := h.noSlash
  endsInName := h.endsInName
  parentMade := makeParent_again h.parentMade hk
  notDirectory := hhome

/-- A settled ledger is found where it would be created. -/
theorem Settled.locate (h : Settled l d home) : d.locate l.path = .ok home :=
  locate_of_locateNew h.noSlash h.located

theorem Settled.ne_root (h : Settled l d home) : home ≠ .root :=
  ne_root_of_ne_directory h.notDirectory

/-- A settled ledger is a file or nothing. -/
theorem Settled.get?_cases (h : Settled l d home) :
    d.get? home = none ∨ ∃ content, d.get? home = some (.file content) := by
  cases hget : d.get? home with
  | none => exact .inl rfl
  | some entry =>
    cases entry with
    | directory => exact absurd hget h.notDirectory
    | file content => exact .inr ⟨content, rfl⟩

/-- What a settled ledger holds can be read off its path. -/
theorem Settled.standing_eq (h : Settled l d home) :
    standing d home = (d.file? l.path).getD (.bytes headerLine) := by
  rcases h.get?_cases with hnone | ⟨content, hfile⟩
  · have hno : d.file? l.path = none := by
      simp [file?, find, h.locate, hnone, bind, Except.bind]
    rw [standing_of_none hnone, hno, Option.getD_none]
  · rw [standing_of_file hfile, file?_eq_some_iff.mpr ⟨home, h.locate, hfile⟩, Option.getD_some]

/-- **The lock stands elsewhere**: its name is longer. -/
theorem Settled.lock_ne_home (h : Settled l d home) (hl : d.locateNew l.lockPath = .ok place) :
    place ≠ home := by
  obtain ⟨init, name, hnames, hname, hfile, parent, hparent⟩ :=
    names_of_endsInName h.noSlash h.endsInName
  have hlockName : IsName (name ++ ".lock") :=
    IsName.append hname.noSlash (by decide) (by decide)
  have hlockNames : l.lockPath.names = parent.names ++ [name ++ ".lock"] := by
    rw [lockPath, hfile, Option.getD_some]
    exact names_withFileName hfile hparent hlockName
  have hhome := (locateNew_ok_iff.mp h.located).2.1
  have hplace := (locateNew_ok_iff.mp hl).2.1
  rw [hnames] at hhome
  rw [hlockNames] at hplace
  obtain ⟨_, _, _, rfl⟩ := descend_concat hname hhome
  obtain ⟨_, _, _, rfl⟩ := descend_concat hlockName hplace
  -- the last names of the two places differ in length
  intro heq
  have hlast : name ++ ".lock" = name := by
    simpa using congrArg (fun m => m.names.getLast?) heq
  have hlen := congrArg (fun s => s.toList.length) hlast
  simp at hlen

/-! ### One step on a settled ledger -/

/-- Taking the lock of a settled ledger leaves the ledger as it is. -/
theorem Settled.lock (h : Settled l d home) :
    (∃ fault, l.lock.run d = (.error fault, d)) ∨
      ∃ d', l.lock.run d = (.ok (), d') ∧ d.Extends d' ∧ d'.get? home = d.get? home
        ∧ Settled l d' home := by
  rcases lock_cases l d with hfail | ⟨d', htouch, hlock⟩
  · exact .inl hfail
  · have hext := touch_extends htouch
    have hhome : d'.get? home = d.get? home := by
      -- the lock is another file than the ledger
      obtain ⟨place, hl, rfl | ⟨_, rfl⟩⟩ := touch_ok htouch
      · rfl
      · exact get?_put_of_ne d _ (h.lock_ne_home hl).symm
    exact .inr ⟨d', hlock, hext, hhome,
      h.keep hext.keepsDirectories (h.isTree.touch htouch) (hhome ▸ h.notDirectory)⟩

/-- Starting a settled ledger succeeds. It leaves what stands there, or puts the header where
nothing does. -/
theorem Settled.ensureHeader (h : Settled l d home) :
    ∃ made d', l.ensureHeader.run d = (.ok made, d') ∧ d.Extends d'
      ∧ d'.get? home = some (.file (standing d home)) ∧ Settled l d' home := by
  -- without a file the header is what stands there from then on
  rcases h.get?_cases with hnone | ⟨content, hfile⟩
  · have hput := get?_put_self d (.file (.bytes headerLine)) h.ne_root
    have hext := extends_put hnone (.file (.bytes headerLine))
    refine ⟨true, _, ensureHeader_of_none h.located hnone, hext, ?_, ?_⟩
    · rw [hput, standing_of_none hnone]
    · refine h.keep hext.keepsDirectories ?_ (ne_directory_of_file hput)
      exact h.isTree.put (h.isTree.locateNew_parent h.located) h.notDirectory _
  · refine ⟨false, d, ensureHeader_of_file h.located hfile, .refl d, ?_, h⟩
    rw [hfile, standing_of_file hfile]

/-! ### Operations on a settled ledger -/

/-- A settled ledger can always be prepared, and then it is there. -/
theorem Settled.prepare (h : Settled l d home) :
    ∃ d', l.prepare.run d = (.ok (), d') ∧ d.Extends d'
      ∧ d'.get? home = some (.file (standing d home)) ∧ Settled l d' home := by
  obtain ⟨made, d', hheader, hext, hget, hsettled⟩ := h.ensureHeader
  refine ⟨d', ?_, hext, hget, hsettled⟩
  simp only [run_prepare, h.parentMade, hheader]

/-- **Appending to a settled ledger**: nothing happens, or the file grows by one row. -/
theorem Settled.append (h : Settled l d home) (e : LogEntry) :
    (∃ fault, (l.append e).run d = (.error fault, d)) ∨
      ∃ d', (l.append e).run d = (.ok (), d') ∧ KeepsBut home d d' ∧ Settled l d' home
        ∧ d'.get? home = some (.file ((standing d home).grow (Bytes.ofText e.row))) := by
  rcases h.lock with ⟨fault, hlock⟩ | ⟨d₁, hlock, hext₁, hhome₁, hs₁⟩
  · exact .inl ⟨fault, by simp [Ledger.append, exceptT_run_bind, hlock]⟩
  · -- the lock has left the ledger as it was, so the header is made for what was there
    obtain ⟨made, d₂, hheader, hext₂, hget₂, hs₂⟩ := hs₁.ensureHeader
    rw [standing_congr hhome₁] at hget₂
    obtain ⟨d₃, happend, hkeep, hget₃, htree⟩ :=
      append_file hs₂.locate hget₂ (Bytes.ofText e.row)
    refine .inr ⟨d₃, ?_, ((hext₁.trans hext₂).keepsBut home).trans hkeep, ?_, hget₃⟩
    · simp [Ledger.append, exceptT_run_bind, hlock, hheader, DiskM.run_change, happend]
    · exact hs₂.keep (hkeep.keepsDirectories hs₂.notDirectory) (htree hs₂.isTree)
        (ne_directory_of_file hget₃)

/-- **Rotating a settled ledger**: it fails and the ledger keeps what it holds, or that is moved as
it is to a place where nothing stood, and the ledger holds its header. -/
theorem Settled.rotate (h : Settled l d home) (year : Int) (month : Nat) :
    (∃ fault d', (l.rotate year month).run d = (.error fault, d') ∧ KeepsBut home d d'
        ∧ Settled l d' home ∧ standing d' home = standing d home) ∨
      ∃ archive place d', (l.rotate year month).run d = (.ok archive, d') ∧ KeepsBut home d d'
        ∧ Settled l d' home ∧ d'.get? home = some (.file (.bytes headerLine))
        ∧ place ≠ home ∧ d'.locate archive = .ok place
        ∧ d'.get? place = some (.file (standing d home)) := by
  rcases h.lock with ⟨fault, hlock⟩ | ⟨d₁, hlock, hext₁, hhome₁, hs₁⟩
  · exact .inl ⟨fault, d, by simp [Ledger.rotate, exceptT_run_bind, hlock],
      (Extends.refl d).keepsBut home, h, rfl⟩
  obtain ⟨made, d₂, hheader, hext₂, hget₂, hs₂⟩ := hs₁.ensureHeader
  rw [standing_congr hhome₁] at hget₂
  have hext₁₂ := hext₁.trans hext₂
  -- the directory of archives; it does not get into the way of the ledger, which is there
  have hext₃ := makeDirectories_extends d₂ l.archiveDirectory
  have htree₃ := hs₂.isTree.makeDirectories l.archiveDirectory
  rcases hmake : d₂.makeDirectories l.archiveDirectory with ⟨d₃, result⟩
  simp only [hmake] at hext₃ htree₃
  have hget₃ := hext₃.entry hget₂
  have hs₃ : Settled l d₃ home :=
    hs₂.keep hext₃.keepsDirectories htree₃ (ne_directory_of_file hget₃)
  have hext := hext₁₂.trans hext₃
  -- a failure from here on leaves the ledger with its header, and what it held
  have hkept : standing d₃ home = standing d home := standing_of_file hget₃
  cases result with
  | error fault =>
    refine .inl ⟨fault, d₃, ?_, hext.keepsBut home, hs₃, hkept⟩
    simp [Ledger.rotate, exceptT_run_bind, hlock, hheader, DiskM.makeDirectories, DiskM.run_attempt,
      hmake]
  | ok _ =>
    obtain ⟨n, _, harchive, hfree, _⟩ := freeArchive_spec l d₃ year month
    cases hrename : d₃.rename l.path (l.freeArchive d₃ year month) with
    | error fault =>
      refine .inl ⟨fault, d₃, ?_, hext.keepsBut home, hs₃, hkept⟩
      simp [Ledger.rotate, exceptT_run_bind, hlock, hheader, DiskM.makeDirectories,
        DiskM.run_attempt, hmake, DiskM.run_get, DiskM.run_change, hrename]
    | ok d₄ =>
      obtain ⟨place, hplace, _, rfl⟩ := rename_file_ok hs₃.locate hget₃ hrename
      -- the archive is free, so it is not the ledger, which stands
      have hnone : d₃.get? place = none := by
        cases hget : d₃.get? place with
        | none => rfl
        | some entry =>
          rw [harchive] at hplace
          rw [has_iff.mpr ⟨place, entry, hplace, hget⟩] at hfree
          cases hfree
      have hne : place ≠ home := by
        rintro rfl
        rw [hget₃] at hnone
        cases hnone
      have hroot := ne_root_of_ne_directory (ne_directory_of_none hnone)
      -- the ledger leaves its place, and stands at the free one
      have herase := htree₃.keepsBut_erase_file hget₃
      have hvacant : (d₃.erase home).get? place = none := by
        rw [htree₃.get?_erase_file hget₃, if_neg hne, hnone]
      have hmoved := (extends_put hvacant (.file (standing d home))).keepsBut home
      have hkeep := herase.trans hmoved
      have hgone : ((d₃.erase home).put place (.file (standing d home))).get? home = none := by
        rw [get?_put_of_ne _ _ hne.symm, htree₃.get?_erase_file hget₃, if_pos rfl]
      have hs₄ : Settled l ((d₃.erase home).put place (.file (standing d home))) home := by
        refine hs₃.keep (hkeep.keepsDirectories hs₃.notDirectory) ?_ (ne_directory_of_none hgone)
        refine (htree₃.erase_file hget₃).put ?_ (ne_directory_of_none hvacant) _
        exact (herase.keepsDirectories hs₃.notDirectory).directory (htree₃.locate_parent hplace)
      obtain ⟨made, d₅, hheader₅, hext₅, hget₅, hs₅⟩ := hs₄.ensureHeader
      rw [standing_of_none hgone] at hget₅
      have hkeeps := hkeep.keepsDirectories hs₃.notDirectory
      refine .inr ⟨l.freeArchive d₃ year month, place, d₅, ?_,
        ((hext.keepsBut home).trans hkeep).trans (hext₅.keepsBut home), hs₅, hget₅, hne, ?_, ?_⟩
      · simp only [Ledger.rotate, exceptT_run_bind, hlock, hheader, DiskM.makeDirectories,
          DiskM.run_attempt, hmake, DiskM.run_get, DiskM.run_change, hrename, hheader₅,
          DiskM.run_pure]
      · exact locate_keeps (hkeeps.trans hext₅.keepsDirectories) hplace
      · exact hext₅.entry (get?_put_self _ _ hroot)

/-- A settled ledger that is there can be removed from outside, and then it is not there. It stays
settled: nothing is in the way of making it again. -/
theorem Settled.delete (h : Settled l d home) (hfile : d.get? home = some (.file content)) :
    d.remove l.path = (d.erase home, .ok ()) ∧ KeepsBut home d (d.erase home)
      ∧ Settled l (d.erase home) home ∧ (d.erase home).get? home = none := by
  have hkeep := h.isTree.keepsBut_erase_file hfile
  have hgone : (d.erase home).get? home = none := by
    rw [h.isTree.get?_erase_file hfile, if_pos rfl]
  refine ⟨remove_file h.locate hfile h.endsInName, hkeep, ?_, hgone⟩
  exact h.keep (hkeep.keepsDirectories h.notDirectory) (h.isTree.erase_file hfile)
    (ne_directory_of_none hgone)

end Ledger

end QuotaWatch
