import QuotaWatch.Proofs.Ledger.Failure

/-!
# The name that a rotation takes

A rotation looks for a free name on a disk that its first steps have already changed. None of what
they may leave behind is an archive (`Settled.not_addition`): the lock and the ledger stand beside
the directory of archives, and the directories on the way to it stood before. So the same archives
exist as before the rotation (`Settled.has_archivePath`), and the name that is taken is the first
one that was free to begin with.

* **`rotate_first_free`**: what a rotation that succeeds returns, what it moves there, and that
  whatever else was a file still is.
-/

namespace QuotaWatch

open QuotaWatch.Path

namespace Ledger

open Disk

variable {l : Ledger} {d d' : Disk} {home place : Location} {year : Int} {month n : Nat}

/-! ## The directory of a ledger -/

/-- A ledger whose path leads to a place is settled, if no directory stands there. -/
theorem settled_of_locateNew (ht : d.IsTree) (hl : d.locateNew l.path = .ok home)
    (hnot : d.get? home ≠ some .directory) : Settled l d home := by
  obtain ⟨hslash, hends⟩ := ht.endsInName_of_locateNew hl hnot
  exact ⟨ht, hl, hslash, hends, makeParent_of_locateNew hl, hnot⟩

/-- The parent of the path of a settled ledger leads to the directory in which it is. -/
theorem Settled.directory (h : Settled l d home) :
    ∃ parent name, l.path.parent? = some parent ∧ l.path.fileName? = some name
      ∧ d.descend (d.start l.path) parent.names = .ok home.parent
      ∧ d.get? home.parent = some .directory ∧ home = home.parent.child name := by
  obtain ⟨_, name, _, hname, hfile, parent, hparent⟩ :=
    names_of_endsInName h.noSlash h.endsInName
  obtain ⟨directory, hdescend, hget⟩ := descend_parent? hparent h.located
  obtain ⟨before, after, hbefore, hafter, hnames⟩ := names_of_parent? hparent
  rw [← (isName_of_fileName? hfile).2.1] at hnames
  -- behind the parent only the last name leads anywhere
  have hhome : home = directory.child name := by
    have hstep : directory.step name = directory.child name := by
      rw [Location.step, if_neg hname.ne_here, if_neg hname.ne_up]
    have hwalk := (stops_of_descend (locateNew_ok_iff.mp h.located).2.1).1
    rw [hnames, Location.walk_append, Location.walk_append, ← (stops_of_descend hdescend).1,
      Location.walk_stay hbefore] at hwalk
    rw [hwalk, ← hstep]
    exact Location.walk_stay hafter
  refine ⟨parent, name, hparent, hfile, ?_⟩
  rw [hhome, Location.parent_child]
  exact ⟨hdescend, hget, rfl⟩

/-- What is joined to the parent of the path stands beside the ledger. -/
theorem Settled.locate_beside (h : Settled l d home) (hk : d.KeepsDirectories d') {parent : Path}
    (hparent : l.path.parent? = some parent) {other : String} (hother : IsName other)
    (hl : d'.locate (parent.join other) = .ok place) : place = home.parent.child other := by
  obtain ⟨parent', _, hparent', _, hdescend, _, _⟩ := h.directory
  obtain rfl := Option.some.inj (hparent'.symm.trans hparent)
  have hdescend' := (locate_ok_iff.mp hl).2
  rw [start_keeps hk, start, isAbsolute_join _ hother, isAbsolute_parent? hparent, ← start,
    endsWithSlash_join _ hother, names_join _ hother] at hdescend'
  obtain ⟨directory, hdirectory, _, rfl⟩ := descend_concat hother (by simpa using hdescend')
  cases (descend_keeps hk hdescend).symm.trans hdirectory
  rfl

/-! ## Where archives stand -/

/-- The name of the directory of archives is one name. -/
theorem archive_isName : IsName "archive" := ⟨by decide, by decide, by decide, by decide⟩

/-- The place of an archive of a ledger at a given place. -/
def archivePlace (l : Ledger) (home : Location) (year : Int) (month n : Nat) : Location :=
  (home.parent.child "archive").child (l.archiveName year month n)

/-- Nothing beside a ledger is an archive: archives stand one directory further down. -/
theorem archivePlace_ne_child (l : Ledger) (home : Location) (year : Int) (month n : Nat)
    (name : String) : l.archivePlace home year month n ≠ home.parent.child name := by
  intro heq
  have hlen := congrArg (fun m => m.names.length) heq
  simp [archivePlace] at hlen

/-- **The path of an archive** leads to its place exactly if the directory of archives is there and
the name is not too long. -/
theorem Settled.locate_archivePath (h : Settled l d home) (hk : d.KeepsDirectories d') :
    d'.locate (l.archivePath year month n) = .ok place ↔
      checkPath (l.archivePath year month n) = .ok ()
        ∧ d'.get? (home.parent.child "archive") = some .directory
        ∧ ¬maxNameBytes < (l.archiveName year month n).utf8ByteSize
        ∧ place = l.archivePlace home year month n := by
  obtain ⟨parent, _, hparent, _, hdescend, hget, _⟩ := h.directory
  have hname := archiveName_isName l year month n
  have hpath : l.archivePath year month n
      = (parent.join "archive").join (l.archiveName year month n) := by
    rw [archivePath, archiveDirectory, hparent]
  -- the archive begins where the ledger does
  have hstart : d'.start (l.archivePath year month n) = d.start l.path := by
    rw [start_keeps hk, hpath, start, isAbsolute_join _ hname, isAbsolute_join _ archive_isName,
      isAbsolute_parent? hparent, start]
  rw [locate_ok_iff, hstart, hpath, endsWithSlash_join _ hname, names_join _ hname,
    names_join _ archive_isName, ← hpath]
  refine and_congr_right fun _ => ?_
  simp only [Bool.false_eq_true, if_false, List.append_nil, List.append_assoc,
    descend_append_of_ok (descend_keeps hk hdescend)]
  constructor
  · intro hwalk
    -- two more steps: to the directory of archives and to the archive
    obtain ⟨_, next, hleads, hwalk⟩ := descend_cons_ok_iff.mp hwalk
    obtain ⟨hdirectory, hlast⟩ := descend_singleton_ok_iff.mp hwalk
    obtain rfl := hleads.of_isName archive_isName
    cases hlast with
    | here hhere => exact absurd hhere hname.ne_here
    | up hup => exact absurd hup hname.ne_up
    | down _ _ hlong => exact ⟨hdirectory, hlong, rfl⟩
  · rintro ⟨hdirectory, hlong, rfl⟩
    refine descend_cons_ok_iff.mpr ⟨hk.directory hget, _,
      .down archive_isName.ne_here archive_isName.ne_up (by decide), ?_⟩
    exact descend_singleton_ok_iff.mpr
      ⟨hdirectory, .down hname.ne_here hname.ne_up hlong⟩

/-- **What the operations of a ledger leave behind is no archive.** -/
theorem Settled.not_addition (h : Settled l d home) (hk : d.KeepsDirectories d') {entry : Entry}
    (hnone : d.get? (l.archivePlace home year month n) = none) :
    ¬Addition l d' (l.archivePlace home year month n) entry := by
  obtain ⟨parent, name, hparent, hfile, hdescend, hget, hhome⟩ := h.directory
  have hbeside := archivePlace_ne_child l home year month n
  intro hadd
  cases hadd with
  | @parent directory made hparent' hmade hplace =>
    -- the directories on the way to the ledger stood before
    obtain rfl := Option.some.inj (hparent.symm.trans hparent')
    obtain ⟨more, hmore⟩ := hmade
    rw [← hmore] at hdescend
    obtain ⟨stop, hstop, hrest⟩ := descend_append_ok_iff.mp hdescend
    have hdirectory : d.get? stop = some .directory := by
      cases more with
      | nil => exact (Except.ok.inj hrest) ▸ hget
      | cons first rest => exact (descend_cons_ok_iff.mp hrest).1
    have hstart : d'.start parent = d.start l.path := by
      rw [start_keeps hk, start, isAbsolute_parent? hparent, start]
    rw [hstart] at hplace
    cases (descend_keeps hk hstop).symm.trans hplace
    rw [hnone] at hdirectory
    cases hdirectory
  | archive hplace =>
    rw [archiveDirectory, hparent] at hplace
    exact hbeside _ (h.locate_beside hk hparent archive_isName hplace)
  | lock hplace =>
    have hlock : l.lockPath = parent.join (name ++ ".lock") := by
      simp [lockPath, withFileName, hfile, hparent]
    have hlockName := lockName_isName l
    rw [hfile, Option.getD_some] at hlockName
    rw [hlock] at hplace
    exact hbeside _ (h.locate_beside hk hparent hlockName hplace)
  | ledger hplace =>
    have hsame := Except.ok.inj ((locate_keeps hk h.locate).symm.trans hplace)
    exact hbeside name (hsame.symm.trans hhome)

/-- **The same archives exist** after whatever does no harm. So the search of a rotation comes to
the same end on the disk that its first steps have changed. -/
theorem Settled.has_archivePath (h : Settled l d home) (hharm : Harmless l d d') (year : Int)
    (month n : Nat) :
    d'.has (l.archivePath year month n) = d.has (l.archivePath year month n) := by
  have hk := hharm.stands.keepsDirectories
  rw [Bool.eq_iff_iff, has_iff, has_iff]
  constructor
  · rintro ⟨place, entry, hl, hget⟩
    obtain ⟨hcheck, _, hlong, rfl⟩ := (h.locate_archivePath hk).mp hl
    cases hbefore : d.get? (l.archivePlace home year month n) with
    | none => exact absurd (hharm.added hbefore hget) (h.not_addition hk hbefore)
    | some before =>
      -- what stood there stood in the directory of archives
      have hdirectory := h.isTree.parent_isDirectory hbefore
      rw [archivePlace, Location.parent_child] at hdirectory
      exact ⟨_, before, (h.locate_archivePath (.refl d)).mpr ⟨hcheck, hdirectory, hlong, rfl⟩,
        hbefore⟩
  · rintro ⟨place, entry, hl, hget⟩
    exact ⟨place, entry, locate_keeps hk hl, hharm.stands.entry hget⟩

/-! ## Rotations that succeed -/

/-- A rotation that succeeds was possible to begin with, and has looked for a free archive after
steps that do no harm. -/
theorem rotate_ok {archive : Path} (ht : d.IsTree)
    (h : (l.rotate year month).run d = (.ok archive, d')) :
    (∃ home, d.locateNew l.path = .ok home)
      ∧ ∃ d₁, Harmless l d d₁ ∧ archive = l.freeArchive d₁ year month := by
  unfold rotate at h
  obtain ⟨_, d₁, hlock, h⟩ := DiskM.run_bind_ok h
  obtain ⟨hharm₁, hkeep₁, _⟩ := lock_step ht hlock
  obtain ⟨_, d₂, hheader, h⟩ := DiskM.run_bind_ok h
  obtain ⟨hharm₂, hkeep₂, _, home, _, hl, _⟩ := ensureHeader_step hharm₁.isTree hheader
  have hharm := hharm₁.trans hharm₂
  obtain ⟨_, d₃, hmake, h⟩ := DiskM.run_bind_ok h
  rw [DiskM.makeDirectories, DiskM.run_attempt] at hmake
  have hharm₃ := makeArchive_step hharm.isTree
    (Prod.ext (Prod.mk.inj hmake).2 (Prod.mk.inj hmake).1)
  obtain ⟨_, _, hlook, h⟩ := DiskM.run_bind_ok h
  cases hlook
  -- after the move and the new header the archive is what was found
  obtain ⟨_, _, _, h⟩ := DiskM.run_bind_ok h
  obtain ⟨_, _, _, h⟩ := DiskM.run_bind_ok h
  cases h
  exact ⟨⟨home, locateNew_keeps (hkeep₂.trans hkeep₁) hl⟩, d₃, hharm.trans hharm₃, rfl⟩

/-- **A rotation takes the first free name, and nothing else is lost.** Let no directory stand at
the path of the ledger, and let fewer archives of the month exist than 32 bits can number. Then a
rotation that succeeds on a day of that month

* returns the archive with the least number that did not exist before; that number and the next one
  fit into 32 bits;
* leaves there what the ledger held, or its header if it was missing, and leaves the ledger with its
  header alone;
* leaves every other file as it was. -/
theorem rotate_first_free (l : Ledger) {d d' : Disk} (ht : d.IsTree) (day : Time.Date)
    {archive : Path} (hledger : d.find l.path ≠ .ok .directory)
    (hfew : (l.takenNumbers d day.year day.month).encard < (2 ^ 32 - 2 : Nat))
    (h : (l.rotate day.year day.month).run d = (.ok archive, d')) :
    (∃ n, 1 ≤ n ∧ n + 1 < 2 ^ 32 ∧ archive = l.archivePath day.year day.month n
        ∧ d.has archive = false
        ∧ ∀ k, 1 ≤ k → k < n → d.has (l.archivePath day.year day.month k) = true)
      ∧ d'.file? archive = some ((d.file? l.path).getD (.bytes headerLine))
      ∧ d'.file? l.path = some (.bytes headerLine)
      ∧ ∀ p content, d.file? p = some content → d.locate p ≠ d.locate l.path →
          d'.file? p = some content := by
  obtain ⟨⟨home, hl⟩, d₁, hharm, hfound⟩ := rotate_ok ht h
  have hnot : d.get? home ≠ some .directory := fun hget => hledger (ht.find_of_locateNew hl hget)
  have hsettled := settled_of_locateNew ht hl hnot
  refine ⟨?_, ?_⟩
  · obtain ⟨n, hn, harchive, hfree, hbefore⟩ := freeArchive_spec l d₁ day.year day.month
    simp only [hsettled.has_archivePath hharm] at hfree hbefore
    rw [harchive] at hfound
    have hle : n ≤ 2 ^ 32 - 2 := by
      by_contra hlt
      -- otherwise more numbers would be taken than there may be
      have htaken : ((2 ^ 32 - 2 : Nat) : ℕ∞)
          ≤ (l.takenNumbers d day.year day.month).encard :=
        le_encard_takenNumbers fun k hk hle => hbefore k hk (by omega)
      exact absurd (htaken.trans_lt hfew) (lt_irrefl _)
    exact ⟨n, hn, by omega, hfound, hfound ▸ hfree, hbefore⟩
  · rcases hsettled.rotate day.year day.month with ⟨_, _, hrun, _⟩ |
      ⟨_, place, _, hrun, hbut, hs, hget, _, hplace, hheld⟩
    · cases h.symm.trans hrun
    cases h.symm.trans hrun
    rw [hsettled.standing_eq] at hheld
    refine ⟨file?_eq_some_iff.mpr ⟨place, hplace, hheld⟩,
      file?_eq_some_iff.mpr ⟨home, hs.locate, hget⟩, fun p content hfile hother => ?_⟩
    obtain ⟨there, hthere, hcontent⟩ := file?_eq_some_iff.mp hfile
    have hne : there ≠ home := fun heq => hother (by rw [hthere, heq, hsettled.locate])
    exact file?_eq_some_iff.mpr
      ⟨there, locate_keeps (hbut.keepsDirectories hnot) hthere, hbut.entry hne hcontent⟩

/-- A ledger whose first archive of a month is there, and a directory with the name of the third. -/
def gapDisk : Disk :=
  { entries :=
      [(.ofNames ["data"], .directory),
       (.ofNames ["data", "usage.csv"], .file (.bytes (Bytes.ofText "rows"))),
       (.ofNames ["data", "archive"], .directory),
       (.ofNames ["data", "archive", "usage_2024-05.csv"],
          .file (.bytes (Bytes.ofText "older rows"))),
       (.ofNames ["data", "archive", "usage_2024-05-3.csv"], .directory)]
    working := .root }

/-- The disk of the example is a tree. -/
theorem isTree_gapDisk : gapDisk.IsTree := by
  refine isTree_of_entries (get?_root _) fun e hmem => ?_
  simp only [gapDisk, List.mem_cons, List.not_mem_nil, or_false] at hmem
  rcases hmem with rfl | rfl | rfl | rfl | rfl <;> rfl

/-- The gap between the first archive and the third is filled. -/
theorem rotate_first_free_gap :
    let l : Ledger := ⟨⟨"data/usage.csv"⟩⟩
    let first : Path := ⟨"data/archive/usage_2024-05.csv"⟩
    let second : Path := ⟨"data/archive/usage_2024-05-2.csv"⟩
    ∃ after, gapDisk.IsTree ∧ gapDisk.find l.path ≠ .ok .directory
      ∧ (l.takenNumbers gapDisk 2024 5).encard < (2 ^ 32 - 2 : Nat)
      ∧ (l.rotate 2024 5).run gapDisk = (.ok second, after)
      ∧ after.file? second = some (.bytes (Bytes.ofText "rows"))
      ∧ after.file? l.path = some (.bytes headerLine)
      ∧ after.file? first = some (.bytes (Bytes.ofText "older rows")) := by
  intro l first second
  have hfile : gapDisk.file? l.path = some (.bytes (Bytes.ofText "rows")) :=
    file?_eq_some_iff.mpr ⟨.ofNames ["data", "usage.csv"], by decide +kernel, rfl⟩
  have hfirst : gapDisk.file? first = some (.bytes (Bytes.ofText "older rows")) :=
    file?_eq_some_iff.mpr
      ⟨.ofNames ["data", "archive", "usage_2024-05.csv"], by decide +kernel, rfl⟩
  have hledger : gapDisk.find l.path ≠ .ok .directory := by
    intro hfind
    simp [file?, hfind] at hfile
  -- no more numbers are taken than there are entries on the disk
  have hfew : (l.takenNumbers gapDisk 2024 5).encard < (2 ^ 32 - 2 : Nat) :=
    (encard_takenNumbers_le l gapDisk 2024 5).trans_lt (by
      exact_mod_cast (by decide : gapDisk.entries.length < 2 ^ 32 - 2))
  have hresult : ((l.rotate 2024 5).run gapDisk).1 = .ok second := by decide +kernel
  generalize hrun : (l.rotate 2024 5).run gapDisk = ended at hresult ⊢
  obtain ⟨result, after⟩ := ended
  obtain rfl : result = .ok second := hresult
  obtain ⟨_, harchive, hheader, hothers⟩ :=
    rotate_first_free l isTree_gapDisk ⟨2024, 5, 31⟩ hledger hfew hrun
  rw [hfile, Option.getD_some] at harchive
  exact ⟨after, isTree_gapDisk, hledger, hfew, rfl, harchive, hheader,
    hothers first _ hfirst (by decide +kernel)⟩

end Ledger

end QuotaWatch
