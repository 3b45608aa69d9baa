import QuotaWatch.Proofs.Disk.Making
import QuotaWatch.Proofs.Ledger.File
import QuotaWatch.Proofs.Ledger.Table
import QuotaWatch.Time.Calendar

/-!
# What a failure leaves behind

Opening a ledger, appending to it and rotating it take several steps, and one that fails may leave
what the steps before it did. All of them only add, and only what belongs to the ledger
(`Ledger.Harmless`); the one step that takes something away, the renaming of a rotation, is not
followed by a failure (`locateNew_after_rename`).

There are two exceptions, and both need an odd path. A directory may stand at the path of a ledger
that also leads through it (`Ledger.LoopsBack`): once it is moved, the ledger cannot be started
again. And directories that are made along a path that goes up again, or has a name that is too
long, may turn "nothing is there" into another fault.
-/

namespace QuotaWatch

open QuotaWatch.Path

namespace DiskM

variable {α β : Type} {d d' : Disk} {fault : DiskFault}

/-- A computation fails in its first part or in the rest. -/
theorem run_bind_error {x : DiskM α} {f : α → DiskM β}
    (h : (x >>= f).run d = (.error fault, d')) :
    x.run d = (.error fault, d') ∨
      ∃ a d₁, x.run d = (.ok a, d₁) ∧ (f a).run d₁ = (.error fault, d') := by
  rw [exceptT_run_bind] at h
  split at h
  next a d₁ hx => exact .inr ⟨a, d₁, hx, h⟩
  next other d₁ hx =>
    cases h
    exact .inl hx

/-- A computation succeeds in its first part and then in the rest. -/
theorem run_bind_ok {x : DiskM α} {f : α → DiskM β} {b : β}
    (h : (x >>= f).run d = (.ok b, d')) :
    ∃ a d₁, x.run d = (.ok a, d₁) ∧ (f a).run d₁ = (.ok b, d') := by
  rw [exceptT_run_bind] at h
  split at h
  next a d₁ hx => exact ⟨a, d₁, hx, h⟩
  next => cases h

/-- A change that fails changes nothing. -/
theorem run_change_error {f : Disk → Except DiskFault Disk}
    (h : (change f).run d = (.error fault, d')) : d' = d := by
  rw [run_change] at h
  split at h
  · cases h
  · exact (Prod.mk.inj h).2.symm

/-- A change that succeeds leaves the disk that it made. -/
theorem run_change_ok {f : Disk → Except DiskFault Disk}
    (h : (change f).run d = (.ok (), d')) : f d = .ok d' := by
  rw [run_change] at h
  split at h
  next d₁ hf =>
    cases h
    exact hf
  next => cases h

end DiskM

namespace Ledger

open Disk

variable {l : Ledger} {d d' d'' : Disk} {home place : Location} {entry : Entry} {fault : DiskFault}

/-! ## What may be added -/

/-- What the operations of a ledger may leave behind at a place. -/
inductive Addition (l : Ledger) (d : Disk) (place : Location) : Entry → Prop where
  /-- A directory on the way to the ledger. -/
  | parent {directory : Path} {made : List String} (hparent : l.path.parent? = some directory)
      (hmade : made <+: directory.names)
      (hplace : d.descend (d.start directory) made = .ok place) : Addition l d place .directory
  | archive (hplace : d.locate l.archiveDirectory = .ok place) : Addition l d place .directory
  | lock (hplace : d.locate l.lockPath = .ok place) : Addition l d place (.file (.bytes []))
  | ledger (hplace : d.locate l.path = .ok place) :
      Addition l d place (.file (.bytes headerLine))

/-- Whatever stood still stands, and all that was added belongs to the ledger. -/
structure Harmless (l : Ledger) (d d' : Disk) : Prop where
  isTree : d'.IsTree
  stands : d.Extends d'
  added : ∀ {place : Location} {entry : Entry},
    d.get? place = none → d'.get? place = some entry → Addition l d' place entry

/-- What was added stays an addition, as long as directories are kept: it is told by where it
stands. -/
theorem Addition.keep (h : Addition l d place entry) (hk : d.KeepsDirectories d') :
    Addition l d' place entry := by
  cases h with
  | parent hparent hmade hplace =>
    exact .parent hparent hmade (by rw [start_keeps hk]; exact descend_keeps hk hplace)
  | archive hplace => exact .archive (locate_keeps hk hplace)
  | lock hplace => exact .lock (locate_keeps hk hplace)
  | ledger hplace => exact .ledger (locate_keeps hk hplace)

theorem Harmless.refl (ht : d.IsTree) (l : Ledger) : Harmless l d d where
  isTree := ht
  stands := .refl d
  added := by
    intro place entry hnone hget
    cases hnone.symm.trans hget

/-- Harmless steps one after the other are harmless. What the first one added stands where the
second one leaves it. -/
theorem Harmless.trans (h : Harmless l d d') (h' : Harmless l d' d'') : Harmless l d d'' where
  isTree := h'.isTree
  stands := h.stands.trans h'.stands
  added := by
    intro place entry hnone hget
    cases hget' : d'.get? place with
    | none => exact h'.added hget' hget
    | some e =>
      obtain rfl : e = entry := Option.some.inj ((h'.stands.entry hget').symm.trans hget)
      exact (h.added hnone hget').keep h'.stands.keepsDirectories

/-- A file that is put where it may be. -/
theorem harmless_put (ht : d.IsTree) {p : Path} {content : Content}
    (hl : d.locateNew p = .ok place) (hnone : d.get? place = none)
    (hadd : ∀ d' : Disk, d'.locate p = .ok place → Addition l d' place (.file content)) :
    Harmless l d (d.put place (.file content)) := by
  have hext := extends_put hnone (.file content)
  have hnot := ne_directory_of_none hnone
  refine ⟨ht.put (ht.locateNew_parent hl) hnot _, hext, ?_⟩
  intro other entry hother hget
  -- the only place that changes is the one that was free
  by_cases heq : other = place
  · subst heq
    rw [get?_put_self d _ (ne_root_of_ne_directory hnot)] at hget
    cases hget
    have hslash := (ht.endsInName_of_locateNew hl hnot).1
    exact hadd _ (locate_keeps hext.keepsDirectories (locate_of_locateNew hslash hl))
  · rw [get?_put_of_ne d _ heq, hother] at hget
    cases hget

/-- A file that is put makes no directory. -/
theorem keepsDirectories_of_put (hnone : d.get? place = none) (content : Content) :
    (d.put place (.file content)).KeepsDirectories d := by
  refine ⟨rfl, fun {other} hget => ?_⟩
  by_cases heq : other = place
  · subst heq
    rw [get?_put_self d _ (ne_root_of_ne_directory (ne_directory_of_none hnone))] at hget
    cases hget
  · rwa [get?_put_of_ne d _ heq] at hget

/-! ## What reading says -/

/-- Reading a ledger looks at its path only. -/
theorem readAll_congr (h : d'.find l.path = d.find l.path) : l.readAll d' = l.readAll d := by
  unfold readAll readText
  rw [h]

/-- A ledger that is missing reads as one without entries. -/
theorem readAll_of_notFound (h : d.find l.path = .error .notFound) : l.readAll d = .ok [] := by
  unfold readAll readText
  rw [h]
  rfl

/-- Any other fault is returned by reading. -/
theorem readAll_of_fault (h : d.find l.path = .error fault) (hne : fault ≠ .notFound) :
    l.readAll d = .error fault := by
  unfold readAll readText
  rw [h]
  cases fault with
  | notFound => exact absurd rfl hne
  | _ => rfl

/-- Reading a ledger that holds nothing but its header. -/
theorem readAll_of_header (hl : d.locate l.path = .ok home)
    (hget : d.get? home = some (.file (.bytes headerLine))) : l.readAll d = .ok [] := by
  have hfile : d.file? l.path = some (.bytes (Bytes.ofText (ledgerText []))) := by
    rw [ledgerText_nil]
    exact file?_eq_some_iff.mpr ⟨home, hl, hget⟩
  rw [readAll_of_text hfile, readEntries_ledgerText]

/-! ## The steps -/

/-- The name of the lock is one name, whatever the ledger is called. -/
theorem lockName_isName (l : Ledger) : IsName (l.path.fileName?.getD "ledger" ++ ".lock") := by
  refine IsName.append ?_ (by decide) (by decide)
  cases hfile : l.path.fileName? with
  | none => decide
  | some name => exact (isName_of_fileName? hfile).1.noSlash

/-- **Taking the lock** does no harm, and makes no directory. The lock stands beside the ledger, so
the way to the ledger does not pass it. -/
theorem lock_step (ht : d.IsTree) {result : Except DiskFault Unit}
    (h : l.lock.run d = (result, d')) :
    Harmless l d d' ∧ d'.KeepsDirectories d ∧ l.readAll d' = l.readAll d := by
  have hsame : Harmless l d d ∧ d.KeepsDirectories d ∧ l.readAll d = l.readAll d :=
    ⟨.refl ht l, .refl d, rfl⟩
  rcases lock_cases l d with ⟨fault, hlock⟩ | ⟨d₁, htouch, hlock⟩
  · cases hlock.symm.trans h
    exact hsame
  · cases hlock.symm.trans h
    obtain ⟨place, hl, rfl | ⟨hnone, rfl⟩⟩ := touch_ok htouch
    · exact hsame
    · refine ⟨harmless_put ht hl hnone fun _ => .lock, keepsDirectories_of_put hnone _, ?_⟩
      -- the name of the lock is longer than that of the ledger
      have hne : l.path.fileName? ≠ some (l.path.fileName?.getD "ledger" ++ ".lock") := by
        intro heq
        cases hfile : l.path.fileName? with
        | none => simp [hfile] at heq
        | some name =>
          rw [hfile] at heq
          have hlen := congrArg (fun s => s.toList.length) (Option.some.inj heq)
          simp at hlen
      have hstops := notMem_stops_beside (lockName_isName l) hne hl hnone
      -- and so the lock is not on the way to the ledger
      refine readAll_congr (find_congr rfl fun stop hstop => get?_put_of_ne d _ ?_)
      intro heq
      exact hstops (heq ▸ hstop)

/-- Starting the ledger fails only where its path leads to no place. Nothing has been changed then.
-/
theorem ensureHeader_error (h : l.ensureHeader.run d = (.error fault, d')) :
    d' = d ∧ ∀ place, d.locateNew l.path ≠ .ok place := by
  cases hl : d.locateNew l.path with
  | error other =>
    refine ⟨?_, by simp⟩
    have hcreate : d.createNew l.path headerLine = .error other := by
      simp [createNew, hl, bind, Except.bind]
    rw [run_ensureHeader, hcreate] at h
    split at h
    · cases h
    · cases h
    · exact (Prod.mk.inj h).2.symm
  -- a place that can be found takes the header or has a file already
  | ok home =>
    cases hget : d.get? home with
    | some entry => cases (ensureHeader_of_file hl hget).symm.trans h
    | none => cases (ensureHeader_of_none hl hget).symm.trans h

/-- **Starting the ledger** does no harm, and makes no directory. Something stands there afterwards,
and reading it says what it did. -/
theorem ensureHeader_step (ht : d.IsTree) {made : Bool}
    (h : l.ensureHeader.run d = (.ok made, d')) :
    Harmless l d d' ∧ d'.KeepsDirectories d ∧ l.readAll d' = l.readAll d
      ∧ ∃ home entry, d'.locateNew l.path = .ok home ∧ d'.get? home = some entry := by
  cases hl : d.locateNew l.path with
  | error other =>
    have hcreate : d.createNew l.path headerLine = .error other := by
      simp [createNew, hl, bind, Except.bind]
    have hne : other ≠ .alreadyExists := fun heq => locateNew_ne_alreadyExists (heq ▸ hl)
    rw [run_ensureHeader, hcreate] at h
    split at h
    next heq => cases heq
    next heq => exact absurd (Except.error.inj heq) hne
    next => cases h
  | ok home =>
    cases hget : d.get? home with
    | some entry =>
      cases (ensureHeader_of_file hl hget).symm.trans h
      exact ⟨.refl ht l, .refl d, rfl, home, entry, hl, hget⟩
    | none =>
      cases (ensureHeader_of_none hl hget).symm.trans h
      have hnot := ne_directory_of_none hget
      have hkeeps := (extends_put hget (.file (.bytes headerLine))).keepsDirectories
      have hput := get?_put_self d (.file (.bytes headerLine)) (ne_root_of_ne_directory hnot)
      have hlocate := locate_of_locateNew (ht.endsInName_of_locateNew hl hnot).1 hl
      refine ⟨harmless_put ht hl hget fun _ => .ledger, keepsDirectories_of_put hget _, ?_,
        home, _, locateNew_keeps hkeeps hl, hput⟩
      -- nothing was there to be read, and the header has no entries
      rw [readAll_of_header (locate_keeps hkeeps hlocate) hput, readAll_of_notFound]
      simp [find, hlocate, hget, bind, Except.bind]

/-- **Making directories** adds those that it comes by. -/
theorem makeDirectories_step (ht : d.IsTree) {p : Path} {result : Except DiskFault Unit}
    (h : d.makeDirectories p = (d', result))
    (hadd : ∀ (place : Location) (made : List String), d.get? place = none → made <+: p.names →
      checkPath p = .ok () → d'.descend (d'.start p) made = .ok place →
        Addition l d' place .directory) :
    Harmless l d d' := by
  have htree := ht.makeDirectories p
  have hext := makeDirectories_extends d p
  rw [h] at htree hext
  refine ⟨htree, hext, ?_⟩
  intro place entry hnone hget
  obtain ⟨rfl, hcheck, made, hmade, hplace⟩ :=
    ht.makeDirectories_adds hnone (by rw [h]; exact hget)
  rw [h] at hplace
  exact hadd place made hnone hmade hcheck hplace

/-- Making the directory of a ledger adds directories on the way to it, also if it fails. -/
theorem makeParent_step (ht : d.IsTree) (l : Ledger) : Harmless l d (l.makeParent d).1 := by
  unfold makeParent
  split
  next directory hparent =>
    exact makeDirectories_step ht rfl fun _ _ _ hmade _ hplace => .parent hparent hmade hplace
  next => exact .refl ht l

/-- Making the directory of archives adds it, or directories on the way to the ledger, also if it
fails. -/
theorem makeArchive_step (ht : d.IsTree) {result : Except DiskFault Unit}
    (h : d.makeDirectories l.archiveDirectory = (d', result)) : Harmless l d d' := by
  have harchive : IsName "archive" := ⟨by decide, by decide, by decide, by decide⟩
  refine makeDirectories_step ht h fun place made hnone hmade hcheck hplace => ?_
  have hext := makeDirectories_extends d l.archiveDirectory
  rw [h] at hext
  -- the directory of archives itself, or one on the way to the ledger
  obtain ⟨front, hnames, hslash, hfront⟩ : ∃ front, l.archiveDirectory.names = front ++ ["archive"]
      ∧ l.archiveDirectory.endsWithSlash = false
      ∧ (made <+: front → Addition l d' place .directory) := by
    unfold archiveDirectory at hplace ⊢
    cases hparent : l.path.parent? with
    | some directory =>
      refine ⟨directory.names, names_join directory harchive, endsWithSlash_join directory harchive,
        fun hmade => .parent hparent hmade ?_⟩
      rw [hparent] at hplace
      rwa [start, isAbsolute_join directory harchive] at hplace
    | none =>
      refine ⟨[], by decide, by decide, fun hmade => ?_⟩
      -- where the walk starts stood before
      rw [hparent, List.prefix_nil.mp hmade, start_keeps hext.keepsDirectories] at hplace
      cases hplace
      rw [ht.start_isDirectory] at hnone
      cases hnone
  rw [hnames] at hmade
  rcases List.prefix_concat_iff.mp hmade with rfl | hmade
  · refine .archive (locate_ok_iff.mpr ⟨hcheck, ?_⟩)
    rw [hnames, hslash]
    simpa using hplace
  · exact hfront hmade

/-! ## After the renaming -/

/-- A directory stands at the path of a ledger, and the path leads through it or what it holds. -/
def LoopsBack (l : Ledger) (d : Disk) : Prop :=
  ∃ home, d.locate l.path = .ok home ∧ d.get? home = some .directory
    ∧ l.path.endsInName = true
    ∧ ∃ stop ∈ (d.start l.path).stops l.path.names.dropLast, home.leadsTo stop = true

/-- Only a path that goes up can lead through what stands at it. -/
theorem LoopsBack.goes_up (h : l.LoopsBack d) : ".." ∈ l.path.names := by
  obtain ⟨home, hl, _, hends, stop, hstop, hthrough⟩ := h
  by_cases hup : ".." ∈ l.path.names
  · exact hup
  exfalso
  rcases List.eq_nil_or_concat l.path.names with hnil | ⟨init, name, hnames⟩
  · rw [endsInName, hnil] at hends
    cases hends
  rw [List.concat_eq_append] at hnames
  rw [hnames, List.dropLast_concat] at hstop
  have hstop := Location.leadsTo_walk (fun hmem => hup (by simp [hnames, hmem])) hstop
  -- the place of the path is one name further than its last stop
  have hhome := (stops_of_descend (locate_ok_iff.mp hl).2).1
  have hname : name ≠ "." ∧ name ≠ ".." := by simpa [endsInName, hnames] using hends
  change home = (d.start l.path).walk (l.path.names ++ l.path.ending) at hhome
  rw [Location.walk_append, Location.walk_stay (stay_ending l.path), hnames,
    Location.walk_append] at hhome
  change home = ((d.start l.path).walk init).step name at hhome
  rw [Location.step, if_neg hname.1, if_neg hname.2] at hhome
  have hlen := (List.isPrefixOf_iff_prefix.mp (Location.leadsTo_trans hthrough hstop)).length_le
  rw [hhome, Location.names_child, List.length_append, List.length_singleton] at hlen
  omega

/-- **Once the ledger is moved, its path leads where it did.** -/
theorem locateNew_after_rename {archive : Path} (ht : d.IsTree)
    (hl : d.locateNew l.path = .ok home) (hget : d.get? home = some entry)
    (hfree : d.has archive = false) (hloop : ¬l.LoopsBack d)
    (h : d.rename l.path archive = .ok d') : d'.locateNew l.path = .ok home := by
  have hends := endsInName_of_rename h
  obtain ⟨hcheck, hdescend, hslash⟩ := locateNew_ok_iff.mp hl
  have hslash' : l.path.endsWithSlash = false := by simpa [hends] using hslash
  have hlocate := locate_of_locateNew hslash' hl
  cases entry with
  | file content =>
    obtain ⟨place, hplace, hnot, rfl⟩ := rename_file_ok hlocate hget h
    have herase := ht.keepsBut_erase_file hget
    have hkeep := herase.keepsDirectories (ne_directory_of_file hget)
    have hvacant : (d.erase home).get? place ≠ some .directory := by
      rw [ht.get?_erase_file hget]
      split
      · simp
      · exact hnot
    have hput := (keepsBut_put (d.erase home) place (.file content)).keepsDirectories hvacant
    exact locateNew_keeps (hkeep.trans hput) hl
  | directory =>
    obtain ⟨place, hnone, rfl⟩ := rename_directory_ok hlocate hget hfree h
    obtain ⟨init, name, hnames, hname, _⟩ := names_of_endsInName hslash' hends
    rw [hnames] at hdescend
    obtain ⟨parent, hparent, hlast⟩ := descend_append_ok_iff.mp hdescend
    obtain ⟨hdirectory, hleads⟩ := descend_singleton_ok_iff.mp hlast
    obtain ⟨hwalk, hstops⟩ := stops_of_descend hparent
    -- what the path comes by is not moved, and nothing is moved there
    have hsame (stop : Location) (hstop : stop ∈ (d.start l.path).stops init) :
        (d.move home place).get? stop = d.get? stop := by
      have hstands : d.get? stop = some .directory := by
        rcases hstops stop hstop with rfl | hstands
        · exact hdirectory
        · exact hstands
      apply get?_move_of_not_leadsTo
      · rw [Bool.eq_false_iff]
        intro hthrough
        refine hloop ⟨home, hlocate, hget, hends, stop, ?_, hthrough⟩
        rwa [hnames, List.dropLast_concat]
      · rw [Bool.eq_false_iff]
        intro hthere
        by_cases heq : stop = place
        · rw [heq, hnone] at hstands
          cases hstands
        · rw [ht.get?_below (ne_directory_of_none hnone) hthere heq] at hstands
          cases hstands
    have hparent' : (d.move home place).descend (d.start l.path) init = .ok parent := by
      rw [descend_congr hsame, hparent]
    have hdirectory' : (d.move home place).get? parent = some .directory := by
      rw [hsame parent (hwalk ▸ Location.walk_mem_stops _ _), hdirectory]
    refine locateNew_ok_iff.mpr ⟨hcheck, ?_, hslash⟩
    rw [hnames]
    exact descend_append_ok_iff.mpr
      ⟨parent, hparent', descend_singleton_ok_iff.mpr ⟨hdirectory', hleads⟩⟩

/-- A ledger that loops back did so on a disk with the same directories. -/
theorem LoopsBack.of_keeps (h : l.LoopsBack d') (hk : d'.KeepsDirectories d) : l.LoopsBack d := by
  obtain ⟨home, hl, hget, hends, stop, hstop, hthrough⟩ := h
  rw [← start_keeps hk] at hstop
  exact ⟨home, locate_keeps hk hl, hk.directory hget, hends, stop, hstop, hthrough⟩

/-- What stood at the path before decides whether it loops back. -/
theorem LoopsBack.of_extends (h : l.LoopsBack d') (hl : d.locateNew l.path = .ok home)
    (hget : d.get? home = some entry) (hext : d.Extends d') : l.LoopsBack d := by
  obtain ⟨home', hl', hget', hends, hthrough⟩ := h
  have hslash : l.path.endsWithSlash = false := by simpa [hends] using (locateNew_ok_iff.mp hl).2.2
  have hlocate := locate_of_locateNew hslash hl
  obtain rfl : home = home' :=
    Except.ok.inj ((locate_keeps hext.keepsDirectories hlocate).symm.trans hl')
  obtain rfl : entry = .directory := Option.some.inj ((hext.entry hget).symm.trans hget')
  rw [start_keeps hext.keepsDirectories] at hthrough
  exact ⟨home, hlocate, hget, hends, hthrough⟩

/-! ## The operations -/

/-- **An append that fails** does no harm: it has taken the lock, and perhaps started the ledger. -/
theorem append_error (ht : d.IsTree) {e : LogEntry}
    (h : (l.append e).run d = (.error fault, d')) :
    Harmless l d d' ∧ l.readAll d' = l.readAll d := by
  unfold append at h
  rcases DiskM.run_bind_error h with h | ⟨_, d₁, hlock, h⟩
  · obtain ⟨hharm, _, hread⟩ := lock_step ht h
    exact ⟨hharm, hread⟩
  obtain ⟨hharm₁, _, hread₁⟩ := lock_step ht hlock
  rcases DiskM.run_bind_error h with h | ⟨_, d₂, hheader, h⟩
  · obtain ⟨rfl, _⟩ := ensureHeader_error h
    exact ⟨hharm₁, hread₁⟩
  obtain ⟨hharm₂, _, hread₂, _⟩ := ensureHeader_step hharm₁.isTree hheader
  -- the bytes were not added, and reading says what it did when the ledger was started
  rw [DiskM.run_change_error h]
  exact ⟨hharm₁.trans hharm₂, hread₂.trans hread₁⟩

/-- **A rotation that fails** does no harm, unless the ledger loops back. The step that would, the
renaming, is followed by starting the ledger, and this succeeds. -/
theorem rotate_error (ht : d.IsTree) {year : Int} {month : Nat} (hloop : ¬l.LoopsBack d)
    (h : (l.rotate year month).run d = (.error fault, d')) :
    Harmless l d d' ∧ l.readAll d' = l.readAll d := by
  unfold rotate at h
  rcases DiskM.run_bind_error h with h | ⟨_, d₁, hlock, h⟩
  · obtain ⟨hharm, _, hread⟩ := lock_step ht h
    exact ⟨hharm, hread⟩
  obtain ⟨hharm₁, hkeep₁, hread₁⟩ := lock_step ht hlock
  rcases DiskM.run_bind_error h with h | ⟨_, d₂, hheader, h⟩
  · obtain ⟨rfl, _⟩ := ensureHeader_error h
    exact ⟨hharm₁, hread₁⟩
  obtain ⟨hharm₂, hkeep₂, hread₂, home, entry, hl₂, hget₂⟩ :=
    ensureHeader_step hharm₁.isTree hheader
  -- from here on something stands at the path, and reading it says the same
  have hharm := hharm₁.trans hharm₂
  have hread (d₃ : Disk) (hext : d₂.Extends d₃) : l.readAll d₃ = l.readAll d := by
    rw [← hread₁, ← hread₂]
    refine readAll_congr (find_keeps hext ?_)
    intro hfind
    have hhas := hharm.isTree.has_of_locateNew hl₂ hget₂
    rw [has, hfind] at hhas
    cases hhas
  rcases DiskM.run_bind_error h with h | ⟨_, d₃, hmake, h⟩
  · rw [DiskM.makeDirectories, DiskM.run_attempt] at h
    have hharm₃ := makeArchive_step hharm.isTree (Prod.ext (Prod.mk.inj h).2 (Prod.mk.inj h).1)
    exact ⟨hharm.trans hharm₃, hread d' hharm₃.stands⟩
  rw [DiskM.makeDirectories, DiskM.run_attempt] at hmake
  have hharm₃ := makeArchive_step hharm.isTree
    (Prod.ext (Prod.mk.inj hmake).2 (Prod.mk.inj hmake).1)
  rcases DiskM.run_bind_error h with h | ⟨_, d₄, hlook, h⟩
  · cases h
  cases hlook
  rcases DiskM.run_bind_error h with h | ⟨_, d₄, hrename, h⟩
  · rw [DiskM.run_change_error h]
    exact ⟨hharm.trans hharm₃, hread d₃ hharm₃.stands⟩
  -- the new ledger can be started where the old one was
  exfalso
  have hrenamed := DiskM.run_change_ok hrename
  obtain ⟨n, _, harchive, hfree, _⟩ := freeArchive_spec l d₃ year month
  rw [← harchive] at hfree
  have hloop₃ : ¬l.LoopsBack d₃ := fun hloops =>
    hloop ((hloops.of_extends hl₂ hget₂ hharm₃.stands).of_keeps (hkeep₂.trans hkeep₁))
  have hl₃ := locateNew_keeps hharm₃.stands.keepsDirectories hl₂
  have hl₄ := locateNew_after_rename hharm₃.isTree hl₃ (hharm₃.stands.entry hget₂) hfree hloop₃
    hrenamed
  rcases DiskM.run_bind_error h with h | ⟨_, d₅, _, h⟩
  · cases hget₄ : d₄.get? home with
    | none => cases (ensureHeader_of_none hl₄ hget₄).symm.trans h
    | some there => cases (ensureHeader_of_file hl₄ hget₄).symm.trans h
  · cases h

/-- Where directories could not be made no path leads on, so nothing is started there. -/
theorem makeParent_error (ht : d.IsTree) (h : l.makeParent d = (d', .error fault)) :
    d' = d ∨ ∀ place, d'.locateNew l.path ≠ .ok place := by
  unfold makeParent at h
  split at h
  next directory hparent =>
    have hext := makeDirectories_extends d directory
    rw [h] at hext
    unfold makeDirectories at h
    split at h
    · cases h
    · split at h
      · cases h
        exact .inl rfl
      next hcheck =>
        right
        intro place hl
        -- the walk that failed is the one on which the ledger would be found
        have hmakes := ht.makes directory.names (ht.start_isDirectory directory)
        rw [h] at hmakes
        obtain ⟨before, after, _, _, hnames⟩ := names_of_parent? hparent
        have hdescend := (locateNew_ok_iff.mp hl).2.1
        rw [start_keeps hext.keepsDirectories, start, ← isAbsolute_parent? hparent, hnames,
          List.append_assoc] at hdescend
        exact hmakes.not_descend rfl (by simp) hdescend
  next => cases h

/-- **Along plain names** directories are made only in front of nothing. -/
theorem find_makeParent (ht : d.IsTree) (hplain : Plain l.path.names)
    (hnot : ∀ place, (l.makeParent d).1.locateNew l.path ≠ .ok place) :
    (l.makeParent d).1.find l.path = d.find l.path ∨
      (l.makeParent d).1.find l.path = .error .notFound := by
  cases hcheck : checkPath l.path with
  | error other =>
    left
    simp [find, locate, hcheck, bind, Except.bind]
  | ok _ =>
  cases hparent : l.path.parent? with
  | none =>
    left
    rw [makeParent, hparent]
  | some directory =>
    have hmake : l.makeParent d = d.makeDirectories directory := by rw [makeParent, hparent]
    have hext := makeDirectories_extends d directory
    rw [hmake] at hnot ⊢
    generalize hd : d.makeDirectories directory = made at hnot hext ⊢
    obtain ⟨d₁, result⟩ := made
    unfold makeDirectories at hd
    split at hd
    · cases hd
      exact .inl rfl
    · split at hd
      · cases hd
        exact .inl rfl
      · obtain ⟨before, after, hbefore, hafter, hnames⟩ := names_of_parent? hparent
        generalize String.ofList l.path.lastReversed.reverse = last at hnames
        have hplain' : Plain directory.names := by
          intro name hmem
          apply hplain
          rw [hnames]
          simp [hmem]
        have hlast := hplain last (by rw [hnames]; simp)
        have hmakes := ht.makes directory.names (ht.start_isDirectory directory)
        rw [hd] at hmakes
        refine (hmakes.plain ht hplain').imp (fun heq => by rw [heq]) ?_
        rintro ⟨_, place, hdescend, hplace, hbare⟩
        -- the walk along the path of the ledger comes to the last directory
        have hinit : d₁.descend (d₁.start l.path) (directory.names ++ before) = .ok place := by
          rw [start_keeps hext.keepsDirectories, start, ← isAbsolute_parent? hparent,
            ← start, descend_append_of_ok hdescend]
          exact descend_stay hplace hbefore
        by_cases hhere : last = "."
        · -- then the path of the ledger leads to that directory, and to a place
          exfalso
          have hstay : Stay (last :: after) := by
            intro name hmem
            rcases List.mem_cons.mp hmem with rfl | hmem
            · exact hhere
            · exact hafter name hmem
          refine hnot place (locateNew_ok_iff.mpr ⟨hcheck, ?_, ?_⟩)
          · rw [hnames, descend_append_of_ok hinit]
            exact descend_stay hplace hstay
          · have hend := hstay _ (List.getLast_mem (List.cons_ne_nil last after))
            simp only [endsInName, hnames, List.getLast?_append,
              List.getLast?_eq_some_getLast (List.cons_ne_nil last after), Option.some_or, hend]
            simp
        · exact hbare.find hplace hcheck hnames hinit hhere hlast.1 hlast.2

/-- **An opening that fails** does no harm. If nothing was there to be read, there may be a fault to
be read afterwards, but only along names that are not plain. -/
theorem prepare_error (ht : d.IsTree) (h : l.prepare.run d = (.error fault, d')) :
    Harmless l d d' ∧ (l.readAll d' = l.readAll d ∨
      ¬Plain l.path.names ∧ l.readAll d = .ok [] ∧ ∃ other, l.readAll d' = .error other) := by
  obtain ⟨rfl, hcases⟩ : d' = (l.makeParent d).1
      ∧ (d' = d ∨ ∀ place, d'.locateNew l.path ≠ .ok place) := by
    rw [run_prepare] at h
    rcases hmake : l.makeParent d with ⟨d₁, other | _⟩
    · rw [hmake] at h
      cases h
      exact ⟨rfl, makeParent_error ht hmake⟩
    · rw [hmake] at h
      simp only at h
      split at h
      · cases h
      next heq =>
        cases h
        obtain ⟨rfl, hnot⟩ := ensureHeader_error heq
        exact ⟨rfl, .inr hnot⟩
  have hharm := makeParent_step ht l
  refine ⟨hharm, ?_⟩
  rcases hcases with hsame | hnot
  · rw [hsame]
    exact .inl rfl
  by_cases hmissing : d.find l.path = .error .notFound
  · rw [readAll_of_notFound hmissing]
    by_cases hstill : (l.makeParent d).1.find l.path = .error .notFound
    · exact .inl (readAll_of_notFound hstill)
    refine .inr ⟨fun hplain => ?_, rfl, ?_⟩
    · rcases find_makeParent ht hplain hnot with hsame | hgone
      · exact hstill (hsame.trans hmissing)
      · exact hstill hgone
    cases hfind : (l.makeParent d).1.find l.path with
    | error other =>
      have hother : other ≠ .notFound := fun heq => hstill (heq ▸ hfind)
      exact ⟨other, readAll_of_fault hfind hother⟩
    | ok entry =>
      cases entry with
      | directory => exact ⟨.isDirectory, by simp [readAll, readText, hfind, bind, Except.bind]⟩
      | file content =>
        -- the path would lead to the place of that file
        obtain ⟨place, hl, hget⟩ := find_ok_iff.mp hfind
        have hslash := noSlash_of_locate hl (ne_directory_of_file hget)
        exact absurd (locateNew_of_locate hslash hl) (hnot place)
  · exact .inl (readAll_congr (find_keeps hharm.stands hmissing))

/-! ## All operations -/

/-- An operation on a ledger that may change the disk. -/
inductive Operation where
  | prepare
  | append (e : LogEntry)
  | rotate (day : Time.Date)

/-- What an operation does. -/
def Operation.perform (l : Ledger) : Operation → DiskM Unit
  | .prepare => l.prepare
  | .append e => l.append e
  | .rotate day => do let _ ← l.rotate day.year day.month

/-- **A failure changes nothing that counts.** Let an operation fail, and let it be no rotation of a
ledger that loops back. Then

* every file is still at every path where it was, with what it held, and whatever stood still
  stands;
* whatever stands where nothing stood is a directory on the way to the ledger, its lock, its
  directory of archives, or the ledger with its header;
* reading the ledger says what it did, entries or fault. Only if opening it failed, and its path
  goes up or has a name that is too long, there may be a fault where nothing was there to be
  read. -/
theorem failure_harmless (l : Ledger) {d d' : Disk} (ht : d.IsTree) (op : Operation)
    {fault : DiskFault} (h : (op.perform l).run d = (.error fault, d'))
    (hloop : ∀ day, op = .rotate day → ¬l.LoopsBack d) :
    (∀ p content, d.file? p = some content → d'.file? p = some content)
      ∧ (∀ place entry, d.get? place = some entry → d'.get? place = some entry)
      ∧ (∀ place entry, d.get? place = none → d'.get? place = some entry →
          Addition l d' place entry)
      ∧ (l.readAll d' = l.readAll d ∨
          op = .prepare ∧ ¬Plain l.path.names ∧ l.readAll d = .ok []
            ∧ ∃ other, l.readAll d' = .error other) := by
  -- one kind of operation after another; only preparing may change what is read
  obtain ⟨hharm, hread⟩ : Harmless l d d' ∧ (l.readAll d' = l.readAll d ∨
      op = .prepare ∧ ¬Plain l.path.names ∧ l.readAll d = .ok []
        ∧ ∃ other, l.readAll d' = .error other) := by
    cases op with
    | prepare =>
      obtain ⟨hharm, hread⟩ := prepare_error ht h
      exact ⟨hharm, hread.imp_right fun hfault => ⟨rfl, hfault⟩⟩
    | append e => exact (append_error ht h).imp_right .inl
    | rotate day =>
      rcases DiskM.run_bind_error h with h | ⟨_, d₁, _, h⟩
      · exact (rotate_error ht (hloop day rfl) h).imp_right .inl
      · cases h
  refine ⟨fun p content hfile => ?_, fun _ _ => hharm.stands.entry, fun _ _ => hharm.added, hread⟩
  obtain ⟨place, hl, hget⟩ := file?_eq_some_iff.mp hfile
  exact file?_eq_some_iff.mpr
    ⟨place, locate_keeps hharm.stands.keepsDirectories hl, hharm.stands.entry hget⟩

/-- A disk with one file where the directory of archives would be. -/
def blockedDisk : Disk :=
  Disk.put ⟨[], .root⟩ (.ofNames ["archive"]) (.file (.bytes (Bytes.ofText "kept")))

/-- The disk of the example is a tree. -/
theorem isTree_blockedDisk : blockedDisk.IsTree := by
  refine isTree_empty.put (get?_root _) ?_ _
  simp [get?, Location.ofNames, Location.root]

/-- A rotation that fails because a file is in the way of the directory of archives. -/
theorem failure_harmless_blocked :
    let l : Ledger := ⟨⟨"usage.csv"⟩⟩
    let op := Operation.rotate ⟨2024, 5, 1⟩
    ∃ after, blockedDisk.IsTree ∧ (∀ day, op = .rotate day → ¬l.LoopsBack blockedDisk)
      ∧ (op.perform l).run blockedDisk = (.error .alreadyExists, after)
      ∧ after.file? ⟨"archive"⟩ = some (.bytes (Bytes.ofText "kept"))
      ∧ l.readAll after = l.readAll blockedDisk := by
  intro l op
  -- the path does not go up, so it does not come back to itself
  have hloop : ∀ day, op = .rotate day → ¬l.LoopsBack blockedDisk :=
    fun _ _ hloops => absurd hloops.goes_up (by decide +kernel)
  have hresult : ((op.perform l).run blockedDisk).1 = .error .alreadyExists := by decide +kernel
  generalize hfail : (op.perform l).run blockedDisk = ended at hresult ⊢
  obtain ⟨result, after⟩ := ended
  obtain rfl : result = .error .alreadyExists := hresult
  obtain ⟨hfiles, _, _, hread⟩ := failure_harmless l isTree_blockedDisk op hfail hloop
  have hkept : blockedDisk.file? ⟨"archive"⟩ = some (.bytes (Bytes.ofText "kept")) :=
    file?_eq_some_iff.mpr ⟨.ofNames ["archive"], by decide +kernel, rfl⟩
  exact ⟨after, isTree_blockedDisk, hloop, rfl, hfiles _ _ hkept,
    hread.resolve_right fun hop => nomatch hop.1⟩

/-- A directory with a file in it. -/
def nestedDisk : Disk :=
  (Disk.put ⟨[], .root⟩ (.ofNames ["usage"]) .directory).put (.ofNames ["usage", "f.txt"])
    (.file (.bytes (Bytes.ofText "kept")))

theorem isTree_nestedDisk : nestedDisk.IsTree := by
  have hone : (Disk.put ⟨[], .root⟩ (.ofNames ["usage"]) .directory).IsTree := by
    refine isTree_empty.put (get?_root _) ?_ _
    simp [get?, Location.ofNames, Location.root]
  refine hone.put rfl ?_ _
  simp [get?, put, Location.ofNames, Location.root]

/-- Both exceptions are real. A directory that its own path leads through takes its files away when
it is rotated, and then the ledger cannot be started again. Opening a ledger makes a directory that
its path goes through and up again, to a file, and stops there. -/
theorem failure_harmful :
    (let l : Ledger := ⟨⟨"usage/../usage"⟩⟩
      let after := ((Operation.rotate ⟨2024, 5, 1⟩).perform l).run nestedDisk
      nestedDisk.IsTree ∧ after.1 = .error .notFound
        ∧ nestedDisk.file? ⟨"usage/f.txt"⟩ = some (.bytes (Bytes.ofText "kept"))
        ∧ after.2.file? ⟨"usage/f.txt"⟩ = none)
    ∧ (let l : Ledger := ⟨⟨"new/../archive/usage.csv"⟩⟩
      let after := (Operation.prepare.perform l).run blockedDisk
      blockedDisk.IsTree ∧ after.1 = .error .alreadyExists
        ∧ l.readAll blockedDisk = .ok [] ∧ l.readAll after.2 = .error .notDirectory) := by
  constructor
  · have hkept : nestedDisk.file? ⟨"usage/f.txt"⟩ = some (.bytes (Bytes.ofText "kept")) :=
      file?_eq_some_iff.mpr ⟨.ofNames ["usage", "f.txt"], by decide +kernel, rfl⟩
    exact ⟨isTree_nestedDisk, by decide +kernel, hkept,
      Option.isNone_iff_eq_none.mp (by decide +kernel)⟩
  · exact ⟨isTree_blockedDisk, by decide +kernel, by decide +kernel, by decide +kernel⟩

end Ledger

end QuotaWatch
