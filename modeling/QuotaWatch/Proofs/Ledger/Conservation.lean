import QuotaWatch.Proofs.Ledger.File
import QuotaWatch.Proofs.Ledger.Table
import QuotaWatch.Time.Calendar

/-!
# Nothing is lost in a ledger

A `History` is what happens to a ledger from the outside: handles are opened, entries are appended
and the ledger is rotated through any of them, and its file is deleted behind their backs. Whatever
succeeds is noted as an `Event`.

* **`conservation`**: in every history that starts where nothing stands, the file begins with its
  header, every archive holds what the ledger held when it was rotated, and the archives and the
  ledger, read one after the other, give the entries that were appended, without those that the
  ledger held when it was deleted (`survivors`).

`Books` is the same account kept step by step. `Kept` says that the disk agrees with it; each step
keeps that (`Kept.step`), and the first handle that is opened establishes it (`Vacant.open`).
-/

namespace QuotaWatch

open Disk Time

namespace Ledger

/-! ## Histories -/

/-- What is done to a ledger. Handles are numbered in the order in which they are opened. -/
inductive Act where
  | openHandle
  | append (handle : Nat) (e : LogEntry)
  | rotate (handle : Nat) (day : Date)
  | readAll (handle : Nat)
  /-- The file is deleted from outside. -/
  | deleteFile

/-- What was done, if it succeeded and changed what is kept. -/
inductive Event where
  | appended (e : LogEntry)
  /-- The ledger was rotated while it held some bytes. -/
  | archived (archive : Path) (held : Bytes)
  | deleted

/-- The disk after some acts, how many handles there are, and what was done, in order. -/
structure History where
  disk : Disk
  handles : Nat
  events : List Event

namespace History

/-- Does an operation. What it changed before it failed stays changed, but is not noted. -/
def perform {α : Type} (h : History) (op : DiskM α) (note : α → History → History) : History :=
  match op.run h.disk with
  | (.ok a, d) => note a { h with disk := d }
  | (.error _, d) => { h with disk := d }

/-- Notes an event. -/
def note (event : Event) (h : History) : History := { h with events := h.events ++ [event] }

/-- The bytes of a ledger, or those that it is made with. -/
def heldBytes (l : Ledger) (d : Disk) : Bytes :=
  match d.file? l.path with
  | some (.bytes b) => b
  | _ => headerLine

/-- One act. A handle that has not been opened does nothing. -/
def step (l : Ledger) (h : History) : Act → History
  | .openHandle => h.perform l.prepare fun _ h => { h with handles := h.handles + 1 }
  | .append handle e =>
    if handle < h.handles then h.perform (l.append e) fun _ => note (.appended e) else h
  | .rotate handle day =>
    if handle < h.handles then
      h.perform (l.rotate day.year day.month) fun archive =>
        note (.archived archive (heldBytes l h.disk))
    else h
  | .readAll _ => h
  | .deleteFile =>
    match h.disk.file? l.path with
    | some _ => h.perform (.attempt fun d => d.remove l.path) fun _ => note .deleted
    | none => h

/-- The history of some acts that start with a disk. -/
def ofActs (l : Ledger) (d : Disk) (acts : List Act) : History := acts.foldl (step l) ⟨d, 0, []⟩

/-- The archives with what they were made of, in the order of the rotations. -/
def archives (events : List Event) : List (Path × Bytes) :=
  events.filterMap fun
    | .archived archive held => some (archive, held)
    | _ => none

/-- The entries of all archives, and then those of the ledger. -/
def readBack (l : Ledger) (h : History) : Except DiskFault (List LogEntry) := do
  let archived ← (archives h.events).mapM fun archive => (Ledger.mk archive.1).readAll h.disk
  let current ← l.readAll h.disk
  return archived.flatten ++ current

/-- An operation takes no event back. -/
theorem events_perform {α : Type} {h : History} {op : DiskM α} {f : α → History → History}
    (hf : ∀ a h, h.events <+: (f a h).events) : h.events <+: (h.perform op f).events := by
  rw [perform]
  split
  next a d _ => exact hf a { h with disk := d }
  next => exact List.prefix_rfl

theorem events_note (event : Event) (h : History) : h.events <+: (note event h).events :=
  List.prefix_append _ _

/-- What is noted stays noted. -/
theorem events_step (l : Ledger) (h : History) (act : Act) :
    h.events <+: (h.step l act).events := by
  cases act with
  | openHandle => exact events_perform fun _ _ => List.prefix_rfl
  | append handle e =>
    rw [step]
    split
    · exact events_perform fun _ => events_note _
    · exact List.prefix_rfl
  | rotate handle day =>
    rw [step]
    split
    · exact events_perform fun archive => events_note _
    · exact List.prefix_rfl
  | readAll handle => exact List.prefix_rfl
  | deleteFile =>
    rw [step]
    split
    · exact events_perform fun _ => events_note _
    · exact List.prefix_rfl

theorem events_foldl (l : Ledger) (more : List Act) :
    ∀ h : History, h.events <+: (more.foldl (step l) h).events := by
  induction more with
  | nil => exact fun _ => List.prefix_rfl
  | cons act rest ih => exact fun h => (events_step l h act).trans (ih _)

/-- More acts only add events. So an archive that was noted once is one of the later history too. -/
theorem events_ofActs_append (l : Ledger) (d : Disk) (acts more : List Act) :
    (ofActs l d acts).events <+: (ofActs l d (acts ++ more)).events := by
  rw [ofActs, ofActs, List.foldl_append]
  exact events_foldl l more _

end History

/-! ## What survives -/

/-- Whether what a ledger holds is deleted before a rotation takes it away. -/
def lost : List Event → Bool
  | [] => false
  | .appended _ :: rest => lost rest
  | .archived _ _ :: _ => false
  | .deleted :: _ => true

/-- The entries that were appended, without those that were deleted with the ledger. -/
def survivors : List Event → List LogEntry
  | [] => []
  | .appended e :: rest => if lost rest then survivors rest else e :: survivors rest
  | .archived _ _ :: rest => survivors rest
  | .deleted :: rest => survivors rest

/-- The entries of each archive, and those that the ledger holds. -/
structure Books where
  archived : List (List LogEntry)
  current : List LogEntry

namespace Books

/-- Keeps the books after an event. -/
def add (b : Books) : Event → Books
  | .appended e => { b with current := b.current ++ [e] }
  | .archived _ _ => ⟨b.archived ++ [b.current], []⟩
  | .deleted => { b with current := [] }

/-- The books after some events. -/
def ofEvents (events : List Event) : Books := events.foldl add ⟨[], []⟩

/-- The books are kept event by event. -/
theorem ofEvents_concat (events : List Event) (event : Event) :
    ofEvents (events ++ [event]) = (ofEvents events).add event := by
  simp [ofEvents]

/-- What is in the books already stays, but for the ledger if it is deleted next. -/
theorem foldl_add (events : List Event) :
    ∀ b : Books, (events.foldl add b).archived.flatten ++ (events.foldl add b).current
      = b.archived.flatten ++ (if lost events then [] else b.current) ++ survivors events := by
  induction events with
  | nil => simp [lost, survivors]
  | cons event rest ih =>
    intro b
    rw [List.foldl_cons, ih]
    -- a deletion loses what is current, an archive keeps it
    cases event with
    | appended e => cases hlost : lost rest <;> simp [add, lost, survivors, hlost]
    | archived archive held => cases hlost : lost rest <;> simp [add, lost, survivors]
    | deleted => simp [add, lost, survivors]

/-- **The books hold what survives.** -/
theorem survivors_eq (events : List Event) :
    survivors events = (ofEvents events).archived.flatten ++ (ofEvents events).current := by
  rw [ofEvents, foldl_add]
  simp

end Books

/-! ## Reading what is there -/

variable {l : Ledger} {d d' : Disk} {home : Location} {entries : List LogEntry}

/-- A file with the bytes of a ledger is read as its entries. -/
theorem readAll_of_file (h : d.file? l.path = some (.bytes (ledgerBytes entries))) :
    l.readAll d = .ok entries := by
  rw [readAll_of_text h, readEntries_ledgerText]

/-- A row at the end of a ledger is one more entry. -/
theorem grow_ledgerBytes (entries : List LogEntry) (e : LogEntry) :
    (Content.bytes (ledgerBytes entries)).grow (Bytes.ofText e.row)
      = .bytes (ledgerBytes (entries ++ [e])) := by
  rw [ledgerBytes_concat, Content.grow]

/-- A settled ledger that was deleted reads like one without entries. -/
theorem Settled.readAll (h : Settled l d home)
    (hstands : standing d home = .bytes (ledgerBytes entries)) :
    l.readAll d = .ok entries := by
  rcases h.get?_cases with hnone | ⟨content, hfile⟩
  · -- what is not there reads like the header alone, and so do no other entries
    have hempty : entries = [] := by
      rw [standing_of_none hnone, ← ledgerBytes_nil] at hstands
      exact (ledgerBytes_injective (Content.bytes.inj hstands)).symm
    simp [Ledger.readAll, readText, find, h.locate, hnone, hempty, bind, Except.bind]
  · rw [standing_of_file hfile] at hstands
    exact readAll_of_file (file?_eq_some_iff.mpr ⟨home, h.locate, hstands ▸ hfile⟩)

/-- What a history notes as held is what stands at the place of the ledger. -/
theorem Settled.heldBytes (h : Settled l d home) {b : Bytes}
    (hstands : standing d home = .bytes b) : History.heldBytes l d = b := by
  rw [h.standing_eq] at hstands
  unfold History.heldBytes
  cases hfile : d.file? l.path with
  | none =>
    rw [hfile] at hstands
    exact Content.bytes.inj hstands
  | some content =>
    rw [hfile, Option.getD_some] at hstands
    rw [hstands]

/-! ## Before the first handle -/

/-- Nothing stands at the path of a ledger, not even after its directory has been made. -/
def Vacant (l : Ledger) (d : Disk) : Prop :=
  ∃ d', l.makeParent d = (d', .ok ()) ∧ d'.has l.path = false

/-- What stands before the directory of a ledger has been made still stands after. -/
theorem Vacant.file?_eq_none (hv : Vacant l d) : d.file? l.path = none := by
  obtain ⟨d', hmake, hhas⟩ := hv
  have hext : d.Extends d' := by simpa [hmake] using makeParent_extends l d
  cases hfile : d.file? l.path with
  | none => rfl
  | some content =>
    obtain ⟨place, hl, hget⟩ := file?_eq_some_iff.mp hfile
    rw [has_iff.mpr ⟨place, _, locate_keeps hext.keepsDirectories hl, hext.entry hget⟩] at hhas
    cases hhas

/-- **Opening the first handle**: it fails and still nothing stands there, or the ledger is settled
and holds its header. -/
theorem Vacant.open (hv : Vacant l d) (ht : d.IsTree) :
    (∃ fault d', l.prepare.run d = (.error fault, d') ∧ Vacant l d' ∧ d'.IsTree) ∨
      ∃ home d', l.prepare.run d = (.ok (), d') ∧ Settled l d' home
        ∧ d'.get? home = some (.file (.bytes headerLine)) := by
  obtain ⟨d', hmake, hhas⟩ := hv
  have ht' : d'.IsTree := by simpa [hmake] using isTree_makeParent ht l
  have hagain := makeParent_again hmake (.refl d')
  cases hcreate : d'.createNew l.path headerLine with
  | error fault =>
    refine .inl ⟨fault, d', ?_, ⟨d', hagain, hhas⟩, ht'⟩
    -- nothing can be in the way: it would exist
    have hfault : fault ≠ .alreadyExists := by
      rintro rfl
      obtain ⟨home, entry, hl, hget⟩ := createNew_alreadyExists_iff.mp hcreate
      rw [ht'.has_of_locateNew hl hget] at hhas
      cases hhas
    simp only [run_prepare, hmake, run_ensureHeader, hcreate]
  | ok d'' =>
    obtain ⟨home, hl, hnone, rfl⟩ := createNew_ok_iff.mp hcreate
    have hdirectory := ne_directory_of_none hnone
    obtain ⟨hslash, hends⟩ := ht'.endsInName_of_locateNew hl hdirectory
    have hsettled : Settled l d' home := ⟨ht', hl, hslash, hends, hagain, hdirectory⟩
    obtain ⟨d'', hrun, _, hget, hsettled'⟩ := hsettled.prepare
    rw [standing_of_none hnone] at hget
    refine .inr ⟨home, d'', ?_, hsettled', hget⟩
    rw [← hrun, run_prepare, run_prepare, hmake, hagain]

/-! ## The disk agrees with the books -/

/-- The ledger is at its place, and with its archives it holds what the books say. -/
structure Kept (l : Ledger) (h : History) (home : Location) : Prop where
  settled : Settled l h.disk home
  holds : standing h.disk home = .bytes (ledgerBytes (Books.ofEvents h.events).current)
  stands : ∀ archive ∈ History.archives h.events, ∃ place, place ≠ home
    ∧ h.disk.locate archive.1 = .ok place
    ∧ h.disk.get? place = some (.file (.bytes archive.2))
  texts : (History.archives h.events).map (·.2)
    = (Books.ofEvents h.events).archived.map ledgerBytes

/-- Archives come in the order of the events that made them. -/
theorem archives_concat (events : List Event) (event : Event) :
    History.archives (events ++ [event]) = History.archives events ++ History.archives [event] := by
  simp [History.archives]

/-- Archives are not at the place of the ledger, so no change of the ledger reaches them. -/
theorem Kept.stands_keep {h : History} (hk : Kept l h home) (hbut : KeepsBut home h.disk d')
    {archive : Path × Bytes} (hmem : archive ∈ History.archives h.events) :
    ∃ place, place ≠ home ∧ d'.locate archive.1 = .ok place
      ∧ d'.get? place = some (.file (.bytes archive.2)) := by
  obtain ⟨place, hne, hl, hget⟩ := hk.stands archive hmem
  exact ⟨place, hne, locate_keeps (hbut.keepsDirectories hk.settled.notDirectory) hl,
    hbut.entry hne hget⟩

/-- Nothing is noted, and the ledger holds what it did. -/
theorem Kept.unnoted {h : History} (hk : Kept l h home) (hbut : KeepsBut home h.disk d')
    (hs : Settled l d' home) (hstands : standing d' home = standing h.disk home) (handles : Nat) :
    Kept l ⟨d', handles, h.events⟩ home where
  settled := hs
  holds := hstands.trans hk.holds
  stands := fun _ hmem => hk.stands_keep hbut hmem
  texts := hk.texts

/-- An event is noted that leaves the ledger with what the books then say. If it made an archive,
that holds what the ledger did. -/
theorem Kept.noted {h : History} (hk : Kept l h home) (hbut : KeepsBut home h.disk d')
    (hs : Settled l d' home) {event : Event}
    (hholds : standing d' home
      = .bytes (ledgerBytes ((Books.ofEvents h.events).add event).current))
    (hnew : ∀ archive held, event = .archived archive held →
      held = ledgerBytes (Books.ofEvents h.events).current
        ∧ ∃ place, place ≠ home ∧ d'.locate archive = .ok place
          ∧ d'.get? place = some (.file (.bytes held))) :
    Kept l (History.note event { h with disk := d' }) home where
  settled := hs
  holds := by rw [History.note, Books.ofEvents_concat, hholds]
  stands := by
    intro archive hmem
    rw [History.note, archives_concat, List.mem_append] at hmem
    rcases hmem with hmem | hmem
    · exact hk.stands_keep hbut hmem
    · -- only what is archived now is new among the archives
      cases event with
      | archived made held =>
        obtain rfl : archive = (made, held) := by simpa [History.archives] using hmem
        exact (hnew made held rfl).2
      | _ => simp [History.archives] at hmem
  texts := by
    rw [History.note, archives_concat, Books.ofEvents_concat, List.map_append, hk.texts]
    cases event with
    | archived made held => simp [History.archives, Books.add, (hnew made held rfl).1]
    | _ => simp [History.archives, Books.add]

/-- Opening one more handle finds the ledger as it is, or makes it again if it was deleted. -/
theorem Kept.prepare {h : History} (hk : Kept l h home) :
    Kept l (h.step l .openHandle) home := by
  obtain ⟨d', hrun, hext, hget, hs⟩ := hk.settled.prepare
  simp only [History.step, History.perform, hrun]
  exact hk.unnoted (hext.keepsBut home) hs (standing_of_file hget) _

/-- An entry that is appended is one more in the books, and a failure leaves both as they were. -/
theorem Kept.append {h : History} (hk : Kept l h home) (handle : Nat) (e : LogEntry) :
    Kept l (h.step l (.append handle e)) home := by
  rw [History.step]
  split
  · rcases hk.settled.append e with ⟨fault, hrun⟩ | ⟨d', hrun, hbut, hs, hget⟩
    · simp only [History.perform, hrun]
      exact hk
    · simp only [History.perform, hrun]
      refine hk.noted hbut hs ?_ (by rintro _ _ ⟨⟩)
      rw [standing_of_file hget, hk.holds, grow_ledgerBytes, Books.add]
  · exact hk

/-- A rotation that succeeds closes the current book: what the ledger held is what the archive
holds. One that fails keeps what the ledger holds. -/
theorem Kept.rotate {h : History} (hk : Kept l h home) (handle : Nat) (day : Date) :
    Kept l (h.step l (.rotate handle day)) home := by
  rw [History.step]
  split
  · rcases hk.settled.rotate day.year day.month with
      ⟨fault, d', hrun, hbut, hs, hstands⟩ |
      ⟨archive, place, d', hrun, hbut, hs, hget, hne, hl, harchive⟩
    · simp only [History.perform, hrun]
      exact hk.unnoted hbut hs hstands _
    · -- what is archived is what was held, and the new file has a header only
      have hheld := hk.settled.heldBytes hk.holds
      simp only [History.perform, hrun, hheld]
      refine hk.noted hbut hs ?_ ?_
      · rw [standing_of_file hget, ← ledgerBytes_nil, Books.add]
      · rintro _ _ ⟨⟩
        exact ⟨rfl, place, hne, hl, by rw [harchive, hk.holds]⟩
  · exact hk

/-- A deletion takes the current book away, and the archives stay. -/
theorem Kept.deleteFile {h : History} (hk : Kept l h home) :
    Kept l (h.step l .deleteFile) home := by
  rw [History.step]
  split
  next content hfile =>
    obtain ⟨place, hl, hget⟩ := file?_eq_some_iff.mp hfile
    -- the file that was found is the one at the place of the ledger
    cases hk.settled.locate.symm.trans hl
    obtain ⟨hremove, hbut, hs, hgone⟩ := hk.settled.delete hget
    simp only [History.perform, DiskM.run_attempt, hremove]
    refine hk.noted hbut hs ?_ (by rintro _ _ ⟨⟩)
    rw [standing_of_none hgone, ← ledgerBytes_nil, Books.add]
  next => exact hk

/-- **Each act keeps the disk in agreement with the books.** This is the step of the induction, with
one case for each act. -/
theorem Kept.step {h : History} (hk : Kept l h home) (act : Act) : Kept l (h.step l act) home := by
  cases act with
  | openHandle => exact hk.prepare
  | append handle e => exact hk.append handle e
  | rotate handle day => exact hk.rotate handle day
  | readAll handle => exact hk
  | deleteFile => exact hk.deleteFile

/-! ## Whole histories -/

/-- Before the first handle nothing stands there and nothing is noted; after that the disk agrees
with the books. -/
inductive Sound (l : Ledger) (h : History) : Prop where
  | vacant (isTree : h.disk.IsTree) (vacant : Vacant l h.disk) (handles : h.handles = 0)
      (events : h.events = [])
  | kept (home : Location) (kept : Kept l h home)

/-- A step from before the first handle, or from a disk that agrees with the books. -/
theorem Sound.step {h : History} (hs : Sound l h) (act : Act) : Sound l (h.step l act) := by
  cases hs with
  | kept home hk => exact .kept home (hk.step act)
  | vacant ht hv hhandles hevents =>
    -- without a handle only opening one does anything
    have hno : ∀ handle, ¬handle < h.handles := fun handle => by omega
    cases act with
    | openHandle =>
      rcases hv.open ht with ⟨fault, d', hrun, hv', ht'⟩ | ⟨home, d', hrun, hs, hget⟩
      · simp only [History.step, History.perform, hrun]
        exact .vacant ht' hv' hhandles hevents
      · simp only [History.step, History.perform, hrun]
        refine .kept home ⟨hs, ?_, ?_, ?_⟩
        · rw [standing_of_file hget, hevents, ← ledgerBytes_nil]
          rfl
        · simp [hevents, History.archives]
        · simp [hevents, History.archives, Books.ofEvents]
    | append handle e =>
      rw [History.step, if_neg (hno handle)]
      exact .vacant ht hv hhandles hevents
    | rotate handle day =>
      rw [History.step, if_neg (hno handle)]
      exact .vacant ht hv hhandles hevents
    | readAll handle => exact .vacant ht hv hhandles hevents
    | deleteFile =>
      rw [History.step, hv.file?_eq_none]
      exact .vacant ht hv hhandles hevents

/-- Any acts keep a history sound. -/
theorem Sound.foldl (acts : List Act) :
    ∀ {h : History}, Sound l h → Sound l (acts.foldl (History.step l) h) := by
  induction acts with
  | nil => exact id
  | cons act rest ih => exact fun hs => ih (hs.step act)

/-- **Every history is sound that starts where nothing stands.** -/
theorem sound_ofActs (ht : d.IsTree) (hv : Vacant l d) (acts : List Act) :
    Sound l (History.ofActs l d acts) :=
  Sound.foldl acts (.vacant ht hv rfl rfl)

/-- Every archive is found at its path, with what it was made of. -/
theorem Kept.file? {h : History} (hk : Kept l h home) (archive : Path × Bytes)
    (hmem : archive ∈ History.archives h.events) :
    h.disk.file? archive.1 = some (.bytes archive.2) := by
  obtain ⟨place, _, hl, hget⟩ := hk.stands archive hmem
  exact file?_eq_some_iff.mpr ⟨place, hl, hget⟩

/-- Files that hold the texts of ledgers are read one after the other. -/
theorem mapM_readAll (d : Disk) :
    ∀ (archives : List (Path × Bytes)) (groups : List (List LogEntry)),
    (∀ archive ∈ archives, d.file? archive.1 = some (.bytes archive.2)) →
      archives.map (·.2) = groups.map ledgerBytes →
        archives.mapM (fun archive => (Ledger.mk archive.1).readAll d) = .ok groups
  | [], [], _, _ => rfl
  | archive :: rest, entries :: groups, hfile, htexts => by
    simp only [List.map_cons, List.cons.injEq] at htexts
    have hfirst := hfile archive List.mem_cons_self
    rw [htexts.1] at hfirst
    -- an archive is a ledger of its own
    have hread : (Ledger.mk archive.1).readAll d = .ok entries :=
      readAll_of_file (l := ⟨archive.1⟩) hfirst
    have hrest := mapM_readAll d rest groups
      (fun other hmem => hfile other (List.mem_cons_of_mem _ hmem)) htexts.2
    simp only [List.mapM_cons, hread, hrest, bind, Except.bind, pure, Except.pure]

/-- Archives and ledger, read one after the other, give what the books hold. -/
theorem Kept.readBack {h : History} (hk : Kept l h home) :
    h.readBack l = .ok (survivors h.events) := by
  have harchives := mapM_readAll h.disk _ _ hk.file? hk.texts
  have hcurrent := hk.settled.readAll hk.holds
  simp only [History.readBack, harchives, hcurrent, Books.survivors_eq, bind, Except.bind, pure,
    Except.pure]

/-- A file at the path of the ledger begins with the header, in all sound histories. -/
theorem Sound.header {h : History} (hs : Sound l h) {content : Content}
    (hfile : h.disk.file? l.path = some content) :
    ∃ rows, content = .bytes (headerLine ++ rows) := by
  cases hs with
  | vacant _ hv =>
    rw [hv.file?_eq_none] at hfile
    cases hfile
  | kept home hk =>
    obtain ⟨place, hl, hget⟩ := file?_eq_some_iff.mp hfile
    cases hk.settled.locate.symm.trans hl
    -- a ledger that is kept begins with its header
    obtain ⟨rows, hrows⟩ := ledgerBytes_eq_append (Books.ofEvents h.events).current
    refine ⟨rows, ?_⟩
    rw [← standing_of_file hget, hk.holds, hrows]

/-- An archive that was noted is there with the bytes that were noted. -/
theorem Sound.archive {h : History} (hs : Sound l h) {archive : Path} {held : Bytes}
    (hmem : .archived archive held ∈ h.events) :
    h.disk.file? archive = some (.bytes held) := by
  cases hs with
  | vacant _ _ _ hevents =>
    rw [hevents] at hmem
    cases hmem
  | kept home hk =>
    have hmem' : (archive, held) ∈ History.archives h.events :=
      List.mem_filterMap.mpr ⟨_, hmem, rfl⟩
    exact hk.file? (archive, held) hmem'

/-- Once there is a handle, the disk agrees with the books, and so it reads as they say. -/
theorem Sound.readBack {h : History} (hs : Sound l h) (hhandle : 0 < h.handles) :
    h.readBack l = .ok (survivors h.events) := by
  cases hs with
  | vacant _ _ hhandles => omega
  | kept home hk => exact hk.readBack

/-- **Nothing is lost in a ledger.** Start where nothing stands at its path, not even once its
directory is made. Then after any acts

* the file, if it is there, begins with the header;
* every archive holds the bytes that the ledger held when it was rotated, whatever is done later;
* once there is a handle, the archives in order and then the ledger give the entries that were
  appended, in order, without those that were deleted with the ledger. -/
theorem conservation (l : Ledger) (d : Disk) (ht : d.IsTree) (hv : Vacant l d) (acts : List Act) :
    let h := History.ofActs l d acts
    (∀ content, h.disk.file? l.path = some content → ∃ rows, content = .bytes (headerLine ++ rows))
      ∧ (∀ archive held, .archived archive held ∈ h.events →
          ∀ later, (History.ofActs l d (acts ++ later)).disk.file? archive = some (.bytes held))
      ∧ (0 < h.handles → h.readBack l = .ok (survivors h.events)) := by
  have hs := sound_ofActs ht hv acts
  refine ⟨fun _ hfile => hs.header hfile, fun archive held hmem later => ?_, hs.readBack⟩
  -- an archive of the history so far is one of the longer history
  have hmem' := (History.events_ofActs_append l d acts later).mem hmem
  exact (sound_ofActs ht hv (acts ++ later)).archive hmem'

/-- An entry whose model has everything in it for which a field is put in quotes. -/
def quotedEntry (tokens : UInt64) : LogEntry :=
  ⟨"2024-05-01", "a,\"b\"\r\n", 0, 0, tokens, tokens, "", "s", "host"⟩

/-- Two rotations in one month through two handles, and a deletion in between. -/
def mixedActs : List Act :=
  [.openHandle, .append 0 (quotedEntry 1), .rotate 0 ⟨2024, 5, 1⟩, .openHandle,
    .append 1 (quotedEntry 2), .deleteFile, .append 0 (quotedEntry 3), .rotate 1 ⟨2024, 5, 9⟩,
    .readAll 1, .append 0 (quotedEntry 4)]

/-- Two handles, two rotations in one month and a deletion: what was deleted is gone, and all the
rest is read back in order. -/
theorem conservation_mixedActs :
    let l : Ledger := ⟨⟨"data/usage.csv"⟩⟩
    let d : Disk := ⟨[], .root⟩
    d.IsTree ∧ Vacant l d
      ∧ (History.ofActs l d mixedActs).readBack l
        = .ok [quotedEntry 1, quotedEntry 3, quotedEntry 4] := by
  intro l d
  have hv : Vacant l d := ⟨(l.makeParent d).1, Prod.ext rfl (by decide +kernel), by decide +kernel⟩
  have hsurvivors : survivors (History.ofActs l d mixedActs).events
      = [quotedEntry 1, quotedEntry 3, quotedEntry 4] := by decide +kernel
  have hread := (conservation l d isTree_empty hv mixedActs).2.2 (by decide +kernel)
  exact ⟨isTree_empty, hv, hread.trans (congrArg Except.ok hsurvivors)⟩

/-- It is not enough that nothing stands at the path before the directory is made. The way through a
directory that is missing may lead to a file as soon as it is made, and that is taken as it is. -/
theorem no_header_through_missing_directory :
    let l : Ledger := ⟨⟨"a/../usage.csv"⟩⟩
    let junk := Bytes.ofText "junk\n"
    let d : Disk := Disk.put ⟨[], .root⟩ (.ofNames ["usage.csv"]) (.file (.bytes junk))
    let h := History.ofActs l d [.openHandle]
    d.IsTree ∧ d.has l.path = false ∧ (l.makeParent d).2 = .ok () ∧ h.handles = 1
      ∧ h.disk.file? l.path = some (.bytes junk) ∧ ¬∃ rows, junk = headerLine ++ rows := by
  refine ⟨isTree_empty.put (get?_root _) ?_ _, by decide +kernel, rfl, by decide +kernel, rfl, ?_⟩
  · simp [get?, Location.ofNames, Location.root]
  · rintro ⟨rows, hrows⟩
    exact absurd ⟨rows, hrows.symm⟩ (by decide +kernel : ¬headerLine <+: Bytes.ofText "junk\n")

end Ledger

end QuotaWatch
