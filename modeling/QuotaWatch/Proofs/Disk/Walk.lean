import QuotaWatch.Proofs.Disk.Path
import QuotaWatch.Proofs.Disk.Tree
import QuotaWatch.Proofs.Except

/-!
# Following paths

`Disk.descend` walks along the names of a path. Every name on the way has to be a directory, and no
more is asked, so a walk that succeeds leads to the same place for as long as the directories stay
(`descend_keeps`, and `locate_keeps`, `locateNew_keeps` for whole paths). A walk on a tree ends in a
directory of the tree (`IsTree.descend_parent`). `Disk.makeDirectories` takes nothing away
(`makeDirectories_extends`), and once it has succeeded for a path it has nothing left to do
(`makeDirectories_again`).
-/

namespace QuotaWatch

namespace Disk

open QuotaWatch.Path

variable {d d' d'' : Disk} {p : Path} {place loc : Location} {names : List String}

/-! ## One step

`Leads place name next`: from a directory at `place`, the name leads to `next`. Everything about
walks below is an induction on the names with one case for each way to go on. -/

inductive Leads (place : Location) (name : String) : Location → Prop where
  | here (hhere : name = ".") : Leads place name place
  | up (hup : name = "..") : Leads place name place.parent
  | down (hhere : name ≠ ".") (hup : name ≠ "..")
      (hlong : ¬maxNameBytes < name.utf8ByteSize) : Leads place name (place.child name)

/-- A name that does not stay or go up leads to the child of that name. -/
theorem Leads.of_isName {name : String} {next : Location} (hname : IsName name)
    (h : Leads place name next) : next = place.child name := by
  cases h with
  | here hhere => exact absurd hhere hname.ne_here
  | up hup => exact absurd hup hname.ne_up
  | down => rfl

/-- The first step of a walk, and the rest of it. A walk that succeeds is taken apart by this
wherever it is, so that its code is opened here only. -/
theorem descend_cons_ok_iff {name : String} {rest : List String} :
    d.descend place (name :: rest) = .ok loc ↔
      d.get? place = some .directory ∧
        ∃ next, Leads place name next ∧ d.descend next rest = .ok loc := by
  constructor
  · intro h
    rw [descend] at h
    split at h
    · cases h
    · cases h
    next hget =>
      refine ⟨hget, ?_⟩
      split at h
      next hhere => exact ⟨place, .here hhere, h⟩
      next hhere =>
        split at h
        next hup => exact ⟨place.parent, .up hup, h⟩
        next hup =>
          split at h
          · cases h
          next hlong => exact ⟨_, .down hhere hup hlong, h⟩
  · rintro ⟨hget, next, hleads, h⟩
    rw [descend, hget]
    -- each way to go on is one branch of the walk
    cases hleads with
    | here hhere => simp [hhere, h]
    | up hup => simp [hup, h]
    | down hhere hup hlong => simp [hhere, hup, hlong, h]

/-! ## One walk -/

/-- A walk along two lists of names is a walk along the first, and one along the second from where
it ends. -/
theorem descend_append_ok_iff {a b : List String} :
    ∀ {place : Location}, d.descend place (a ++ b) = .ok loc ↔
      ∃ next, d.descend place a = .ok next ∧ d.descend next b = .ok loc := by
  induction a with
  | nil => intro place; simp [descend]
  | cons name rest ih =>
    intro place
    rw [List.cons_append, descend_cons_ok_iff]
    constructor
    · rintro ⟨hget, next, hleads, h⟩
      obtain ⟨mid, hmid, hend⟩ := ih.mp h
      exact ⟨mid, descend_cons_ok_iff.mpr ⟨hget, next, hleads, hmid⟩, hend⟩
    · rintro ⟨mid, hmid, hend⟩
      obtain ⟨hget, next, hleads, h⟩ := descend_cons_ok_iff.mp hmid
      exact ⟨hget, next, hleads, ih.mpr ⟨mid, h, hend⟩⟩

/-- A walk of one step starts in a directory and may end anywhere, at a place where nothing stands
included. -/
theorem descend_singleton_ok_iff {name : String} :
    d.descend place [name] = .ok loc ↔ d.get? place = some .directory ∧ Leads place name loc := by
  rw [descend_cons_ok_iff]
  simp [descend]

/-- **A walk that succeeds goes on to succeed**, as long as directories are kept. It asks for
directories only. -/
theorem descend_keeps (hk : d.KeepsDirectories d') :
    ∀ {names : List String} {place : Location},
      d.descend place names = .ok loc → d'.descend place names = .ok loc
  | [], _, h => h
  | _ :: _, _, h => by
    obtain ⟨hget, next, hleads, h⟩ := descend_cons_ok_iff.mp h
    exact descend_cons_ok_iff.mpr ⟨hk.directory hget, next, hleads, descend_keeps hk h⟩

/-- A walk that ends with a name leads into the directory where it was before. -/
theorem descend_concat {name : String} (hname : IsName name)
    (h : d.descend place (names ++ [name]) = .ok loc) :
    ∃ parent, d.descend place names = .ok parent ∧ d.get? parent = some .directory
      ∧ loc = parent.child name := by
  obtain ⟨parent, hparent, hlast⟩ := descend_append_ok_iff.mp h
  obtain ⟨hget, hleads⟩ := descend_singleton_ok_iff.mp hlast
  exact ⟨parent, hparent, hget, hleads.of_isName hname⟩

/-- A step from a directory of a tree leads into a directory. -/
theorem IsTree.leads_parent (ht : d.IsTree) {name : String} {next : Location}
    (hget : d.get? place = some .directory) (h : Leads place name next) :
    d.get? next.parent = some .directory := by
  cases h with
  | here => exact ht.parent_isDirectory hget
  | up => exact ht.parent_isDirectory (ht.parent_isDirectory hget)
  | down => rw [Location.parent_child]; exact hget

/-- On a tree a walk from inside a directory ends inside a directory. -/
theorem IsTree.descend_parent (ht : d.IsTree) :
    ∀ {names : List String} {place : Location}, d.get? place.parent = some .directory →
      d.descend place names = .ok loc → d.get? loc.parent = some .directory
  | [], _, hplace, h => by
    cases h
    exact hplace
  | _ :: _, _, _, h => by
    obtain ⟨hget, next, hleads, h⟩ := descend_cons_ok_iff.mp h
    exact ht.descend_parent (ht.leads_parent hget hleads) h

/-- No walk fails because something exists. -/
theorem descend_ne_alreadyExists :
    ∀ {names : List String} {place : Location},
      d.descend place names ≠ .error .alreadyExists
  | [], _ => by simp [descend]
  | name :: rest, place => by
    rw [descend]
    split
    · simp
    · simp
    · split
      · exact descend_ne_alreadyExists
      · split
        · exact descend_ne_alreadyExists
        · split
          · simp
          · exact descend_ne_alreadyExists

/-! ## Whole paths -/

/-- Paths start where they did: at the root, or in the working directory, which is kept. -/
theorem start_keeps (hk : d.KeepsDirectories d') (p : Path) : d'.start p = d.start p := by
  simp [start, hk.working]

theorem IsTree.start_isDirectory (ht : d.IsTree) (p : Path) :
    d.get? (d.start p) = some .directory := by
  rw [start]
  split
  · exact get?_root d
  · exact ht.working_isDirectory

/-- Where a path leads: it may be followed, and the walk along its names succeeds. With a slash at
its end it has to go on from there once more, and so it has to be a directory. -/
theorem locate_ok_iff :
    d.locate p = .ok loc ↔
      checkPath p = .ok () ∧
        d.descend (d.start p) (p.names ++ if p.endsWithSlash then ["."] else []) = .ok loc := by
  rw [locate, except_bind_ok_iff]
  exact ⟨fun ⟨_, hc, hd⟩ => ⟨hc, hd⟩, fun ⟨hc, hd⟩ => ⟨(), hc, hd⟩⟩

/-- Where a file of a path would be put: the same walk, but a name with a slash behind it is
refused. -/
theorem locateNew_ok_iff :
    d.locateNew p = .ok loc ↔
      checkPath p = .ok () ∧ d.descend (d.start p) p.names = .ok loc ∧
        (p.endsWithSlash && p.endsInName) = false := by
  rw [locateNew, except_bind_ok_iff]
  simp only [except_bind_ok_iff]
  constructor
  · rintro ⟨_, hc, found, hd, h⟩
    split at h
    · cases h
    next hs =>
      cases h
      exact ⟨hc, hd, by simpa using hs⟩
  · rintro ⟨hc, hd, hs⟩
    exact ⟨(), hc, loc, hd, by simp [hs]⟩

/-- A path leads to the same place for as long as the directories stay. -/
theorem locate_keeps (hk : d.KeepsDirectories d') (h : d.locate p = .ok loc) :
    d'.locate p = .ok loc := by
  rw [locate_ok_iff] at h ⊢
  exact ⟨h.1, by rw [start_keeps hk]; exact descend_keeps hk h.2⟩

theorem locateNew_keeps (hk : d.KeepsDirectories d') (h : d.locateNew p = .ok loc) :
    d'.locateNew p = .ok loc := by
  rw [locateNew_ok_iff] at h ⊢
  exact ⟨h.1, by rw [start_keeps hk]; exact descend_keeps hk h.2.1, h.2.2⟩

/-- Without a slash at its end a path leads to a file where one can be put. -/
theorem locate_of_locateNew (hslash : p.endsWithSlash = false) (h : d.locateNew p = .ok loc) :
    d.locate p = .ok loc := by
  rw [locateNew_ok_iff] at h
  rw [locate_ok_iff, hslash]
  simpa using ⟨h.1, h.2.1⟩

theorem locateNew_of_locate (hslash : p.endsWithSlash = false) (h : d.locate p = .ok loc) :
    d.locateNew p = .ok loc := by
  rw [locate_ok_iff, hslash] at h
  rw [locateNew_ok_iff, hslash]
  simpa using h

/-- On a tree a file is put into a directory, and so the tree stays one. -/
theorem IsTree.locateNew_parent (ht : d.IsTree) (h : d.locateNew p = .ok loc) :
    d.get? loc.parent = some .directory :=
  ht.descend_parent (ht.parent_isDirectory (ht.start_isDirectory p)) (locateNew_ok_iff.mp h).2.1

theorem IsTree.locate_parent (ht : d.IsTree) (h : d.locate p = .ok loc) :
    d.get? loc.parent = some .directory :=
  ht.descend_parent (ht.parent_isDirectory (ht.start_isDirectory p)) (locate_ok_iff.mp h).2

/-- **A path that does not end in a name leads to a directory**, because to stay or to go up does.
An empty path leads to where it starts. -/
theorem IsTree.isDirectory_of_not_endsInName (ht : d.IsTree) (hends : p.endsInName = false)
    (h : d.descend (d.start p) p.names = .ok loc) : d.get? loc = some .directory := by
  -- the last step is none, one that stays, or one up
  rcases List.eq_nil_or_concat p.names with hnil | ⟨init, last, hcat⟩
  · rw [hnil] at h
    cases h
    exact ht.start_isDirectory p
  · rw [List.concat_eq_append] at hcat
    rw [hcat] at h
    obtain ⟨found, _, hlast⟩ := descend_append_ok_iff.mp h
    obtain ⟨hget, hleads⟩ := descend_singleton_ok_iff.mp hlast
    cases hleads with
    | here => exact hget
    | up => exact ht.parent_isDirectory hget
    | down hhere hup => simp [endsInName, hcat, hhere, hup] at hends

/-- A slash at the end asks for a directory. -/
theorem noSlash_of_locate (h : d.locate p = .ok loc) (hplace : d.get? loc ≠ some .directory) :
    p.endsWithSlash = false := by
  have hd := (locate_ok_iff.mp h).2
  rw [Bool.eq_false_iff]
  intro hslash
  rw [hslash, if_pos rfl] at hd
  -- a slash at the end asks for one step more, which stays in a directory
  obtain ⟨found, _, hlast⟩ := descend_append_ok_iff.mp hd
  obtain ⟨hget, hleads⟩ := descend_singleton_ok_iff.mp hlast
  cases hleads with
  | here => exact hplace hget
  | up hup => exact absurd hup (by decide)
  | down hhere => exact hhere rfl

/-- A file can only be put at a path that ends in a name, without a slash. Everything else leads to
a directory or is refused. -/
theorem IsTree.endsInName_of_locateNew (ht : d.IsTree) (h : d.locateNew p = .ok loc)
    (hplace : d.get? loc ≠ some .directory) :
    p.endsWithSlash = false ∧ p.endsInName = true := by
  obtain ⟨_, hd, hslash⟩ := locateNew_ok_iff.mp h
  cases hends : p.endsInName with
  | true => simpa [hends] using hslash
  | false => exact absurd (ht.isDirectory_of_not_endsInName hends hd) hplace

/-- A joined name is looked up in the directory that it was joined to. -/
theorem locate_join {name : String} (hname : IsName name) (h : d.locate (p.join name) = .ok loc) :
    ∃ parent : Location, loc = parent.child name := by
  have hd := (locate_ok_iff.mp h).2
  rw [endsWithSlash_join p hname, names_join p hname] at hd
  obtain ⟨parent, _, _, hloc⟩ := descend_concat hname (by simpa using hd)
  exact ⟨parent, hloc⟩

/-- Something is found at a path if the path leads to a place where it stands. -/
theorem find_ok_iff {entry : Entry} :
    d.find p = .ok entry ↔ ∃ loc, d.locate p = .ok loc ∧ d.get? loc = some entry := by
  rw [find, except_bind_ok_iff]
  refine exists_congr fun loc => and_congr_right fun _ => ?_
  cases d.get? loc <;> simp

/-- Something exists at a path if it is found there. A fault on the way counts as nothing, as it
does in the program. -/
theorem has_iff :
    d.has p = true ↔ ∃ loc entry, d.locate p = .ok loc ∧ d.get? loc = some entry := by
  rw [exists_comm]
  simp only [← find_ok_iff]
  exact except_isOk_iff

/-- What is in the way of a new file is found at its path. Looking up and creating follow a path in
different ways, so this is not by definition: a slash at the end is what they differ in. -/
theorem IsTree.find_of_locateNew (ht : d.IsTree) {entry : Entry} (h : d.locateNew p = .ok loc)
    (hget : d.get? loc = some entry) : d.find p = .ok entry := by
  refine find_ok_iff.mpr ⟨loc, ?_, hget⟩
  by_cases hslash : p.endsWithSlash = true
  · obtain ⟨hc, hd, hends⟩ := locateNew_ok_iff.mp h
    -- nothing can be put at a name with a slash behind it, so this is no name
    have hdirectory := ht.isDirectory_of_not_endsInName (by simpa [hslash] using hends) hd
    refine locate_ok_iff.mpr ⟨hc, ?_⟩
    rw [hslash, if_pos rfl]
    exact descend_append_ok_iff.mpr
      ⟨loc, hd, descend_singleton_ok_iff.mpr ⟨hdirectory, .here rfl⟩⟩
  · exact locate_of_locateNew (by simpa using hslash) h

/-- What is in the way of a new file exists. -/
theorem IsTree.has_of_locateNew (ht : d.IsTree) {entry : Entry} (h : d.locateNew p = .ok loc)
    (hget : d.get? loc = some entry) : d.has p = true := by
  obtain ⟨found, hl, hfound⟩ := find_ok_iff.mp (ht.find_of_locateNew h hget)
  exact has_iff.mpr ⟨found, entry, hl, hfound⟩

/-- There is a file at a path if the path leads to one. -/
theorem file?_eq_some_iff {content : Content} :
    d.file? p = some content ↔ ∃ loc, d.locate p = .ok loc ∧ d.get? loc = some (.file content) := by
  rw [← find_ok_iff, file?]
  cases d.find p with
  | error fault => simp
  | ok entry => cases entry <;> simp

/-- A file that holds a text is read as that text. -/
theorem readText_of_text {text : String} (h : d.file? p = some (.bytes (Bytes.ofText text))) :
    d.readText p = .ok text := by
  have hfind := find_ok_iff.mpr (file?_eq_some_iff.mp h)
  simp [readText, hfind, bind, Except.bind, Bytes.text?_ofText]

/-! ## Making directories -/

/-- Directories are made only where nothing stands, so nothing is taken away, also if this fails
half-way. -/
theorem makeAlong_extends :
    ∀ (names : List String) (d : Disk) (place : Location), d.Extends (d.makeAlong place names).1
  | [], d, _ => .refl d
  | name :: rest, d, place => by
    rw [makeAlong]
    split
    · exact makeAlong_extends rest d place
    · split
      · exact makeAlong_extends rest d place.parent
      · split
        · exact .refl d
        · simp only
          split
          · exact makeAlong_extends rest d _
          · exact .refl d
          -- what is made was not there, so nothing is overwritten
          next hget => exact (extends_put hget _).trans (makeAlong_extends rest _ _)

/-- Making directories leaves a tree: each new one stands in the directory that the walk has come
to. -/
theorem IsTree.makeAlong :
    ∀ {names : List String} {d : Disk} {place : Location}, d.IsTree →
      d.get? place = some .directory → (d.makeAlong place names).1.IsTree
  | [], _, _, ht, _ => ht
  | name :: rest, d, place, ht, hplace => by
    rw [Disk.makeAlong]
    split
    · exact ht.makeAlong hplace
    · split
      · exact ht.makeAlong (ht.parent_isDirectory hplace)
      · split
        · exact ht
        · simp only
          split
          next hget => exact ht.makeAlong hget
          next => exact ht
          next hget =>
            -- a new directory stands in the one that the walk has come to
            refine IsTree.makeAlong (ht.put ?_ (ne_directory_of_none hget) _) ?_
            · rw [Location.parent_child]
              exact hplace
            · exact get?_put_self d _ (Location.child_ne_root place name)

/-- **Directories once made need not be made again**, as long as they stay. The disk may have
changed in between in any other way. -/
theorem makeAlong_again :
    ∀ {names : List String} {d d' d'' : Disk} {place : Location},
      d.makeAlong place names = (d', .ok ()) → d'.KeepsDirectories d'' →
        d''.makeAlong place names = (d'', .ok ())
  | [], _, _, _, _, _, _ => rfl
  | name :: rest, d, d', d'', place, h, hk => by
    rw [makeAlong] at h ⊢
    split at h
    next hhere => rw [if_pos hhere]; exact makeAlong_again h hk
    next hhere =>
      rw [if_neg hhere]
      split at h
      next hup => rw [if_pos hup]; exact makeAlong_again h hk
      next hup =>
        rw [if_neg hup]
        split at h
        next => cases h
        next hlong =>
          rw [if_neg hlong]
          simp only at h ⊢
          -- in either case the next place is a directory once the walk is done
          have hnext : d'.get? (place.child name) = some .directory := by
            split at h
            next hget =>
              have := makeAlong_extends rest d (place.child name)
              rw [h] at this
              exact this.entry hget
            next => cases h
            next hget =>
              have := makeAlong_extends rest (d.put (place.child name) .directory)
                (place.child name)
              rw [h] at this
              exact this.entry (get?_put_self d _ (Location.child_ne_root place name))
          rw [hk.directory hnext]
          split at h
          · exact makeAlong_again h hk
          · cases h
          · exact makeAlong_again h hk

theorem makeDirectories_extends (d : Disk) (p : Path) : d.Extends (d.makeDirectories p).1 := by
  rw [makeDirectories]
  split
  · exact .refl d
  · split
    · exact .refl d
    · exact makeAlong_extends _ _ _

theorem IsTree.makeDirectories (ht : d.IsTree) (p : Path) : (d.makeDirectories p).1.IsTree := by
  rw [Disk.makeDirectories]
  split
  · exact ht
  · split
    · exact ht
    · exact ht.makeAlong (ht.start_isDirectory p)

/-- The same for the directories of a path. -/
theorem makeDirectories_again (h : d.makeDirectories p = (d', .ok ()))
    (hk : d'.KeepsDirectories d'') : d''.makeDirectories p = (d'', .ok ()) := by
  have hext := makeDirectories_extends d p
  rw [h] at hext
  -- the same walk from the same start
  have hstart : d''.start p = d.start p :=
    start_keeps (hext.keepsDirectories.trans hk) p
  rw [makeDirectories] at h ⊢
  split
  · rfl
  next hempty =>
    rw [if_neg hempty] at h
    cases hc : checkPath p with
    | error fault => simp [hc] at h
    | ok u =>
      simp only [hc] at h ⊢
      rw [hstart]
      exact makeAlong_again h hk

/-- Makes the directory of a path. -/
def makeParent (d : Disk) (p : Path) : Disk × Except DiskFault Unit :=
  match p.parent? with
  | some directory => d.makeDirectories directory
  | none => (d, .ok ())

/-- Making the directory of a path takes nothing away. -/
theorem makeParent_extends (d : Disk) (p : Path) : d.Extends (d.makeParent p).1 := by
  rw [makeParent]
  split
  · exact makeDirectories_extends d _
  · exact .refl d

theorem IsTree.makeParent (ht : d.IsTree) (p : Path) : (d.makeParent p).1.IsTree := by
  rw [Disk.makeParent]
  split
  · exact ht.makeDirectories _
  · exact ht

/-- The directory of a path need not be made again either. A ledger makes it each time that it is
opened. -/
theorem makeParent_again (h : d.makeParent p = (d', .ok ())) (hk : d'.KeepsDirectories d'') :
    d''.makeParent p = (d'', .ok ()) := by
  rw [makeParent] at h ⊢
  split
  next directory hparent =>
    rw [hparent] at h
    exact makeDirectories_again h hk
  next => rfl

end Disk

end QuotaWatch
