import QuotaWatch.Proofs.Disk.Stops

/-!
# Making directories

`Disk.makeAlong` may fail after it has made some directories. `Disk.Makes` says what it can do name
by name, and the rest is by induction on that: it makes only what it comes by (`Makes.adds`), and
where it failed no path leads on (`Makes.not_descend`).

With *plain* names, which do not go up and are not too long, it does not fail half way
(`Makes.plain`): once a directory is missing, nothing stands below it that could be in the way.
-/

namespace QuotaWatch

namespace Disk

open QuotaWatch.Path

/-- What making directories can do: walk on through one that is there, make one that is missing, or
stop at a name that is too long or at a file. -/
inductive Makes : Disk → Location → List String → Disk → Except DiskFault Unit → Prop where
  | done {d : Disk} {place : Location} : Makes d place [] d (.ok ())
  | walk {d d' : Disk} {place next : Location} {name : String} {rest : List String}
      {result : Except DiskFault Unit} (hplace : d.get? place = some .directory)
      (hleads : Leads place name next) (hnext : d.get? next = some .directory)
      (h : Makes d next rest d' result) : Makes d place (name :: rest) d' result
  | make {d d' : Disk} {place : Location} {name : String} {rest : List String}
      {result : Except DiskFault Unit} (hplace : d.get? place = some .directory)
      (hhere : name ≠ ".") (hup : name ≠ "..") (hlong : ¬maxNameBytes < name.utf8ByteSize)
      (hnone : d.get? (place.child name) = none)
      (h : Makes (d.put (place.child name) .directory) (place.child name) rest d' result) :
      Makes d place (name :: rest) d' result
  | long {d : Disk} {place : Location} {name : String} {rest : List String} (hhere : name ≠ ".")
      (hup : name ≠ "..") (hlong : maxNameBytes < name.utf8ByteSize) :
      Makes d place (name :: rest) d (.error .invalidName)
  | blocked {d : Disk} {place : Location} {name : String} {rest : List String} {content : Content}
      (hhere : name ≠ ".") (hup : name ≠ "..")
      (hfile : d.get? (place.child name) = some (.file content)) (fault : DiskFault) :
      Makes d place (name :: rest) d (.error fault)

variable {d d' : Disk} {place next loc : Location} {name : String} {names rest more : List String}
  {result : Except DiskFault Unit} {entry : Entry}

/-- A place in which nothing stands. -/
def Bare (d : Disk) (place : Location) : Prop := ∀ name, d.get? (place.child name) = none

/-- On a tree nothing stands in a place where nothing stands: it would have to stand in a directory.
-/
theorem IsTree.bare_of_none (ht : d.IsTree) (hnone : d.get? place = none) : Bare d place := by
  intro name
  cases hget : d.get? (place.child name) with
  | none => rfl
  | some entry =>
    have hparent := ht.parent_isDirectory hget
    rw [Location.parent_child, hnone] at hparent
    cases hparent

/-- A place is not its own child, which is one name longer. -/
theorem child_ne (place : Location) (name : String) : place.child name ≠ place := by
  intro heq
  have := congrArg (fun m => m.names.length) heq
  simp at this

/-- A directory that is made where one is missing leaves a tree, stands there, and is bare. -/
theorem IsTree.put_directory (ht : d.IsTree) (hplace : d.get? place = some .directory)
    (hnone : d.get? (place.child name) = none) :
    let made := d.put (place.child name) .directory
    made.IsTree ∧ made.get? (place.child name) = some .directory
      ∧ Bare made (place.child name) := by
  refine ⟨ht.put ?_ (ne_directory_of_none hnone) _,
    get?_put_self d _ (Location.child_ne_root place name), fun other => ?_⟩
  · rw [Location.parent_child]
    exact hplace
  · rw [get?_put_of_ne d _ (child_ne _ other)]
    exact ht.bare_of_none hnone other

/-- What making directories does is one of the things that it can do. This unfolds the walk once,
and everything below is by induction on the cases of `Makes`. -/
theorem IsTree.makes :
    ∀ (names : List String) {d : Disk} {place : Location}, d.IsTree →
      d.get? place = some .directory →
        Makes d place names (d.makeAlong place names).1 (d.makeAlong place names).2
  | [], _, _, _, _ => .done
  | name :: rest, d, place, ht, hplace => by
    rw [Disk.makeAlong]
    split
    next hhere => exact .walk hplace (.here hhere) hplace (ht.makes rest hplace)
    next hhere =>
      split
      next hup =>
        have hnext := ht.parent_isDirectory hplace
        exact .walk hplace (.up hup) hnext (ht.makes rest hnext)
      next hup =>
        split
        next hlong => exact .long hhere hup hlong
        next hlong =>
          simp only
          split
          next hget => exact .walk hplace (.down hhere hup hlong) hget (ht.makes rest hget)
          next hget => exact .blocked hhere hup hget _
          next hget =>
            -- a directory that is made leaves a tree, and is a directory to go on from
            obtain ⟨ht', hplace', _⟩ := ht.put_directory hplace hget
            exact .make hplace hhere hup hlong hget (ht'.makes rest hplace')

namespace Makes

/-- Making directories takes nothing away, also if it fails. -/
theorem keeps (h : Makes d place names d' result) : d.Extends d' := by
  induction h with
  | done => exact .refl _
  | walk _ _ _ _ ih => exact ih
  | make _ _ _ _ hnone _ ih => exact (extends_put hnone _).trans ih
  | long => exact .refl _
  | blocked => exact .refl _

/-- **What is made is a directory that the walk comes by.** So whatever is new afterwards is a
directory on the way, and its own path is a part of the path. -/
theorem adds (h : Makes d place names d' result) (hnone : d.get? loc = none)
    (hget : d'.get? loc = some entry) :
    entry = .directory ∧ ∃ made, made <+: names ∧ d'.descend place made = .ok loc := by
  induction h with
  | done => cases hnone.symm.trans hget
  | walk hplace hleads hnext h ih =>
    obtain ⟨hentry, made, hmade, hdescend⟩ := ih hnone hget
    exact ⟨hentry, _ :: made, (List.prefix_cons_inj _).mpr hmade,
      descend_cons_ok_iff.mpr ⟨h.keeps.entry hplace, _, hleads, hdescend⟩⟩
  | @make d d' place name rest result hplace hhere hup hlong hmissing h ih =>
    have hleads : Leads place name (place.child name) := .down hhere hup hlong
    have hplace' := ((extends_put hmissing .directory).trans h.keeps).entry hplace
    by_cases heq : loc = place.child name
    · -- the directory that is made here
      subst heq
      have hmade := h.keeps.entry
        (get?_put_self d .directory (Location.child_ne_root place name))
      refine ⟨Option.some.inj (hget.symm.trans hmade), [name], ?_, ?_⟩
      · exact (List.prefix_cons_inj name).mpr List.nil_prefix
      · exact descend_singleton_ok_iff.mpr ⟨hplace', hleads⟩
    · rw [← get?_put_of_ne d .directory heq] at hnone
      obtain ⟨hentry, made, hmade, hdescend⟩ := ih hnone hget
      exact ⟨hentry, name :: made, (List.prefix_cons_inj name).mpr hmade,
        descend_cons_ok_iff.mpr ⟨hplace', _, hleads, hdescend⟩⟩
  | long => cases hnone.symm.trans hget
  | blocked => cases hnone.symm.trans hget

/-- **Where it failed no path leads on.** So a file cannot be put behind directories that could not
be made. -/
theorem not_descend (h : Makes d place names d' result) {fault : DiskFault}
    (herror : result = .error fault) (hmore : more ≠ []) :
    d'.descend place (names ++ more) ≠ .ok loc := by
  induction h with
  | done => cases herror
  | walk hplace hleads hnext h ih =>
    intro hok
    obtain ⟨_, other, hother, hok⟩ := descend_cons_ok_iff.mp hok
    rw [hother.eq_step, ← hleads.eq_step] at hok
    exact ih herror hok
  | make _ hhere hup hlong _ _ ih =>
    intro hok
    obtain ⟨_, other, hother, hok⟩ := descend_cons_ok_iff.mp hok
    rw [hother.eq_step, ← (Leads.down hhere hup hlong).eq_step] at hok
    exact ih herror hok
  -- a name that is too long is refused by every walk
  | long hhere hup hlong =>
    intro hok
    obtain ⟨_, other, hother, _⟩ := descend_cons_ok_iff.mp hok
    cases hother with
    | here h => exact hhere h
    | up h => exact hup h
    | down _ _ hshort => exact hshort hlong
  | @blocked d place name rest content hhere hup hfile fault =>
    intro hok
    obtain ⟨_, other, hother, hok⟩ := descend_cons_ok_iff.mp hok
    -- something follows, so the file would have to be a directory
    obtain ⟨first, tail, hcons⟩ : ∃ first tail, rest ++ more = first :: tail :=
      List.exists_cons_of_ne_nil (by simp [hmore])
    cases hother with
    | here h => exact hhere h
    | up h => exact hup h
    | down =>
      rw [List.append_eq, hcons] at hok
      have hget := (descend_cons_ok_iff.mp hok).1
      rw [hfile] at hget
      cases hget

end Makes

/-- Making the directories of a path adds those that the walk comes by, and this is only reached
with a path that may be followed. -/
theorem IsTree.makeDirectories_adds (ht : d.IsTree) {p : Path}
    (hnone : d.get? loc = none) (hget : (d.makeDirectories p).1.get? loc = some entry) :
    entry = .directory ∧ checkPath p = .ok () ∧ ∃ made, made <+: p.names
      ∧ (d.makeDirectories p).1.descend ((d.makeDirectories p).1.start p) made = .ok loc := by
  have hext := makeDirectories_extends d p
  rw [start_keeps hext.keepsDirectories]
  unfold Disk.makeDirectories at hget ⊢
  split at hget
  · cases hnone.symm.trans hget
  next hempty =>
    rw [if_neg hempty]
    split at hget
    · cases hnone.symm.trans hget
    next hcheck =>
      -- what is new lies on the way that was made
      have hmakes := ht.makes p.names (ht.start_isDirectory p)
      obtain ⟨hentry, hmade⟩ := hmakes.adds hnone hget
      exact ⟨hentry, hcheck, hmade⟩

/-- Only directories are added on the way to a file. -/
theorem IsTree.makeParent_adds (ht : d.IsTree) {p : Path}
    (hnone : d.get? loc = none) (hget : (d.makeParent p).1.get? loc = some entry) :
    entry = .directory := by
  unfold Disk.makeParent at hget
  split at hget
  next directory _ => exact (ht.makeDirectories_adds hnone hget).1
  next => cases hnone.symm.trans hget

/-! ## Plain names -/

/-- Names that do not go up and are no longer than a name may be. -/
def Plain (names : List String) : Prop :=
  ∀ name ∈ names, name ≠ ".." ∧ ¬maxNameBytes < name.utf8ByteSize

theorem Plain.head (h : Plain (name :: rest)) : name ≠ ".." ∧ ¬maxNameBytes < name.utf8ByteSize :=
  h name List.mem_cons_self

theorem Plain.tail (h : Plain (name :: rest)) : Plain rest :=
  fun other hmem => h other (List.mem_cons_of_mem _ hmem)

/-- From a bare place plain directories are all made, and the last one is bare. Nothing is in their
way: there is no file to run into, and a name that does not go up leads into what has just been
made. -/
theorem Makes.bare (h : Makes d place names d' result) (ht : d.IsTree)
    (hplace : d.get? place = some .directory) (hplain : Plain names) (hbare : Bare d place) :
    result = .ok () ∧ ∃ loc, d'.descend place names = .ok loc ∧ d'.get? loc = some .directory
      ∧ Bare d' loc := by
  induction h with
  | done => exact ⟨rfl, _, rfl, hplace, hbare⟩
  | walk _ hleads hnext h ih =>
    cases hleads with
    | here hhere =>
      obtain ⟨hok, loc, hdescend, hend⟩ := ih ht hplace hplain.tail hbare
      exact ⟨hok, loc, descend_cons_ok_iff.mpr
        ⟨h.keeps.entry hplace, _, .here hhere, hdescend⟩, hend⟩
    -- plain names do not go up
    | up hup => exact absurd hup hplain.head.1
    -- nor is there anything below to go down to
    | down =>
      rw [hbare] at hnext
      cases hnext
  | make _ hhere hup hlong hnone h ih =>
    obtain ⟨ht', hplace', hbare'⟩ := ht.put_directory hplace hnone
    obtain ⟨hok, loc, hdescend, hend⟩ := ih ht' hplace' hplain.tail hbare'
    have hthere := ((extends_put hnone .directory).trans h.keeps).entry hplace
    exact ⟨hok, loc, descend_cons_ok_iff.mpr ⟨hthere, _, .down hhere hup hlong, hdescend⟩, hend⟩
  | long _ _ hlong => exact absurd hlong hplain.head.2
  | blocked _ _ hfile =>
    rw [hbare] at hfile
    cases hfile

/-- **Plain directories are made all or not at all**, and if one was missing, nothing stands in the
last one. Without the condition this fails: a walk may go up out of a directory that it has made and
run into a file. -/
theorem Makes.plain (h : Makes d place names d' result) (ht : d.IsTree) (hplain : Plain names) :
    d' = d ∨ result = .ok () ∧ ∃ loc, d'.descend place names = .ok loc
      ∧ d'.get? loc = some .directory ∧ Bare d' loc := by
  induction h with
  | done => exact .inl rfl
  | walk hplace hleads hnext h ih =>
    refine (ih ht hplain.tail).imp_right ?_
    intro ⟨hok, loc, hdescend, hend⟩
    exact ⟨hok, loc, descend_cons_ok_iff.mpr
      ⟨h.keeps.entry hplace, _, hleads, hdescend⟩, hend⟩
  -- behind the first directory that is made nothing is there yet
  | make hplace hhere hup hlong hnone h ih =>
    obtain ⟨ht', hplace', hbare⟩ := ht.put_directory hplace hnone
    obtain ⟨hok, loc, hdescend, hend⟩ := h.bare ht' hplace' hplain.tail hbare
    have hthere := ((extends_put hnone .directory).trans h.keeps).entry hplace
    exact .inr ⟨hok, loc, descend_cons_ok_iff.mpr
      ⟨hthere, _, .down hhere hup hlong, hdescend⟩, hend⟩
  | long _ _ hlong => exact absurd hlong hplain.head.2
  | blocked => exact .inl rfl

/-- Nothing is found behind a name in a bare directory, however the path goes on. -/
theorem Bare.find (hbare : Bare d place) (hplace : d.get? place = some .directory) {p : Path}
    (hcheck : checkPath p = .ok ()) {init after : List String}
    (hnames : p.names = init ++ name :: after)
    (hinit : d.descend (d.start p) init = .ok place) (hhere : name ≠ ".") (hup : name ≠ "..")
    (hlong : ¬maxNameBytes < name.utf8ByteSize) : d.find p = .error .notFound := by
  -- the walk gets to the bare place and no further
  have hlocate : d.locate p = d.descend (place.child name) (after ++ p.ending) := by
    unfold locate
    rw [hcheck]
    show d.descend _ (p.names ++ p.ending) = _
    rw [hnames, List.append_assoc, descend_append_of_ok hinit, List.cons_append, descend, hplace]
    simp only [hhere, hup, hlong, if_false]
  have hnone := hbare name
  unfold Disk.find
  rw [hlocate]
  cases after ++ p.ending with
  | nil =>
    simp only [descend, hnone, bind, Except.bind]
  | cons first rest =>
    rw [descend, hnone]
    rfl

/-! ## Directories that are there -/

/-- Directories that are there need not be made. -/
theorem makeAlong_of_descend (hloc : d.get? loc = some .directory) :
    ∀ {names : List String} {place : Location},
      d.descend place names = .ok loc → d.makeAlong place names = (d, .ok ())
  | [], _, _ => rfl
  | name :: rest, place, h => by
    obtain ⟨_, next, hleads, h⟩ := descend_cons_ok_iff.mp h
    have hrest := makeAlong_of_descend hloc h
    -- every place on the way is a directory, the last one by assumption
    have hnext : d.get? next = some .directory := by
      cases rest with
      | nil => exact (Except.ok.inj h) ▸ hloc
      | cons other more => exact (descend_cons_ok_iff.mp h).1
    rw [makeAlong]
    cases hleads with
    | here hhere => rwa [if_pos hhere]
    | up hup => rwa [if_neg (by rw [hup]; decide), if_pos hup]
    | down hhere hup hlong =>
      rw [if_neg hhere, if_neg hup, if_neg hlong]
      simp only [hnext, hrest]

/-- The parent of a path that may be followed may be followed too: its text is a part of the text of
the path. -/
theorem checkPath_parent? {p parent : Path} (h : p.parent? = some parent)
    (hne : parent.text.isEmpty = false) (hcheck : checkPath p = .ok ()) :
    checkPath parent = .ok () := by
  obtain ⟨rest, hrest⟩ := parent?_prefix h
  have htext : p.text = parent.text ++ String.ofList rest := by
    rw [← String.toList_inj, String.toList_append, String.toList_ofList, hrest]
  unfold checkPath at hcheck ⊢
  rw [htext] at hcheck
  simp only [String.toList_append, List.contains_append, String.utf8ByteSize_append] at hcheck
  split at hcheck
  · cases hcheck
  next hnul =>
    split at hcheck
    · cases hcheck
    · split at hcheck
      · cases hcheck
      next hlong =>
        -- the parent is a part of the path, so it is as short and as free of zeros
        rw [if_neg, hne, if_neg (by simp), if_neg (by omega)]
        intro hcontains
        exact hnul (by rw [hcontains, Bool.true_or])

/-- A path that leads to a place leads through its parent, and that is a directory. -/
theorem descend_parent? {p parent : Path} (h : p.parent? = some parent)
    (hl : d.locateNew p = .ok loc) :
    ∃ place, d.descend (d.start p) parent.names = .ok place ∧ d.get? place = some .directory := by
  obtain ⟨before, after, _, _, hnames⟩ := names_of_parent? h
  have hdescend := (locateNew_ok_iff.mp hl).2.1
  rw [hnames, List.append_assoc] at hdescend
  obtain ⟨place, hplace, hrest⟩ := descend_append_ok_iff.mp hdescend
  refine ⟨place, hplace, ?_⟩
  cases before with
  | nil => exact (descend_cons_ok_iff.mp hrest).1
  | cons name more => exact (descend_cons_ok_iff.mp hrest).1

/-- **The directory of a path that leads to a place need not be made.** -/
theorem makeParent_of_locateNew {p : Path} (hl : d.locateNew p = .ok loc) :
    d.makeParent p = (d, .ok ()) := by
  unfold makeParent
  cases hparent : p.parent? with
  | none => rfl
  | some parent =>
    obtain ⟨place, hdescend, hplace⟩ := descend_parent? hparent hl
    simp only [makeDirectories]
    split
    · rfl
    next hempty =>
      -- path and parent start from the same place, so the walk to the parent has succeeded already
      rw [checkPath_parent? hparent (by simpa using hempty) (locateNew_ok_iff.mp hl).1]
      simp only [start, isAbsolute_parent? hparent]
      exact makeAlong_of_descend hplace hdescend

end Disk

end QuotaWatch
