import QuotaWatch.Disk.Tree

/-!
# Disks as trees

A disk is a list of places with what stands there. The list alone allows more than a file system
does: a file below a file, or a working directory that is none. `Disk.IsTree` leaves those out.
This module says how look-up goes through each change of the list, and that the changes keep a tree
a tree.

* **`get?_erase_file`**: on a tree, taking a file away takes nothing else away, because nothing
  stands below what is no directory (`IsTree.get?_below`).
* **`Disk.Extends`**: whatever stood before still stands. `Disk.KeepsBut`: the same, but for one
  place. `Disk.KeepsDirectories`: the same for directories alone; paths need no more than that.
-/

namespace QuotaWatch

namespace Location

@[simp]
theorem parent_root : root.parent = root := rfl

@[simp]
theorem names_child (l : Location) (name : String) : (l.child name).names = l.names ++ [name] := rfl

/-- What leads to a place leads to its parent, unless it is the place. -/
theorem leadsTo_parent {l other : Location} (h : l.leadsTo other = true) (hne : other ≠ l) :
    l.leadsTo other.parent = true := by
  rw [leadsTo, List.isPrefixOf_iff_prefix] at h ⊢
  -- the root has no way up, another place loses its last name
  rcases List.eq_nil_or_concat other.names with hnil | ⟨init, last, hcat⟩
  · rw [hnil] at h
    exact absurd (ext_names (by rw [hnil, List.prefix_nil.mp h])) hne
  · rw [List.concat_eq_append] at hcat
    rw [hcat] at h
    have hparent : other.parent.names = init := by simp [parent, hcat]
    rw [hparent]
    rcases List.prefix_concat_iff.mp h with heq | hpre
    · exact absurd (ext_names (by rw [hcat, heq])) hne
    · exact hpre

end Location

namespace Disk

variable {d d' d'' : Disk} {place other : Location} {entry : Entry} {content : Content}

/-! ## Look-up -/

@[simp]
theorem get?_root (d : Disk) : d.get? .root = some .directory := by
  simp [get?]

theorem ne_directory_of_file (h : d.get? place = some (.file content)) :
    d.get? place ≠ some .directory := by
  rw [h]
  simp

theorem ne_directory_of_none (h : d.get? place = none) : d.get? place ≠ some .directory := by
  rw [h]
  simp

/-- The root is always a directory. -/
theorem ne_root_of_ne_directory (h : d.get? place ≠ some .directory) : place ≠ .root := by
  rintro rfl
  exact h (get?_root d)

/-- Taking a place away takes away what it leads to. On a list of places this is more than one
entry: it also holds of what stands below a file, if anything did. -/
theorem get?_erase (d : Disk) (place other : Location) :
    (d.erase place).get? other =
      if other ≠ .root ∧ place.leadsTo other = true then none else d.get? other := by
  by_cases hroot : other = .root
  · simp [hroot]
  · simp only [get?, erase, hroot, if_false, List.find?_filter]
    -- an entry below the place is gone, the others are searched as before
    by_cases hleads : place.leadsTo other = true
    · rw [if_pos ⟨hroot, hleads⟩, Option.map_eq_none_iff, List.find?_eq_none]
      intro e _
      simp only [Bool.not_eq_true', decide_eq_true_eq, not_and]
      rintro hnot rfl
      rw [hleads] at hnot
      exact absurd hnot (by decide)
    · rw [if_neg fun h => hleads h.2]
      congr 2
      funext e
      by_cases he : e.1 = other <;> simp [he, hleads]

/-- What stands at a place other than the root has an entry of its own. So what is asked of all
places can be asked of the entries, which are finitely many. -/
theorem mem_entries_of_get? (h : d.get? place = some entry) (hroot : place ≠ .root) :
    place ∈ d.entries.map (·.1) := by
  simp only [get?, hroot, if_false, Option.map_eq_some_iff] at h
  obtain ⟨e, hfind, _⟩ := h
  have hplace : e.1 = place := by simpa using List.find?_some hfind
  exact List.mem_map.mpr ⟨e, List.mem_of_find?_eq_some hfind, hplace⟩

/-! ## Trees -/

/-- Whatever stands at a place stands in a directory, and so does the program. -/
structure IsTree (d : Disk) : Prop where
  parent_isDirectory : ∀ {place : Location} {entry : Entry},
    d.get? place = some entry → d.get? place.parent = some .directory
  working_isDirectory : d.get? d.working = some .directory

/-- A disk on which nothing stands yet. -/
theorem isTree_empty : IsTree ⟨[], .root⟩ where
  parent_isDirectory := by
    intro place entry hget
    by_cases hroot : place = .root
    · simp [hroot]
    · simp [get?, hroot] at hget
  working_isDirectory := get?_root _

/-- A disk is a tree if that can be seen from its entries. -/
theorem isTree_of_entries (hworking : d.get? d.working = some .directory)
    (hparents : ∀ e ∈ d.entries, d.get? e.1.parent = some .directory) : d.IsTree where
  parent_isDirectory := by
    intro place entry hget
    by_cases hroot : place = .root
    · rw [hroot, Location.parent_root, get?_root]
    · obtain ⟨e, hmem, rfl⟩ := List.mem_map.mp (mem_entries_of_get? hget hroot)
      exact hparents e hmem
  working_isDirectory := hworking

/-- **Nothing stands below what is no directory.** Going up from a place below it, every parent
would have to be a directory until the place itself is met. Induction on the depth. -/
theorem IsTree.get?_below (ht : d.IsTree) (hnot : d.get? place ≠ some .directory) :
    ∀ {other : Location}, place.leadsTo other = true → other ≠ place → d.get? other = none := by
  suffices h : ∀ n (other : Location), other.names.length = n → place.leadsTo other = true →
      other ≠ place → d.get? other = none from fun {other} => h _ other rfl
  intro n
  induction n with
  | zero =>
    intro other hlen hleads hne
    rw [Location.leadsTo, List.length_eq_zero_iff.mp hlen, List.isPrefixOf_iff_prefix] at hleads
    exact absurd (Location.ext_names (by
      rw [List.length_eq_zero_iff.mp hlen, List.prefix_nil.mp hleads])) hne
  | succ n ih =>
    intro other hlen hleads hne
    cases hget : d.get? other with
    | none => rfl
    | some e =>
      have hparent := ht.parent_isDirectory hget
      by_cases heq : other.parent = place
      · exact absurd (heq ▸ hparent) hnot
      · -- the parent is below the place as well, and nearer to it
        have hlen' : other.parent.names.length = n := by
          simp only [Location.parent, List.length_dropLast]
          omega
        rw [ih other.parent hlen' (Location.leadsTo_parent hleads hne) heq] at hparent
        cases hparent

/-- Taking a file off a tree takes only that away, because nothing stands below it. -/
theorem IsTree.get?_erase_file (ht : d.IsTree) (hfile : d.get? place = some (.file content))
    (other : Location) :
    (d.erase place).get? other = if other = place then none else d.get? other := by
  have hroot := ne_root_of_ne_directory (ne_directory_of_file hfile)
  rw [get?_erase]
  by_cases heq : other = place
  · subst heq
    simp [hroot, Location.leadsTo_self]
  · rw [if_neg heq]
    split
    next h => exact (ht.get?_below (ne_directory_of_file hfile) h.2 heq).symm
    next => rfl

/-! ## What a change leaves alone -/

/-- Every directory stays one, and relative paths start where they did. -/
structure KeepsDirectories (d d' : Disk) : Prop where
  working : d'.working = d.working
  directory : ∀ {place : Location},
    d.get? place = some .directory → d'.get? place = some .directory

/-- Whatever stands elsewhere than at one place stays. -/
structure KeepsBut (place : Location) (d d' : Disk) : Prop where
  working : d'.working = d.working
  entry : ∀ {other : Location} {e : Entry},
    other ≠ place → d.get? other = some e → d'.get? other = some e

/-- Whatever stands stays. -/
structure Extends (d d' : Disk) : Prop where
  working : d'.working = d.working
  entry : ∀ {place : Location} {e : Entry}, d.get? place = some e → d'.get? place = some e

theorem Extends.refl (d : Disk) : d.Extends d := ⟨rfl, id⟩

theorem Extends.trans (h : d.Extends d') (h' : d'.Extends d'') : d.Extends d'' :=
  ⟨h'.working.trans h.working, fun hget => h'.entry (h.entry hget)⟩

theorem Extends.keepsDirectories (h : d.Extends d') : d.KeepsDirectories d' := ⟨h.working, h.entry⟩

theorem Extends.keepsBut (h : d.Extends d') (place : Location) : KeepsBut place d d' :=
  ⟨h.working, fun _ => h.entry⟩

theorem KeepsDirectories.refl (d : Disk) : d.KeepsDirectories d := ⟨rfl, id⟩

theorem KeepsDirectories.trans (h : d.KeepsDirectories d') (h' : d'.KeepsDirectories d'') :
    d.KeepsDirectories d'' :=
  ⟨h'.working.trans h.working, fun hget => h'.directory (h.directory hget)⟩

theorem KeepsBut.trans (h : KeepsBut place d d') (h' : KeepsBut place d' d'') :
    KeepsBut place d d'' :=
  ⟨h'.working.trans h.working, fun hne hget => h'.entry hne (h.entry hne hget)⟩

/-- A change at a place that is no directory keeps all directories. So all paths lead where they
did. -/
theorem KeepsBut.keepsDirectories (h : KeepsBut place d d')
    (hplace : d.get? place ≠ some .directory) : d.KeepsDirectories d' :=
  ⟨h.working, fun hget => h.entry (fun heq => hplace (heq ▸ hget)) hget⟩

/-- Putting something where nothing stands takes nothing away. -/
theorem extends_put (hnone : d.get? place = none) (entry : Entry) :
    d.Extends (d.put place entry) := by
  refine ⟨rfl, fun {other e} hget => ?_⟩
  rw [get?_put_of_ne]
  · exact hget
  · rintro rfl
    rw [hnone] at hget
    cases hget

/-- Putting something anywhere changes that place alone. -/
theorem keepsBut_put (d : Disk) (place : Location) (entry : Entry) :
    KeepsBut place d (d.put place entry) :=
  ⟨rfl, fun hne hget => by rw [get?_put_of_ne d entry hne, hget]⟩

/-- Taking a file away changes that place alone. -/
theorem IsTree.keepsBut_erase_file (ht : d.IsTree) (hfile : d.get? place = some (.file content)) :
    KeepsBut place d (d.erase place) :=
  ⟨rfl, fun hne hget => by rw [ht.get?_erase_file hfile, if_neg hne, hget]⟩

/-! ## Changes keep a tree a tree -/

/-- Something put into a directory, not in place of another one, leaves a tree. In place of a
directory it might leave something without one. -/
theorem IsTree.put (ht : d.IsTree) (hparent : d.get? place.parent = some .directory)
    (hplace : d.get? place ≠ some .directory) (entry : Entry) : (d.put place entry).IsTree := by
  have hkeep := (keepsBut_put d place entry).keepsDirectories hplace
  constructor
  · intro other e hget
    by_cases heq : other = place
    · rw [heq]
      exact hkeep.directory hparent
    · rw [get?_put_of_ne d entry heq] at hget
      exact hkeep.directory (ht.parent_isDirectory hget)
  · exact hkeep.directory ht.working_isDirectory

/-- A tree without one of its files is a tree. -/
theorem IsTree.erase_file (ht : d.IsTree) (hfile : d.get? place = some (.file content)) :
    (d.erase place).IsTree := by
  have hkeep := (ht.keepsBut_erase_file hfile).keepsDirectories (ne_directory_of_file hfile)
  constructor
  · intro other e hget
    rw [ht.get?_erase_file hfile] at hget
    split at hget
    · cases hget
    · exact hkeep.directory (ht.parent_isDirectory hget)
  · exact hkeep.directory ht.working_isDirectory

end Disk

end QuotaWatch
