import QuotaWatch.Proofs.Disk.Walk

/-!
# What a change does

One inversion for each operation that changes a disk: what stood where before it succeeded, and the
disk it leaves. What else stays follows from `extends_put`, `keepsBut_put` and
`IsTree.keepsBut_erase_file`.
-/

namespace QuotaWatch

/-- A file with bytes added at its end. A database does not notice them. -/
def Content.grow : Content → Bytes → Content
  | .bytes old, b => .bytes (old ++ b)
  | .database known, _ => .database known

@[simp] theorem Content.grow_nil (content : Content) : content.grow [] = content := by
  cases content <;> simp [grow]

theorem Content.grow_grow (content : Content) (a b : Bytes) :
    (content.grow a).grow b = content.grow (a ++ b) := by
  cases content <;> simp [grow]

namespace Disk

open QuotaWatch.Path

variable {d d' : Disk} {p source target : Path} {place origin : Location} {content : Content}
  {b : Bytes}

/-! ## New files -/

/-- A file is created where its path leads, and only if nothing stands there. -/
theorem createNew_ok_iff :
    d.createNew p b = .ok d' ↔
      ∃ place, d.locateNew p = .ok place ∧ d.get? place = none
        ∧ d' = d.put place (.file (.bytes b)) := by
  rw [createNew, except_bind_ok_iff]
  refine exists_congr fun place => and_congr_right fun _ => ?_
  cases d.get? place <;> simp [eq_comm]

theorem checkPath_ne_alreadyExists : checkPath p ≠ .error .alreadyExists := by
  rw [checkPath]
  split
  · simp
  · split
    · simp
    · split <;> simp

/-- To find the place of a new file never fails because something exists. Nothing is looked for at
the place itself. -/
theorem locateNew_ne_alreadyExists : d.locateNew p ≠ .error .alreadyExists := by
  rw [locateNew]
  cases hc : checkPath p with
  | error fault =>
    rintro ⟨⟩
    exact checkPath_ne_alreadyExists hc
  | ok _ =>
    cases hd : d.descend (d.start p) p.names with
    | error fault =>
      rintro ⟨⟩
      exact descend_ne_alreadyExists hd
    | ok found =>
      simp only [bind, Except.bind]
      split <;> simp

/-- Something exists in the way of a new file only if it stands at the place of the file. The fault
has no other cause, so whoever meets it knows what is there. -/
theorem createNew_alreadyExists_iff :
    d.createNew p b = .error .alreadyExists ↔
      ∃ place entry, d.locateNew p = .ok place ∧ d.get? place = some entry := by
  rw [createNew]
  cases hl : d.locateNew p with
  | error fault =>
    have hne : fault ≠ .alreadyExists := fun heq => locateNew_ne_alreadyExists (heq ▸ hl)
    simp [bind, Except.bind, hne]
  | ok place => cases hget : d.get? place <;> simp [bind, Except.bind, hget]

/-- Opening a file that may be missing leaves the disk as it is, or puts an empty file where nothing
stands. -/
theorem touch_ok (h : d.touch p = .ok d') :
    ∃ place, d.locateNew p = .ok place ∧
      (d' = d ∨ d.get? place = none ∧ d' = d.put place (.file (.bytes []))) := by
  rw [touch, except_bind_ok_iff] at h
  obtain ⟨place, hl, h⟩ := h
  refine ⟨place, hl, ?_⟩
  split at h
  · cases h
  · cases h
    exact .inl rfl
  next hget =>
    cases h
    exact .inr ⟨hget, rfl⟩

/-- Opening a file takes nothing away, so everything that stood still stands. -/
theorem touch_extends (h : d.touch p = .ok d') : d.Extends d' := by
  obtain ⟨place, _, rfl | ⟨hnone, rfl⟩⟩ := touch_ok h
  · exact .refl d'
  · exact extends_put hnone _

theorem IsTree.touch (ht : d.IsTree) (h : d.touch p = .ok d') : d'.IsTree := by
  obtain ⟨place, hl, rfl | ⟨hnone, rfl⟩⟩ := touch_ok h
  · exact ht
  · exact ht.put (ht.locateNew_parent hl) (ne_directory_of_none hnone) _

/-- After a file has been opened there is one at its path. -/
theorem touch_file (h : d.touch p = .ok d') :
    ∃ place content, d'.locateNew p = .ok place ∧ d'.get? place = some (.file content) := by
  rw [touch, except_bind_ok_iff] at h
  obtain ⟨place, hl, h⟩ := h
  split at h
  next => cases h
  next old hget =>
    cases h
    exact ⟨place, old, hl, hget⟩
  next hnone =>
    cases h
    have hroot := ne_root_of_ne_directory (ne_directory_of_none hnone)
    exact ⟨place, _, locateNew_keeps (extends_put hnone _).keepsDirectories hl,
      get?_put_self d _ hroot⟩

/-- A file that is there is opened as it is. -/
theorem touch_of_file (hl : d.locateNew p = .ok place)
    (hget : d.get? place = some (.file content)) : d.touch p = .ok d := by
  simp [touch, hl, hget, bind, Except.bind]

/-! ## Files that change, move and go -/

/-- A file that is written replaces what stood at its place, unless that was a directory. -/
theorem write_ok (h : d.write p content = .ok d') :
    ∃ place, d.locateNew p = .ok place ∧ d.get? place ≠ some .directory
      ∧ d' = d.put place (.file content) := by
  rw [write, except_bind_ok_iff] at h
  obtain ⟨place, hl, h⟩ := h
  split at h
  next => cases h
  next hnot =>
    cases h
    exact ⟨place, hl, hnot, rfl⟩

/-- Bytes are added at the end of a file, and nothing else changes. A database takes no bytes: to
append to it leaves it as it is. -/
theorem append_file (hl : d.locate p = .ok place) (hfile : d.get? place = some (.file content))
    (b : Bytes) :
    ∃ d', d.append p b = .ok d' ∧ KeepsBut place d d'
      ∧ d'.get? place = some (.file (content.grow b)) ∧ (d.IsTree → d'.IsTree) := by
  have hdirectory := ne_directory_of_file hfile
  have hroot := ne_root_of_ne_directory hdirectory
  rw [append]
  simp only [hl, bind, Except.bind, hfile]
  cases content with
  | bytes old =>
    exact ⟨_, rfl, keepsBut_put d place _, get?_put_self d _ hroot,
      fun ht => ht.put (ht.locate_parent hl) hdirectory _⟩
  -- a database is not grown by rows
  | database known => exact ⟨d, rfl, (Extends.refl d).keepsBut place, hfile, id⟩

/-- A file that is moved leaves its place and takes one where no directory stands. A file that
stands there is replaced. -/
theorem rename_file_ok (hl : d.locate source = .ok origin)
    (hfile : d.get? origin = some (.file content)) (h : d.rename source target = .ok d') :
    ∃ place, d.locate target = .ok place ∧ d.get? place ≠ some .directory
      ∧ d' = (d.erase origin).put place (.file content) := by
  have hfind : d.find source = .ok (.file content) := find_ok_iff.mpr ⟨origin, hl, hfile⟩
  simp only [rename, except_bind_ok_iff] at h
  obtain ⟨_, _, _, _, h⟩ := h
  split at h
  · simp only [except_bind_ok_iff] at h
    obtain ⟨origin', hl', entry, hfind', place, hplace, h⟩ := h
    -- origin and entry are looked up again
    cases hl.symm.trans hl'
    cases hfind.symm.trans hfind'
    refine ⟨place, hplace, ?_⟩
    cases hget : d.get? place with
    | none => simpa [hget, eq_comm] using h
    | some there =>
      cases there with
      | directory => simp [hget] at h
      | file old => simpa [hget, eq_comm] using h
  · cases h

/-- A file whose path ends in a name can be removed. -/
theorem remove_file (hl : d.locate p = .ok place) (hfile : d.get? place = some (.file content))
    (hends : p.endsInName = true) : d.remove p = (d.erase place, .ok ()) := by
  simp [remove, hl, hfile, hends]

end Disk

end QuotaWatch
