import QuotaWatch.Proofs.Disk.Walk
import QuotaWatch.Proofs.Text.Blank
import QuotaWatch.Store.Opening

/-!
# Which file a database is

A path is opened as a database by its names alone and not by what stands on the way. Where a file
stands at the path, both come to that file (`database_of_file`), unless the path is an address or
too long.
-/

namespace QuotaWatch

namespace Disk

variable {d : Disk} {p : Path} {place loc full : Location} {names : List String}

/-- The names of a path that leads to a file lead there also if nothing on the way counts. The two
walks differ in what they ask of the way; where one of them has met directories only, they go
together. -/
theorem fullPlace?_eq {content : Content} (slash : Bool)
    (h : d.descend place (names ++ if slash then ["."] else []) = .ok loc)
    (hfile : d.get? loc = some (.file content)) (hfull : d.fullPlace? place names = some full) :
    full = loc := by
  induction names generalizing place with
  | nil =>
    -- a slash at the end asks for a directory, by a step that stays
    have hplace : place = loc := by
      cases slash with
      | false => exact Except.ok.inj h
      | true =>
        obtain ⟨_, hdot⟩ := descend_singleton_ok_iff.mp h
        cases hdot with
        | here => rfl
        | up hup => exact absurd hup (by decide)
        | down hhere => exact absurd rfl hhere
    rw [fullPlace?] at hfull
    split at hfull
    · cases hfull
    · cases hfull
      exact hplace
  | cons name rest ih =>
    -- both walks take the same step
    obtain ⟨hplace, next, hnext, h⟩ := descend_cons_ok_iff.mp h
    rw [fullPlace?] at hfull
    cases hnext with
    | here hhere =>
      rw [if_pos hhere] at hfull
      exact ih h hfull
    | up hup =>
      rw [if_neg (by rw [hup]; decide), if_pos hup] at hfull
      exact ih h hfull
    | down hhere hup hlong =>
      rw [if_neg hhere, if_neg hup] at hfull
      split at hfull
      · cases hfull
      · rw [hplace] at hfull
        exact ih h hfull

/-- A path that is a database by its own name: no address, and nothing in memory. -/
def IsPlain (p : Path) : Prop :=
  (Bytes.ofText "file:").isPrefixOf (Bytes.ofText p.text) = false ∧ p.text ≠ ":memory:"

/-- The address that a plain path is. -/
def plainAddress (p : Path) : Address :=
  ⟨Bytes.ofText p.text, .readOnly, Address.standardFileSystem⟩

/-- A plain path is its own address. -/
theorem ofPath_of_isPlain (hp : IsPlain p) : Address.ofPath p = .ok (plainAddress p) := by
  simp [Address.ofPath, hp.1, plainAddress]

/-- A plain path that may be followed is not opened in memory: it is not empty, and its name is none
of those for memory. -/
theorem not_isInMemory_of_isPlain (hp : IsPlain p) (hcheck : checkPath p = .ok ()) :
    (plainAddress p).isInMemory = false := by
  have hempty : Bytes.ofText p.text ≠ [] := by
    intro hnil
    have hnone : p.text = "" := Bytes.ofText_injective (hnil.trans (by rfl))
    rw [checkPath, hnone] at hcheck
    cases hcheck
  have hmemory : Bytes.ofText p.text ≠ Bytes.ofText ":memory:" := fun heq =>
    hp.2 (Bytes.ofText_injective heq)
  have hsystem : Address.standardFileSystem ≠ Address.memoryFileSystem := by decide
  simp [Address.isInMemory, plainAddress, hempty, hmemory, hsystem]

/-- **A file at a plain path is opened itself**, unless its full path is too long to be opened. -/
theorem database_of_file {content : Content} (hp : IsPlain p) (hfile : d.file? p = some content) :
    d.database p = content.database? ∨ d.database p = .error (.cannotOpen p) := by
  obtain ⟨loc, hloc, hget⟩ := file?_eq_some_iff.mp hfile
  obtain ⟨hcheck, hwalk⟩ := locate_ok_iff.mp hloc
  have hplace : d.databasePlace? (plainAddress p) = d.fullPlace? (d.start p) p.names := by
    simp [databasePlace?, plainAddress, Bytes.text?_ofText]
  unfold database
  rw [ofPath_of_isPlain hp]
  simp only [except_mapError_ok, bind, Except.bind, not_isInMemory_of_isPlain hp hcheck, hplace]
  cases hfull : d.fullPlace? (d.start p) p.names with
  | none => exact .inr rfl
  | some full =>
    obtain rfl := fullPlace?_eq p.endsWithSlash hwalk hget hfull
    simp only [hget]
    exact .inl rfl

end Disk

end QuotaWatch
