import Mathlib.Data.List.TakeWhile
import Mathlib.Data.Set.Card
import Mathlib.Order.Interval.Finset.Nat
import QuotaWatch.Ledger.File
import QuotaWatch.Proofs.Disk.Walk
import QuotaWatch.Proofs.Text.Padded

/-!
# A free archive

`Ledger.freeArchive` tries the archives of a month in order. Archives with different numbers have
different names in one directory (`archiveName_injective`), so those that exist stand at different
places, and no disk has more of them than entries (`encard_takenNumbers_le`). Hence the search
always ends at an archive that does not exist yet, and all before it do (`freeArchive_spec`): the
archive that it would fall back on is never used.
-/

namespace QuotaWatch

open QuotaWatch.Path

namespace Ledger

variable {l : Ledger} {d : Disk} {year : Int} {month : Nat}

/-! ## Names without slashes -/

theorem notMem_yearText (year : Int) : '/' ∉ yearText year := by
  rw [yearText]
  split
  · simp only [List.mem_cons, not_or]
    exact ⟨by decide, Text.notMem_padded (by decide) _ _⟩
  · exact Text.notMem_padded (by decide) _ _

/-- The stem of a name has no other characters than the name. -/
theorem mem_of_mem_stemOf {name : List Char} {c : Char} (h : c ∈ stemOf name) : c ∈ name := by
  rw [stemOf] at h
  split at h
  · exact h
  · exact h
  next _ stem heq =>
    have hsuffix : c ∈ name.reverse.dropWhile (· ≠ '.') := by
      rw [heq]
      exact List.mem_cons_of_mem _ (List.mem_reverse.mp h)
    exact List.mem_reverse.mp ((List.dropWhile_suffix _).mem hsuffix)

/-- No slash stands in the stem of a ledger, so what is made of it is one name. -/
theorem notMem_stem (p : Path) : '/' ∉ (p.fileStem?.getD "ledger").toList := by
  cases hstem : p.fileStem? with
  | none => decide
  | some stem =>
    simp only [fileStem?, Option.map_eq_some_iff, fileName?] at hstem
    obtain ⟨name, hname, rfl⟩ := hstem
    split at hname
    · cases hname
    · cases hname
      intro hmem
      simp only [Option.getD_some, String.toList_ofList] at hmem
      -- the stem is a part of the last name, which ends before the first slash
      have := mem_of_mem_stemOf hmem
      rw [List.mem_reverse, lastReversed] at this
      exact absurd (List.mem_takeWhile_imp this) (by simp)

/-! ## The names of archives -/

/-- How the name of an archive ends, after the month. -/
def archiveNumber (n : Nat) : List Char := if n ≤ 1 then [] else '-' :: Text.decimal n

/-- The first archive of a month has no number in its name, and every other one has its own. -/
theorem archiveNumber_injective {m n : Nat} (hm : 1 ≤ m) (hn : 1 ≤ n)
    (h : archiveNumber m = archiveNumber n) : m = n := by
  unfold archiveNumber at h
  split at h
  · split at h
    · omega
    · cases h
  · split at h
    · cases h
    · exact Text.decimal_injective (List.cons.inj h).2

theorem notMem_archiveNumber (n : Nat) : '/' ∉ archiveNumber n := by
  rw [archiveNumber]
  split
  · simp
  · simp only [List.mem_cons, not_or]
    exact ⟨by decide, Text.notMem_decimal (by decide) n⟩

theorem archiveName_eq (l : Ledger) (year : Int) (month n : Nat) :
    l.archiveName year month n =
      l.path.fileStem?.getD "ledger" ++ String.ofList
        ('_' :: yearText year ++ '-' :: Text.padded 2 month ++ archiveNumber n ++ ".csv".toList) :=
  rfl

/-- The name of an archive is one name, whatever the ledger is called. -/
theorem archiveName_isName (l : Ledger) (year : Int) (month n : Nat) :
    IsName (l.archiveName year month n) := by
  rw [archiveName_eq]
  refine IsName.append (notMem_stem l.path) ?_ ?_
  · simp only [String.toList_ofList, List.mem_append, List.mem_cons, not_or]
    exact ⟨⟨⟨⟨by decide, notMem_yearText year⟩, by decide, Text.notMem_padded (by decide) _ _⟩,
      notMem_archiveNumber n⟩, by decide⟩
  · simp
    omega

/-- **Archives with different numbers have different names.** All of the name but its number is the
same within a month. -/
theorem archiveName_injective {m n : Nat} (hm : 1 ≤ m) (hn : 1 ≤ n)
    (h : l.archiveName year month m = l.archiveName year month n) : m = n := by
  have hchars := congrArg String.toList h
  simp only [archiveName_eq, String.toList_append, String.toList_ofList] at hchars
  exact archiveNumber_injective hm hn
    (List.append_cancel_left (List.append_cancel_right (List.append_cancel_left hchars)))

/-! ## The search -/

/-- The place of an archive that exists is one of its own, with an entry of the disk. -/
theorem archive_place {n : Nat} (h : d.has (l.archivePath year month n) = true) :
    ∃ parent : Location, d.locate (l.archivePath year month n)
        = .ok (parent.child (l.archiveName year month n))
      ∧ parent.child (l.archiveName year month n) ∈ d.entries.map (·.1) := by
  obtain ⟨place, entry, hl, hget⟩ := Disk.has_iff.mp h
  obtain ⟨parent, rfl⟩ := Disk.locate_join (archiveName_isName l year month n) hl
  exact ⟨parent, hl, Disk.mem_entries_of_get? hget (Location.child_ne_root _ _)⟩

/-- The numbers of the archives of a month that exist. -/
def takenNumbers (l : Ledger) (d : Disk) (year : Int) (month : Nat) : Set Nat :=
  {n | 1 ≤ n ∧ d.has (l.archivePath year month n) = true}

/-- **No disk has more archives than entries.** Archives that exist stand at different places, each
with an entry. -/
theorem encard_takenNumbers_le (l : Ledger) (d : Disk) (year : Int) (month : Nat) :
    (l.takenNumbers d year month).encard ≤ d.entries.length := by
  choose! parent hlocate hmem using
    fun n (hn : n ∈ l.takenNumbers d year month) => archive_place hn.2
  let place (n : Nat) := (parent n).child (l.archiveName year month n)
  let places := (d.entries.map (·.1)).toFinset
  have hmaps : Set.MapsTo place (l.takenNumbers d year month) (places : Set Location) :=
    fun n hn => by simpa [places, place] using hmem n hn
  -- different numbers, different names, different places
  have hinj : Set.InjOn place (l.takenNumbers d year month) := by
    intro m hm n hn heq
    have hnames := congrArg Location.names heq
    simp only [place, Location.names_child] at hnames
    have hlast : l.archiveName year month m = l.archiveName year month n := by
      simpa using congrArg List.getLast? hnames
    exact archiveName_injective hm.1 hn.1 hlast
  have hcard : places.card ≤ d.entries.length := by
    simpa using List.toFinset_card_le (d.entries.map (·.1))
  calc (l.takenNumbers d year month).encard
      ≤ (places : Set Location).encard := Set.encard_le_encard_of_injOn hmaps hinj
    _ = places.card := Set.encard_coe_eq_coe_finsetCard places
    _ ≤ d.entries.length := by exact_mod_cast hcard

/-- As many numbers are taken as the search has passed. -/
theorem le_encard_takenNumbers {count : Nat}
    (h : ∀ k, 1 ≤ k → k ≤ count → d.has (l.archivePath year month k) = true) :
    (count : ℕ∞) ≤ (l.takenNumbers d year month).encard := by
  have hsub : (Finset.Icc 1 count : Set Nat) ⊆ l.takenNumbers d year month := by
    intro k hk
    rw [Finset.mem_coe, Finset.mem_Icc] at hk
    exact ⟨hk.1, h k hk.1 hk.2⟩
  have hcard := Set.encard_le_encard hsub
  rwa [Set.encard_coe_eq_coe_finsetCard, Nat.card_Icc, Nat.add_sub_cancel] at hcard

/-- **Not all archives exist.** There are more numbers to try than entries, and one of them is free.
-/
theorem exists_free_archive (l : Ledger) (d : Disk) (year : Int) (month : Nat) :
    ∃ n, n < d.entries.length + 1 ∧ d.has (l.archivePath year month (n + 1)) = false := by
  by_contra hall
  have hhas (k : Nat) (hk : 1 ≤ k) (hle : k ≤ d.entries.length + 1) :
      d.has (l.archivePath year month k) = true := by
    by_contra hnot
    exact hall ⟨k - 1, by omega, by simpa [show k - 1 + 1 = k by omega] using hnot⟩
  have hle := (le_encard_takenNumbers hhas).trans (encard_takenNumbers_le l d year month)
  have : d.entries.length + 1 ≤ d.entries.length := by exact_mod_cast hle
  omega

/-- **The search ends at the first archive that does not exist.** The program tries one number after
the other without an end; here the search has as many steps as there are entries and one more, and
that is always enough. -/
theorem freeArchive_spec (l : Ledger) (d : Disk) (year : Int) (month : Nat) :
    ∃ n, 1 ≤ n ∧ l.freeArchive d year month = l.archivePath year month n
      ∧ d.has (l.archivePath year month n) = false
      ∧ ∀ k, 1 ≤ k → k < n → d.has (l.archivePath year month k) = true := by
  rw [freeArchive]
  simp only [List.find?_map]
  cases hfind : (List.range (d.entries.length + 1)).find?
      ((fun n => !d.has (l.archivePath year month n)) ∘ (· + 1)) with
  | none =>
    -- the search cannot fail
    obtain ⟨n, hn, hfree⟩ := exists_free_archive l d year month
    rw [List.find?_range_eq_none] at hfind
    have := hfind n hn
    simp [hfree] at this
  | some n =>
    rw [List.find?_range_eq_some] at hfind
    obtain ⟨hfree, _, hbefore⟩ := hfind
    refine ⟨n + 1, by omega, rfl, by simpa using hfree, ?_⟩
    intro k hk hlt
    have := hbefore (k - 1) (by omega)
    simpa [show k - 1 + 1 = k by omega] using this

end Ledger

end QuotaWatch
