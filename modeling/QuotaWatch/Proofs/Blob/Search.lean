import Mathlib.Order.Bounds.Basic
import QuotaWatch.Blob.Scanner

/-!
# What a search finds

The searches of a scanner walk along a buffer and count. Here they are stated by what stands at an
offset, `needle <+: buf.drop offset`, without a walk.

* **`seek_eq_some_iff`**: the least offset below a limit.
* **`mem_occurrences`**, **`pairwise_occurrences`**: all offsets, in ascending order.
* **`Marker.find?_eq_some_iff`**: the least offset of a marker in its window.
* **`findName?_eq_some_iff`**: the place of a name (`IsPlace`).
* **`findName?_prefixed`**: if a name stands anywhere behind its length, then it does where a search
  that prefers that finds it.
* **`identities_scan_sublist`**, **`remaining_le_limit`**: what holds of all records of a scan.
-/

namespace QuotaWatch

variable {needle buf name rest : Bytes} {c : UInt8} {offset limit : Nat}

namespace Bytes

/-- What stands in a buffer ends in it. The empty needle stands anywhere, behind the end as well,
hence the condition. -/
theorem add_length_le (hne : needle ≠ []) (h : needle <+: buf.drop offset) :
    offset + needle.length ≤ buf.length := by
  have hroom := h.length_le
  have hpos := List.length_pos_iff.mpr hne
  rw [List.length_drop] at hroom
  omega

/-- What stands behind a byte, by offset. Layouts are told by suffixes and searches by offsets; this
goes from one to the other. -/
theorem cons_suffix_iff :
    c :: rest <:+ buf ↔
      ∃ offset, 0 < offset ∧ buf[offset - 1]? = some c ∧ buf.drop offset = rest := by
  constructor
  · rintro ⟨before, rfl⟩
    exact ⟨before.length + 1, by omega, by simp, by simp⟩
  · rintro ⟨offset, hpos, hbyte, rfl⟩
    obtain ⟨hlt, rfl⟩ := List.getElem?_eq_some_iff.mp hbyte
    have hdrop := List.drop_eq_getElem_cons hlt
    rw [Nat.sub_add_cancel hpos] at hdrop
    rw [← hdrop]
    exact List.drop_suffix _ _

/-- **`seek` finds the least offset at which the needle stands**, if that is below the limit.
Induction along the buffer. -/
theorem seek_eq_some_iff (hne : needle ≠ []) :
    ∀ {limit : Nat} {buf : Bytes} {offset : Nat}, seek needle limit buf = some offset ↔
      offset < limit ∧ needle <+: buf.drop offset ∧ ∀ i < offset, ¬needle <+: buf.drop i
  | 0, buf, offset => by simp [seek]
  | limit + 1, [], offset => by simp [seek, hne]
  | limit + 1, b :: rest, offset => by
    rw [seek]
    -- the needle stands at once, or all offsets are one further on
    by_cases hhere : needle.isPrefixOf (b :: rest) = true
    · rw [if_pos hhere]
      rw [List.isPrefixOf_iff_prefix] at hhere
      constructor
      · rintro ⟨⟩
        exact ⟨by omega, hhere, by simp⟩
      · rintro ⟨_, _, hleast⟩
        cases offset with
        | zero => rfl
        | succ offset => exact absurd hhere (hleast 0 (by omega))
    · rw [if_neg hhere]
      rw [List.isPrefixOf_iff_prefix] at hhere
      simp only [Option.map_eq_some_iff, seek_eq_some_iff hne]
      constructor
      · rintro ⟨found, ⟨hlt, hfound, hleast⟩, rfl⟩
        refine ⟨by omega, hfound, fun i hi => ?_⟩
        cases i with
        | zero => exact hhere
        | succ i => exact hleast i (by omega)
      · rintro ⟨hlt, hfound, hleast⟩
        cases offset with
        | zero => exact absurd hfound hhere
        | succ found =>
          exact ⟨found, ⟨by omega, hfound, fun i hi => hleast (i + 1) (by omega)⟩, rfl⟩

/-- The walk counts from its first offset on. What it lists are the offsets at which the needle
stands, from there on. -/
theorem mem_occurrencesFrom (hne : needle ≠ []) :
    ∀ {buf : Bytes} {first : Nat}, offset ∈ occurrencesFrom needle first buf ↔
      first ≤ offset ∧ needle <+: buf.drop (offset - first)
  | [], first => by simp [occurrencesFrom, hne]
  | b :: rest, first => by
    have hlater : offset ∈ occurrencesFrom needle (first + 1) rest ↔ _ := mem_occurrencesFrom hne
    have hmem : offset ∈ occurrencesFrom needle first (b :: rest) ↔
        (offset = first ∧ needle <+: b :: rest)
          ∨ offset ∈ occurrencesFrom needle (first + 1) rest := by
      rw [occurrencesFrom, ← List.isPrefixOf_iff_prefix]
      split <;> simp_all
    rw [hmem, hlater]
    -- the first byte is here or nowhere, the later ones are one further on
    rcases Nat.lt_trichotomy offset first with hlt | rfl | hgt
    · omega
    · have hnot : ¬offset + 1 ≤ offset := by omega
      simp [hnot]
    · have hdrop : (b :: rest).drop (offset - first) = rest.drop (offset - (first + 1)) := by
        rw [show offset - first = offset - (first + 1) + 1 by omega, List.drop_succ_cons]
      have hne' : offset ≠ first := by omega
      have hle : first + 1 ≤ offset := by omega
      have hle' : first ≤ offset := by omega
      simp [hdrop, hne', hle, hle']

/-- **`occurrences` are the offsets at which the needle stands.** -/
theorem mem_occurrences (hne : needle ≠ []) :
    offset ∈ occurrences needle buf ↔ needle <+: buf.drop offset := by
  rw [occurrences, mem_occurrencesFrom hne]
  simp

/-- An offset is listed before all that are found later, for these are greater. -/
theorem pairwise_occurrencesFrom (hne : needle ≠ []) :
    ∀ {buf : Bytes} {first : Nat}, (occurrencesFrom needle first buf).Pairwise (· < ·)
  | [], first => .nil
  | b :: rest, first => by
    have hlater : (occurrencesFrom needle (first + 1) rest).Pairwise (· < ·) :=
      pairwise_occurrencesFrom hne
    rw [occurrencesFrom]
    split
    · exact hlater.cons fun offset hmem => ((mem_occurrencesFrom hne).mp hmem).1
    · exact hlater

/-- The offsets come in ascending order, so the first one with a property is the least. -/
theorem pairwise_occurrences (hne : needle ≠ []) : (occurrences needle buf).Pairwise (· < ·) :=
  pairwise_occurrencesFrom hne

/-- A search for a property among offsets in ascending order finds the least one that has it. -/
theorem isLeast_of_find? {offsets : List Nat} (hsorted : offsets.Pairwise (· < ·)) {p : Nat → Bool}
    (h : offsets.find? p = some offset) : IsLeast {i | i ∈ offsets ∧ p i = true} offset := by
  obtain ⟨hp, before, after, rfl, hbefore⟩ := List.find?_eq_some_iff_append.mp h
  refine ⟨⟨by simp, hp⟩, fun i ⟨hmem, hi⟩ => ?_⟩
  rcases List.mem_append.mp hmem with hmem | hmem
  · exact absurd hi (by simpa using hbefore i hmem)
  · rcases List.mem_cons.mp hmem with rfl | hmem
    · exact Nat.le_refl _
    · exact Nat.le_of_lt ((List.pairwise_cons.mp (List.pairwise_append.mp hsorted).2.1).1 i hmem)

end Bytes

open Bytes

/-! ## Markers -/

/-- **A marker is found at the least offset of its window at which it stands.** -/
theorem Marker.find?_eq_some_iff {m : Marker} {start : Nat} :
    m.find? buf start = some offset ↔ m.bytes ≠ [] ∧
      IsLeast {i | start ≤ i ∧ i < min (start + m.window) buf.length ∧ m.bytes <+: buf.drop i}
        offset := by
  rw [Marker.find?]
  by_cases hempty : m.bytes = []
  · simp [hempty]
  rw [if_neg (by simpa using hempty), Option.map_eq_some_iff, and_iff_right hempty]
  have hdrop : ∀ i, (buf.drop start).drop i = buf.drop (start + i) := fun i => List.drop_drop
  have hpos := List.length_pos_iff.mpr hempty
  -- the walk starts at the window, the statement counts from the start of the buffer
  constructor
  · rintro ⟨found, hfound, rfl⟩
    obtain ⟨hlt, hstands, hleast⟩ := (seek_eq_some_iff hempty).mp hfound
    rw [hdrop] at hstands
    have hroom := add_length_le hempty hstands
    refine ⟨⟨by omega, by omega, hstands⟩, fun i ⟨hle, _, hi⟩ => ?_⟩
    refine Nat.le_of_not_lt fun hlt => hleast (i - start) (by omega) ?_
    rwa [hdrop, Nat.add_sub_cancel' hle]
  · rintro ⟨⟨hle, hlt, hstands⟩, hleast⟩
    refine ⟨offset - start, (seek_eq_some_iff hempty).mpr ⟨by omega, ?_, fun i hi hstands' => ?_⟩,
      Nat.add_sub_cancel' hle⟩
    · rwa [hdrop, Nat.add_sub_cancel' hle]
    · rw [hdrop] at hstands'
      have := hleast ⟨by omega, by omega, hstands'⟩
      omega

/-! ## Names -/

/-- A place is behind a length if there is a byte in front of it, and that is the length of the
name. A name longer than 255 bytes has no such place. -/
theorem isPrefixed_iff :
    isPrefixed buf name offset = true ↔
      0 < offset ∧ ∃ c, buf[offset - 1]? = some c ∧ c.toNat = name.length := by
  simp [isPrefixed, Option.any_eq_true]

/-- The offsets at which a name stands behind its own length. -/
def prefixedOffsets (buf name : Bytes) : Set Nat :=
  {i | name <+: buf.drop i ∧ 0 < i ∧ ∃ c, buf[i - 1]? = some c ∧ c.toNat = name.length}

/-- The place of a name among all at which it stands. -/
inductive IsPlace (buf name : Bytes) : (preferLengthPrefixed : Bool) → (offset : Nat) → Prop
  /-- The first behind its length, if those are preferred and there is one. -/
  | prefixed {offset : Nat} (hshort : name.length < 128)
      (hleast : IsLeast (prefixedOffsets buf name) offset) : IsPlace buf name true offset
  /-- Else the first of all. -/
  | plain {preferLengthPrefixed : Bool} {offset : Nat}
      (hnone : preferLengthPrefixed = true → name.length < 128 → prefixedOffsets buf name = ∅)
      (hleast : IsLeast {i | name <+: buf.drop i} offset) :
      IsPlace buf name preferLengthPrefixed offset

variable {preferLengthPrefixed : Bool}

theorem IsPlace.stands (h : IsPlace buf name preferLengthPrefixed offset) :
    name <+: buf.drop offset := by
  cases h with
  | prefixed _ hleast => exact hleast.1.1
  | plain _ hleast => exact hleast.1

/-- There is one place: a least offset is unique, and the two ways exclude each other, because the
second one needs that the first has nothing to choose from. -/
theorem IsPlace.unique {other : Nat} (h : IsPlace buf name preferLengthPrefixed offset)
    (h' : IsPlace buf name preferLengthPrefixed other) : offset = other := by
  cases h with
  | prefixed hshort hleast =>
    cases h' with
    | prefixed _ hleast' => exact hleast.unique hleast'
    | plain hnone => exact absurd (hnone rfl hshort ▸ hleast.1) (Set.notMem_empty _)
  | plain hnone hleast =>
    cases h' with
    | prefixed hshort hleast' => exact absurd (hnone rfl hshort ▸ hleast'.1) (Set.notMem_empty _)
    | plain _ hleast' => exact hleast.unique hleast'

theorem mem_prefixedOffsets (hne : name ≠ []) :
    offset ∈ prefixedOffsets buf name ↔
      offset ∈ occurrences name buf ∧ isPrefixed buf name offset = true := by
  rw [mem_occurrences hne, isPrefixed_iff]
  rfl

/-- A name that stands somewhere is found at its place. -/
theorem isPlace_findName? (hne : name ≠ []) (hstands : name <+: buf.drop offset) :
    ∃ place, findName? buf name preferLengthPrefixed = some place
      ∧ IsPlace buf name preferLengthPrefixed place := by
  have hsorted : (occurrences name buf).Pairwise (· < ·) := pairwise_occurrences hne
  have hmem := (mem_occurrences hne).mpr hstands
  have hprefixed : prefixedOffsets buf name
      = {i | i ∈ occurrences name buf ∧ isPrefixed buf name i = true} :=
    Set.ext fun i => mem_prefixedOffsets hne
  rw [findName?, if_neg (by simpa using hne)]
  cases hall : occurrences name buf with
  | nil => rw [hall] at hmem; cases hmem
  | cons first later =>
    rw [hall] at hsorted hprefixed
    -- the first offset of all is the least
    have hfirst : IsLeast {i | name <+: buf.drop i} first := by
      have hleast := isLeast_of_find? hsorted (List.find?_cons_of_pos (p := fun _ => true) rfl)
      simpa [← hall, mem_occurrences hne] using hleast
    -- names behind their lengths are asked for, or they are not
    by_cases hprefer : (preferLengthPrefixed && name.length < 128) = true
    · obtain ⟨rfl, hshort⟩ : preferLengthPrefixed = true ∧ name.length < 128 := by
        simpa using hprefer
      simp only [if_pos hprefer]
      cases hfind : (first :: later).find? (isPrefixed buf name) with
      | some place =>
        exact ⟨place, rfl, .prefixed hshort (hprefixed ▸ isLeast_of_find? hsorted hfind)⟩
      | none =>
        refine ⟨first, rfl, .plain (fun _ _ => ?_) hfirst⟩
        rw [hprefixed, Set.eq_empty_iff_forall_notMem]
        exact fun i ⟨hi, hi'⟩ => List.find?_eq_none.mp hfind i hi hi'
    · refine ⟨first, by simp only [if_neg hprefer], .plain (fun hp hshort => ?_) hfirst⟩
      exact absurd (by simpa using ⟨hp, hshort⟩) hprefer

/-- **A name that is not empty is found exactly at its place.** One direction is the search, the
other one that a place is unique. -/
theorem findName?_eq_some_iff :
    findName? buf name preferLengthPrefixed = some offset ↔
      name ≠ [] ∧ IsPlace buf name preferLengthPrefixed offset := by
  constructor
  · intro h
    have hne : name ≠ [] := by
      rintro rfl
      cases h
    -- a name that is found occurs somewhere
    obtain ⟨i, hi⟩ : ∃ i, i ∈ occurrences name buf := by
      refine List.exists_mem_of_ne_nil _ fun hnone => ?_
      rw [findName?, if_neg (by simpa using hne), hnone] at h
      cases h
    obtain ⟨place, hfind, hplace⟩ := isPlace_findName? hne ((mem_occurrences hne).mp hi)
    exact ⟨hne, Option.some.inj (hfind.symm.trans h) ▸ hplace⟩
  · rintro ⟨hne, hplace⟩
    obtain ⟨place, hfind, hplace'⟩ := isPlace_findName? hne hplace.stands
    rw [hfind, hplace'.unique hplace]

/-- **A name that stands behind its length is found where it does**, not necessarily where it was
seen. What is said of the place found is what a layout needs to know of it. -/
theorem findName?_prefixed (hne : name ≠ []) (hlen : name.length < 128)
    (h : c :: rest <:+ buf) (hc : c.toNat = name.length) (hrest : name <+: rest) :
    ∃ offset c, findName? buf name true = some offset ∧ c :: buf.drop offset <:+ buf
      ∧ c.toNat = name.length ∧ name <+: buf.drop offset := by
  obtain ⟨there, hpos, hbyte, rfl⟩ := cons_suffix_iff.mp h
  have hthere : there ∈ prefixedOffsets buf name := ⟨hrest, hpos, c, hbyte, hc⟩
  obtain ⟨offset, hfind, hplace⟩ : ∃ place, findName? buf name true = some place
      ∧ IsPlace buf name true place := isPlace_findName? hne hrest
  -- a place behind its length is taken before any other
  cases hplace with
  | prefixed _ hleast =>
    obtain ⟨hstands, hpos', b, hbyte', hb⟩ := hleast.1
    exact ⟨offset, b, hfind, cons_suffix_iff.mpr ⟨offset, hpos', hbyte', rfl⟩, hb, hstands⟩
  | plain hnone => exact absurd (hnone rfl hlen ▸ hthere) (Set.notMem_empty _)

/-! ## Records -/

theorem identity_of_record? {s : ScanSettings} {buf : Bytes} {identity : String} {r : QuotaRecord}
    (h : s.record? buf identity = some r) : r.identity = identity := by
  simp only [ScanSettings.record?, Option.map_eq_some_iff] at h
  obtain ⟨_, _, rfl⟩ := h
  rfl

/-- Records come in the order of the catalog, none of them more often than it is listed. -/
theorem identities_scan_sublist (s : Scanner) (buf : Bytes) :
    ((s.scan buf).map QuotaRecord.identity).Sublist s.catalog := by
  rw [Scanner.scan]
  induction s.catalog with
  | nil => simp
  | cons identity others ih =>
    rw [List.filterMap_cons]
    split
    next => exact ih.trans (List.sublist_cons_self _ _)
    -- a record carries the name it was looked for by
    next r hr =>
      rw [List.map_cons, identity_of_record? hr]
      exact ih.cons_cons identity

/-- **No more is left than allowed**, as far as both are known. -/
theorem remaining_le_limit {s : Scanner} {r : QuotaRecord} (h : r ∈ s.scan buf)
    {limit remaining : UInt64} (hlimit : r.limit = some limit)
    (hremaining : r.remaining = some remaining) : remaining ≤ limit := by
  obtain ⟨identity, _, hr⟩ := List.mem_filterMap.mp h
  simp only [ScanSettings.record?, Option.map_eq_some_iff] at hr
  obtain ⟨offset, _, rfl⟩ := hr
  simp only at hlimit hremaining
  rw [hremaining, Option.bind_some, Option.map_eq_some_iff] at hlimit
  obtain ⟨assumed, _, rfl⟩ := hlimit
  -- the limit is the greater of the assumed one and what is left
  show remaining ≤ if assumed ≤ remaining then remaining else assumed
  split
  · exact UInt64.le_refl _
  next hle => exact UInt64.le_of_lt (UInt64.not_le.mp hle)

end QuotaWatch
