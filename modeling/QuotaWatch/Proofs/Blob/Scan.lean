import Mathlib.Data.List.Forall2
import QuotaWatch.Proofs.Blob.Words

/-!
# What a scan finds in any blob

The scanner promises nothing about blobs of an unknown layout, but what it reports of them is
settled by where its names and markers stand. `Describes` says what that is for one model.

* **`scan_exact`**: a scan reports, in the order of the catalog, what `Describes` says of each model
  whose name occurs, and nothing else. A machine that counts with words does so without a stop.
-/

namespace QuotaWatch

variable {s : ScanSettings} {buf : Bytes} {identity : String} {r r' : QuotaRecord} {start : Nat}

/-! ## What is to be reported -/

/-- The name of a model is not empty and stands in a blob. -/
def Occurs (buf : Bytes) (identity : String) : Prop :=
  Bytes.ofText identity ≠ [] ∧ Bytes.ofText identity <:+: buf

instance (buf : Bytes) : DecidablePred (Occurs buf) := fun identity =>
  inferInstanceAs (Decidable (Bytes.ofText identity ≠ [] ∧ Bytes.ofText identity <:+: buf))

/-- The quota behind a name that ends at `start`: the number that follows the first marker of the
window. The marker has to start in the window and before the end of the blob. -/
def ShowsQuota (s : ScanSettings) (buf : Bytes) (start : Nat) (value : UInt64) : Prop :=
  s.marker ≠ [] ∧ ∃ offset next,
    IsLeast {i | start ≤ i ∧ i < min (start + s.window.toNat) buf.length
      ∧ s.marker <+: buf.drop i} offset
    ∧ Varint.decode buf (offset + s.marker.length) s.maxVarintBytes.toNat = .ok (value, next)

/-- What a scan is to report of a model whose name occurs. -/
structure Describes (s : ScanSettings) (buf : Bytes) (identity : String) (r : QuotaRecord) :
    Prop where
  identity_eq : r.identity = identity
  units_eq : r.units = s.units
  /-- The quota is the one behind the name. -/
  remaining_iff : ∃ offset, IsPlace buf (Bytes.ofText identity) s.preferLengthPrefixed offset
    ∧ ∀ value, r.remaining = some value
        ↔ ShowsQuota s buf (offset + (Bytes.ofText identity).length) value
  /-- A limit is assumed for known quotas only, and it is not less than what is left. -/
  limit_iff : ∀ limit, r.limit = some limit ↔ ∃ assumed value, s.assumedLimit = some assumed
    ∧ r.remaining = some value ∧ limit = max assumed value

/-- A description leaves nothing open: the place of a name is unique, and everything else follows
from it. So what a scan reports can be stated as a relation and still be all of it. -/
theorem Describes.unique (h : Describes s buf identity r) (h' : Describes s buf identity r') :
    r = r' := by
  obtain ⟨offset, hplace, hremaining⟩ := h.remaining_iff
  obtain ⟨offset', hplace', hremaining'⟩ := h'.remaining_iff
  -- both describe the same place, so they agree on what is left there
  cases hplace.unique hplace'
  have hleft : r.remaining = r'.remaining :=
    Option.ext fun value => (hremaining value).trans (hremaining' value).symm
  have hlimit : r.limit = r'.limit :=
    Option.ext fun limit => by rw [h.limit_iff, h'.limit_iff, hleft]
  have hidentity : r.identity = r'.identity := h.identity_eq.trans h'.identity_eq.symm
  have hunits : r.units = r'.units := h.units_eq.trans h'.units_eq.symm
  cases r
  cases r'
  simp_all

/-! ## What is reported -/

/-- The quota behind a name is read where it is shown, and only there. A marker without a number
behind it shows nothing; later markers are not asked. -/
theorem quotaAfter_eq_some_iff {value : UInt64} :
    s.quotaAfter buf start = some value ↔ ShowsQuota s buf start value := by
  have hmarker : ∀ offset, s.markerPattern.find? buf start = some offset ↔ _ := fun offset =>
    Marker.find?_eq_some_iff
  rw [ScanSettings.quotaAfter]
  constructor
  · intro h
    split at h
    next => cases h
    -- the first marker of the window, and what is read behind it
    next offset hfind =>
      split at h
      next found next hdecode =>
        cases h
        obtain ⟨hne, hleast⟩ := (hmarker offset).mp hfind
        exact ⟨hne, offset, next, hleast, hdecode⟩
      next => cases h
  · rintro ⟨hne, offset, next, hleast, hdecode⟩
    rw [(hmarker offset).mpr ⟨hne, hleast⟩]
    simp only [hdecode]

/-- What is made of a model is what is to be reported of it, field by field. -/
theorem describes_of_record? (h : s.record? buf identity = some r) :
    Describes s buf identity r := by
  simp only [ScanSettings.record?, Option.map_eq_some_iff] at h
  obtain ⟨offset, hfind, rfl⟩ := h
  exact {
    identity_eq := rfl
    units_eq := rfl
    remaining_iff :=
      ⟨offset, (findName?_eq_some_iff.mp hfind).2, fun value => quotaAfter_eq_some_iff⟩
    limit_iff := fun limit => by
      simp only [Option.bind_eq_some_iff, Option.map_eq_some_iff]
      constructor
      · rintro ⟨value, hvalue, assumed, hassumed, rfl⟩
        exact ⟨assumed, value, hassumed, hvalue, rfl⟩
      · rintro ⟨assumed, value, hassumed, hvalue, rfl⟩
        exact ⟨value, hvalue, assumed, hassumed, rfl⟩ }

/-- A name that occurs stands at some offset. Search goes by offsets, the statement by occurrence.
-/
theorem infix_iff_exists_drop {name : Bytes} : name <:+: buf ↔ ∃ i, name <+: buf.drop i := by
  rw [List.infix_iff_prefix_suffix]
  constructor
  · rintro ⟨rest, hname, before, rfl⟩
    exact ⟨before.length, by simpa using hname⟩
  · rintro ⟨i, hname⟩
    exact ⟨_, hname, List.drop_suffix i buf⟩

/-- A model is reported exactly if its name occurs, whether or not a quota is found behind it. -/
theorem isSome_record?_iff : (s.record? buf identity).isSome ↔ Occurs buf identity := by
  rw [ScanSettings.record?, Option.isSome_map, Option.isSome_iff_exists, Occurs,
    infix_iff_exists_drop]
  constructor
  · rintro ⟨offset, hfind⟩
    obtain ⟨hne, hplace⟩ := findName?_eq_some_iff.mp hfind
    exact ⟨hne, offset, hplace.stands⟩
  · rintro ⟨hne, i, hstands⟩
    obtain ⟨offset, hfind, _⟩ := isPlace_findName? hne hstands
    exact ⟨offset, hfind⟩

/-- The records and the models that occur go together one by one. Induction on the catalog: both
lists pass over a model for the same reason. -/
theorem forall₂_describes_filterMap (s : ScanSettings) (buf : Bytes) (catalog : List String) :
    List.Forall₂ (Describes s buf) (catalog.filter (Occurs buf))
      (catalog.filterMap (s.record? buf)) := by
  induction catalog with
  | nil => exact .nil
  | cons identity others ih =>
    -- a name has a record just if it occurs, so both lists skip the same names
    have hiff : (s.record? buf identity).isSome ↔ Occurs buf identity := isSome_record?_iff
    cases hrecord : s.record? buf identity with
    | none =>
      have hnot : ¬Occurs buf identity := by simpa [hrecord] using hiff
      rwa [List.filter_cons_of_neg (by simpa using hnot), List.filterMap_cons_none hrecord]
    | some r =>
      have hoccurs : Occurs buf identity := by simpa [hrecord] using hiff
      rw [List.filter_cons_of_pos (by simpa using hoccurs), List.filterMap_cons_some hrecord]
      exact .cons (describes_of_record? hrecord) ih

/-- **A scan is what names and markers in the blob make of it**, for every catalog, all settings and
every blob; on a machine of 64 bits it neither leaves the words nor the blob. No list is longer than
the catalog, and no model has more left than its limit. -/
theorem scan_exact (s : Scanner) (buf : Bytes) :
    (∀ records, s.scan buf = records
        ↔ List.Forall₂ (Describes s.settings buf) (s.catalog.filter (Occurs buf)) records)
      ∧ (buf.length < 2 ^ 63 → s.settings.marker.length < 2 ^ 63 →
          Words.scan? s buf = some (s.scan buf))
      ∧ (s.scan buf).length ≤ s.catalog.length
      ∧ ∀ r ∈ s.scan buf, ∀ limit remaining, r.limit = some limit → r.remaining = some remaining →
          remaining ≤ limit := by
  have hscan := forall₂_describes_filterMap s.settings buf s.catalog
  refine ⟨fun records => ⟨?_, fun hrecords => ?_⟩, fun hbuf hmarker => ?_,
    List.length_filterMap_le _ _, fun r hr limit remaining hlimit hremaining =>
      remaining_le_limit hr hlimit hremaining⟩
  · rintro rfl
    exact hscan
  · -- a description is unique, so two lists that are described by the same models are one
    exact List.right_unique_forall₂' (fun _ _ _ h h' => h.unique h') hscan hrecords
  · refine Words.scan?_eq ?_
    -- both lengths together stay within a word
    have : UInt64.size = 2 ^ 63 + 2 ^ 63 := by decide
    omega

/-- The second "a" stands behind its length, and with a window of one byte its marker is still seen;
"b" stands in no place, and nothing is asked of the empty name. -/
theorem scan_exact_small_window :
    let s : Scanner := ⟨["b", "", "a"], { ScanSettings.standard with
      window := 1, preferLengthPrefixed := true }⟩
    let buf : Bytes := [0x61, 0x01, 0x61, 0x12, 0x03, 0x08, 0x90, 0x4E]
    buf.length < 2 ^ 63 ∧ s.settings.marker.length < 2 ^ 63
      ∧ Words.scan? s buf = some (s.scan buf)
      ∧ s.scan buf = [⟨"a", some 10000, some 10000, "credits"⟩]
      ∧ List.Forall₂ (Describes s.settings buf) (s.catalog.filter (Occurs buf))
          [⟨"a", some 10000, some 10000, "credits"⟩] := by
  intro s buf
  have hscan : s.scan buf = [⟨"a", some 10000, some 10000, "credits"⟩] := by decide +kernel
  obtain ⟨hiff, hwords, -, -⟩ := scan_exact s buf
  exact ⟨by decide, by decide, hwords (by decide) (by decide), hscan, (hiff _).mp hscan⟩

end QuotaWatch
