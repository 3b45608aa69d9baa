import QuotaWatch.Proofs.Blob.Groups
import QuotaWatch.Proofs.Blob.Scan

/-!
# More to read, and what was read stays

A quota that is known stays what it is when more can be seen: with a wider window, with a higher cap
on the length of numbers, and with more bytes behind the blob. The first place of a name, the first
marker behind it and the number behind that all lie in what was seen before, and nothing that is
seen now comes before them.

* **`ShowsQuota.grow`**: a quota that is shown is shown where more can be seen.
* **`scan_grows`**: so a known record is in every scan of more. Names that have to stand behind
  their lengths are left out where bytes are added, since such a name may stand in what is added.
-/

namespace QuotaWatch

variable {s : ScanSettings} {buf more needle name : Bytes} {identity : String} {r : QuotaRecord}
  {window maxVarintBytes value : UInt64} {start offset i : Nat}

/-- The same settings with another window and another cap. -/
def ScanSettings.within (s : ScanSettings) (window maxVarintBytes : UInt64) : ScanSettings :=
  { s with window, maxVarintBytes }

/-! ## Where something stands -/

/-- What stands in a buffer does so with more behind it, for it ends in the buffer. -/
theorem stands_append (h : needle <+: buf.drop i) : needle <+: (buf ++ more).drop i := by
  rw [List.drop_append]
  exact h.trans (List.prefix_append _ _)

/-- The other way round: what stands in the longer buffer and ends in the first part stands in that
part. Something that reaches into what was added need not. -/
theorem stands_of_append (hroom : i + needle.length ≤ buf.length)
    (h : needle <+: (buf ++ more).drop i) : needle <+: buf.drop i := by
  rw [List.drop_append_of_le_length (by omega)] at h
  exact List.prefix_of_prefix_length_le h (List.prefix_append _ _)
    (by rw [List.length_drop]; omega)

/-- The first place of a name stays the first one. With names behind their lengths it need not: a
name that stood alone may get a length in front of it further on. -/
theorem IsPlace.append (hne : name ≠ []) (h : IsPlace buf name false offset) :
    IsPlace (buf ++ more) name false offset := by
  cases h with
  | plain _ hleast =>
    have hroom := Bytes.add_length_le hne hleast.1
    refine .plain (by simp) ⟨stands_append hleast.1, fun i hi => ?_⟩
    -- an earlier place would end in front of this one, and so in the part that was there
    by_contra hlt
    exact hlt (hleast.2 (stands_of_append (by omega) hi))

/-! ## Quotas -/

/-- **A quota that is shown is shown where more can be seen.** The marker stays the first one of the
window, since a marker that comes in sight stands behind it. -/
theorem ShowsQuota.grow (hwindow : s.window ≤ window) (hcap : s.maxVarintBytes ≤ maxVarintBytes)
    (h : ShowsQuota s buf start value) :
    ShowsQuota (s.within window maxVarintBytes) (buf ++ more) start value := by
  obtain ⟨hne, offset, next, ⟨⟨hle, hlt, hstands⟩, hleast⟩, hdecode⟩ := h
  have hroom := Bytes.add_length_le hne hstands
  rw [UInt64.le_iff_toNat_le] at hwindow hcap
  refine ⟨hne, offset, next, ⟨⟨hle, ?_, stands_append hstands⟩, ?_⟩, ?_⟩
  · show offset < min (start + window.toNat) (buf ++ more).length
    rw [List.length_append]
    omega
  · -- a marker that comes before this one lies in the window and in the blob of before
    rintro i ⟨hi, -, hbefore⟩
    by_contra hlt'
    exact hlt' (hleast ⟨hi, by omega, stands_of_append (by omega) hbefore⟩)
  · exact Varint.decode_grow (List.prefix_append _ _) hcap hdecode

/-! ## Records -/

/-- A known record is the same where more can be seen, if the name is found in the same place. That
it is known matters: a record without a quota may get one. -/
theorem record?_grow (hwindow : s.window ≤ window) (hcap : s.maxVarintBytes ≤ maxVarintBytes)
    (hplace : ∀ offset, Bytes.ofText identity ≠ [] →
      IsPlace buf (Bytes.ofText identity) s.preferLengthPrefixed offset →
        IsPlace (buf ++ more) (Bytes.ofText identity) s.preferLengthPrefixed offset)
    (h : s.record? buf identity = some r) (hknown : r.remaining.isSome) :
    (s.within window maxVarintBytes).record? (buf ++ more) identity = some r := by
  simp only [ScanSettings.record?, Option.map_eq_some_iff] at h ⊢
  obtain ⟨offset, hfind, rfl⟩ := h
  obtain ⟨hne, hstands⟩ := findName?_eq_some_iff.mp hfind
  obtain ⟨value, hvalue⟩ := Option.isSome_iff_exists.mp hknown
  -- the quota is shown as before, and a quota that is shown is the one that is read
  have hgrown : (s.within window maxVarintBytes).quotaAfter (buf ++ more)
      (offset + (Bytes.ofText identity).length) = some value :=
    quotaAfter_eq_some_iff.mpr ((quotaAfter_eq_some_iff.mp hvalue).grow hwindow hcap)
  refine ⟨offset, findName?_eq_some_iff.mpr ⟨hne, hplace offset hne hstands⟩, ?_⟩
  dsimp only at hvalue
  rw [hgrown, hvalue]
  rfl

/-- The name is found in the same place if only the window and the cap are others. -/
theorem record?_within (hwindow : s.window ≤ window) (hcap : s.maxVarintBytes ≤ maxVarintBytes)
    (h : s.record? buf identity = some r) (hknown : r.remaining.isSome) :
    (s.within window maxVarintBytes).record? buf identity = some r := by
  rw [← List.append_nil buf]
  exact record?_grow hwindow hcap (fun offset _ => by simp) h hknown

/-- With more bytes behind the blob it is so if the first place counts, wherever the name stands. -/
theorem record?_append (hplain : s.preferLengthPrefixed = false)
    (h : s.record? buf identity = some r) (hknown : r.remaining.isSome) :
    s.record? (buf ++ more) identity = some r := by
  refine record?_grow (UInt64.le_refl s.window) (UInt64.le_refl s.maxVarintBytes)
    (fun offset hne => ?_) h hknown
  rw [hplain]
  exact IsPlace.append hne

/-- Whether a record is made of a model does not depend on what can be seen behind its name. -/
theorem identity_record?_within (s : ScanSettings) (window maxVarintBytes : UInt64) (buf : Bytes)
    (identity : String) :
    ((s.within window maxVarintBytes).record? buf identity).map QuotaRecord.identity
      = (s.record? buf identity).map QuotaRecord.identity := by
  simp only [ScanSettings.record?, Option.map_map, Function.comp_def]
  rfl

/-- **A known quota stays as it is**, for every catalog, all settings and every blob.

* With a wider window and a higher cap the same models are found, and a record whose quota was known
  is found as it was.
* With more bytes behind the blob it is so too, if the first place of a name counts.
* So then no blob that was cut off shows another quota of a model than the whole one. -/
theorem scan_grows (catalog : List String) (s : ScanSettings) (buf : Bytes) :
    (∀ window maxVarintBytes, s.window ≤ window → s.maxVarintBytes ≤ maxVarintBytes →
        (Scanner.scan ⟨catalog, s.within window maxVarintBytes⟩ buf).map QuotaRecord.identity
            = (Scanner.scan ⟨catalog, s⟩ buf).map QuotaRecord.identity
          ∧ ∀ r ∈ Scanner.scan ⟨catalog, s⟩ buf, r.remaining.isSome →
            r ∈ Scanner.scan ⟨catalog, s.within window maxVarintBytes⟩ buf)
      ∧ (s.preferLengthPrefixed = false →
          (∀ more, ∀ r ∈ Scanner.scan ⟨catalog, s⟩ buf, r.remaining.isSome →
            r ∈ Scanner.scan ⟨catalog, s⟩ (buf ++ more))
          ∧ ∀ n, ∀ r ∈ Scanner.scan ⟨catalog, s⟩ (buf.take n),
              ∀ whole ∈ Scanner.scan ⟨catalog, s⟩ buf, whole.identity = r.identity →
                ∀ value, r.remaining = some value → whole.remaining = some value) := by
  refine ⟨fun window maxVarintBytes hwindow hcap => ⟨?_, fun r hr hknown => ?_⟩,
    fun hplain => ⟨fun more r hr hknown => ?_, ?_⟩⟩
  · simp only [Scanner.scan, List.map_filterMap, identity_record?_within]
  · obtain ⟨identity, hmem, hrecord⟩ := List.mem_filterMap.mp hr
    exact List.mem_filterMap.mpr ⟨identity, hmem, record?_within hwindow hcap hrecord hknown⟩
  · obtain ⟨identity, hmem, hrecord⟩ := List.mem_filterMap.mp hr
    exact List.mem_filterMap.mpr ⟨identity, hmem, record?_append hplain hrecord hknown⟩
  · intro n r hr whole hwhole hsame value hvalue
    obtain ⟨identity, -, hrecord⟩ := List.mem_filterMap.mp hr
    obtain ⟨identity', -, hrecord'⟩ := List.mem_filterMap.mp hwhole
    -- a record carries the name that it was made for, so both were made for the same one
    obtain rfl : identity' = identity := by
      rw [← identity_of_record? hrecord', hsame, identity_of_record? hrecord]
    have hgrown : s.record? (buf.take n ++ buf.drop n) identity' = some r :=
      record?_append hplain hrecord (by simp [hvalue])
    rw [List.take_append_drop] at hgrown
    cases hgrown.symm.trans hrecord'
    exact hvalue

/-! Where names behind their lengths are preferred, what is added may hold such a name. -/

example :
    let s : ScanSettings := { ScanSettings.standard with preferLengthPrefixed := true }
    let buf : Bytes := [0x61, 0x12, 0x03, 0x08, 0x05]
    (Scanner.scan ⟨["a"], s⟩ buf).map QuotaRecord.remaining = [some 5]
      ∧ (Scanner.scan ⟨["a"], s⟩ (buf ++ [0x01, 0x61, 0x12, 0x03, 0x08, 0x06])).map
          QuotaRecord.remaining = [some 6] := by
  decide +kernel

/-- A blob that is cut off shows one of two models, and a narrow window its quota only. -/
theorem scan_grows_cut :
    let s : ScanSettings := { ScanSettings.standard with window := 1, maxVarintBytes := 1 }
    let buf : Bytes := [0x61, 0x12, 0x03, 0x08, 0x05, 0x62, 0x00, 0x12, 0x03, 0x08, 0x85, 0x01]
    let r : QuotaRecord := ⟨"a", some 1000, some 5, "credits"⟩
    Scanner.scan ⟨["b", "a"], s⟩ (buf.take 5) = [r] ∧ r.remaining.isSome
      ∧ s.preferLengthPrefixed = false ∧ r ∈ Scanner.scan ⟨["b", "a"], s⟩ (buf.take 5 ++ buf.drop 5)
      ∧ s.window ≤ 50 ∧ s.maxVarintBytes ≤ 10
      ∧ (Scanner.scan ⟨["b", "a"], s.within 50 10⟩ (buf.take 5)).map QuotaRecord.identity = ["a"]
      ∧ ∀ whole ∈ Scanner.scan ⟨["b", "a"], s⟩ buf, whole.identity = "a" →
          whole.remaining = some 5 := by
  intro s buf r
  have hscan : Scanner.scan ⟨["b", "a"], s⟩ (buf.take 5) = [r] := by decide +kernel
  have hr : r ∈ Scanner.scan ⟨["b", "a"], s⟩ (buf.take 5) := by rw [hscan]; exact .head _
  obtain ⟨hwider, hmore⟩ := scan_grows ["b", "a"] s (buf.take 5)
  -- with wider settings the same names are found
  have hsame := (hwider 50 10 (by decide) (by decide)).1
  rw [hscan] at hsame
  exact ⟨hscan, rfl, rfl, (hmore rfl).1 _ r hr rfl, by decide, by decide, hsame,
    fun whole hwhole hidentity =>
      ((scan_grows ["b", "a"] s buf).2 rfl).2 5 r hr whole hwhole hidentity 5 rfl⟩

end QuotaWatch
