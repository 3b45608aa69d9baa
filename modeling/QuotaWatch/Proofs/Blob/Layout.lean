import Mathlib
import QuotaWatch.Proofs.Blob.Search
import QuotaWatch.Proofs.Blob.Varint

/-!
# Scanning a blob of known layout

A blob is laid out as blocks, one for each model: a line feed, the length of a name, the name, a
filler, the marker and the quota (`Block.bytes`).

* **`scan_layout`**: a scanner that prefers names behind their lengths reads every block.

Names are printable and lengths, fillers and markers are not, but quotas may be, names may be parts
of each other, and anything may look like a length. What saves the scanner is that the bytes after a
false length do not go on as a name (`Block.prefixed_or_later`): they are control characters
(`Quiet`), or else they are the only byte of a quota, and the false length is the last byte of the
marker, which asks for a longer name.
-/

namespace QuotaWatch

/-! ## The layout -/

/-- A name that a single byte below the printable characters can be the length of. -/
structure IsLabel (name : Bytes) : Prop where
  nonempty : 1 ≤ name.length
  short : name.length ≤ 31
  printable : ∀ b ∈ name, 0x20 ≤ b.toNat ∧ b.toNat ≤ 0x7E

/-- Control characters without a marker, few enough for the marker behind them to be seen. -/
structure IsFiller (filler : Bytes) : Prop where
  short : filler.length ≤ 49
  control : ∀ b ∈ filler, b.toNat < 0x20
  noMarker : ¬[0x12, 0x03, 0x08] <:+: filler

instance (name : Bytes) : Decidable (IsLabel name) :=
  decidable_of_iff (1 ≤ name.length ∧ name.length ≤ 31
      ∧ ∀ b ∈ name, 0x20 ≤ b.toNat ∧ b.toNat ≤ 0x7E)
    ⟨fun ⟨hne, hshort, hprintable⟩ => ⟨hne, hshort, hprintable⟩,
      fun ⟨hne, hshort, hprintable⟩ => ⟨hne, hshort, hprintable⟩⟩

instance (filler : Bytes) : Decidable (IsFiller filler) :=
  decidable_of_iff (filler.length ≤ 49 ∧ (∀ b ∈ filler, b.toNat < 0x20)
      ∧ ¬[0x12, 0x03, 0x08] <:+: filler)
    ⟨fun ⟨hshort, hcontrol, hmarker⟩ => ⟨hshort, hcontrol, hmarker⟩,
      fun ⟨hshort, hcontrol, hmarker⟩ => ⟨hshort, hcontrol, hmarker⟩⟩

/-- What a blob says about a model. -/
structure Block where
  identity : String
  filler : Bytes
  quota : UInt64

namespace Block

/-- The name of a model in bytes. -/
def name (b : Block) : Bytes := Bytes.ofText b.identity

/-- What stands behind the name. -/
def tail (b : Block) : Bytes := b.filler ++ [0x12, 0x03, 0x08] ++ Varint.encode b.quota.toNat

def bytes (b : Block) : Bytes := 0x0A :: UInt8.ofNat b.name.length :: b.name ++ b.tail

/-- What a scanner should report. -/
def record (b : Block) : QuotaRecord :=
  { identity := b.identity, limit := some (max 1000 b.quota), remaining := some b.quota,
    units := "credits" }

structure WellFormed (b : Block) : Prop where
  label : IsLabel b.name
  filler : IsFiller b.filler

end Block

/-- Some leading bytes, and then the blocks. -/
def layout (lead : Bytes) (blocks : List Block) : Bytes := lead ++ blocks.flatMap Block.bytes

/-! ## What no name begins with -/

variable {name rest later t : Bytes} {c : UInt8}

/-- Bytes that are none or begin with a control character. -/
def Quiet (t : Bytes) : Prop := ∀ b ∈ t.head?, b.toNat < 0x20

/-- A name begins with a printable byte, so none begins where a control character or nothing stands.
-/
theorem IsLabel.not_prefix_of_quiet (hname : IsLabel name) (h : Quiet t) : ¬name <+: t := by
  rintro ⟨more, rfl⟩
  cases name with
  | nil => exact absurd hname.nonempty (by simp)
  | cons b others =>
    have hlow : b.toNat < 0x20 := h b rfl
    have hhigh := (hname.printable b List.mem_cons_self).1
    omega

theorem quiet_append {a : Bytes} (ha : ∀ b ∈ a, b.toNat < 0x20) (h : Quiet t) :
    Quiet (a ++ t) := by
  cases a with
  | nil => exact h
  | cons b others =>
    rintro _ ⟨⟩
    exact ha b List.mem_cons_self

/-- Every block begins with a line feed. So what stands behind a block is quiet, whichever blocks
follow. -/
theorem quiet_blocks (blocks : List Block) : Quiet (blocks.flatMap Block.bytes) := by
  cases blocks with
  | nil => rintro _ ⟨⟩
  | cons b others =>
    rintro _ ⟨⟩
    decide

/-! ## Passing over what is no length of a name -/

/-- A byte with what is behind it lies in the first part, with the second part at the end, or it
lies in the second part. All passing over is done by this split. -/
theorem cons_suffix_append {a : Bytes} (h : c :: rest <:+ a ++ t) :
    (∃ a', c :: a' <:+ a ∧ rest = a' ++ t) ∨ c :: rest <:+ t := by
  induction a with
  | nil => exact .inr h
  | cons b others ih =>
    rw [List.cons_append, List.suffix_cons_iff] at h
    -- the byte is the first of the front, or it is looked for in the rest
    rcases h with heq | h
    · cases heq
      exact .inl ⟨others, List.suffix_rfl, rfl⟩
    · rcases ih h with ⟨a', ha', hrest⟩ | h
      · exact .inl ⟨a', ha'.trans (List.suffix_cons _ _), hrest⟩
      · exact .inr h

/-- No name begins among control characters, so a length that has a name behind it lies behind them.
Whether their last byte could be such a length depends on what follows, hence `Quiet`. -/
theorem IsLabel.pass_control (hname : IsLabel name) {a : Bytes} (ha : ∀ b ∈ a, b.toNat < 0x20)
    (ht : Quiet t) (h : c :: rest <:+ a ++ t) (hrest : name <+: rest) : c :: rest <:+ t := by
  rcases cons_suffix_append h with ⟨a', ha', rfl⟩ | h
  · have hcontrol : ∀ b ∈ a', b.toNat < 0x20 :=
      fun b hb => ha b (ha'.mem (List.mem_cons_of_mem _ hb))
    exact absurd hrest (hname.not_prefix_of_quiet (quiet_append hcontrol ht))
  · exact h

/-- No byte of a name is the length of one, for a length is below the printable characters. This is
what the bound on the length of names is for. -/
theorem IsLabel.pass_label (hname : IsLabel name) {other : Bytes} (hother : IsLabel other)
    (h : c :: rest <:+ other ++ t) (hc : c.toNat = name.length) : c :: rest <:+ t := by
  rcases cons_suffix_append h with ⟨a', ha', _⟩ | h
  · have hprintable := (hother.printable c (ha'.mem List.mem_cons_self)).1
    have := hname.short
    omega
  · exact h

/-- No byte of a quota is the length of a name: the last one has no name behind it, and the others
are too large. -/
theorem IsLabel.pass_quota (hname : IsLabel name) {n : Nat} (ht : Quiet t)
    (h : c :: rest <:+ Varint.encode n ++ t) (hc : c.toNat = name.length) (hrest : name <+: rest) :
    c :: rest <:+ t := by
  rcases cons_suffix_append h with ⟨a', ha', rfl⟩ | h
  · have hshort := hname.short
    rw [Varint.eq_nil_of_cons_suffix_encode ha' (by omega)] at hrest
    exact absurd hrest (hname.not_prefix_of_quiet ht)
  · exact h

/-- A quota and what follows it may begin with one printable byte, but not with two. -/
theorem IsLabel.not_prefix_of_quota (hname : IsLabel name) (hlong : 2 ≤ name.length) {n : Nat}
    (ht : Quiet t) : ¬name <+: Varint.encode n ++ t := by
  rintro ⟨more, heq⟩
  match name, hlong with
  | a :: b :: others, _ =>
    -- a number of one byte is followed by quiet bytes, a longer one begins with a byte above them
    by_cases hlt : n < 128
    · rw [Varint.encode_of_lt hlt] at heq
      have htail : t = b :: (others ++ more) := by simpa using (List.cons.inj heq).2.symm
      have hlow := ht b (by simp [htail])
      have hhigh := (hname.printable b (by simp)).1
      omega
    · rw [Varint.encode_of_le (by omega)] at heq
      have ha := congrArg UInt8.toNat (List.cons.inj heq).1
      rw [Varint.toNat_ofNat_of_lt (by omega)] at ha
      have hhigh := (hname.printable a (by simp)).2
      omega

namespace Block

variable {b : Block}

/-- **A name behind its length in a block is the name of the block**, or the length stands behind
the block. -/
theorem WellFormed.prefixed_or_later (hb : b.WellFormed) (hname : IsLabel name)
    (hlater : Quiet later) (h : c :: rest <:+ b.bytes ++ later) (hc : c.toNat = name.length)
    (hrest : name <+: rest) :
    (name = b.name ∧ rest = b.name ++ (b.tail ++ later)) ∨ c :: rest <:+ later := by
  have hlength : (UInt8.ofNat b.name.length).toNat = b.name.length :=
    Varint.toNat_ofNat_of_lt (by have := hb.label.short; omega)
  have hshort := hb.label.short
  -- the line feed
  replace h := hname.pass_control (a := [0x0A]) (by simp) (by simp [Quiet]; omega)
    (show c :: rest <:+ [0x0A] ++ (UInt8.ofNat b.name.length :: (b.name ++ (b.tail ++ later))) by
      simpa [bytes] using h) hrest
  rw [List.suffix_cons_iff] at h
  rcases h with heq | h
  · -- the length of the block
    obtain ⟨rfl, rfl⟩ := List.cons.inj heq
    refine .inl ⟨?_, rfl⟩
    exact (List.prefix_of_prefix_length_le hrest (List.prefix_append _ _) (by omega)).eq_of_length
      (by omega)
  · right
    replace h := hname.pass_label hb.label h hc
    -- the filler and the marker without its last byte
    replace h := hname.pass_control (a := b.filler ++ [0x12, 0x03])
      (by simpa [or_imp, forall_and] using hb.filler.control)
      (t := 0x08 :: (Varint.encode b.quota.toNat ++ later)) (by simp [Quiet])
      (by simpa [tail] using h) hrest
    rw [List.suffix_cons_iff] at h
    rcases h with heq | h
    · -- the last byte of the marker, which would be the length of a name of eight bytes
      obtain ⟨rfl, rfl⟩ := List.cons.inj heq
      have hlong : 2 ≤ name.length := by rw [← hc]; decide
      exact absurd hrest (hname.not_prefix_of_quota hlong hlater)
    · exact hname.pass_quota hlater h hc hrest

/-- A block has its name behind its length, wherever it stands. So a search that prefers such names
does not come back without one. -/
theorem prefixed (hb : b.WellFormed) (before later : Bytes) :
    ∃ c rest, c :: rest <:+ before ++ (b.bytes ++ later) ∧ c.toNat = b.name.length
      ∧ b.name <+: rest := by
  refine ⟨UInt8.ofNat b.name.length, b.name ++ (b.tail ++ later), ?_, ?_, List.prefix_append _ _⟩
  · exact ⟨before ++ [0x0A], by simp [bytes]⟩
  · exact Varint.toNat_ofNat_of_lt (by have := hb.label.short; omega)

end Block

/-- **A name that stands behind its length is the name of a block**, and the block goes on behind
it. Induction over the blocks, after the leading bytes. -/
theorem prefixed_layout {lead : Bytes} (hlead : ∀ b ∈ lead, b.toNat < 0x20) {blocks : List Block}
    (hblocks : ∀ b ∈ blocks, b.WellFormed) (hname : IsLabel name)
    (h : c :: rest <:+ layout lead blocks) (hc : c.toNat = name.length) (hrest : name <+: rest) :
    ∃ b ∈ blocks, name = b.name ∧ ∃ later, rest = b.name ++ (b.tail ++ later) := by
  replace h := hname.pass_control hlead (quiet_blocks blocks) h hrest
  induction blocks with
  | nil => simp at h
  | cons b others ih =>
    rw [List.flatMap_cons] at h
    have hb := hblocks b List.mem_cons_self
    -- the name stands in this block, or in one behind it
    rcases hb.prefixed_or_later hname (quiet_blocks others) h hc hrest with ⟨heq, hrest'⟩ | h
    · exact ⟨b, List.mem_cons_self, heq, _, hrest'⟩
    · obtain ⟨found, hmem, hfound⟩ := ih (fun b hb => hblocks b (List.mem_cons_of_mem _ hb)) h
      exact ⟨found, List.mem_cons_of_mem _ hmem, hfound⟩

/-! ## Reading a block -/

/-- The standard settings, but a name behind its length is preferred. -/
def prefixedSettings : ScanSettings := { ScanSettings.standard with preferLengthPrefixed := true }

/-- No marker begins in a filler, not even one that ends behind it: the first byte of the marker is
not the second or the third. -/
theorem IsFiller.not_prefix_drop {filler : Bytes} (hf : IsFiller filler) {i : Nat}
    (hi : i < filler.length) :
    ¬[0x12, 0x03, 0x08] <+: (filler ++ ([0x12, 0x03, 0x08] ++ t)).drop i := by
  have hsuffix := List.drop_suffix i filler
  have hne : filler.drop i ≠ [] := by simpa using hi
  rw [List.drop_append_of_le_length (by omega)]
  -- the marker would reach one or two bytes into the marker behind the filler, or lie within it
  match filler.drop i, hne, hsuffix with
  | [a], _, _ => simp [List.cons_prefix_cons]
  | [a, b], _, _ => simp [List.cons_prefix_cons]
  | a :: b :: c :: others, _, hsuffix =>
    intro hprefix
    simp only [List.cons_append, List.cons_prefix_cons] at hprefix
    obtain ⟨rfl, rfl, rfl, _⟩ := hprefix
    exact hf.noMarker ((List.prefix_append _ others).isInfix.trans hsuffix.isInfix)

/-- The quota of a block is read behind its name: the marker is found behind the filler, and the
number behind the marker, whatever stands behind that. -/
theorem Block.WellFormed.quotaAfter {b : Block} (hb : b.WellFormed) {buf : Bytes} {start : Nat}
    (hbuf : buf.drop start = b.tail ++ later) :
    prefixedSettings.quotaAfter buf start = some b.quota := by
  have hseek : Bytes.seek [0x12, 0x03, 0x08] 50 (buf.drop start) = some b.filler.length := by
    rw [hbuf, tail, List.append_assoc, List.append_assoc]
    refine (Bytes.seek_eq_some_iff (by simp)).mpr ⟨?_, ?_, fun i hi => ?_⟩
    · have := hb.filler.short
      omega
    · rw [List.drop_left]
      exact List.prefix_append _ _
    · exact hb.filler.not_prefix_drop hi
  -- the window of fifty bytes holds the filler and the first byte of the marker
  have hfind : prefixedSettings.markerPattern.find? buf start
      = some (start + b.filler.length) := by
    simp [Marker.find?, ScanSettings.markerPattern, prefixedSettings, ScanSettings.standard, hseek]
  have hquota : buf.drop (start + b.filler.length + 3) = Varint.encode b.quota.toNat ++ later := by
    rw [Nat.add_assoc, ← List.drop_drop, hbuf, tail, List.append_assoc,
      List.drop_left' (by simp)]
  have hread := Varint.decode_encode b.quota hquota (Varint.length_encode_le_ten b.quota)
  simp only [ScanSettings.quotaAfter, hfind]
  have hlength : prefixedSettings.marker.length = 3 := rfl
  have hmax : prefixedSettings.maxVarintBytes.toNat = 10 := rfl
  rw [hlength, hmax, hread]

section Scan

variable {lead : Bytes} {blocks : List Block}

/-- **The record of a listed model.** What the search finds stands behind its length in some block,
and names are distinct, so it is this block. -/
theorem record?_layout (hlead : ∀ b ∈ lead, b.toNat < 0x20)
    (hdistinct : (blocks.map Block.identity).Nodup) (hblocks : ∀ b ∈ blocks, b.WellFormed)
    {b : Block} (hmem : b ∈ blocks) :
    prefixedSettings.record? (layout lead blocks) b.identity = some b.record := by
  have hb := hblocks b hmem
  obtain ⟨before, after, hsplit⟩ := List.append_of_mem hmem
  have hbuf : layout lead blocks
      = (lead ++ before.flatMap Block.bytes) ++ (b.bytes ++ after.flatMap Block.bytes) := by
    simp [layout, hsplit]
  obtain ⟨c, rest, h, hc, hrest⟩ :=
    Block.prefixed hb (lead ++ before.flatMap Block.bytes) (after.flatMap Block.bytes)
  rw [← hbuf] at h
  have hne : b.name ≠ [] := by
    intro hnil
    have := hb.label.nonempty
    simp [hnil] at this
  have hshort := hb.label.short
  -- the name stands behind its length in its block, so the search gives such an offset
  obtain ⟨offset, c, hfind, h, hc, hrest⟩ := findName?_prefixed hne (by omega) h hc hrest
  -- what is found stands in a block of this name, so in this block
  obtain ⟨found, hfound, hname, later, hdrop⟩ := prefixed_layout hlead hblocks hb.label h hc hrest
  have hidentity : found.identity = b.identity := by
    have htext := congrArg Bytes.text? hname
    simp only [Block.name, Bytes.text?_ofText, Option.some.injEq] at htext
    exact htext.symm
  obtain rfl : found = b := List.inj_on_of_nodup_map hdistinct hfound hmem hidentity
  have hquota := hb.quotaAfter (by rw [← List.drop_drop, hdrop, List.drop_left] :
    (layout lead blocks).drop (offset + found.name.length) = found.tail ++ later)
  rw [ScanSettings.record?, ← Block.name]
  rw [show prefixedSettings.preferLengthPrefixed = true from rfl, hfind, Option.map_some, hquota]
  rfl

end Scan

/-- A model of the catalog has one record if it is found: records carry the name that they were made
for, and the catalog has it once. -/
theorem filter_scan {s : Scanner} (hcatalog : s.catalog.Nodup) {identity : String}
    (hmem : identity ∈ s.catalog) {buf : Bytes} {r : QuotaRecord}
    (h : s.settings.record? buf identity = some r) :
    (s.scan buf).filter (fun found => found.identity = identity) = [r] := by
  -- no other entry of the catalog gives a record of this name
  have hother : ∀ others : List String, identity ∉ others →
      (others.filterMap (s.settings.record? buf)).filter (fun found => found.identity = identity)
        = [] := by
    intro others hnot
    rw [List.filter_eq_nil_iff]
    intro found hfound
    obtain ⟨other, hin, hfound⟩ := List.mem_filterMap.mp hfound
    rw [identity_of_record? hfound, decide_eq_true_eq]
    rintro rfl
    exact hnot hin
  obtain ⟨before, after, hsplit⟩ := List.append_of_mem hmem
  rw [hsplit] at hcatalog
  obtain ⟨hafter, hnodup⟩ := List.nodup_middle.mp hcatalog |> List.nodup_cons.mp
  rw [List.mem_append, not_or] at hafter
  rw [Scanner.scan, hsplit, List.filterMap_append, List.filterMap_cons, h, List.filter_append,
    List.filter_cons_of_pos (by simp [identity_of_record? h]), hother before hafter.1,
    hother after hafter.2, List.nil_append]

/-- **Scanning undoes the layout.** Whatever the order of the blocks, and even if names are parts of
each other, every listed model has exactly one record, with its quota, and the records are in the
order of the catalog. -/
theorem scan_layout {catalog : List String} (hcatalog : catalog.Nodup)
    (hlabels : ∀ identity ∈ catalog, IsLabel (Bytes.ofText identity))
    {lead : Bytes} (hlead : ∀ b ∈ lead, b.toNat < 0x20)
    {blocks : List Block} (hdistinct : (blocks.map Block.identity).Nodup)
    (hlisted : ∀ b ∈ blocks, b.identity ∈ catalog) (hfillers : ∀ b ∈ blocks, IsFiller b.filler) :
    let records := Scanner.scan ⟨catalog, prefixedSettings⟩ (layout lead blocks)
    (∀ b ∈ blocks, records.filter (fun r => r.identity = b.identity) = [b.record])
      ∧ (records.map QuotaRecord.identity).Sublist catalog := by
  have hblocks : ∀ b ∈ blocks, b.WellFormed :=
    fun b hb => ⟨hlabels b.identity (hlisted b hb), hfillers b hb⟩
  refine ⟨fun b hb => ?_, identities_scan_sublist _ _⟩
  exact filter_scan (s := ⟨catalog, prefixedSettings⟩) hcatalog (hlisted b hb)
    (record?_layout hlead hdistinct hblocks hb)

/-- Two blocks in the other order than the catalog. The name of one begins and the one of a model
that is not listed ends that of the other, one filler ends like the marker begins, and the quota of
the first is a printable byte. -/
def nestedBlocks : List Block :=
  [⟨"gem-pro", [0x08, 0x12, 0x03], 0x67⟩, ⟨"gem", [], 18446744073709551615⟩]

/-- Both models are read, and nothing is made of the one whose name is only a part. -/
theorem scan_layout_nestedBlocks :
    let records := Scanner.scan ⟨["gem", "pro", "gem-pro"], prefixedSettings⟩
      (layout [0x03] nestedBlocks)
    (∀ b ∈ nestedBlocks, records.filter (fun r => r.identity = b.identity) = [b.record])
      ∧ (records.map QuotaRecord.identity).Sublist ["gem", "pro", "gem-pro"] := by
  exact scan_layout (by decide +kernel) (by decide +kernel) (by decide +kernel) (by decide +kernel)
    (by decide +kernel) (by decide +kernel)

end QuotaWatch
