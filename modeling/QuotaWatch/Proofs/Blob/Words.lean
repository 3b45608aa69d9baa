import Mathlib.Algebra.Order.Ring.Nat
import Mathlib.Data.List.Sort
import Mathlib.Data.Nat.Bitwise
import QuotaWatch.Proofs.Blob.Search

/-!
# Scanning with machine words

The scanner counts with natural numbers and reads what is there. A machine counts with words of 64
bits, and it stops where a sum leaves the word or an index leaves the buffer. `Words.scan?` is the
scan as a machine carries it out, with nothing for a result where it would stop.

* **`scan?_eq`**: with a blob and a marker that fit into memory it never stops, and finds what the
  scan finds.
* `decode?_eq`, `findMarker?_eq`, `findName?_eq`: the same for the number, the marker and the name.
-/

namespace QuotaWatch.Words

/-- A result, or nothing where a machine stops. -/
abbrev Checked (α : Type) := Option α

/-! ## The machine's steps -/

/-- A sum that has to fit into a word. -/
def add (a b : Nat) : Checked Nat := if a + b < UInt64.size then some (a + b) else none

/-- A sum that is the greatest word if it does not fit. -/
def saturatingAdd (a b : Nat) : Nat := min (a + b) (UInt64.size - 1)

/-- Reads on for some rounds after `index` bytes, which gave `value`. A place behind the end of the
buffer or of the word is one without a byte; the shift is counted in 32 bits. -/
def decodeFrom? (buf : Bytes) (offset maxBytes : Nat) :
    (rounds index : Nat) → (value : UInt64) → Checked (Except Varint.Fault (UInt64 × Nat))
  | 0, _, _ => some (.error (.overrun maxBytes))
  | rounds + 1, index, value =>
    match (add offset index).bind (buf[·]?) with
    | none => some (.error .truncated)
    | some byte =>
      let shift := 7 * (index % UInt32.size)
      let bits := (byte &&& 0x7F).toUInt64
      if UInt32.size ≤ shift then none
      else if 64 ≤ shift ∨ (0 - 1 : UInt64) >>> UInt64.ofNat shift < bits then
        some (.error (.overrun maxBytes))
      else
        let value := value ||| bits <<< UInt64.ofNat shift
        if byte &&& 0x80 = 0 then do
          let last ← add offset index
          let next ← add last 1
          return .ok (value, next)
        else decodeFrom? buf offset maxBytes rounds (index + 1) value

def decode? (buf : Bytes) (offset maxBytes : Nat) :
    Checked (Except Varint.Fault (UInt64 × Nat)) :=
  decodeFrom? buf offset maxBytes maxBytes 0 0

/-- The first of the next offsets at which the bytes from there on are the needle. -/
def seek? (needle buf : Bytes) : (rounds offset : Nat) → Checked (Option Nat)
  | 0, _ => some none
  | rounds + 1, offset => do
    let stop ← add offset needle.length
    if stop ≤ buf.length && (buf.drop offset).take needle.length = needle then
      return some offset
    else seek? needle buf rounds (offset + 1)

def findMarker? (m : Marker) (buf : Bytes) (start : Nat) : Checked (Option Nat) :=
  if m.bytes.isEmpty then some none
  else seek? m.bytes buf (min (saturatingAdd start m.window) buf.length - start) start

/-- The offsets of the windows of a buffer that hold the name. -/
def windowsOf (buf name : Bytes) : List Nat :=
  (List.range (buf.length - name.length + 1)).filter fun offset =>
    (buf.drop offset).take name.length = name

/-- Whether the byte in front of an offset, which has to be there, is the length of the name. -/
def isPrefixed? (buf name : Bytes) (offset : Nat) : Checked Bool :=
  if 0 < offset then (buf[offset - 1]?).map fun b => decide (b.toNat = name.length)
  else some false

def findName? (buf name : Bytes) (preferLengthPrefixed : Bool) : Checked (Option Nat) :=
  if name.isEmpty || buf.length < name.length then some none
  else
    match windowsOf buf name with
    | [] => some none
    | first :: later =>
      if !preferLengthPrefixed || 0x80 ≤ name.length then some (some first)
      else do
        if ← isPrefixed? buf name first then return some first
        else return some ((← later.findM? (isPrefixed? buf name)).getD first)

def quotaAfter? (s : ScanSettings) (buf : Bytes) (start : Nat) : Checked (Option UInt64) := do
  match ← findMarker? s.markerPattern buf start with
  | none => return none
  | some offset =>
    let value ← add offset s.marker.length
    match ← decode? buf value s.maxVarintBytes.toNat with
    | .ok (value, _) => return some value
    | .error _ => return none

def record? (s : ScanSettings) (buf : Bytes) (identity : String) :
    Checked (Option QuotaRecord) := do
  let name := Bytes.ofText identity
  match ← findName? buf name s.preferLengthPrefixed with
  | none => return none
  | some offset =>
    let start ← add offset name.length
    let remaining ← quotaAfter? s buf start
    let limit := remaining.bind fun value => s.assumedLimit.map fun limit => max limit value
    return some { identity, limit, remaining, units := s.units }

/-- One record for each model of the catalog that is found. -/
def scan? (s : Scanner) (buf : Bytes) : Checked (List QuotaRecord) :=
  (s.catalog.mapM (record? s.settings buf)).map (List.filterMap id)

/-! ## Numbers -/

variable {buf needle name : Bytes} {offset index : Nat}

/-- A sum that fits is the sum. Every step of the machine is checked by showing this of it. -/
@[simp] theorem add_of_lt {a b : Nat} (h : a + b < UInt64.size) : add a b = some (a + b) :=
  if_pos h

/-- No buffer has a byte at a place that leaves the word. So a machine that stops at the sum and one
that finds no byte come to the same. -/
theorem add_bind_getElem? (hbuf : buf.length ≤ UInt64.size) (offset index : Nat) :
    (add offset index).bind (buf[·]?) = buf[offset + index]? := by
  by_cases h : offset + index < UInt64.size
  · rw [add_of_lt h, Option.bind_some]
  · rw [add, if_neg h, Option.bind_none, List.getElem?_eq_none (by omega)]

theorem toNat_bits (b : UInt8) : ((b &&& 0x7F).toUInt64).toNat = b.toNat % 128 := by
  simpa using Nat.and_two_pow_sub_one_eq_mod b.toNat 7

theorem highBit_eq_zero_iff (b : UInt8) : b &&& 0x80 = 0 ↔ b.toNat < 128 := by
  have hbit : b.toNat &&& 2 ^ 7 = b.toNat / 2 ^ 7 % 2 * 2 ^ 7 := by
    rw [Nat.and_two_pow, Nat.toNat_testBit]
  have hlt := b.toNat_lt
  rw [← UInt8.toNat_inj, UInt8.toNat_and, show (0x80 : UInt8).toNat = 2 ^ 7 from rfl, hbit,
    show (0 : UInt8).toNat = 0 from rfl]
  omega

/-- A shift below 64 is taken as it is: a machine would take it modulo 64. -/
theorem toNat_shift {shift : Nat} (h : shift < 64) : (UInt64.ofNat shift).toNat % 64 = shift := by
  rw [UInt64.toNat_ofNat', Nat.mod_eq_of_lt (by omega : shift < 2 ^ 64), Nat.mod_eq_of_lt h]

/-- What shifting right and comparing asks is whether the bits fit behind the others. The machine
cannot ask it of the shifted bits, for those would have lost what does not fit. -/
theorem greatest_shiftRight_lt_iff {shift : Nat} (h : shift < 64) (bits : UInt64) :
    (0 - 1 : UInt64) >>> UInt64.ofNat shift < bits ↔ UInt64.size ≤ bits.toNat <<< shift := by
  have hgreatest : (0 - 1 : UInt64).toNat = UInt64.size - 1 := by decide
  rw [UInt64.lt_iff_toNat_lt, UInt64.toNat_shiftRight, toNat_shift h, hgreatest,
    Nat.shiftRight_eq_div_pow, Nat.shiftLeft_eq, Nat.div_lt_iff_lt_mul (Nat.two_pow_pos shift)]
  have : 0 < UInt64.size := by decide
  omega

/-- The same of the byte at an index, of which the eleventh is too far up in any case. -/
theorem overrun_iff (bits : UInt64) :
    (64 ≤ 7 * index ∨ (0 - 1 : UInt64) >>> UInt64.ofNat (7 * index) < bits)
      ↔ 10 ≤ index ∨ UInt64.size ≤ bits.toNat <<< (7 * index) := by
  rcases Nat.lt_or_ge index 10 with hlt | hge
  · rw [greatest_shiftRight_lt_iff (by omega)]
    omega
  · exact ⟨fun _ => .inl hge, fun _ => .inl (by omega)⟩

/-- Bits put in front of a smaller number are added to it: nothing of either is covered, and nothing
is shifted out. -/
theorem toNat_or_shiftLeft {shift : Nat} {value bits : UInt64} (h : shift < 64)
    (hvalue : value.toNat < 2 ^ shift) (hfits : bits.toNat <<< shift < UInt64.size) :
    (value ||| bits <<< UInt64.ofNat shift).toNat = value.toNat + bits.toNat <<< shift := by
  rw [UInt64.toNat_or, UInt64.toNat_shiftLeft, toNat_shift h, Nat.mod_eq_of_lt hfits, Nat.or_comm,
    ← Nat.shiftLeft_add_eq_or_of_lt hvalue, Nat.add_comm]

/-- What a machine does with one byte, in numbers that neither shift nor wrap. -/
theorem decodeFrom?_of_byte (hbuf : buf.length < UInt64.size) {maxBytes rounds : Nat}
    {value : UInt64} {byte : UInt8} (hbyte : buf[offset + index]? = some byte)
    (hindex : index ≤ 10) :
    decodeFrom? buf offset maxBytes (rounds + 1) index value =
      if 10 ≤ index ∨ UInt64.size ≤ (byte.toNat % 128) <<< (7 * index) then
        some (.error (.overrun maxBytes))
      else
        let value := value ||| (byte &&& 0x7F).toUInt64 <<< UInt64.ofNat (7 * index)
        if byte.toNat < 128 then some (.ok (value, offset + (index + 1)))
        else decodeFrom? buf offset maxBytes rounds (index + 1) value := by
  obtain ⟨hlt, -⟩ := List.getElem?_eq_some_iff.mp hbyte
  -- the bound on the index keeps all of this within words
  have hcounted : index % UInt32.size = index := Nat.mod_eq_of_lt (by unfold UInt32.size; omega)
  have hshift : ¬UInt32.size ≤ 7 * index := by unfold UInt32.size; omega
  have hlast : add offset index = some (offset + index) := add_of_lt (by omega)
  have hnext : add (offset + index) 1 = some (offset + index + 1) := add_of_lt (by omega)
  rw [decodeFrom?, add_bind_getElem? (by omega), hbyte]
  simp only [hcounted, if_neg hshift, overrun_iff, toNat_bits, highBit_eq_zero_iff, hlast, hnext,
    Option.bind_eq_bind, Option.bind_some]
  rfl

/-- Reading on, step by step. The machine counts its rounds down from the cap and the scanner counts
its bytes up to it, so both together are the cap. -/
theorem decodeFrom?_eq (hbuf : buf.length < UInt64.size) {maxBytes : Nat} :
    ∀ {rounds index : Nat} {value : UInt64}, index + rounds = maxBytes → index ≤ 10 →
      value.toNat < 2 ^ (7 * index) →
        decodeFrom? buf offset maxBytes rounds index value
          = some ((Varint.decodeFrom maxBytes index value.toNat (buf.drop (offset + index))).map
              fun (value, length) => (value, offset + length))
  -- the number so far stays below the place of the next bits, so that these are added to it
  | 0, index, value, hrounds, hindex, hvalue => by
    have hall : maxBytes ≤ index := by omega
    rw [decodeFrom?]
    cases buf.drop (offset + index) <;> simp [Varint.decodeFrom, hall, Except.map]
  | rounds + 1, index, value, hrounds, hindex, hvalue => by
    have hmore : ¬maxBytes ≤ index := by omega
    -- the buffer ends here, or there is a byte
    cases hbyte : buf[offset + index]? with
    | none =>
      rw [decodeFrom?, add_bind_getElem? (by omega), hbyte,
        List.drop_eq_nil_of_le (List.getElem?_eq_none_iff.mp hbyte)]
      simp [Varint.decodeFrom, hmore, Except.map]
    | some byte =>
      rw [decodeFrom?_of_byte hbuf hbyte hindex]
      obtain ⟨hlt, rfl⟩ := List.getElem?_eq_some_iff.mp hbyte
      rw [List.drop_eq_getElem_cons hlt, Varint.decodeFrom]
      generalize buf[offset + index] = byte
      have hbits := toNat_bits byte
      generalize (byte &&& 0x7F).toUInt64 = bits at hbits ⊢
      rw [← hbits]
      by_cases hover : 10 ≤ index ∨ UInt64.size ≤ bits.toNat <<< (7 * index)
      · rw [if_pos hover, if_pos (by simpa [hmore] using hover)]
        rfl
      · have hmodel : ¬(maxBytes ≤ index || 10 ≤ index
            || UInt64.size ≤ bits.toNat <<< (7 * index)) = true := by simpa [hmore] using hover
        obtain ⟨hten, hroom⟩ := not_or.mp hover
        have hsum := toNat_or_shiftLeft (show 7 * index < 64 by omega) hvalue (Nat.not_le.mp hroom)
        rw [if_neg hover, if_neg hmodel, ← hsum]
        -- the number ends with this byte, or it goes on with a sum that keeps the bound
        by_cases hlast : byte.toNat < 128
        · rw [if_pos hlast, if_pos hlast, UInt64.ofNat_toNat]
          rfl
        · have hgrown : (value ||| bits <<< UInt64.ofNat (7 * index)).toNat
              < 2 ^ (7 * (index + 1)) := by
            have hpow : 2 ^ (7 * (index + 1)) = 128 * 2 ^ (7 * index) := by
              rw [show 7 * (index + 1) = 7 + 7 * index by omega, Nat.pow_add]
            have hseven : bits.toNat * 2 ^ (7 * index) ≤ 127 * 2 ^ (7 * index) :=
              Nat.mul_le_mul_right _ (by omega)
            rw [hsum, Nat.shiftLeft_eq, hpow]
            omega
          rw [if_neg hlast, if_neg hlast, decodeFrom?_eq hbuf (by omega) (by omega) hgrown]
          rfl

theorem decode?_eq (hbuf : buf.length < UInt64.size) (offset maxBytes : Nat) :
    decode? buf offset maxBytes = some (Varint.decode buf offset maxBytes) :=
  decodeFrom?_eq hbuf (by omega) (by omega) (by decide)

/-! ## Markers -/

/-- No needle stands behind the end of a buffer. -/
theorem seek_min (hne : needle ≠ []) (limit : Nat) (buf : Bytes) :
    Bytes.seek needle (min limit buf.length) buf = Bytes.seek needle limit buf := by
  refine Option.ext fun offset => ?_
  rw [Bytes.seek_eq_some_iff hne, Bytes.seek_eq_some_iff hne]
  refine ⟨fun ⟨hlt, hstands⟩ => ⟨by omega, hstands⟩, fun ⟨hlt, hstands, hleast⟩ => ?_⟩
  have hroom := Bytes.add_length_le hne hstands
  have hpos := List.length_pos_iff.mpr hne
  -- what stands ends in the buffer, so it begins in it
  exact ⟨by omega, hstands, hleast⟩

/-- Comparing what lies in a range of the buffer, if it has that range, is looking for a prefix. -/
theorem take_drop_eq_iff :
    offset + needle.length ≤ buf.length ∧ (buf.drop offset).take needle.length = needle
      ↔ needle <+: buf.drop offset ∧ offset ≤ buf.length := by
  rw [List.prefix_iff_eq_take]
  refine ⟨fun ⟨hroom, heq⟩ => ⟨heq.symm, by omega⟩, fun ⟨heq, hle⟩ => ⟨?_, heq.symm⟩⟩
  have := congrArg List.length heq
  rw [List.length_take, List.length_drop] at this
  omega

/-- Looking for a needle, step by step: at each offset the machine compares a range of the buffer,
if it has one there. -/
theorem seek?_eq (hbuf : buf.length + needle.length < UInt64.size) :
    ∀ {rounds offset : Nat}, offset + rounds ≤ buf.length →
      seek? needle buf rounds offset
        = some ((Bytes.seek needle rounds (buf.drop offset)).map (offset + ·))
  | 0, offset, _ => by simp [seek?, Bytes.seek]
  | rounds + 1, offset, hrounds => by
    have hlater : seek? needle buf rounds (offset + 1) = _ := seek?_eq hbuf (by omega)
    -- comparing at this offset
    have hhere : (offset + needle.length ≤ buf.length
          && (buf.drop offset).take needle.length = needle) = true
        ↔ needle.isPrefixOf (buf.drop offset) = true := by
      rw [Bool.and_eq_true, decide_eq_true_iff, decide_eq_true_iff, take_drop_eq_iff,
        List.isPrefixOf_iff_prefix]
      exact and_iff_left (by omega)
    rw [seek?, add_of_lt (by omega), Option.bind_eq_bind, Option.bind_some, hlater,
      if_congr hhere rfl rfl, List.drop_eq_getElem_cons (by omega : offset < buf.length),
      Bytes.seek]
    split
    · rfl
    · rw [Option.map_map]
      congr 2
      funext i
      show offset + 1 + i = offset + (i + 1)
      omega

/-- A marker is found where the scanner finds it. The window may end behind the buffer and even
behind the word; the machine cuts it off at both, where there is nothing to find. -/
theorem findMarker?_eq {m : Marker} (hbuf : buf.length + m.bytes.length < UInt64.size)
    (start : Nat) : findMarker? m buf start = some (m.find? buf start) := by
  rw [findMarker?, Marker.find?]
  by_cases hempty : m.bytes.isEmpty = true
  · rw [if_pos hempty, if_pos hempty]
  · have hne : m.bytes ≠ [] := by simpa using hempty
    rw [if_neg hempty, if_neg hempty]
    rcases Nat.le_total start buf.length with hle | hge
    · have hrounds : min (saturatingAdd start m.window) buf.length - start
          = min m.window (buf.drop start).length := by
        rw [saturatingAdd, List.length_drop]
        omega
      rw [hrounds, seek?_eq hbuf (by rw [List.length_drop]; omega), seek_min hne]
    · -- behind the end there is nothing to look at
      have hnone : Bytes.seek m.bytes m.window [] = none := by
        cases m.window <;> rfl
      rw [Nat.sub_eq_zero_of_le (by omega), seek?, List.drop_eq_nil_of_le hge, hnone]
      rfl

/-! ## Names -/

/-- Comparing every window of the buffer lists the offsets at which a name stands: both lists are in
ascending order and have the same members. -/
theorem windowsOf_eq (hne : name ≠ []) (hle : name.length ≤ buf.length) :
    windowsOf buf name = Bytes.occurrences name buf := by
  have hsorted : (windowsOf buf name).Pairwise (· < ·) :=
    List.Pairwise.filter _ List.pairwise_lt_range
  refine hsorted.eq_of_mem_iff (Bytes.pairwise_occurrences hne) fun offset => ?_
  rw [Bytes.mem_occurrences hne, windowsOf, List.mem_filter, List.mem_range, decide_eq_true_iff]
  constructor
  · exact fun ⟨hlt, heq⟩ => (take_drop_eq_iff.mp ⟨by omega, heq⟩).1
  · intro hstands
    have hroom := Bytes.add_length_le hne hstands
    exact ⟨by omega, (take_drop_eq_iff.mpr ⟨hstands, by omega⟩).2⟩

/-- The byte in front of a name lies in the buffer, or the name stands at its start and there is
none. -/
theorem isPrefixed?_eq (hlt : offset < buf.length) :
    isPrefixed? buf name offset = some (isPrefixed buf name offset) := by
  rw [isPrefixed?, isPrefixed]
  split
  next hpos =>
    rw [List.getElem?_eq_getElem (by omega : offset - 1 < buf.length)]
    simp [hpos]
  next hzero => simp [hzero]

/-- A search whose questions are all answered does not stop, and finds what the plain search finds.
-/
theorem findM?_eq {offsets : List Nat} {p : Nat → Checked Bool} {q : Nat → Bool}
    (h : ∀ i ∈ offsets, p i = some (q i)) : offsets.findM? p = some (offsets.find? q) := by
  induction offsets with
  | nil => rfl
  | cons i later ih =>
    have hlater := ih fun j hj => h j (List.mem_cons_of_mem _ hj)
    rw [List.findM?, h i List.mem_cons_self, Option.bind_eq_bind, Option.bind_some, List.find?_cons,
      hlater]
    cases q i <;> rfl

/-- The place of a name. A name that is longer than the buffer is not compared at all, because the
machine would have to subtract the lengths. -/
theorem findName?_eq (buf name : Bytes) (preferLengthPrefixed : Bool) :
    findName? buf name preferLengthPrefixed
      = some (QuotaWatch.findName? buf name preferLengthPrefixed) := by
  rw [findName?, QuotaWatch.findName?]
  by_cases hempty : name = []
  · simp [hempty]
  have hisEmpty : name.isEmpty = false := by simpa using hempty
  have hpos := List.length_pos_iff.mpr hempty
  have hroom : ∀ i ∈ Bytes.occurrences name buf, i + name.length ≤ buf.length := fun i hi =>
    Bytes.add_length_le hempty ((Bytes.mem_occurrences hempty).mp hi)
  rw [hisEmpty, Bool.false_or, if_neg Bool.false_ne_true]
  by_cases hlong : buf.length < name.length
  · -- nothing fits into the buffer
    have hnone : Bytes.occurrences name buf = [] :=
      List.eq_nil_iff_forall_not_mem.mpr fun i hi => by have := hroom i hi; omega
    rw [hnone, if_pos (by simpa using hlong)]
  rw [if_neg (by simpa using hlong), windowsOf_eq hempty (by omega)]
  have hprefixed : ∀ i ∈ Bytes.occurrences name buf,
      isPrefixed? buf name i = some (isPrefixed buf name i) := fun i hi =>
    isPrefixed?_eq (by have := hroom i hi; omega)
  cases hall : Bytes.occurrences name buf with
  | nil => rfl
  | cons first later =>
    rw [hall] at hprefixed
    have hlater := findM?_eq fun i hi => hprefixed i (List.mem_cons_of_mem _ hi)
    -- the machine asks when not to look for lengths, the scanner when to look for them
    have hraw : (!preferLengthPrefixed || 0x80 ≤ name.length)
        = !(preferLengthPrefixed && name.length < 128) := by
      rw [Bool.not_and, ← decide_not]
      simp only [Nat.not_lt]
    simp only [hraw, hprefixed first List.mem_cons_self, hlater, List.find?_cons]
    cases preferLengthPrefixed && decide (name.length < 128) <;>
      cases isPrefixed buf name first <;> rfl

/-! ## Scans -/

/-- The quota behind a name: the number is read behind a marker that stands in the buffer, so its
offset fits. -/
theorem quotaAfter?_eq {s : ScanSettings} (hbuf : buf.length + s.marker.length < UInt64.size)
    (start : Nat) : quotaAfter? s buf start = some (s.quotaAfter buf start) := by
  rw [quotaAfter?, ScanSettings.quotaAfter, findMarker?_eq hbuf, Option.bind_eq_bind,
    Option.bind_some]
  cases hfind : s.markerPattern.find? buf start with
  | none => rfl
  | some offset =>
    obtain ⟨hne, ⟨_, _, hstands⟩, _⟩ := Marker.find?_eq_some_iff.mp hfind
    -- the marker stands in the buffer, so the place behind it is in it as well
    have hroom : offset + s.marker.length ≤ buf.length := Bytes.add_length_le hne hstands
    simp only [add_of_lt (by omega : offset + s.marker.length < UInt64.size),
      decode?_eq (by omega : buf.length < UInt64.size), Option.bind_eq_bind, Option.bind_some]
    cases Varint.decode buf (offset + s.marker.length) s.maxVarintBytes.toNat <;> rfl

/-- What is made of one model. The end of a name that was found fits into a word, because it lies in
the buffer. -/
theorem record?_eq {s : ScanSettings} (hbuf : buf.length + s.marker.length < UInt64.size)
    (identity : String) : record? s buf identity = some (s.record? buf identity) := by
  rw [record?, ScanSettings.record?]
  simp only [findName?_eq, Option.bind_eq_bind, Option.bind_some]
  cases hfind : QuotaWatch.findName? buf (Bytes.ofText identity) s.preferLengthPrefixed with
  | none => rfl
  | some offset =>
    obtain ⟨hne, hplace⟩ := findName?_eq_some_iff.mp hfind
    -- so is the place behind a name
    have hroom : offset + (Bytes.ofText identity).length ≤ buf.length :=
      Bytes.add_length_le hne hplace.stands
    simp only [add_of_lt (by omega : offset + (Bytes.ofText identity).length < UInt64.size),
      quotaAfter?_eq hbuf, Option.bind_some]
    rfl

/-- **A scan of what fits into memory never stops**, and finds what the scan with natural numbers
finds. -/
theorem scan?_eq {s : Scanner} (hbuf : buf.length + s.settings.marker.length < UInt64.size) :
    scan? s buf = some (s.scan buf) := by
  have hrecords : record? s.settings buf = fun identity => pure (s.settings.record? buf identity) :=
    funext fun identity => record?_eq hbuf identity
  rw [scan?, hrecords, List.mapM_pure, Scanner.scan]
  simp [List.filterMap_map]

end QuotaWatch.Words
