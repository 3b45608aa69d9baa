import QuotaWatch.Proofs.Blob.Words

/-!
# Which bytes are a number

A number is a run of bytes of which exactly the last one is below 128, and it stands for the sum of
their groups of seven bits (`sumFrom`). `IsNumber` says that the bytes at an offset begin with one
that may be read, and `IsCut` that they end inside one.

* **`decode_exact`**: what is read is such a number, with its sum and the offset behind it; where
  the bytes end inside a number, that is the fault; everything else is an overrun. A machine of 64
  bits finds the same and leaves neither its words nor the buffer.

The sum of some groups fits into 64 bits if each of them does (`add_group_lt`), which is what the
reader looks at.
-/

namespace QuotaWatch.Varint

variable {maxBytes index value offset : Nat} {bytes front : Bytes} {b last : UInt8}

/-- The sum of groups of seven bits, of which the first one is the group `index` of a number. -/
def sumFrom : (index : Nat) → Bytes → Nat
  | _, [] => 0
  | index, b :: rest => b.toNat % 128 * 2 ^ (7 * index) + sumFrom (index + 1) rest

/-- Bytes of which exactly the last one ends a number. -/
def EndsOnce (bytes : Bytes) : Prop :=
  ∃ front last, bytes = front ++ [last] ∧ (∀ b ∈ front, 128 ≤ b.toNat) ∧ last.toNat < 128

/-- The next `length` bytes are a number that may be read. -/
structure IsNumber (buf : Bytes) (offset maxBytes length : Nat) : Prop where
  pos : 1 ≤ length
  cap : length ≤ min maxBytes 10
  room : offset + length ≤ buf.length
  ending : EndsOnce ((buf.drop offset).take length)
  fits : sumFrom 0 ((buf.drop offset).take length) < 2 ^ 64

/-- The bytes end inside a number that might have been read. -/
structure IsCut (buf : Bytes) (offset maxBytes : Nat) : Prop where
  cap : (buf.drop offset).length < maxBytes
  goesOn : ∀ b ∈ buf.drop offset, 128 ≤ b.toNat
  short : (buf.drop offset).length ≤ 10
  tenth : ∀ b, (buf.drop offset)[9]? = some b → b.toNat % 128 ≤ 1

/-! ## Groups -/

/-- Ten groups take seventy bits, and the tenth has room for one. -/
theorem group_lt_iff (hindex : index < 10) (c : Nat) (hc : c < 128) :
    c * 2 ^ (7 * index) < 2 ^ 64 ↔ (index = 9 → c ≤ 1) := by
  rcases Nat.lt_or_ge index 9 with hlt | hge
  · have hpow : 2 ^ (7 * index) ≤ 2 ^ 56 := Nat.pow_le_pow_right (by decide) (by omega)
    have hgroup : c * 2 ^ (7 * index) ≤ 127 * 2 ^ 56 := Nat.mul_le_mul (by omega) hpow
    constructor
    · omega
    · intro _
      omega
  · obtain rfl : index = 9 := by omega
    omega

/-- A group that fits into 64 bits does so with everything below it: what is below is less than one
unit of the group, and 64 bits are a whole number of these units. This is why the reader may look at
each group alone. -/
theorem add_group_lt (hindex : index < 10) (hvalue : value < 2 ^ (7 * index)) {c : Nat}
    (hgroup : c * 2 ^ (7 * index) < 2 ^ 64) : value + c * 2 ^ (7 * index) < 2 ^ 64 := by
  -- 64 bits in units of this group
  have hsplit : 2 ^ 64 = 2 ^ (64 - 7 * index) * 2 ^ (7 * index) := by
    rw [← Nat.pow_add, Nat.sub_add_cancel (by omega)]
  rw [hsplit] at hgroup ⊢
  have hc : c + 1 ≤ 2 ^ (64 - 7 * index) := Nat.lt_of_mul_lt_mul_right hgroup
  calc value + c * 2 ^ (7 * index) < 2 ^ (7 * index) + c * 2 ^ (7 * index) :=
        Nat.add_lt_add_right hvalue _
    _ = (c + 1) * 2 ^ (7 * index) := by rw [Nat.add_mul, Nat.one_mul, Nat.add_comm]
    _ ≤ 2 ^ (64 - 7 * index) * 2 ^ (7 * index) := Nat.mul_le_mul_right _ hc

/-- What has been read stays below the place of the next group. This is the invariant of reading on.
-/
theorem add_group_lt_next (hvalue : value < 2 ^ (7 * index)) {c : Nat} (hc : c < 128) :
    value + c * 2 ^ (7 * index) < 2 ^ (7 * (index + 1)) := by
  have hpow : 2 ^ (7 * (index + 1)) = 128 * 2 ^ (7 * index) := by
    rw [show 7 * (index + 1) = 7 + 7 * index by omega, Nat.pow_add]
  have hgroup : c * 2 ^ (7 * index) ≤ 127 * 2 ^ (7 * index) := Nat.mul_le_mul_right _ (by omega)
  omega

/-! ## Reading on -/

/-- One step of reading on, with the shift as a product. The three reasons for an overrun are asked
in one go, because nothing below has to tell them apart. -/
theorem decodeFrom_cons (maxBytes index value : Nat) (b : UInt8) (rest : Bytes) :
    decodeFrom maxBytes index value (b :: rest) =
      if maxBytes ≤ index ∨ 10 ≤ index ∨ 2 ^ 64 ≤ b.toNat % 128 * 2 ^ (7 * index) then
        .error (.overrun maxBytes)
      else if b.toNat < 128 then
        .ok (UInt64.ofNat (value + b.toNat % 128 * 2 ^ (7 * index)), index + 1)
      else decodeFrom maxBytes (index + 1) (value + b.toNat % 128 * 2 ^ (7 * index)) rest := by
  rw [decodeFrom, Nat.shiftLeft_eq]
  simp only [Bool.or_eq_true, decide_eq_true_eq, or_assoc]
  rfl

/-- Nothing else can come of reading on: the only fault besides the early end is the overrun, and it
always names the cap. -/
theorem decodeFrom_cases (maxBytes : Nat) : ∀ (bytes : Bytes) (index value : Nat),
    (∃ r, decodeFrom maxBytes index value bytes = .ok r)
      ∨ decodeFrom maxBytes index value bytes = .error .truncated
      ∨ decodeFrom maxBytes index value bytes = .error (.overrun maxBytes)
  | [], index, value => by
    rw [decodeFrom]
    split
    · exact .inr (.inr rfl)
    · exact .inr (.inl rfl)
  | b :: rest, index, value => by
    rw [decodeFrom_cons]
    split
    · exact .inr (.inr rfl)
    split
    · exact .inl ⟨_, rfl⟩
    · exact decodeFrom_cases maxBytes rest _ _

/-! A run that a byte begins has this byte as its last one, or goes on behind it. -/

section

variable {rest after : Bytes}

/-- A byte below 128 is the last one of the run that it begins. -/
theorem split_of_lt (h : b :: rest = front ++ last :: after) (hfront : ∀ c ∈ front, 128 ≤ c.toNat)
    (hb : b.toNat < 128) : front = [] ∧ last = b := by
  cases front with
  | nil => exact ⟨rfl, (List.cons.inj h).1.symm⟩
  | cons first more =>
    obtain ⟨rfl, -⟩ := List.cons.inj h
    exact absurd (hfront b List.mem_cons_self) (Nat.not_le.mpr hb)

/-- Behind any other byte the run goes on, with the same end. -/
theorem split_of_le (h : b :: rest = front ++ last :: after) (hlast : last.toNat < 128)
    (hb : 128 ≤ b.toNat) : ∃ more, front = b :: more ∧ rest = more ++ last :: after := by
  cases front with
  | nil =>
    obtain ⟨rfl, -⟩ := List.cons.inj h
    exact absurd hb (Nat.not_le.mpr hlast)
  | cons first more =>
    obtain ⟨rfl, hrest⟩ := List.cons.inj h
    exact ⟨more, rfl, hrest⟩

/-- The first group is a part of the sum, so a group that is too large makes the sum too large. It
does not matter here whether the run goes on. -/
theorem first_group_le (h : b :: rest = front ++ last :: after) (index : Nat) :
    b.toNat % 128 * 2 ^ (7 * index) ≤ sumFrom index (front ++ [last]) := by
  cases front with
  | nil =>
    obtain ⟨rfl, -⟩ := List.cons.inj h
    exact Nat.le_add_right _ _
  | cons first more =>
    obtain ⟨rfl, -⟩ := List.cons.inj h
    exact Nat.le_add_right _ _

end

/-- **What reading on gives**: the groups up to the first byte that ends the number. Induction on
the bytes; what was read so far stays below the place of the next group. -/
theorem decodeFrom_ok_iff {v : UInt64} {length : Nat} :
    ∀ {bytes : Bytes} {index value : Nat}, value < 2 ^ (7 * index) →
      (decodeFrom maxBytes index value bytes = .ok (v, length)
        ↔ ∃ front last rest, bytes = front ++ last :: rest ∧ (∀ b ∈ front, 128 ≤ b.toNat)
          ∧ last.toNat < 128 ∧ length = index + front.length + 1 ∧ length ≤ min maxBytes 10
          ∧ value + sumFrom index (front ++ [last]) < 2 ^ 64
          ∧ v.toNat = value + sumFrom index (front ++ [last])) := by
  intro bytes
  induction bytes with
  | nil =>
    intro index value _
    rw [decodeFrom]
    simp
  | cons b rest ih =>
    intro index value hvalue
    rw [decodeFrom_cons]
    split
    next hover =>
      -- an overrun: the cap, the tenth byte or the first group stand against any run
      refine ⟨by rintro ⟨⟩, ?_⟩
      rintro ⟨front, last, after, hsplit, -, -, rfl, hcap, hfits, -⟩
      have hgroup := first_group_le hsplit index
      omega
    next hover =>
    obtain ⟨hmax, hten, hgroup⟩ : index < maxBytes ∧ index < 10
        ∧ b.toNat % 128 * 2 ^ (7 * index) < 2 ^ 64 := by omega
    have hfits := add_group_lt hten hvalue hgroup
    split
    -- the byte ends the number, so the run is this byte
    next hlast =>
      constructor
      · rintro ⟨⟩
        have hsum : sumFrom index ([] ++ [b]) = b.toNat % 128 * 2 ^ (7 * index) := rfl
        refine ⟨[], b, rest, rfl, by simp, hlast, rfl, by omega, by rwa [hsum], ?_⟩
        rw [hsum, UInt64.toNat_ofNat', Nat.mod_eq_of_lt hfits]
      · rintro ⟨front, last, after, hsplit, hfront, -, rfl, -, -, hv⟩
        obtain ⟨rfl, rfl⟩ := split_of_lt hsplit hfront hlast
        have hv : v.toNat = value + last.toNat % 128 * 2 ^ (7 * index) := hv
        rw [← hv, UInt64.ofNat_toNat]
        rfl
    -- the number goes on: a run behind the byte is one that begins with it
    next hmore =>
      rw [ih (add_group_lt_next hvalue (Nat.mod_lt _ (by decide)))]
      constructor
      · rintro ⟨front, last, after, rfl, hfront, hlast, rfl, hcap, hfits, hv⟩
        refine ⟨b :: front, last, after, rfl,
          List.forall_mem_cons.mpr ⟨Nat.not_lt.mp hmore, hfront⟩, hlast,
          by simp only [List.length_cons]; omega, hcap, ?_, ?_⟩
        · rwa [List.cons_append, sumFrom, ← Nat.add_assoc]
        · rwa [List.cons_append, sumFrom, ← Nat.add_assoc]
      · rintro ⟨front, last, after, hsplit, hfront, hlast, rfl, hcap, hfits, hv⟩
        obtain ⟨more, rfl, hrest⟩ := split_of_le hsplit hlast (Nat.not_lt.mp hmore)
        rw [List.cons_append, sumFrom, ← Nat.add_assoc] at hfits hv
        exact ⟨more, last, after, hrest, fun c hc => hfront c (List.mem_cons_of_mem _ hc), hlast,
          by simp only [List.length_cons]; omega, hcap, hfits, hv⟩

/-- **When the bytes end inside a number**: none of them ends it, the cap is not reached, and no
group was too large. Only the tenth byte can hold such a group, so that is asked of it alone. -/
theorem decodeFrom_truncated_iff : ∀ {bytes : Bytes} {index value : Nat}, index ≤ 10 →
    (decodeFrom maxBytes index value bytes = .error .truncated
      ↔ index + bytes.length < maxBytes ∧ (∀ b ∈ bytes, 128 ≤ b.toNat)
        ∧ index + bytes.length ≤ 10
        ∧ ∀ i b, index + i = 9 → bytes[i]? = some b → b.toNat % 128 ≤ 1) := by
  intro bytes
  induction bytes with
  | nil =>
    intro index value hindex
    rw [decodeFrom]
    split <;> simp <;> omega
  | cons b rest ih =>
    intro index value hindex
    rw [decodeFrom_cons]
    split
    next hover =>
      refine ⟨by rintro ⟨⟩, ?_⟩
      rintro ⟨hcap, -, hshort, htenth⟩
      simp only [List.length_cons] at hcap hshort
      -- an overrun is no early end: each of its reasons contradicts one of the conditions
      have hgroup := (group_lt_iff (by omega : index < 10) _ (Nat.mod_lt b.toNat (by decide))).mpr
        fun hnine => htenth 0 b hnine rfl
      omega
    next hover =>
    obtain ⟨hmax, hten, hgroup⟩ : index < maxBytes ∧ index < 10
        ∧ b.toNat % 128 * 2 ^ (7 * index) < 2 ^ 64 := by omega
    rw [group_lt_iff hten _ (Nat.mod_lt _ (by decide))] at hgroup
    split
    next hlast =>
      refine ⟨by rintro ⟨⟩, ?_⟩
      rintro ⟨-, hgoesOn, -, -⟩
      have := hgoesOn b List.mem_cons_self
      omega
    next hmore =>
      rw [ih (by omega), List.length_cons, List.forall_mem_cons, Nat.add_right_comm index 1,
        ← Nat.add_assoc index]
      refine and_congr_right fun _ => ?_
      rw [and_iff_right (by omega : 128 ≤ b.toNat)]
      refine and_congr_right fun _ => and_congr_right fun _ => ?_
      constructor
      · intro h i c hi hc
        -- the tenth byte is this one or lies behind it
        cases i with
        | zero =>
          obtain rfl : b = c := by simpa using hc
          exact hgroup (by omega)
        | succ i => exact h i c (by omega) (by simpa using hc)
      · intro h i c hi hc
        exact h (i + 1) c (by omega) (by simpa using hc)

/-! ## Reading at an offset -/

/-- A number is read at an offset exactly if one stands there, and then it is the sum of its groups.
What reading on says of a front, a last byte and a rest, `IsNumber` says of the bytes that are
taken. -/
theorem decode_ok_iff_isNumber (buf : Bytes) (offset maxBytes : Nat) (v : UInt64) (next : Nat) :
    decode buf offset maxBytes = .ok (v, next)
      ↔ ∃ length, IsNumber buf offset maxBytes length
        ∧ v.toNat = sumFrom 0 ((buf.drop offset).take length) ∧ next = offset + length := by
  have hmap : decode buf offset maxBytes = .ok (v, next)
      ↔ ∃ length, decodeFrom maxBytes 0 0 (buf.drop offset) = .ok (v, length)
        ∧ next = offset + length := by
    rw [decode]
    cases decodeFrom maxBytes 0 0 (buf.drop offset) with
    | error fault => simp [Except.map]
    | ok r => simp [Except.map, Prod.ext_iff, and_assoc, eq_comm]
  rw [hmap]
  refine exists_congr fun length => ?_
  rw [decodeFrom_ok_iff (by decide)]
  constructor
  · rintro ⟨⟨front, last, rest, hsplit, hfront, hlast, rfl, hcap, hfits, hv⟩, rfl⟩
    -- the bytes of the number are the front and the last byte
    have htake : (buf.drop offset).take (0 + front.length + 1) = front ++ [last] := by
      rw [hsplit, Nat.zero_add, List.take_append, List.take_of_length_le (by omega)]
      simp
    have hlength := congrArg List.length hsplit
    rw [List.length_drop, List.length_append, List.length_cons] at hlength
    rw [Nat.zero_add] at hfits hv
    refine ⟨⟨by omega, hcap, by omega, ?_, ?_⟩, ?_, rfl⟩
    · rw [htake]
      exact ⟨front, last, rfl, hfront, hlast⟩
    · rwa [htake]
    · rwa [htake]
  · rintro ⟨⟨hpos, hcap, hroom, ⟨front, last, htake, hfront, hlast⟩, hfits⟩, hv, rfl⟩
    have hlength := congrArg List.length htake
    rw [List.length_take, List.length_drop, List.length_append, List.length_singleton] at hlength
    rw [htake] at hfits hv
    refine ⟨⟨front, last, (buf.drop offset).drop length, ?_, hfront, hlast, by omega, hcap,
      by simpa using hfits, by simpa using hv⟩, rfl⟩
    calc buf.drop offset = (buf.drop offset).take length ++ (buf.drop offset).drop length :=
          (List.take_append_drop _ _).symm
      _ = front ++ last :: (buf.drop offset).drop length := by simp [htake]

/-- **A number that was read is read again** with a higher cap and with more bytes behind. Nothing
that makes up a number lies behind it. -/
theorem decode_grow {buf buf' : Bytes} {maxBytes' next : Nat} {v : UInt64} (hbuf : buf <+: buf')
    (hcap : maxBytes ≤ maxBytes') (h : decode buf offset maxBytes = .ok (v, next)) :
    decode buf' offset maxBytes' = .ok (v, next) := by
  obtain ⟨length, hnumber, hv, hnext⟩ := (decode_ok_iff_isNumber _ _ _ _ _).mp h
  obtain ⟨more, rfl⟩ := hbuf
  have hroom := hnumber.room
  have hmore := hnumber.cap
  -- the bytes of the number lie in the part that was there before
  have htake : ((buf ++ more).drop offset).take length = (buf.drop offset).take length := by
    rw [List.drop_append_of_le_length (by omega),
      List.take_append_of_le_length (by rw [List.length_drop]; omega)]
  refine (decode_ok_iff_isNumber _ _ _ _ _).mpr ⟨length, ⟨hnumber.pos, by omega, ?_, ?_, ?_⟩, ?_,
    hnext⟩
  · rw [List.length_append]
    omega
  · exact htake ▸ hnumber.ending
  · exact htake ▸ hnumber.fits
  · rw [htake, hv]

/-- The early end at an offset. `IsCut` asks of the bytes from there on what reading on asks of its
bytes. -/
theorem decode_truncated_iff (buf : Bytes) (offset maxBytes : Nat) :
    decode buf offset maxBytes = .error .truncated ↔ IsCut buf offset maxBytes := by
  have hmap : decode buf offset maxBytes = .error .truncated
      ↔ decodeFrom maxBytes 0 0 (buf.drop offset) = .error .truncated := by
    rw [decode]
    cases decodeFrom maxBytes 0 0 (buf.drop offset) <;> simp [Except.map]
  rw [hmap, decodeFrom_truncated_iff (by decide)]
  -- the tenth byte is the one that may carry a single bit
  simp only [Nat.zero_add]
  constructor
  · rintro ⟨hcap, hgoesOn, hshort, htenth⟩
    exact ⟨hcap, hgoesOn, hshort, fun b hb => htenth 9 b rfl hb⟩
  · rintro ⟨hcap, hgoesOn, hshort, htenth⟩
    exact ⟨hcap, hgoesOn, hshort, by rintro _ b rfl hb; exact htenth b hb⟩

/-- Reading at an offset ends in one of three ways. So what is neither a number nor cut off is an
overrun, without a third description. -/
theorem decode_cases (buf : Bytes) (offset maxBytes : Nat) :
    (∃ v next, decode buf offset maxBytes = .ok (v, next))
      ∨ decode buf offset maxBytes = .error .truncated
      ∨ decode buf offset maxBytes = .error (.overrun maxBytes) := by
  rw [decode]
  rcases decodeFrom_cases maxBytes (buf.drop offset) 0 0 with ⟨⟨v, length⟩, h⟩ | h | h
  · exact .inl ⟨v, offset + length, by rw [h]; rfl⟩
  · exact .inr (.inl (by rw [h]; rfl))
  · exact .inr (.inr (by rw [h]; rfl))

/-- **Reading a number is exact**, for every buffer, offset and cap.

* A number is read if there is one, and then it is the sum of its groups.
* The bytes are found to end too early if they end inside a number, of which no group was too large.
* All else is an overrun.
* On a machine of 64 bits no sum, shift or index goes too far on the way. -/
theorem decode_exact (buf : Bytes) (offset maxBytes : Nat) :
    (∀ v next, decode buf offset maxBytes = .ok (v, next)
        ↔ ∃ length, IsNumber buf offset maxBytes length
          ∧ v.toNat = sumFrom 0 ((buf.drop offset).take length) ∧ next = offset + length)
      ∧ (decode buf offset maxBytes = .error .truncated ↔ IsCut buf offset maxBytes)
      ∧ (decode buf offset maxBytes = .error (.overrun maxBytes)
        ↔ (¬∃ length, IsNumber buf offset maxBytes length) ∧ ¬IsCut buf offset maxBytes)
      ∧ (buf.length < UInt64.size →
          Words.decode? buf offset maxBytes = some (decode buf offset maxBytes)) := by
  have hok := decode_ok_iff_isNumber buf offset maxBytes
  have hcut := decode_truncated_iff buf offset maxBytes
  refine ⟨hok, hcut, ⟨fun hover => ⟨?_, ?_⟩, ?_⟩, fun hbuf => Words.decode?_eq hbuf offset maxBytes⟩
  · rintro ⟨length, hnumber⟩
    have hsum : (UInt64.ofNat (sumFrom 0 ((buf.drop offset).take length))).toNat
        = sumFrom 0 ((buf.drop offset).take length) := by
      rw [UInt64.toNat_ofNat', Nat.mod_eq_of_lt hnumber.fits]
    cases hover.symm.trans ((hok _ _).mpr ⟨length, hnumber, hsum, rfl⟩)
  · intro h
    cases hover.symm.trans (hcut.mpr h)
  · rintro ⟨hnone, hwhole⟩
    -- there is no other way to fail
    rcases decode_cases buf offset maxBytes with ⟨v, next, h⟩ | h | h
    · obtain ⟨length, hnumber, -⟩ := (hok v next).mp h
      exact absurd ⟨length, hnumber⟩ hnone
    · exact absurd (hcut.mp h) hwhole
    · exact h

/-- A number of ten bytes at the very limit, behind another byte. -/
theorem decode_exact_greatest :
    let buf : Bytes := 0x00 :: List.replicate 9 0xFF ++ [0x01]
    buf.length < UInt64.size ∧ Words.decode? buf 1 12 = some (.ok (0xFFFFFFFFFFFFFFFF, 11)) := by
  intro buf
  obtain ⟨-, -, -, hwords⟩ := decode_exact buf 1 12
  refine ⟨by decide, ?_⟩
  rw [hwords (by decide)]
  rfl

end QuotaWatch.Varint
