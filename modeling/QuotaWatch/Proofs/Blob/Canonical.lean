import QuotaWatch.Proofs.Blob.Groups
import QuotaWatch.Proofs.Blob.Varint

/-!
# Numbers in the fewest bytes

A number can be spelled in several ways, for groups of zeros at the end add nothing to it. What
`encode` writes is the shortest spelling, and the only one that does not end in such a group.

* **`encode_sumFrom_eq_iff`**: a spelling is what is written for its sum if it is a single byte or
  its last byte is not zero; in any case it is not shorter (`length_encode_sumFrom_le`).
* **`reads_iff`**: numbers written one after the other are read one after the other, and no other
  numbers are.
* **`inverse_laws`**: how writing and reading undo each other.
-/

namespace QuotaWatch.Varint

variable {offset maxBytes next stop : Nat} {bytes front buf : Bytes} {last : UInt8} {v : UInt64}
  {read : List UInt64}

/-! ## Sums of groups -/

/-- Groups one place further up are worth 128 times as much, for a place is seven bits. -/
theorem sumFrom_succ (bytes : Bytes) :
    ∀ index, sumFrom (index + 1) bytes = 128 * sumFrom index bytes := by
  induction bytes with
  | nil => exact fun _ => rfl
  | cons b rest ih =>
    intro index
    have hpow : 2 ^ (7 * (index + 1)) = 128 * 2 ^ (7 * index) := by
      rw [show 7 * (index + 1) = 7 + 7 * index by omega, Nat.pow_add]
    rw [sumFrom, sumFrom, ih (index + 1), hpow, Nat.mul_add, Nat.mul_left_comm]

/-- The first group and the rest. This is the recursion of `encode` seen from the reading side. -/
theorem sumFrom_zero_cons (b : UInt8) (rest : Bytes) :
    sumFrom 0 (b :: rest) = b.toNat % 128 + 128 * sumFrom 0 rest := by
  rw [sumFrom, sumFrom_succ, Nat.mul_zero, Nat.pow_zero, Nat.mul_one]

/-- Each group takes seven bits, so so many groups stay below so many powers of 128. -/
theorem sumFrom_lt (bytes : Bytes) : sumFrom 0 bytes < 2 ^ (7 * bytes.length) := by
  induction bytes with
  | nil => exact Nat.one_pos
  | cons b rest ih =>
    have hpow : 2 ^ (7 * (rest.length + 1)) = 128 * 2 ^ (7 * rest.length) := by
      rw [show 7 * (rest.length + 1) = 7 + 7 * rest.length by omega, Nat.pow_add]
    have hgroup : b.toNat % 128 < 128 := Nat.mod_lt _ (by decide)
    rw [sumFrom_zero_cons, List.length_cons, hpow]
    omega

/-- A group of zeros at the end adds nothing. It is why a number has more than one spelling. -/
theorem sumFrom_concat_zero (front : Bytes) : sumFrom 0 (front ++ [0]) = sumFrom 0 front := by
  induction front with
  | nil => rfl
  | cons b rest ih => rw [List.cons_append, sumFrom_zero_cons, sumFrom_zero_cons, ih]

/-- A last group that is not zero is worth something, however low the groups in front of it are. -/
theorem sumFrom_concat_pos (hlast : last.toNat < 128) (hne : last ≠ 0) (front : Bytes) :
    0 < sumFrom 0 (front ++ [last]) := by
  induction front with
  | nil =>
    have hpos : last.toNat ≠ 0 := fun h => hne (UInt8.toNat_inj.mp h)
    rw [List.nil_append, sumFrom_zero_cons, Nat.mod_eq_of_lt hlast]
    omega
  | cons b rest ih =>
    rw [List.cons_append, sumFrom_zero_cons]
    omega

/-! ## The shortest spelling -/

/-- No spelling is shorter than what is written: a sum of so many groups is below a power of 128,
and that many bytes are enough to write it. -/
theorem length_encode_sumFrom_le (hne : bytes ≠ []) :
    (encode (sumFrom 0 bytes)).length ≤ bytes.length := by
  obtain ⟨k, hk⟩ := Nat.exists_eq_succ_of_ne_zero (List.length_pos_iff.mpr hne).ne'
  have hlt := sumFrom_lt bytes
  rw [hk] at hlt ⊢
  exact length_encode_le hlt

/-- A spelling that does not end in a group of zeros is what is written. Induction on the bytes in
front of the last one, each of which is written if something is left for those behind it. -/
theorem encode_sumFrom (hlast : last.toNat < 128) :
    ∀ {front : Bytes}, (∀ b ∈ front, 128 ≤ b.toNat) → front = [] ∨ last ≠ 0 →
      encode (sumFrom 0 (front ++ [last])) = front ++ [last]
  | [], _, _ => by
    rw [List.nil_append, sumFrom_zero_cons, Nat.mod_eq_of_lt hlast]
    exact (encode_of_lt hlast).trans (by rw [UInt8.ofNat_toNat])
  | b :: rest, hfront, hends => by
    have hne : last ≠ 0 := hends.resolve_left (List.cons_ne_nil _ _)
    have hb := hfront b List.mem_cons_self
    have hbyte := b.toNat_lt
    have hrest := encode_sumFrom hlast (fun c hc => hfront c (List.mem_cons_of_mem b hc)) (.inr hne)
    have hpos := sumFrom_concat_pos hlast hne rest
    rw [List.cons_append, sumFrom_zero_cons]
    -- the byte is the low group of the sum, and what is left is the sum of the rest
    generalize sumFrom 0 (rest ++ [last]) = sum at hrest hpos
    have hgroup : (b.toNat % 128 + 128 * sum) % 128 + 128 = b.toNat := by omega
    have habove : (b.toNat % 128 + 128 * sum) / 128 = sum := by omega
    rw [encode_of_le (by omega), hgroup, habove, hrest, UInt8.ofNat_toNat]

/-- **A spelling is what is written exactly if it does not end in a group of zeros**, or is nothing
but one group. -/
theorem encode_sumFrom_eq_iff (hfront : ∀ b ∈ front, 128 ≤ b.toNat) (hlast : last.toNat < 128) :
    encode (sumFrom 0 (front ++ [last])) = front ++ [last] ↔ front = [] ∨ last ≠ 0 := by
  refine ⟨fun heq => ?_, encode_sumFrom hlast hfront⟩
  by_contra hends
  obtain ⟨hne, rfl⟩ : front ≠ [] ∧ last = 0 := by
    simpa [not_or] using hends
  -- without the last byte the sum is the same, and so less than all bytes are enough for it
  have hle := length_encode_sumFrom_le hne
  rw [← sumFrom_concat_zero, heq, List.length_append, List.length_singleton] at hle
  omega

/-- What was read from some bytes is written in as many or fewer, and in the same ones just if these
are a single byte or do not end in a zero. The buffer, the offset and the cap do not matter beyond
that. -/
theorem encode_of_decode (h : decode buf offset maxBytes = .ok (v, next)) :
    offset < next ∧ next ≤ buf.length ∧ (encode v.toNat).length ≤ next - offset
      ∧ (encode v.toNat = (buf.drop offset).take (next - offset)
        ↔ next - offset = 1 ∨ buf[next - 1]? ≠ some 0) := by
  obtain ⟨length, hnumber, hv, rfl⟩ := (decode_ok_iff_isNumber _ _ _ _ _).mp h
  have hpos := hnumber.pos
  have hroom := hnumber.room
  obtain ⟨front, last, htake, hfront, hlast⟩ := hnumber.ending
  have hlength := congrArg List.length htake
  rw [List.length_take, List.length_drop, List.length_append, List.length_singleton] at hlength
  -- the last byte of the spelling, as the buffer has it
  have hbyte : buf[offset + length - 1]? = some last := by
    have hgot := congrArg (·[length - 1]?) htake
    simp only [List.getElem?_take, List.getElem?_drop, if_pos (by omega : length - 1 < length)]
      at hgot
    rw [show offset + length - 1 = offset + (length - 1) by omega, hgot,
      List.getElem?_append_right (by omega), show length - 1 - front.length = 0 by omega]
    rfl
  -- a spelling is a single byte if there is nothing in front of the last one
  have hfrontEmpty : front = [] ↔ length = 1 := by
    rw [← List.length_eq_zero_iff]
    omega
  have hle : (encode (sumFrom 0 (front ++ [last]))).length ≤ (front ++ [last]).length :=
    length_encode_sumFrom_le (by simp)
  rw [List.length_append, List.length_singleton] at hle
  rw [hv, hbyte, Nat.add_sub_cancel_left, htake, encode_sumFrom_eq_iff hfront hlast, hfrontEmpty]
  refine ⟨by omega, hroom, by omega, ?_⟩
  simp

/-! ## One number -/

/-- **A number is read back where it was written exactly if the cap allows for it.** -/
theorem decode_encode_iff {rest : Bytes} (hbuf : buf.drop offset = encode v.toNat ++ rest) :
    decode buf offset maxBytes = .ok (v, offset + (encode v.toNat).length)
      ↔ (encode v.toNat).length ≤ maxBytes := by
  constructor
  · intro h
    obtain ⟨length, hnumber, -, hnext⟩ := (decode_ok_iff_isNumber _ _ _ _ _).mp h
    have hcap := hnumber.cap
    omega
  · exact decode_encode v hbuf

/-- Nothing but the number is read where it was written, whatever the cap: a larger cap would read
the number as well, and reading gives one result. -/
theorem eq_of_decode {rest : Bytes} {r : UInt64} (hbuf : buf.drop offset = encode v.toNat ++ rest)
    (h : decode buf offset maxBytes = .ok (r, next)) :
    r = v ∧ next = offset + (encode v.toNat).length := by
  have hgrown := decode_grow List.prefix_rfl (Nat.le_max_left maxBytes 10) h
  have hwritten := decode_encode v hbuf
    ((length_encode_le_ten v).trans (Nat.le_max_right maxBytes 10))
  simpa using hgrown.symm.trans hwritten

/-! ## Numbers one after the other -/

/-- Even zero takes a byte. So reading what was written always makes progress. -/
theorem encode_ne_nil (n : Nat) : encode n ≠ [] := by
  rw [encode]
  split <;> simp

/-- The numbers that are read one after the other from an offset up to another one. -/
inductive Reads (buf : Bytes) (maxBytes : Nat) :
    (offset : Nat) → List UInt64 → (stop : Nat) → Prop
  | done {offset : Nat} : Reads buf maxBytes offset [] offset
  | more {offset next stop : Nat} {v : UInt64} {values : List UInt64}
      (hfirst : decode buf offset maxBytes = .ok (v, next))
      (hrest : Reads buf maxBytes next values stop) : Reads buf maxBytes offset (v :: values) stop

theorem Reads.le (h : Reads buf maxBytes offset read stop) : offset ≤ stop := by
  induction h with
  | done => exact Nat.le_refl _
  | more hfirst _ ih => exact (encode_of_decode hfirst).1.le.trans ih

/-- Nothing is read up to where reading begins. -/
theorem Reads.eq_nil (h : Reads buf maxBytes offset read offset) : read = [] := by
  cases h with
  | done => rfl
  | more hfirst hrest =>
    have hprogress := (encode_of_decode hfirst).1
    have hback := hrest.le
    omega

/-- Numbers written one after the other. -/
def encodeAll (values : List UInt64) : Bytes := values.flatMap fun v => encode v.toNat

theorem encodeAll_cons (v : UInt64) (values : List UInt64) :
    encodeAll (v :: values) = encode v.toNat ++ encodeAll values := List.flatMap_cons

/-- **What is read where numbers were written are these numbers**, if the cap allows for each of
them. Induction on the numbers, with what is left of the bytes behind each. -/
theorem reads_iff {rest : Bytes} :
    ∀ {values read : List UInt64} {offset : Nat}, buf.drop offset = encodeAll values ++ rest →
      (Reads buf maxBytes offset read (offset + (encodeAll values).length)
        ↔ read = values ∧ ∀ v ∈ values, (encode v.toNat).length ≤ maxBytes)
  | [], read, offset, _ => by
    constructor
    · exact fun h => ⟨h.eq_nil, by simp⟩
    · rintro ⟨rfl, -⟩
      exact .done
  | v :: values, read, offset, hbuf => by
    rw [encodeAll_cons, List.append_assoc] at hbuf
    -- behind the first number stand the others
    have hdrop : buf.drop (offset + (encode v.toNat).length) = encodeAll values ++ rest := by
      rw [← List.drop_drop, hbuf, List.drop_left]
    rw [encodeAll_cons, List.length_append, ← Nat.add_assoc, List.forall_mem_cons]
    constructor
    · intro h
      generalize hstop : offset + (encode v.toNat).length + (encodeAll values).length = stop at h
      cases h with
      | done =>
        -- but at least one byte was written
        have hpos := List.length_pos_iff.mpr (encode_ne_nil v.toNat)
        omega
      | more hfirst hmore =>
        subst hstop
        obtain ⟨rfl, rfl⟩ := eq_of_decode hbuf hfirst
        obtain ⟨rfl, hcap⟩ := (reads_iff hdrop).mp hmore
        exact ⟨rfl, (decode_encode_iff hbuf).mp hfirst, hcap⟩
    · rintro ⟨rfl, hfirst, hcap⟩
      exact .more ((decode_encode_iff hbuf).mpr hfirst) ((reads_iff hdrop).mpr ⟨rfl, hcap⟩)

/-! ## Both ways -/

/-- **Writing and reading undo each other**, for every number, anywhere in a buffer, and with any
cap.

* A written number is read back exactly if the cap allows for its bytes, of which there are ten at
  most.
* What is read from some bytes is written in as many or fewer. It is written in the same bytes
  unless these are several and end in a zero.
* Where numbers were written one after the other, they are read one after the other, and nothing
  else is. -/
theorem inverse_laws :
    (∀ (v : UInt64) (pre post : Bytes) (maxBytes : Nat),
        decode (pre ++ encode v.toNat ++ post) pre.length maxBytes
            = .ok (v, pre.length + (encode v.toNat).length)
          ↔ (encode v.toNat).length ≤ maxBytes)
      ∧ (∀ v : UInt64, (encode v.toNat).length ≤ 10)
      ∧ (∀ (buf : Bytes) (offset maxBytes : Nat) (v : UInt64) (next : Nat),
          decode buf offset maxBytes = .ok (v, next) →
            offset < next ∧ next ≤ buf.length ∧ (encode v.toNat).length ≤ next - offset
              ∧ (encode v.toNat = (buf.drop offset).take (next - offset)
                ↔ next - offset = 1 ∨ buf[next - 1]? ≠ some 0))
      ∧ ∀ (values read : List UInt64) (pre post : Bytes) (maxBytes : Nat),
          Reads (pre ++ encodeAll values ++ post) maxBytes pre.length read
              (pre.length + (encodeAll values).length)
            ↔ read = values ∧ ∀ v ∈ values, (encode v.toNat).length ≤ maxBytes := by
  refine ⟨fun v pre post maxBytes => ?_, length_encode_le_ten, fun _ _ _ _ _ => encode_of_decode,
    fun values read pre post maxBytes => ?_⟩
  · exact decode_encode_iff (by rw [List.append_assoc, List.drop_left])
  · exact reads_iff (by rw [List.append_assoc, List.drop_left])

/-- A five in two bytes, the second one a group of zeros. -/
theorem inverse_laws_overlong :
    let buf : Bytes := [0x07, 0x85, 0x00, 0x07]
    decode buf 1 10 = .ok (5, 3) ∧ (encode (5 : UInt64).toNat).length ≤ 2
      ∧ encode (5 : UInt64).toNat ≠ (buf.drop 1).take 2 := by
  intro buf
  have hread : decode buf 1 10 = .ok (5, 3) := by rfl
  obtain ⟨-, -, hback, -⟩ := inverse_laws
  obtain ⟨-, -, hshort, hsame⟩ := hback buf 1 10 5 3 hread
  exact ⟨hread, hshort, fun heq => absurd (hsame.mp heq) (by decide)⟩

end QuotaWatch.Varint
