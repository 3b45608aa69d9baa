import Mathlib.Algebra.Order.Ring.Nat
import QuotaWatch.Blob.Varint

/-!
# Reading a number of variable length back

* **`decode_encode`**: a number of 64 bits is read back from wherever it was written, with anything
  behind it. The cap has to allow for its length, which is ten at most (`length_encode_le_ten`).
* `eq_nil_of_cons_suffix_encode`: only the last byte of a number is below 128. This is what keeps a
  search for text from going astray in numbers.
-/

namespace QuotaWatch.Varint

variable {n : Nat}

/-! ## What is written -/

theorem encode_of_lt (h : n < 128) : encode n = [UInt8.ofNat n] := by
  rw [encode, if_pos h]

theorem encode_of_le (h : 128 ≤ n) :
    encode n = UInt8.ofNat (n % 128 + 128) :: encode (n / 128) := by
  rw [encode, if_neg (by omega)]

theorem toNat_ofNat_of_lt {m : Nat} (h : m < 256) : (UInt8.ofNat m).toNat = m := by
  rw [UInt8.toNat_ofNat', Nat.mod_eq_of_lt h]

/-- Each byte takes seven bits. Induction on the bytes that are allowed for. -/
theorem length_encode_le :
    ∀ {k n : Nat}, n < 2 ^ (7 * (k + 1)) → (encode n).length ≤ k + 1
  | 0, n, h => by
    rw [encode_of_lt (by simpa using h)]
    simp
  | k + 1, n, h => by
    by_cases hlt : n < 128
    · rw [encode_of_lt hlt]
      simp
    · have hdiv : n / 128 < 2 ^ (7 * (k + 1)) := by
        rw [Nat.div_lt_iff_lt_mul (by decide)]
        calc n < 2 ^ (7 * (k + 1 + 1)) := h
          _ = 2 ^ (7 * (k + 1)) * 128 := by rw [show 7 * (k + 1 + 1) = 7 * (k + 1) + 7 by omega,
            Nat.pow_add]
      rw [encode_of_le (by omega), List.length_cons]
      have := length_encode_le hdiv
      omega

/-- Seventy bits hold every word. -/
theorem length_encode_le_ten (n : UInt64) : (encode n.toNat).length ≤ 10 := by
  have hlt := n.toNat_lt
  exact length_encode_le (k := 9) (by omega)

/-- **Nothing follows a byte below 128.** Every byte but the last one is written with its high bit
set. -/
theorem eq_nil_of_cons_suffix_encode {c : UInt8} {rest : Bytes} (h : c :: rest <:+ encode n)
    (hc : c.toNat < 128) : rest = [] := by
  induction n using encode.induct with
  | case1 n hlt =>
    rw [encode_of_lt hlt] at h
    have := h.length_le
    simpa using this
  | case2 n hge ih =>
    rw [encode_of_le (by omega), List.suffix_cons_iff] at h
    rcases h with heq | h
    · -- every byte but the last has its high bit set
      have hfirst := congrArg UInt8.toNat (List.cons.inj heq).1
      rw [toNat_ofNat_of_lt (by omega)] at hfirst
      omega
    · exact ih h

/-! ## What is read -/

/-- After `index` bytes the rest of a number is read. It fits into what is left of the 64 bits, so
that there is room for another byte whenever another one follows. -/
theorem decodeFrom_encode {maxBytes : Nat} (rest : Bytes) :
    ∀ {index value : Nat}, index < 10 → n * 2 ^ (7 * index) < UInt64.size →
      index + (encode n).length ≤ maxBytes →
        decodeFrom maxBytes index value (encode n ++ rest)
          = .ok (UInt64.ofNat (value + n * 2 ^ (7 * index)), index + (encode n).length) := by
  induction n using encode.induct with
  | case1 n hlt =>
    intro index value hindex hsize hmax
    rw [encode_of_lt hlt] at hmax ⊢
    simp only [List.length_singleton] at hmax ⊢
    have hbyte : (UInt8.ofNat n).toNat = n := toNat_ofNat_of_lt (by omega)
    rw [List.singleton_append, decodeFrom, hbyte, Nat.mod_eq_of_lt hlt, Nat.shiftLeft_eq,
      if_neg (by simp; omega), if_pos hlt]
  | case2 n hge ih =>
    intro index value hindex hsize hmax
    rw [encode_of_le (by omega)] at hmax ⊢
    simp only [List.length_cons] at hmax ⊢
    have hbyte : (UInt8.ofNat (n % 128 + 128)).toNat = n % 128 + 128 := toNat_ofNat_of_lt (by omega)
    have hpow : 2 ^ (7 * (index + 1)) = 128 * 2 ^ (7 * index) := by
      rw [show 7 * (index + 1) = 7 + 7 * index by omega, Nat.pow_add]
    -- the number is the bits of this byte and those of the rest
    have hsplit : n * 2 ^ (7 * index)
        = n % 128 * 2 ^ (7 * index) + n / 128 * 2 ^ (7 * (index + 1)) := by
      rw [hpow, ← Nat.mul_assoc, ← Nat.add_mul, Nat.mul_comm (n / 128), Nat.mod_add_div]
    have hrest : n / 128 * 2 ^ (7 * (index + 1)) < UInt64.size := by omega
    -- ten bytes are seventy bits, more than the number has
    have hindex' : index + 1 < 10 := by
      refine Nat.lt_of_not_le fun hten => ?_
      have hbig : 2 ^ 70 ≤ 2 ^ (7 * (index + 1)) := Nat.pow_le_pow_right (by decide) (by omega)
      have hone : 1 * 2 ^ (7 * (index + 1)) ≤ n / 128 * 2 ^ (7 * (index + 1)) :=
        Nat.mul_le_mul_right _ (by omega)
      have hword : UInt64.size < 2 ^ 70 := by decide
      omega
    rw [List.cons_append, decodeFrom, hbyte, show (n % 128 + 128) % 128 = n % 128 by omega,
      Nat.shiftLeft_eq, if_neg (by simp; omega), if_neg (by omega),
      ih hindex' hrest (by omega), hsplit]
    simp only [Nat.add_assoc, Nat.add_comm 1]

/-- **A number is read back where it was written**, with anything behind it and any cap that allows
for its length. -/
theorem decode_encode {buf rest : Bytes} {offset maxBytes : Nat} (n : UInt64)
    (hbuf : buf.drop offset = encode n.toNat ++ rest) (hmax : (encode n.toNat).length ≤ maxBytes) :
    decode buf offset maxBytes = .ok (n, offset + (encode n.toNat).length) := by
  have hread : decodeFrom maxBytes 0 0 (encode n.toNat ++ rest) = _ :=
    decodeFrom_encode rest (by decide) (by simpa using n.toNat_lt) (by omega)
  rw [decode, hbuf, hread]
  simp [Except.map]

end QuotaWatch.Varint
