import QuotaWatch.Blob.Base64
import QuotaWatch.Proofs.Except
import Mathlib.Algebra.Order.Ring.Nat

/-!
# Base64 is exact

`Base64.decode` gives a byte string for its own encoding and for nothing else (`decode_ok_iff`):
symbols and numbers below 64 are the same (`value?_eq_some_iff`), a group of four symbols holds the
bits of three bytes, and a last group that is shorter is filled up and has no bits left over.
-/

namespace QuotaWatch.Base64

/-! ## Symbols -/

/-- Every number below 64 is read back from its symbol. There are few enough of them to try them
all. -/
theorem value?_symbol : ∀ n < 64, value? (symbol n) = some n := by decide

/-- The filling is no symbol, so it is always clear where the symbols of a last group end. -/
theorem symbol_ne_pad : ∀ n < 64, symbol n ≠ pad := by decide

/-- **A symbol is the symbol of its number.** All 256 bytes are tried: both functions go by ranges,
and it is at the borders of these that they have to fit together. -/
theorem value?_eq_some_iff {b : UInt8} {n : Nat} : value? b = some n ↔ n < 64 ∧ b = symbol n := by
  constructor
  · intro h
    -- one direction over all bytes at once; a `UInt8` is reached through its number
    have hall : ∀ k < 256, (value? (UInt8.ofNat k)).all
        fun n => n < 64 && UInt8.ofNat k == symbol n := by decide +kernel
    have hb := hall b.toNat b.toNat_lt
    rw [UInt8.ofNat_toNat, h] at hb
    simpa using hb
  · intro ⟨hn, hb⟩
    rw [hb, value?_symbol n hn]

/-- Numbers of six bits. -/
def Sextets (numbers : List Nat) : Prop := ∀ n ∈ numbers, n < 64

/-- Symbols are read as numbers exactly if they are the symbols of these numbers. Where reading
starts does not matter to that: the offset is only told in a fault. -/
theorem values_ok_iff {symbols : Bytes} {numbers : List Nat} {offset : Nat} :
    values offset symbols = .ok numbers ↔ Sextets numbers ∧ symbols = numbers.map symbol := by
  induction symbols generalizing numbers offset with
  | nil =>
    rw [values, Except.ok.injEq]
    constructor
    · intro h
      simp [← h, Sextets]
    · intro ⟨_, h⟩
      exact (List.map_eq_nil_iff.mp h.symm).symm
  | cons b rest ih =>
    rw [values]
    cases hb : value? b with
    | none =>
      -- a byte that is no symbol cannot be the symbol of anything
      simp only [reduceCtorEq, false_iff, not_and]
      intro hsextets h
      obtain ⟨n, more, rfl, hn, _⟩ := List.map_eq_cons_iff.mp h.symm
      have := value?_eq_some_iff.mpr ⟨hsextets n List.mem_cons_self, hn.symm⟩
      rw [hb] at this
      cases this
    | some n =>
      obtain ⟨hn, rfl⟩ := value?_eq_some_iff.mp hb
      simp only [except_bind_ok_iff, ih, Except.ok.injEq]
      constructor
      · intro ⟨more, ⟨hmore, hrest⟩, hcons⟩
        subst hcons
        refine ⟨fun m hm => ?_, by rw [hrest, List.map_cons]⟩
        rcases List.mem_cons.mp hm with rfl | hm
        · exact hn
        · exact hmore m hm
      · intro ⟨hsextets, h⟩
        obtain ⟨m, more, rfl, hm, hrest⟩ := List.map_eq_cons_iff.mp h.symm
        refine ⟨more, ⟨fun k hk => hsextets k (List.mem_cons_of_mem _ hk), hrest.symm⟩, ?_⟩
        -- a symbol has one number
        have hsame := value?_symbol m (hsextets m List.mem_cons_self)
        rw [hm, hb] at hsame
        rw [Option.some.inj hsame]

/-! ## Groups

Of the twenty-four bits of a group the first byte takes a symbol and two bits of the next, the
second one four and four, the third one two and a symbol. -/

section Groups

variable {a b c d : Nat}

/-- A byte that is joined from two sextets, as a number. What does not fit into a byte falls off. -/
theorem toNat_joinBits {bits : Nat} :
    (joinBits a b bits).toNat = (a * 2 ^ bits + b / 2 ^ (6 - bits)) % 256 := by
  rw [joinBits, UInt8.toNat_ofNat', Nat.shiftLeft_eq, Nat.shiftRight_eq_div_pow]

/-- A byte of a group takes the lower bits of one sextet and the upper ones of the next: two, four
and six of the first one, in this order. -/
theorem toNat_first (ha : a < 64) (hb : b < 64) : (joinBits a b 2).toNat = a * 4 + b / 16 := by
  rw [toNat_joinBits]
  omega

theorem toNat_second (hc : c < 64) :
    (joinBits b c 4).toNat = b % 16 * 16 + c / 4 := by
  rw [toNat_joinBits]
  omega

theorem toNat_third (hd : d < 64) : (joinBits c d 6).toNat = c % 4 * 64 + d := by
  rw [toNat_joinBits]
  omega

/-- Each byte of a group is joined again from its upper bits and its lower ones, whatever else the
two sextets hold. -/
theorem first_split (x : UInt8) {low : Nat} (h : low < 16) :
    joinBits (x.toNat / 4) (x.toNat % 4 * 16 + low) 2 = x := by
  have hx := x.toNat_lt
  apply UInt8.toNat_inj.mp
  rw [toNat_first] <;> omega

theorem second_split (y : UInt8) (high : Nat) {low : Nat} (hlow : low < 4) :
    joinBits (high * 16 + y.toNat / 16) (y.toNat % 16 * 4 + low) 4 = y := by
  have hy := y.toNat_lt
  apply UInt8.toNat_inj.mp
  rw [toNat_second] <;> omega

theorem third_split (z : UInt8) (high : Nat) :
    joinBits (high * 4 + z.toNat / 64) (z.toNat % 64) 6 = z := by
  have hz := z.toNat_lt
  apply UInt8.toNat_inj.mp
  rw [toNat_third] <;> omega

/-- The symbols of the bytes that four numbers make are those of the four numbers. So a group that
was read can be written again without looking at its bits. -/
theorem encode_joinBits (ha : a < 64) (hb : b < 64) (hc : c < 64) (hd : d < 64) (rest : Bytes) :
    encode (joinBits a b 2 :: joinBits b c 4 :: joinBits c d 6 :: rest)
      = symbol a :: symbol b :: symbol c :: symbol d :: encode rest := by
  rw [encode, toNat_first ha hb, toNat_second hc, toNat_third hd]
  -- each sextet is put together from what two bytes hold of it
  have h₁ : (a * 4 + b / 16) / 4 = a := by omega
  have h₂ : (a * 4 + b / 16) % 4 * 16 + (b % 16 * 16 + c / 4) / 16 = b := by omega
  have h₃ : (b % 16 * 16 + c / 4) % 16 * 4 + (c % 4 * 64 + d) / 64 = c := by omega
  have h₄ : (c % 4 * 64 + d) % 64 = d := by omega
  rw [h₁, h₂, h₃, h₄]

end Groups

/-! ## The last group -/

/-- A whole last group is three bytes. -/
theorem decodeLast_four {a b c d offset : Nat} (ha : a < 64) (hb : b < 64) (hc : c < 64)
    (hd : d < 64) : decodeLast offset [symbol a, symbol b, symbol c, symbol d]
      = .ok [joinBits a b 2, joinBits b c 4, joinBits c d 6] := by
  simp [decodeLast, values, value?_symbol, symbol_ne_pad, ha, hb, hc, hd, bind, Except.bind]

/-- A last group with one filling is two bytes, if the last sextet has no bits that would be lost.
-/
theorem decodeLast_three {a b c offset : Nat} (ha : a < 64) (hb : b < 64) (hc : c < 64)
    (hleft : c % 4 = 0) : decodeLast offset [symbol a, symbol b, symbol c, pad]
      = .ok [joinBits a b 2, joinBits b c 4] := by
  simp [decodeLast, values, value?_symbol, symbol_ne_pad, ha, hb, hc, hleft, bind, Except.bind]

/-- A last group with two fillings is one byte, under the same condition. -/
theorem decodeLast_two {a b offset : Nat} (ha : a < 64) (hb : b < 64) (hleft : b % 16 = 0) :
    decodeLast offset [symbol a, symbol b, pad, pad] = .ok [joinBits a b 2] := by
  simp [decodeLast, values, value?_symbol, symbol_ne_pad, ha, hb, hleft, bind, Except.bind]

/-- **A last group that is read is the encoding of what is read.** The checks of `decodeLast` are
all needed here: filling behind two symbols at least, nothing else behind it, four characters in
all, and no bits left over. -/
theorem eq_encode_of_decodeLast {group bytes : Bytes} {offset : Nat} (hlen : group.length ≤ 4)
    (h : decodeLast offset group = .ok bytes) : group = encode bytes := by
  have hgroup : group.takeWhile (· ≠ pad) ++ group.dropWhile (· ≠ pad) = group :=
    List.takeWhile_append_dropWhile
  unfold decodeLast at h
  simp only [except_bind_ok_iff] at h
  obtain ⟨numbers, hvalues, h⟩ := h
  obtain ⟨hsextets, hsymbols⟩ := values_ok_iff.mp hvalues
  generalize group.dropWhile (· ≠ pad) = fill at hgroup h
  rw [hsymbols] at hgroup h
  split at h
  · cases h
  next hfilled =>
  split at h
  · cases h
  next hfull =>
  simp only [List.length_map, Bool.and_eq_true, Bool.not_eq_true', Bool.or_eq_true,
    decide_eq_true_eq, List.isEmpty_eq_false_iff, not_and, not_or, Nat.not_lt] at hfilled hfull
  -- what fills up a group is filling only, behind two symbols
  have hfill : fill = List.replicate fill.length pad := by
    refine List.eq_replicate_iff.mpr ⟨rfl, fun b hb => ?_⟩
    have hany := (hfilled (List.ne_nil_of_mem hb)).2
    rw [Bool.not_eq_true, List.any_eq_false] at hany
    simpa using hany b hb
  have hfour : numbers.length + fill.length = group.length := by
    rw [← hgroup, List.length_append, List.length_map]
  rw [← hgroup, hfill]
  split at h
  next =>
    -- nothing is filled up without symbols
    cases h
    cases fill with
    | nil => rfl
    | cons b rest =>
      have := (hfilled (List.cons_ne_nil b rest)).1
      simp at this
  next => cases h
  -- two symbols: the bits left over are zero, so the second symbol is made of the byte alone
  next a b =>
    split at h
    next hleft =>
      cases h
      have ha := hsextets a (by simp)
      have hb := hsextets b (by simp)
      have htwo : fill.length = 2 := by
        simp only [List.length_cons, List.length_nil] at hfour hfull
        omega
      rw [htwo, encode, toNat_first ha hb]
      have h₁ : (a * 4 + b / 16) / 4 = a := by omega
      have h₂ : (a * 4 + b / 16) % 4 * 16 = b := by omega
      rw [h₁, h₂]
      rfl
    next => cases h
  -- three symbols, in the same way
  next a b c =>
    split at h
    next hleft =>
      cases h
      have ha := hsextets a (by simp)
      have hb := hsextets b (by simp)
      have hc := hsextets c (by simp)
      have hone : fill.length = 1 := by
        simp only [List.length_cons, List.length_nil] at hfour hfull
        omega
      rw [hone, encode, toNat_first ha hb, toNat_second hc]
      have h₁ : (a * 4 + b / 16) / 4 = a := by omega
      have h₂ : (a * 4 + b / 16) % 4 * 16 + (b % 16 * 16 + c / 4) / 16 = b := by omega
      have h₃ : (b % 16 * 16 + c / 4) % 16 * 4 = c := by omega
      rw [h₁, h₂, h₃]
      rfl
    next => cases h
  next a b c d more =>
    cases h
    have ha := hsextets a (by simp)
    have hb := hsextets b (by simp)
    have hc := hsextets c (by simp)
    have hd := hsextets d (by simp)
    -- four symbols leave room for nothing else
    obtain ⟨rfl, hnone⟩ : more = [] ∧ fill.length = 0 := by
      simp only [List.length_cons] at hfour
      have hmore : more.length = 0 := by omega
      exact ⟨List.length_eq_zero_iff.mp hmore, by omega⟩
    rw [hnone, encode_joinBits ha hb hc hd]
    rfl

/-- **What was written is read back**, by induction on the groups of three bytes. The decoder takes
the last group apart from the others, so a group has to know whether one comes behind it. -/
theorem decodeFrom_encode (bytes : Bytes) (offset : Nat) :
    decodeFrom offset (encode bytes) = .ok bytes := by
  fun_induction encode bytes generalizing offset with
  | case1 => rfl
  | case2 x =>
    have hx := x.toNat_lt
    have hfirst := first_split x (by decide : 0 < 16)
    rw [Nat.add_zero] at hfirst
    rw [decodeFrom, decodeLast_two (by omega) (by omega) (by omega), hfirst]
    simp
  | case3 x y =>
    have hx := x.toNat_lt
    have hy := y.toNat_lt
    have hsecond := second_split y (x.toNat % 4) (by decide : 0 < 4)
    rw [Nat.add_zero] at hsecond
    rw [decodeFrom, decodeLast_three (by omega) (by omega) (by omega) (by omega),
      first_split x (by omega), hsecond]
    simp
  | case4 x y z rest ih =>
    have hx := x.toNat_lt
    have hy := y.toNat_lt
    have hz := z.toNat_lt
    cases hrest : encode rest with
    | nil =>
      -- nothing behind it is written only if there is nothing
      have hnil : rest = [] := by
        have := ih 0
        rw [hrest] at this
        exact (Except.ok.inj this).symm
      rw [decodeFrom, decodeLast_four (by omega) (by omega) (by omega) (by omega),
        first_split x (by omega), second_split y _ (by omega), third_split z, hnil]
      simp
    | cons e more =>
      have hvalues : values offset [symbol (x.toNat / 4), symbol (x.toNat % 4 * 16 + y.toNat / 16),
          symbol (y.toNat % 16 * 4 + z.toNat / 64), symbol (z.toNat % 64)]
            = .ok [x.toNat / 4, x.toNat % 4 * 16 + y.toNat / 16, y.toNat % 16 * 4 + z.toNat / 64,
              z.toNat % 64] := by
        refine values_ok_iff.mpr ⟨fun n hn => ?_, rfl⟩
        simp only [List.mem_cons, List.not_mem_nil, or_false] at hn
        omega
      rw [decodeFrom, hvalues, ← hrest]
      simp only [ih, bind, Except.bind]
      rw [first_split x (by omega), second_split y _ (by omega), third_split z]

/-- The other way round: what was read is written as it was, group by group. -/
theorem eq_encode_of_decodeFrom {input bytes : Bytes} {offset : Nat}
    (h : decodeFrom offset input = .ok bytes) : input = encode bytes := by
  fun_induction decodeFrom offset input generalizing bytes with
  | case1 offset a b c d e rest ih =>
    simp only [except_bind_ok_iff] at h
    obtain ⟨numbers, hvalues, h⟩ := h
    obtain ⟨hsextets, hsymbols⟩ := values_ok_iff.mp hvalues
    split at h
    next a' b' c' d' =>
      simp only [except_bind_ok_iff] at h
      obtain ⟨more, hmore, h⟩ := h
      cases h
      rw [encode_joinBits (hsextets a' (by simp)) (hsextets b' (by simp)) (hsextets c' (by simp))
        (hsextets d' (by simp)), ← ih hmore]
      simp only [List.map_cons, List.map_nil, List.cons.injEq, and_true] at hsymbols
      obtain ⟨rfl, rfl, rfl, rfl⟩ := hsymbols
      rfl
    next hother =>
      -- four symbols have four numbers
      have hlen := congrArg List.length hsymbols
      simp only [List.length_map, List.length_cons, List.length_nil] at hlen
      match numbers, hlen with
      | [a', b', c', d'], _ => exact absurd rfl (hother a' b' c' d')
  | case2 offset group hshort =>
    refine eq_encode_of_decodeLast ?_ h
    match group, hshort with
    | [], _ => simp
    | [_], _ => simp
    | [_, _], _ => simp
    | [_, _, _], _ => simp
    | [_, _, _, _], _ => simp
    | a :: b :: c :: d :: e :: rest, hshort => exact absurd rfl (hshort a b c d e rest)

/-- A text is written in whole groups, so no byte stands alone in the last one, which is what
`decode` looks for first. -/
theorem length_encode (bytes : Bytes) : (encode bytes).length % 4 = 0 := by
  fun_induction encode bytes with
  | case1 => rfl
  | case2 => simp
  | case3 => simp
  | case4 x y z rest ih =>
    simp only [List.length_cons]
    omega

/-- All that is written is symbols and filling. -/
theorem mem_encode {x : UInt8} {bytes : Bytes} (h : x ∈ encode bytes) :
    x = pad ∨ ∃ n < 64, x = symbol n := by
  fun_induction encode bytes with
  | case1 => cases h
  | case2 a =>
    -- what is added up from parts of bytes stays below 64
    have ha := a.toNat_lt
    simp only [List.mem_cons, List.not_mem_nil, or_false] at h
    obtain rfl | rfl | rfl | rfl := h
    · exact .inr ⟨_, by omega, rfl⟩
    · exact .inr ⟨_, by omega, rfl⟩
    · exact .inl rfl
    · exact .inl rfl
  | case3 a b =>
    have ha := a.toNat_lt
    have hb := b.toNat_lt
    simp only [List.mem_cons, List.not_mem_nil, or_false] at h
    obtain rfl | rfl | rfl | rfl := h
    · exact .inr ⟨_, by omega, rfl⟩
    · exact .inr ⟨_, by omega, rfl⟩
    · exact .inr ⟨_, by omega, rfl⟩
    · exact .inl rfl
  | case4 a b c rest ih =>
    have ha := a.toNat_lt
    have hb := b.toNat_lt
    have hc := c.toNat_lt
    simp only [List.mem_cons] at h
    obtain rfl | rfl | rfl | rfl | h := h
    · exact .inr ⟨_, by omega, rfl⟩
    · exact .inr ⟨_, by omega, rfl⟩
    · exact .inr ⟨_, by omega, rfl⟩
    · exact .inr ⟨_, by omega, rfl⟩
    · exact ih h

/-- What is written is ASCII without blanks, quotes and backslashes. So an encoding can stand in a
JSON text as it is, and trimming it takes nothing away. -/
theorem plain_of_mem_encode {x : UInt8} {bytes : Bytes} (h : x ∈ encode bytes) :
    0x20 < x.toNat ∧ x.toNat < 0x80 ∧ x ≠ 0x22 ∧ x ≠ 0x5C := by
  have hall : ∀ n < 64, 0x20 < (symbol n).toNat ∧ (symbol n).toNat < 0x80 ∧ symbol n ≠ 0x22
      ∧ symbol n ≠ 0x5C := by decide
  obtain rfl | ⟨n, hn, rfl⟩ := mem_encode h
  · decide
  · exact hall n hn

/-- **Base64 is exact**: a byte string is read from its encoding, and from nothing else. -/
theorem decode_ok_iff {input bytes : Bytes} : decode input = .ok bytes ↔ input = encode bytes := by
  constructor
  · intro h
    unfold decode at h
    split at h
    · split at h
      · cases h
      · exact eq_encode_of_decodeFrom h
    next hnone =>
      cases h
      exact List.getLast?_eq_none_iff.mp hnone
  · intro h
    subst h
    -- the length is a multiple of four, so the check in front lets it pass
    have hread := decodeFrom_encode bytes 0
    unfold decode
    split
    · have hlen := length_encode bytes
      rw [if_neg (by simp [hlen]), hread]
    next hnone =>
      rw [List.getLast?_eq_none_iff.mp hnone] at hread
      exact hread

end QuotaWatch.Base64
