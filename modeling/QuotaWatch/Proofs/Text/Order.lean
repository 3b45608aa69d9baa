import QuotaWatch.Proofs.Text.Padded

/-!
# Texts in the order of numbers

Numbers of one width come in the order of their texts (`Orders.padded`), and texts of one length
that are put together come in the order of the first part and then of the second
(`Orders.append`). `Orders a a' m n` says both of two texts and the numbers they stand for, so that
a text of several numbers is put together part by part.
-/

namespace QuotaWatch.Text

variable {a a' b b' : List Char} {m n k l size : Nat}

/-- Two texts of one length come in the order of two numbers. -/
structure Orders (a a' : List Char) (m n : Nat) : Prop where
  length_eq : a.length = a'.length
  eq_iff : a = a' ↔ m = n
  lt_iff : a < a' ↔ m < n

/-- Among texts that begin with parts of one length, the first parts come first. Without the length
this fails: a text may go on where another one ends. -/
theorem append_lt_append_iff (h : a.length = a'.length) :
    a ++ b < a' ++ b' ↔ a < a' ∨ a = a' ∧ b < b' := by
  induction a generalizing a' with
  | nil =>
    obtain rfl := List.length_eq_zero_iff.mp h.symm
    simp
  | cons c rest ih =>
    cases a' with
    | nil => simp at h
    | cons c' rest' =>
      have hrest : rest.length = rest'.length := Nat.succ.inj h
      rw [List.cons_append, List.cons_append, List.cons_lt_cons_iff, ih hrest,
        List.cons_lt_cons_iff, List.cons.injEq]
      tauto

/-- What is less than `size` counts only among equal multiples of it. For `size = 100` this is a
number of two digits behind another number. -/
theorem mul_add_lt_mul_add_iff (hk : k < size) (hl : l < size) :
    m * size + k < n * size + l ↔ m < n ∨ m = n ∧ k < l := by
  rcases Nat.lt_trichotomy m n with h | rfl | h
  · have hnext : (m + 1) * size ≤ n * size := Nat.mul_le_mul_right size h
    rw [Nat.succ_mul] at hnext
    omega
  · omega
  · have hnext : (n + 1) * size ≤ m * size := Nat.mul_le_mul_right size h
    rw [Nat.succ_mul] at hnext
    omega

/-- **The first part counts before the second**, in the texts and in the numbers. A text of several
numbers is put in order by this, part by part. -/
theorem Orders.append (ha : Orders a a' m n) (hb : Orders b b' k l) (hk : k < size)
    (hl : l < size) : Orders (a ++ b) (a' ++ b') (m * size + k) (n * size + l) := by
  have hlt : m * size + k < n * size + l ↔ m < n ∨ m = n ∧ k < l := mul_add_lt_mul_add_iff hk hl
  have hgt : n * size + l < m * size + k ↔ n < m ∨ n = m ∧ l < k := mul_add_lt_mul_add_iff hl hk
  constructor
  · rw [List.length_append, List.length_append, ha.length_eq, hb.length_eq]
  · have hparts : a ++ b = a' ++ b' ↔ a = a' ∧ b = b' :=
      ⟨fun heq => List.append_inj heq ha.length_eq, by rintro ⟨rfl, rfl⟩; rfl⟩
    rw [hparts, ha.eq_iff, hb.eq_iff]
    omega
  · rw [append_lt_append_iff ha.length_eq, ha.lt_iff, ha.eq_iff, hb.lt_iff, hlt]

/-- A character in front of both makes no difference. Separators of dates and times are taken along
by this. -/
theorem Orders.cons (h : Orders b b' k l) (c : Char) : Orders (c :: b) (c :: b') k l where
  length_eq := congrArg (· + 1) h.length_eq
  eq_iff := by simp [h.eq_iff]
  lt_iff := by simp [h.lt_iff]

/-- One digit comes in the order of its value, which is looked up for all ten of them. -/
theorem orders_digitChar (hm : m < 10) (hn : n < 10) :
    Orders [m.digitChar] [n.digitChar] m n := by
  have hall : ∀ i j : Fin 10, (Nat.digitChar i = Nat.digitChar j ↔ i.val = j.val)
      ∧ (Nat.digitChar i < Nat.digitChar j ↔ i.val < j.val) := by decide
  obtain ⟨heq, hlt⟩ := hall ⟨m, hm⟩ ⟨n, hn⟩
  exact ⟨rfl, by simpa using heq, by simpa [List.cons_lt_cons_iff] using hlt⟩

/-- The last digit of a number, behind the others. A number of fixed width is taken apart from its
end, as the lemmas about decimal digits do. -/
theorem padded_succ {width : Nat} (hwidth : 0 < width) (h : n < 10 ^ (width + 1)) :
    padded (width + 1) n = padded width (n / 10) ++ [(n % 10).digitChar] := by
  obtain ⟨w, rfl⟩ : ∃ w, width = w + 1 := ⟨width - 1, by omega⟩
  rcases Nat.lt_or_ge n 10 with hlt | hge
  · -- a single digit is preceded by one more zero
    have hone : decimal n = [n.digitChar] := Nat.toDigits_of_lt_base hlt
    have hzero : decimal 0 = ['0'] := rfl
    rw [padded, padded, hone, Nat.div_eq_of_lt hlt, Nat.mod_eq_of_lt hlt, hzero]
    show List.replicate (w + 1) '0' ++ _ = (List.replicate w '0' ++ ['0']) ++ _
    rw [← List.replicate_succ']
  · have hsplit : decimal n = decimal (n / 10) ++ [(n % 10).digitChar] :=
      Nat.toDigits_of_base_le (by decide) hge
    rw [padded, padded, hsplit, List.length_append, List.append_assoc]
    congr 2
    simp

/-- **Numbers of one width come in the order of their texts.** The induction is on the width: a
number is all digits but the last, which count first, and the last. -/
theorem Orders.padded {width : Nat} (hwidth : 0 < width) (hm : m < 10 ^ width)
    (hn : n < 10 ^ width) : Orders (padded width m) (padded width n) m n := by
  induction width, hwidth using Nat.le_induction generalizing m n with
  | base =>
    have hone {i : Nat} (hi : i < 10 ^ 1) : Text.padded 1 i = [i.digitChar] := by
      have hdigit : decimal i = [i.digitChar] := Nat.toDigits_of_lt_base (by omega)
      rw [Text.padded, hdigit]
      rfl
    rw [hone hm, hone hn]
    exact orders_digitChar (by omega) (by omega)
  | succ width hwidth ih =>
    rw [padded_succ hwidth hm, padded_succ hwidth hn]
    -- all digits but the last are a number of one width less
    have hfront := ih (m := m / 10) (n := n / 10) (by omega) (by omega)
    have hlast := orders_digitChar (Nat.mod_lt m (by decide : 0 < 10))
      (Nat.mod_lt n (by decide : 0 < 10))
    have hall := hfront.append hlast (Nat.mod_lt m (by decide)) (Nat.mod_lt n (by decide))
    rwa [Nat.div_add_mod', Nat.div_add_mod'] at hall

end QuotaWatch.Text
