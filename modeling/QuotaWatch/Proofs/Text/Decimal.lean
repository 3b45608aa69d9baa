import QuotaWatch.Text.Blank

/-!
# Decimal numbers read back

`Text.decimal` writes a number in decimal digits. The digits give the number again
(`digitsValue_decimal`), so different numbers have different digits (`decimal_injective`).
`Text.count?` reads the numbers of 64 bits that a text spells (`count?_eq_some_iff`), and so every
one that was written, with blanks around it or not (`count?_trim_decimal`).
-/

namespace QuotaWatch.Text

theorem digitsValue_decimal (n : Nat) : digitsValue 0 (decimal n) = n :=
  Nat.ofDigitChars_ten_toDigits

/-- Different numbers have different digits, since the digits give the number back. -/
theorem decimal_injective {m n : Nat} (h : decimal m = decimal n) : m = n := by
  rw [← digitsValue_decimal m, h, digitsValue_decimal]

theorem decimal_ne_nil (n : Nat) : decimal n ≠ [] := Nat.toDigits_ne_nil

/-- A number above zero is not written with a zero in front. Readers of JSON and TOML refuse such a
zero, so this is what makes a written number one that they take. -/
theorem decimal_of_pos {n : Nat} (h : 0 < n) : ∃ c rest, decimal n = c :: rest ∧ c ≠ '0' := by
  induction n using Nat.strongRecOn with
  | ind n ih =>
    rw [decimal]
    rcases Nat.lt_or_ge n 10 with hlt | hge
    · have hdigit : ∀ i : Fin 10, 0 < i.val → Nat.digitChar i ≠ '0' := by decide
      exact ⟨n.digitChar, [], Nat.toDigits_of_lt_base hlt, hdigit ⟨n, hlt⟩ h⟩
    · obtain ⟨c, rest, hrest, hc⟩ := ih (n / 10) (by omega) (by omega)
      rw [decimal] at hrest
      exact ⟨c, rest ++ [(n % 10).digitChar], by
        rw [Nat.toDigits_of_base_le (by decide) hge, hrest, List.cons_append], hc⟩

/-- The digits of the readers are those of the library, whose lemmas about decimal numbers hold of
them by this. -/
theorem isDigit_eq (c : Char) : isDigit c = c.isDigit := by
  simp [isDigit, Char.isDigit, Char.le_def, UInt32.le_iff_toNat_le]

/-- A decimal digit is one of ten characters, so the text of a number has no blank, separator or
sign in it. -/
theorem isDigit_of_mem_decimal {n : Nat} {c : Char} (h : c ∈ decimal n) : isDigit c = true := by
  rw [isDigit_eq]
  exact Nat.isDigit_of_mem_toDigits (by decide) (by decide) h

/-- What is no digit does not stand among digits. -/
theorem notMem_of_digits {c : Char} {digits : List Char} (hc : isDigit c = false)
    (h : ∀ d ∈ digits, isDigit d = true) : c ∉ digits := by
  intro hmem
  rw [h c hmem] at hc
  cases hc

theorem notMem_decimal {c : Char} (hc : isDigit c = false) (n : Nat) : c ∉ decimal n :=
  notMem_of_digits hc fun _ => isDigit_of_mem_decimal

theorem bounds_of_isDigit {c : Char} (h : isDigit c = true) : 48 ≤ c.toNat ∧ c.toNat ≤ 57 := by
  simpa [isDigit, Char.le_def, UInt32.le_iff_toNat_le] using h

/-- No digit is a blank: all blanks lie below the digits or above ASCII. -/
theorem isBlank_of_isDigit {c : Char} (h : isDigit c = true) : isBlank c = false := by
  have hbounds : 48 ≤ c.toNat ∧ c.toNat ≤ 57 := bounds_of_isDigit h
  simp only [isBlank, Bool.or_eq_false_iff, Bool.and_eq_false_iff, decide_eq_false_iff_not]
  omega

/-- Trimming does nothing to a text without blanks. It stops at the first character from either end.
-/
theorem trim_of_no_blanks {cs : List Char} (h : ∀ c ∈ cs, isBlank c = false) : trim cs = cs := by
  have hdrop : ∀ xs : List Char, (∀ c ∈ xs, isBlank c = false) → xs.dropWhile isBlank = xs := by
    intro xs hxs
    cases xs with
    | nil => rfl
    | cons c rest => rw [List.dropWhile_cons_of_neg (by simp [hxs c List.mem_cons_self])]
  rw [trim, trimStart, hdrop cs h, trimEnd,
    hdrop cs.reverse fun c hc => h c (List.mem_reverse.mp hc),
    List.reverse_reverse]

/-- A text is a number in decimal: digits, with a plus sign in front or without one. -/
def SpellsCount (cs : List Char) (n : Nat) : Prop :=
  ∃ digits, (cs = digits ∨ cs = '+' :: digits) ∧ digits ≠ [] ∧ (∀ c ∈ digits, c.isDigit = true)
    ∧ Nat.ofDigitChars 10 digits 0 = n

/-- The part of `count?` behind the sign, which both of its branches share: digits are read as their
value if there is one of them at least and the value has 64 bits. -/
theorem count_of_digits_iff {digits : List Char} {n : UInt64} :
    (if !digits.isEmpty && digits.all isDigit && digitsValue 0 digits < UInt64.size
        then some (UInt64.ofNat (digitsValue 0 digits)) else none) = some n
      ↔ digits ≠ [] ∧ (∀ c ∈ digits, c.isDigit = true)
        ∧ Nat.ofDigitChars 10 digits 0 = n.toNat := by
  have hvalue : digitsValue 0 digits = Nat.ofDigitChars 10 digits 0 := rfl
  have hsize : n.toNat < UInt64.size := n.toNat_lt_size
  simp only [hvalue, Option.ite_none_right_eq_some, Bool.and_eq_true, Bool.not_eq_true',
    List.isEmpty_eq_false_iff, List.all_eq_true, isDigit_eq, decide_eq_true_eq, and_assoc,
    Option.some.injEq]
  refine and_congr_right fun _ => and_congr_right fun _ => ⟨?_, fun heq => ?_⟩
  · rintro ⟨hlt, rfl⟩
    rw [UInt64.toNat_ofNat', Nat.mod_eq_of_lt hlt]
  · rw [heq]
    exact ⟨hsize, UInt64.ofNat_toNat⟩

/-- **A count is read exactly where one is spelled that has 64 bits.** Whoever asks whether a cell
or a variable is read as a number asks about its spelling from here on, not about the reader. -/
theorem count?_eq_some_iff {cs : List Char} {n : UInt64} :
    count? cs = some n ↔ SpellsCount cs n.toNat := by
  have hplus : Char.isDigit '+' = false := by decide
  unfold count?
  split
  next rest =>
    rw [count_of_digits_iff]
    constructor
    · exact fun h => ⟨rest, .inr rfl, h⟩
    · -- the text begins with a sign, which cannot be the first of the digits
      rintro ⟨digits, rfl | heq, hne, hall, hn⟩
      · exact absurd (hall '+' List.mem_cons_self) (by simp [hplus])
      · obtain rfl := (List.cons.inj heq).2
        exact ⟨hne, hall, hn⟩
  next hsign =>
    rw [count_of_digits_iff]
    constructor
    · exact fun h => ⟨cs, .inl rfl, h⟩
    · rintro ⟨digits, rfl | rfl, hne, hall, hn⟩
      · exact ⟨hne, hall, hn⟩
      · -- a sign in front would have been taken off
        exact absurd rfl (hsign digits)

/-- **A written count is read back**, also by the readers that trim what they are given. -/
theorem count?_trim_decimal (n : UInt64) : count? (trim (decimal n.toNat)) = some n := by
  have hdigits : ∀ c ∈ decimal n.toNat, isDigit c = true := fun c => isDigit_of_mem_decimal
  rw [trim_of_no_blanks fun c hc => isBlank_of_isDigit (hdigits c hc), count?_eq_some_iff]
  exact ⟨_, .inl rfl, decimal_ne_nil _, fun c hc => isDigit_eq c ▸ hdigits c hc,
    digitsValue_decimal _⟩

end QuotaWatch.Text
