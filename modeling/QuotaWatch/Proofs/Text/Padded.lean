import QuotaWatch.Proofs.Text.Decimal
import Mathlib.Algebra.Order.Ring.Nat

/-!
# Numbers of a fixed width

`Text.padded` fills a number up with zeros, so that it has the width that it should have
(`length_padded`) and is the same number (`digitsValue_padded`).
-/

namespace QuotaWatch.Text

/-- A number that fits has the width that it should have. One that does not fit is written in full
and is longer. -/
theorem length_padded {width n : Nat} (hwidth : 0 < width) (h : n < 10 ^ width) :
    (padded width n).length = width := by
  have hdigits : (decimal n).length ≤ width :=
    (Nat.length_toDigits_le_iff (by decide) hwidth).mpr h
  rw [padded, List.length_append, List.length_replicate]
  omega

theorem isDigit_of_mem_padded {width n : Nat} {c : Char} (h : c ∈ padded width n) :
    isDigit c = true := by
  rcases List.mem_append.mp h with h | h
  · rw [List.eq_of_mem_replicate h]
    decide
  · exact isDigit_of_mem_decimal h

/-- Only digits stand in a number of fixed width. The separators of a date are found by this. -/
theorem notMem_padded {c : Char} (hc : isDigit c = false) (width n : Nat) : c ∉ padded width n :=
  notMem_of_digits hc fun _ => isDigit_of_mem_padded

theorem padded_ne_nil (width n : Nat) : padded width n ≠ [] :=
  List.append_ne_nil_of_right_ne_nil _ (decimal_ne_nil n)

/-- Zeros are worth nothing, however many they are. -/
theorem digitsValue_replicate_zero (k : Nat) : digitsValue 0 (List.replicate k '0') = 0 := by
  induction k with
  | zero => rfl
  | succ k ih => exact ih

/-- Zeros in front do not change what number a text is. This also holds of numbers that do not fit
their width. -/
theorem digitsValue_padded (width n : Nat) : digitsValue 0 (padded width n) = n := by
  have happend (front back : List Char) :
      digitsValue 0 (front ++ back) = digitsValue (digitsValue 0 front) back := List.foldl_append
  rw [padded, happend, digitsValue_replicate_zero, digitsValue_decimal]

end QuotaWatch.Text
