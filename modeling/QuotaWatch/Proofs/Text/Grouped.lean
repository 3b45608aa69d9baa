import QuotaWatch.Proofs.Text.Decimal
import Mathlib.Data.List.Induction

/-!
# Thousands separators

`Text.grouped` goes through the digits of a number from the left and looks at how many are still to
come. This gives the same as counting from the right: digits in threes (`InThrees`), a comma in
front of each three (`grouped_inThrees`). All else follows from it. The digits are still there
(`filter_grouped`), so different numbers are spelled differently (`grouped_injective`), and there is
a comma for each three digits behind the leading ones (`count_grouped`).
-/

namespace QuotaWatch.Text

variable {d : Char} {digits lead group : List Char} {groups : List (List Char)} {m n : Nat}

/-! ## Digits in threes -/

/-- Digits in threes: one to three that lead, and groups of three behind them. -/
structure InThrees (lead : List Char) (groups : List (List Char)) : Prop where
  lead_pos : 0 < lead.length
  lead_le : lead.length ≤ 3
  isDigit_lead : ∀ c ∈ lead, isDigit c = true
  length_group : ∀ group ∈ groups, group.length = 3
  isDigit_group : ∀ group ∈ groups, ∀ c ∈ group, isDigit c = true

namespace InThrees

/-- One digit leads alone. The induction starts here, since a number has a digit at least. -/
theorem singleton (hd : isDigit d = true) : InThrees [d] [] where
  lead_pos := Nat.one_pos
  lead_le := Nat.le_add_left 1 2
  isDigit_lead := List.forall_mem_singleton.mpr hd
  length_group := List.forall_mem_nil _
  isDigit_group := List.forall_mem_nil _

/-- A digit in front leads with those that led, if there is room. -/
theorem cons (h : InThrees lead groups) (hd : isDigit d = true) (hroom : lead.length < 3) :
    InThrees (d :: lead) groups where
  lead_pos := Nat.succ_pos _
  lead_le := hroom
  isDigit_lead := List.forall_mem_cons.mpr ⟨hd, h.isDigit_lead⟩
  length_group := h.length_group
  isDigit_group := h.isDigit_group

/-- A digit in front of three that led leads alone, and the three become a group. -/
theorem cons_full (h : InThrees lead groups) (hd : isDigit d = true) (hfull : lead.length = 3) :
    InThrees [d] (lead :: groups) where
  lead_pos := Nat.one_pos
  lead_le := Nat.le_add_left 1 2
  isDigit_lead := List.forall_mem_singleton.mpr hd
  length_group := List.forall_mem_cons.mpr ⟨hfull, h.length_group⟩
  isDigit_group := List.forall_mem_cons.mpr ⟨h.isDigit_lead, h.isDigit_group⟩

/-- How many digits there are in threes. -/
theorem length_digits (h : InThrees lead groups) :
    (lead ++ groups.flatten).length = lead.length + 3 * groups.length := by
  rw [List.length_append, List.length_flatten, List.map_congr_left h.length_group,
    List.map_const', List.sum_replicate_nat, Nat.mul_comm]

/-- How many digits there are tells whether there is room in front. This is where counting from the
left, as the code does, meets counting from the right. -/
theorem length_mod_three_iff (h : InThrees lead groups) :
    (lead ++ groups.flatten).length % 3 = 0 ↔ lead.length = 3 := by
  have hpos : 0 < lead.length := h.lead_pos
  have hle : lead.length ≤ 3 := h.lead_le
  rw [h.length_digits]
  omega

theorem length_groups (h : InThrees lead groups) :
    groups.length = ((lead ++ groups.flatten).length - 1) / 3 := by
  have hpos : 0 < lead.length := h.lead_pos
  have hle : lead.length ≤ 3 := h.lead_le
  rw [h.length_digits]
  omega

theorem comma_notMem_lead (h : InThrees lead groups) : ',' ∉ lead :=
  notMem_of_digits (by decide) h.isDigit_lead

theorem comma_notMem_group (h : InThrees lead groups) (hmem : group ∈ groups) : ',' ∉ group :=
  notMem_of_digits (by decide) (h.isDigit_group group hmem)

/-- The commas taken away, the digits are left: no digit is a comma, and each three has one in front
of it. -/
theorem filter_commas (h : InThrees lead groups) :
    (lead ++ groups.flatMap (',' :: ·)).filter (· ≠ ',') = lead ++ groups.flatten := by
  have hkept {cs : List Char} (hcs : ',' ∉ cs) : cs.filter (· ≠ ',') = cs :=
    List.filter_eq_self.mpr fun c hc => decide_eq_true (ne_of_mem_of_not_mem hc hcs)
  have hgroup : ∀ group ∈ groups, (',' :: group).filter (· ≠ ',') = group := by
    intro group hmem
    rw [List.filter_cons_of_neg (by decide), hkept (h.comma_notMem_group hmem)]
  rw [List.filter_append, hkept h.comma_notMem_lead, List.filter_flatMap, List.flatMap_def,
    List.map_congr_left hgroup, List.map_id']

/-- There is a comma for each three, and none among the digits. -/
theorem count_commas (h : InThrees lead groups) :
    (lead ++ groups.flatMap (',' :: ·)).count ',' = groups.length := by
  have hgroup : ∀ group ∈ groups, (List.count ',' ∘ (',' :: ·)) group = 1 := by
    intro group hmem
    rw [Function.comp_apply, List.count_cons_self,
      List.count_eq_zero.mpr (h.comma_notMem_group hmem)]
  rw [List.count_append, List.count_eq_zero.mpr h.comma_notMem_lead, List.count_flatMap,
    List.map_congr_left hgroup, List.map_const', List.sum_replicate_nat, Nat.zero_add, Nat.mul_one]

end InThrees

/-! ## Digits grouped -/

/-- Separators are put between what was there, so a grouped text has no other characters than the
digits and the comma. -/
theorem mem_groupDigits {c : Char} {cs : List Char} (h : c ∈ groupDigits cs) :
    c = ',' ∨ c ∈ cs := by
  induction cs with
  | nil => cases h
  | cons d rest ih =>
    rw [groupDigits] at h
    split at h <;> grind

/-- One digit more in front: what follows it decides whether a comma does. -/
theorem groupDigits_cons (hne : digits ≠ []) :
    groupDigits (d :: digits) =
      if digits.length % 3 = 0 then d :: ',' :: groupDigits digits
      else d :: groupDigits digits := by
  simp [groupDigits, hne]

/-- Looking at how many digits are to come puts the commas where counting from the right does. The
digits in threes are the invariant: a digit more in front joins those that lead, or leads alone if
they are three. -/
theorem groupDigits_inThrees (hne : digits ≠ []) (h : ∀ c ∈ digits, isDigit c = true) :
    ∃ lead groups, InThrees lead groups ∧ digits = lead ++ groups.flatten
      ∧ groupDigits digits = lead ++ groups.flatMap (',' :: ·) := by
  induction digits, hne using List.recNeNil with
  | singleton d => exact ⟨[d], [], .singleton (h d List.mem_cons_self), rfl, rfl⟩
  | cons d rest hne ih =>
    obtain ⟨hd, hrest⟩ := List.forall_mem_cons.mp h
    obtain ⟨lead, groups, hthrees, rfl, hgrouped⟩ := ih hrest
    rw [groupDigits_cons hne, hgrouped]
    -- whole threes are to come exactly if those that lead them are three already
    rcases Nat.lt_or_eq_of_le hthrees.lead_le with hroom | hfull
    · rw [if_neg (mt hthrees.length_mod_three_iff.mp (Nat.ne_of_lt hroom))]
      exact ⟨d :: lead, groups, hthrees.cons hd hroom, rfl, rfl⟩
    · rw [if_pos (hthrees.length_mod_three_iff.mpr hfull)]
      exact ⟨[d], lead :: groups, hthrees.cons_full hd hfull, rfl, rfl⟩

/-! ## Numbers grouped -/

/-- A grouped number is its digits in threes with a comma in front of each three. All that is said
of separators below is read off this form. -/
theorem grouped_inThrees (n : Nat) :
    ∃ lead groups, InThrees lead groups ∧ decimal n = lead ++ groups.flatten
      ∧ grouped n = lead ++ groups.flatMap (',' :: ·) :=
  groupDigits_inThrees (decimal_ne_nil n) fun _ => isDigit_of_mem_decimal

theorem filter_grouped (n : Nat) : (grouped n).filter (· ≠ ',') = decimal n := by
  obtain ⟨lead, groups, hthrees, hdigits, hgrouped⟩ := grouped_inThrees n
  rw [hgrouped, hthrees.filter_commas, hdigits]

theorem count_grouped (n : Nat) : (grouped n).count ',' = ((decimal n).length - 1) / 3 := by
  obtain ⟨lead, groups, hthrees, hdigits, hgrouped⟩ := grouped_inThrees n
  rw [hgrouped, hthrees.count_commas, hdigits, hthrees.length_groups]

/-- Different numbers are spelled differently, since the digits are still there. -/
theorem grouped_injective (h : grouped m = grouped n) : m = n := by
  have hdigits : decimal m = decimal n := by rw [← filter_grouped m, h, filter_grouped n]
  exact decimal_injective hdigits

/-- **Thousands separators are faithful**, for every number of 64 bits.

* The commas taken away, the number is left in decimal.
* The text is one to three digits, and behind them nothing but commas with three digits each.
* So there are `(d - 1) / 3` commas for `d` digits.
* Different numbers are spelled differently. -/
theorem grouped_faithful (value other : UInt64) :
    (grouped value.toNat).filter (· ≠ ',') = Nat.toDigits 10 value.toNat
      ∧ (∃ lead groups, InThrees lead groups
          ∧ grouped value.toNat = lead ++ groups.flatMap (',' :: ·))
      ∧ (grouped value.toNat).count ',' = ((Nat.toDigits 10 value.toNat).length - 1) / 3
      ∧ (grouped value.toNat = grouped other.toNat ↔ value = other) := by
  refine ⟨filter_grouped _, ?_, count_grouped _, fun h => ?_, fun h => h ▸ rfl⟩
  · obtain ⟨lead, groups, hthrees, -, hgrouped⟩ := grouped_inThrees value.toNat
    exact ⟨lead, groups, hthrees, hgrouped⟩
  · exact UInt64.toNat_inj.mp (grouped_injective h)

example : grouped 18446744073709551615 = "18,446,744,073,709,551,615".toList := by decide +kernel

end QuotaWatch.Text
