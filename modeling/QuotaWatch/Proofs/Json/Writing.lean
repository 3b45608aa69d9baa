import Mathlib.Data.List.Forall2
import QuotaWatch.Proofs.Json.Spelling
import QuotaWatch.Proofs.Text.Decimal

/-!
# What is written is JSON

Both ways to write a value, without blanks and with one item per line, spell that value, if it is
`Plain`: its numbers are counts and its brackets do not nest too deep. They differ in the blanks
behind commas and colons only, so that one lemma for items and one for members does for both
(`spells_items`, `spells_members`).

* **`Plain.writes_compact`**, **`Plain.writes_pretty`**: a plain value is written as JSON.
-/

namespace QuotaWatch.Json

variable {depth level : Nat} {v : Value} {bytes gap back tail : Bytes}

/-! ## Strings -/

/-- Every control character has a code unit, and is one byte. Two zeros in front make it four
digits. -/
theorem hexDigits_of_control {b : UInt8} (h : b < 0x20) :
    WritesUnit [0x30, 0x30, hexDigit (b.toNat / 16), hexDigit (b.toNat % 16)] b.toNat
      ∧ codePointBytes b.toNat = [b] := by
  have hall : ∀ n < 32, Bytes.hexValue? (hexDigit (n / 16)) = some (n / 16)
      ∧ Bytes.hexValue? (hexDigit (n % 16)) = some (n % 16)
      ∧ codePointBytes n = [UInt8.ofNat n] := by decide +kernel
  have hlt : b.toNat < 32 := h
  obtain ⟨hhigh, hlow, hbytes⟩ := hall b.toNat hlt
  have hzero : Bytes.hexValue? 0x30 = some 0 := rfl
  have hunit := WritesUnit.digits hzero hzero hhigh hlow
  rw [show ((0 * 16 + 0) * 16 + b.toNat / 16) * 16 + b.toNat % 16 = b.toNat by omega] at hunit
  rw [UInt8.ofNat_toNat] at hbytes
  exact ⟨hunit, hbytes⟩

/-- One byte of a text is written so that it is read as this byte: by a letter, by a code unit, or
as it is. -/
theorem quoted_escapeByte (b : UInt8) {body : Bytes} (h : Quoted body bytes) :
    Quoted (escapeByte b ++ body) (b :: bytes) := by
  unfold escapeByte
  split
  next hb => subst hb; exact .letter rfl h
  next hquote =>
  split
  next hb => subst hb; exact .letter rfl h
  next hslash =>
  split
  next hb => subst hb; exact .letter rfl h
  split
  next hb => subst hb; exact .letter rfl h
  split
  next hb => subst hb; exact .letter rfl h
  split
  next hb => subst hb; exact .letter rfl h
  split
  next hb => subst hb; exact .letter rfl h
  split
  -- what has no letter is written by its number
  next hcontrol =>
    obtain ⟨hunit, hbytes⟩ := hexDigits_of_control hcontrol
    have hlt : b.toNat < 32 := hcontrol
    have hquoted := Quoted.unit hunit (.inl (by omega)) h
    rwa [hbytes] at hquoted
  next hcontrol => exact .plain hquote hslash hcontrol h

/-- **A text is written as a string**, whatever its characters. -/
theorem writesString_stringBytes (s : String) : WritesString (stringBytes s) s := by
  refine ⟨(Bytes.ofText s).flatMap escapeByte, ?_, rfl⟩
  induction Bytes.ofText s with
  | nil => exact .nil
  | cons b rest ih => exact quoted_escapeByte b ih

/-! ## Numbers -/

/-- The byte of a digit has the digit's own number. -/
theorem toNat_ascii_of_isDigit {c : Char} (h : Text.isDigit c = true) :
    (ascii c).toNat = c.toNat ∧ isDigit (ascii c) = true := by
  have hbounds : 48 ≤ c.toNat ∧ c.toNat ≤ 57 := Text.bounds_of_isDigit h
  have hbyte : (ascii c).toNat = c.toNat := by
    rw [ascii, UInt8.toNat_ofNat']
    omega
  refine ⟨hbyte, ?_⟩
  simp only [isDigit, Bool.and_eq_true, decide_eq_true_eq, UInt8.le_iff_toNat_le, hbyte]
  exact hbounds

theorem isDigit_of_mem_natBytes {n : Nat} {b : UInt8} (h : b ∈ natBytes n) : isDigit b = true := by
  obtain ⟨c, hc, rfl⟩ := List.mem_map.mp h
  exact (toNat_ascii_of_isDigit (Text.isDigit_of_mem_decimal hc)).2

/-- The value of digits is the same for bytes and for characters. -/
theorem digitsValue_map_ascii : ∀ {cs : List Char} (acc : Nat),
    (∀ c ∈ cs, Text.isDigit c = true) →
      (cs.map ascii).foldl (fun n d => 10 * n + (d.toNat - 0x30)) acc = Text.digitsValue acc cs
  | [], _, _ => rfl
  | c :: rest, acc, h => by
    have hc := (toNat_ascii_of_isDigit (h c List.mem_cons_self)).1
    rw [List.map_cons, List.foldl_cons, hc]
    exact digitsValue_map_ascii _ fun d hd => h d (List.mem_cons_of_mem c hd)

theorem digitsValue_natBytes (n : Nat) : digitsValue (natBytes n) = n :=
  (digitsValue_map_ascii 0 fun _ => Text.isDigit_of_mem_decimal).trans (Text.digitsValue_decimal n)

/-- A number is not written with a zero in front, unless it is zero. -/
theorem natBytes_noZero {n : Nat} (h : (natBytes n).head? = some 0x30) :
    (natBytes n).length = 1 := by
  rcases Nat.eq_zero_or_pos n with rfl | hpos
  · rfl
  · -- a number above zero does not begin with a zero
    obtain ⟨c, rest, hdigits, hc⟩ := Text.decimal_of_pos hpos
    have hdigit : Text.isDigit c = true :=
      Text.isDigit_of_mem_decimal (hdigits ▸ List.mem_cons_self)
    have hnat : natBytes n = ascii c :: rest.map ascii := by
      show (Text.decimal n).map ascii = _
      rw [hdigits, List.map_cons]
    rw [hnat, List.head?_cons, Option.some.injEq] at h
    have hzero := (toNat_ascii_of_isDigit hdigit).1
    rw [h] at hzero
    exact absurd (Char.toNat_inj.mp hzero.symm) hc

/-- A count is written as a number of the grammar, without a fraction or an exponent. -/
theorem writesNumber_count (n : UInt64) : WritesNumber (natBytes n.toNat) (.natural n) := by
  refine ⟨⟨false, natBytes n.toNat, none, none⟩, ⟨⟨?_, fun b => isDigit_of_mem_natBytes⟩,
    natBytes_noZero, [], [], .none, .none, by simp [minus]⟩, ?_⟩
  · show (Text.decimal n.toNat).map ascii ≠ []
    simpa using Text.decimal_ne_nil n.toNat
  · simp [Numeral.number?, Numeral.node, digitsValue_natBytes, n.toNat_lt_size]

/-! ## Lists -/

theorem blank_nil : Blank [] := fun _ h => absurd h List.not_mem_nil

/-- Texts with commas in between spell the items of a list. What stands behind a comma, and behind
the last item, is left open, so this does for both layouts. -/
theorem spells_items (hgap : Blank gap) (htail : Blank tail) {texts : List Bytes} {vs : List Value}
    (h : List.Forall₂ (fun text v => Spells depth text (.value v)) texts vs) (hne : vs ≠ []) :
    Spells depth (joined (0x2C :: gap) texts ++ tail) (.items vs) := by
  induction h with
  | nil => exact absurd rfl hne
  | @cons text v texts vs hfirst hrest ih =>
    cases hrest with
    | nil => exact .lastItem hfirst htail
    | cons hnext hmore =>
      have hitem := Spells.item hfirst blank_nil hgap
        (ih (List.cons_ne_nil _ _))
      simpa [joined] using hitem

/-- Texts with their keys and with commas in between spell the members of an object. -/
theorem spells_members (hback : Blank back) (hgap : Blank gap) (htail : Blank tail)
    {texts : List Bytes} {ms : List (String × Value)}
    (h : List.Forall₂ (fun text m => ∃ value, text = stringBytes m.1 ++ 0x3A :: back ++ value
      ∧ Spells depth value (.value m.2)) texts ms) (hne : ms ≠ []) :
    Spells depth (joined (0x2C :: gap) texts ++ tail) (.members ms) := by
  induction h with
  | nil => exact absurd rfl hne
  | @cons text m texts ms hfirst hrest ih =>
    obtain ⟨name, v⟩ := m
    obtain ⟨value, rfl, hvalue⟩ := hfirst
    have hkey := writesString_stringBytes name
    -- the last member has no comma behind it
    cases hrest with
    | nil =>
      have hlast := Spells.lastMember hkey blank_nil hback hvalue htail
      simpa [joined] using hlast
    | cons hnext hmore =>
      have hmember := Spells.member hkey blank_nil hback hvalue blank_nil hgap
        (ih (List.cons_ne_nil _ _))
      simpa [joined] using hmember

theorem compactItems_eq (vs : List Value) : compactItems vs = vs.map Value.compact := by
  induction vs with
  | nil => rfl
  | cons v rest ih => rw [compactItems, ih, List.map_cons]

theorem compactMembers_eq (ms : List (String × Value)) :
    compactMembers ms = ms.map fun m => stringBytes m.1 ++ 0x3A :: m.2.compact := by
  induction ms with
  | nil => rfl
  | cons m rest ih => rw [compactMembers, ih, List.map_cons]

theorem prettyItems_eq (level : Nat) (vs : List Value) :
    prettyItems level vs = vs.map (Value.prettyAt level) := by
  induction vs with
  | nil => rfl
  | cons v rest ih => rw [prettyItems, ih, List.map_cons]

theorem prettyMembers_eq (level : Nat) (ms : List (String × Value)) :
    prettyMembers level ms
      = ms.map fun m => stringBytes m.1 ++ [0x3A, 0x20] ++ m.2.prettyAt level := by
  induction ms with
  | nil => rfl
  | cons m rest ih => rw [prettyMembers, ih, List.map_cons]

/-- A line break with its indentation is blank. -/
theorem blank_newLine (level : Nat) : Blank (newLine level) := by
  intro b hb
  rcases List.mem_cons.mp hb with rfl | hb
  · rfl
  · rw [List.eq_of_mem_replicate hb]
    rfl

/-! ## Values -/

/-- A value whose numbers are counts, with brackets less than `depth` deep. -/
inductive Plain : (depth : Nat) → Value → Prop where
  | null {depth : Nat} : Plain depth .null
  | bool {depth : Nat} (b : Bool) : Plain depth (.bool b)
  | count {depth : Nat} (n : UInt64) : Plain depth (.number (.natural n))
  | string {depth : Nat} (s : String) : Plain depth (.string s)
  | array {depth : Nat} {vs : List Value} (h : ∀ v ∈ vs, Plain (depth + 1) v) :
      Plain (depth + 2) (.array vs)
  | object {depth : Nat} {ms : List (String × Value)} (h : ∀ m ∈ ms, Plain (depth + 1) m.2) :
      Plain (depth + 2) (.object ms)

/-- A plain value is spelled without blanks. The induction follows the value. -/
theorem Plain.spells_compact (h : Plain depth v) : Spells depth v.compact (.value v) := by
  induction h with
  | null => exact .null
  | bool b => cases b <;> constructor
  | count n => exact .number (writesNumber_count n)
  | string s => exact .string (writesString_stringBytes s)
  -- no blanks anywhere: every gap is empty
  | @array depth vs _ ih =>
    rw [Value.compact, compactItems_eq]
    cases vs with
    | nil => exact .emptyArray blank_nil
    | cons v rest =>
      have hitems := spells_items blank_nil blank_nil
        (List.forall₂_map_left_iff.mpr (List.forall₂_same.mpr ih)) (List.cons_ne_nil v rest)
      simpa using Spells.array blank_nil hitems
  | @object depth ms _ ih =>
    rw [Value.compact, compactMembers_eq]
    cases ms with
    | nil => exact .emptyObject blank_nil
    | cons m rest =>
      have hmembers := spells_members blank_nil blank_nil blank_nil
        (List.forall₂_map_left_iff.mpr (List.forall₂_same.mpr fun m hm => ⟨_, rfl, ih m hm⟩))
        (List.cons_ne_nil m rest)
      simpa using Spells.object blank_nil hmembers

/-- A plain value is spelled with one item per line, however deep it is indented. -/
theorem Plain.spells_pretty (h : Plain depth v) :
    ∀ level, Spells depth (v.prettyAt level) (.value v) := by
  induction h with
  | null => exact fun _ => .null
  | bool b => cases b <;> exact fun _ => by constructor
  | count n => exact fun _ => .number (writesNumber_count n)
  | string s => exact fun _ => .string (writesString_stringBytes s)
  -- the gaps are line ends, indented by one level more than the end
  | @array depth vs _ ih =>
    intro level
    rw [Value.prettyAt, prettyItems_eq]
    cases vs with
    | nil => exact .emptyArray blank_nil
    | cons v rest =>
      have hitems := spells_items (blank_newLine (level + 1)) (blank_newLine level)
        (List.forall₂_map_left_iff.mpr
          (List.forall₂_same.mpr fun v hv => ih v hv (level + 1))) (List.cons_ne_nil v rest)
      simpa [spread] using Spells.array (blank_newLine (level + 1)) hitems
  | @object depth ms _ ih =>
    intro level
    rw [Value.prettyAt, prettyMembers_eq]
    cases ms with
    | nil => exact .emptyObject blank_nil
    | cons m rest =>
      have htexts : List.Forall₂ (fun text m => ∃ value,
          text = stringBytes m.1 ++ 0x3A :: [0x20] ++ value
            ∧ Spells (depth + 1) value (.value m.2))
          ((m :: rest).map fun m => stringBytes m.1 ++ [0x3A, 0x20] ++ m.2.prettyAt (level + 1))
          (m :: rest) :=
        List.forall₂_map_left_iff.mpr
          (List.forall₂_same.mpr fun m hm => ⟨_, rfl, ih m hm (level + 1)⟩)
      have hmembers := spells_members (by simp [Blank, isBlank]) (blank_newLine (level + 1))
        (blank_newLine level) htexts (List.cons_ne_nil m rest)
      simpa [spread] using Spells.object (blank_newLine (level + 1)) hmembers

/-- **A plain value is written as JSON without blanks.** -/
theorem Plain.writes_compact (h : Plain depthLimit v) : Writes v.compact v :=
  ⟨[], v.compact, [], blank_nil, blank_nil, h.spells_compact, by simp⟩

/-- **A plain value is written as JSON with one item per line**, with blanks behind it or not. -/
theorem Plain.writes_pretty (h : Plain depthLimit v) (htail : Blank tail) :
    Writes (v.pretty ++ tail) v :=
  ⟨[], v.pretty, tail, blank_nil, htail, h.spells_pretty 0, by simp⟩

end QuotaWatch.Json
