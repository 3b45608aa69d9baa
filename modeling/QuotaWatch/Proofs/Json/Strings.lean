import QuotaWatch.Proofs.Json.Tokens

/-!
# Reading strings

`scanString` reads up to the closing quote whatever the escapes say, and keeps the first escape that
is no character as a fault. A scan without a fault has read what the grammar writes
(`scanString_quoted`), and what the grammar writes is scanned without a fault
(`scanString_of_quoted`).
-/

namespace QuotaWatch.Json

variable {p q : Place} {text body bytes acc : Bytes} {n fuel : Nat}

/-- Bytes are a text just if they are its bytes. -/
theorem text?_eq_some_iff {b : Bytes} {s : String} :
    Bytes.text? b = some s ↔ b = Bytes.ofText s := by
  constructor
  · intro h
    unfold Bytes.text? String.fromUTF8? at h
    split at h
    · cases h
      simp [Bytes.ofText, String.fromUTF8]
    · cases h
  · intro h
    rw [h, Bytes.text?_ofText]

/-! ## Code units -/

theorem WritesUnit.length (h : WritesUnit text n) : text.length = 4 := by
  cases h
  rfl

/-- Four hexadecimal digits are read as their number. -/
theorem hex_of_writes (hn : WritesUnit text n) (h : Behind p text q) : p.hex = .ok n := by
  cases hn with
  | digits ha hb hc hd =>
    unfold Place.hex
    simp only [h.rest, List.cons_append]
    rw [ha, hb, hc, hd]

/-- What is read as a number in hexadecimal is four digits. -/
theorem hex_writes (h : p.hex = .ok n) : ∃ text, WritesUnit text n ∧ Behind p text (p.skip 4) := by
  unfold Place.hex at h
  split at h
  next a b c d rest hrest =>
    split at h
    next ha hb hc hd =>
      cases h
      exact ⟨_, .digits ha hb hc hd, behind_skip hrest⟩
    next => cases h
  next => cases h

/-! ## One part of a string -/

variable {s t : StringScan}

/-- A quote ends the scan, with what was collected. -/
theorem scanString_quote (h : Behind p [0x22] q) : scanString (fuel + 1) s p = .ok (s, q) := by
  have hrest : p.rest = 0x22 :: q.rest := h.rest
  unfold scanString
  simp only [hrest]
  rw [h.eq_skip]
  rfl

/-- A byte that needs no escape stands for itself. Bytes above ASCII are among these: they are
looked at as text only when the string is complete. -/
theorem scanString_plain {b : UInt8} (hquote : b ≠ 0x22) (hslash : b ≠ 0x5C) (hcontrol : ¬b < 0x20)
    (h : Behind p [b] q) : scanString (fuel + 1) s p = scanString fuel (s.push [b]) q := by
  have hrest : p.rest = b :: q.rest := h.rest
  obtain rfl : q = p.skip 1 := h.eq_skip
  conv => left; unfold scanString
  simp only [hrest]
  rw [if_neg hcontrol]

/-- An escape of one letter stands for one byte. -/
theorem scanString_letter {b c : UInt8} (hletter : escaped? b = some c) (h : Behind p [0x5C, b] q) :
    scanString (fuel + 1) s p = scanString fuel (s.push [c]) q := by
  have hrest : p.rest = 0x5C :: b :: q.rest := h.rest
  have hb : b ≠ 0x75 := by
    rintro rfl
    cases hletter
  obtain rfl : q = p.skip 2 := h.eq_skip
  conv => left; unfold scanString
  simp only [hrest]
  rw [hletter]

/-- An escape with four digits is a code unit. What becomes of it may depend on what follows. -/
theorem scanString_unit {digits : Bytes} (hdigits : WritesUnit digits n)
    (h : Behind p (0x5C :: 0x75 :: digits) q) :
    scanString (fuel + 1) s p = scanString fuel (s.unit n q).1 (s.unit n q).2 := by
  have hrest : p.rest = 0x5C :: 0x75 :: (digits ++ q.rest) := h.rest
  have hhex : (p.skip 2).hex = .ok n := hex_of_writes hdigits (h.drop (a := [0x5C, 0x75]))
  obtain rfl : q = p.skip 6 := by rw [h.eq_skip, List.length_cons, List.length_cons, hdigits.length]
  conv => left; unfold scanString
  simp only [hrest, hhex]

/-- A code unit that is no surrogate is a character. -/
theorem unit_alone (hn : n < 0xD800 ∨ 0xDFFF < n) :
    s.unit n p = (s.push (codePointBytes n), p) := by
  have htrailing : ¬(0xDC00 ≤ n ∧ n ≤ 0xDFFF) := by omega
  have hleading : n < 0xD800 ∨ 0xDBFF < n := by omega
  simp only [StringScan.unit, Bool.and_eq_true, Bool.or_eq_true, decide_eq_true_eq]
  rw [if_neg htrailing, if_pos hleading]

/-- Two surrogates, the leading one first, are one character, and both escapes have been read then.
-/
theorem unit_pair {m : Nat} {second : Bytes} (hm : 0xD800 ≤ m ∧ m ≤ 0xDBFF)
    (hn : 0xDC00 ≤ n ∧ n ≤ 0xDFFF) (hsecond : WritesUnit second n)
    (h : Behind p (0x5C :: 0x75 :: second) q) :
    s.unit m p
      = (s.push (codePointBytes (0x10000 + (m - 0xD800) * 0x400 + (n - 0xDC00))), q) := by
  have hrest : p.rest = 0x5C :: 0x75 :: (second ++ q.rest) := h.rest
  have hhex : (p.skip 2).hex = .ok n := hex_of_writes hsecond (h.drop (a := [0x5C, 0x75]))
  obtain rfl : q = p.skip 6 := by rw [h.eq_skip, List.length_cons, List.length_cons, hsecond.length]
  have htrailing : ¬(0xDC00 ≤ m ∧ m ≤ 0xDFFF) := by omega
  have hleading : ¬(m < 0xD800 ∨ 0xDBFF < m) := by omega
  simp only [StringScan.unit, Bool.and_eq_true, Bool.or_eq_true, decide_eq_true_eq]
  rw [if_neg htrailing, if_neg hleading]
  simp only [hrest, hhex, if_pos hn]

/-- A string that ends in the middle of an escape is not scanned. -/
theorem scanString_cut (h : p.rest = [] ∨ p.rest = [0x5C]
      ∨ ∃ rest e, p.rest = 0x5C :: 0x75 :: rest ∧ (p.skip 2).hex = .error e) (fuel : Nat) :
    ∃ e, scanString fuel s p = .error e := by
  cases fuel with
  | zero => exact ⟨_, rfl⟩
  | succ fuel =>
    unfold scanString
    obtain hrest | hrest | ⟨rest, e, hrest, hhex⟩ := h
    · simp [hrest]
    · simp [hrest]
    · simp [hrest, hhex]

/-- What becomes of a code unit. The last case is an escape that is cut off or broken: the next
step fails there. -/
theorem unit_cases (s : StringScan) (n : Nat) (p : Place) :
    ((n < 0xD800 ∨ 0xDFFF < n) ∧ s.unit n p = (s.push (codePointBytes n), p))
    ∨ (∃ m second q, (0xD800 ≤ n ∧ n ≤ 0xDBFF) ∧ (0xDC00 ≤ m ∧ m ≤ 0xDFFF) ∧ WritesUnit second m
        ∧ Behind p (0x5C :: 0x75 :: second) q
        ∧ s.unit n p
          = (s.push (codePointBytes (0x10000 + (n - 0xD800) * 0x400 + (m - 0xDC00))), q))
    ∨ (∃ fault, s.unit n p = (s.spoil fault, p))
    ∨ (s.unit n p = (s, p) ∧ ∀ fuel, ∃ e, scanString fuel s p = .error e) := by
  by_cases htrailing : 0xDC00 ≤ n ∧ n ≤ 0xDFFF
  · refine .inr (.inr (.inl ⟨p.here .loneSurrogate, ?_⟩))
    simp [StringScan.unit, htrailing]
  by_cases halone : n < 0xD800 ∨ 0xDFFF < n
  · exact .inl ⟨halone, unit_alone halone⟩
  -- what becomes of a leading surrogate depends on what follows
  have hleading : 0xD800 ≤ n ∧ n ≤ 0xDBFF := by omega
  have hbetween : ¬(n < 0xD800 ∨ 0xDBFF < n) := by omega
  unfold StringScan.unit
  simp only [Bool.and_eq_true, Bool.or_eq_true, decide_eq_true_eq]
  rw [if_neg htrailing, if_neg hbetween]
  split
  next hrest => exact .inr (.inr (.inr ⟨rfl, scanString_cut (.inl hrest)⟩))
  next hrest => exact .inr (.inr (.inr ⟨rfl, scanString_cut (.inr (.inl hrest))⟩))
  next rest hrest =>
    split
    next fault hhex =>
      exact .inr (.inr (.inr ⟨rfl, scanString_cut (.inr (.inr ⟨rest, fault, hrest, hhex⟩))⟩))
    next m hhex =>
      obtain ⟨second, hsecond, hbehind⟩ := hex_writes hhex
      have hslash : Behind p [0x5C, 0x75] (p.skip 2) := behind_skip hrest
      rw [skip_skip] at hbehind
      split
      next hm =>
        exact .inr (.inl ⟨m, second, _, hleading, hm, hsecond, hslash.trans hbehind, rfl⟩)
      next => exact .inr (.inr (.inl ⟨_, rfl⟩))
  next => exact .inr (.inr (.inl ⟨_, rfl⟩))
  next => exact .inr (.inr (.inl ⟨_, rfl⟩))

/-- A scan that ends has met the closing quote, or goes on behind one part of the string. The reader
is opened here once, and the induction below has these four cases. -/
theorem scanString_succ_ok (h : scanString (fuel + 1) s p = .ok (t, q)) :
    (Behind p [0x22] q ∧ t = s)
    ∨ (∃ b r, (b ≠ 0x22 ∧ b ≠ 0x5C ∧ ¬b < 0x20) ∧ Behind p [b] r
        ∧ scanString fuel (s.push [b]) r = .ok (t, q))
    ∨ (∃ b c r, escaped? b = some c ∧ Behind p [0x5C, b] r
        ∧ scanString fuel (s.push [c]) r = .ok (t, q))
    ∨ (∃ digits n r, WritesUnit digits n ∧ Behind p (0x5C :: 0x75 :: digits) r
        ∧ scanString fuel (s.unit n r).1 (s.unit n r).2 = .ok (t, q)) := by
  unfold scanString at h
  simp only at h
  split at h
  next => cases h
  next rest hrest =>
    cases h
    exact .inl ⟨behind_one hrest, rfl⟩
  next rest hrest =>
    split at h
    next => cases h
    next more =>
      split at h
      next => cases h
      next unit hhex =>
        -- a unit of four digits may need the unit behind it
        obtain ⟨digits, hdigits, hbehind⟩ := hex_writes hhex
        have hslash : Behind p [0x5C, 0x75] (p.skip 2) := behind_skip hrest
        rw [skip_skip] at hbehind
        exact .inr (.inr (.inr ⟨digits, unit, _, hdigits, hslash.trans hbehind, h⟩))
    next b more _ =>
      split at h
      next c hletter =>
        exact .inr (.inr (.inl ⟨b, c, _, hletter, behind_skip hrest, h⟩))
      next => cases h
  next b rest hquote hslash hrest =>
    split at h
    next => cases h
    next hcontrol =>
      exact .inr (.inl ⟨b, _, ⟨hquote, hslash, hcontrol⟩, behind_one hrest, h⟩)

/-! ## Strings -/

/-- Bytes are collected in their order. -/
theorem push_push (s : StringScan) (a b : Bytes) : (s.push a).push b = s.push (a ++ b) := by
  simp [StringScan.push]

/-- There is fuel left behind what takes one step. -/
theorem Behind.fuel_left {x : UInt8} (h : Behind p (x :: text) q) (hfuel : p.rest.length ≤ fuel) :
    ∃ left, fuel = left + 1 ∧ q.rest.length ≤ left := by
  have hlength := h.length_rest
  rw [List.length_cons] at hlength
  exact ⟨fuel - 1, by omega, by omega⟩

/-- What the grammar writes between quotes is scanned without a fault. The induction is on the
grammar, for all that was collected before. -/
theorem scanString_of_quoted {body : Bytes} (hbody : Quoted body bytes) :
    ∀ {fuel : Nat} {p : Place} {s : StringScan}, Behind p (body ++ [0x22]) q →
      p.rest.length ≤ fuel → scanString fuel s p = .ok (s.push bytes, q) := by
  induction hbody with
  | nil =>
    intro fuel p s h hfuel
    obtain ⟨fuel, rfl, _⟩ := Behind.fuel_left (x := 0x22) h hfuel
    exact scanString_quote h
  | @plain b body bytes hquote hslash hcontrol _ ih =>
    intro fuel p s h hfuel
    obtain ⟨r, hr, h⟩ := Behind.split (a := [b]) h
    obtain ⟨fuel, rfl, hleft⟩ := hr.fuel_left hfuel
    rw [scanString_plain hquote hslash hcontrol hr, ih h hleft, push_push]
    rfl
  | @letter b c body bytes hletter _ ih =>
    intro fuel p s h hfuel
    obtain ⟨r, hr, h⟩ := Behind.split (a := [0x5C, b]) h
    obtain ⟨fuel, rfl, hleft⟩ := hr.fuel_left hfuel
    rw [scanString_letter hletter hr, ih h hleft, push_push]
    rfl
  -- a unit that is no half of a pair stands alone
  | unit hdigits hn _ ih =>
    intro fuel p s h hfuel
    rw [List.append_assoc] at h
    obtain ⟨r, hr, h⟩ := h.split
    obtain ⟨fuel, rfl, hleft⟩ := hr.fuel_left hfuel
    rw [scanString_unit hdigits hr, unit_alone hn]
    rw [ih h hleft, push_push]
  -- two halves make one character, and take one step of the fuel
  | pair hfirst hsecond hm hn _ ih =>
    intro fuel p s h hfuel
    rw [List.append_assoc, List.append_assoc] at h
    obtain ⟨l, hl, h⟩ := h.split
    obtain ⟨r, hr, h⟩ := h.split
    obtain ⟨fuel, rfl, hleft⟩ := hl.fuel_left hfuel
    have hlength := hr.length_rest
    rw [scanString_unit hfirst hl, unit_pair hm hn hsecond hr]
    rw [ih h (by omega), push_push]

/-- What is scanned without a fault is written between quotes. A fault is never taken back, so there
was none on the way either. -/
theorem scanString_quoted : ∀ {fuel : Nat} {s : StringScan} {p : Place},
    scanString fuel s p = .ok (t, q) → t.fault = none →
      ∃ body bytes, Quoted body bytes ∧ t = s.push bytes ∧ Behind p (body ++ [0x22]) q := by
  intro fuel
  induction fuel with
  | zero =>
    intro s p h hfault
    cases h
  | succ fuel ih =>
    intro s p h hfault
    obtain ⟨hquote, rfl⟩ | ⟨b, r, ⟨hquote, hslash, hcontrol⟩, hr, h⟩ | ⟨b, c, r, hletter, hr, h⟩
      | ⟨digits, n, r, hdigits, hr, h⟩ := scanString_succ_ok h
    · exact ⟨[], [], .nil, rfl, hquote⟩
    · obtain ⟨body, bytes, hbody, rfl, hmore⟩ := ih h hfault
      exact ⟨_, _, .plain hquote hslash hcontrol hbody, push_push _ _ _, hr.trans hmore⟩
    · obtain ⟨body, bytes, hbody, rfl, hmore⟩ := ih h hfault
      exact ⟨_, _, .letter hletter hbody, push_push _ _ _, hr.trans hmore⟩
    · obtain ⟨hn, hunit⟩ | ⟨m, second, r', hn, hm, hsecond, hr', hunit⟩ | ⟨fault, hunit⟩
        | ⟨hunit, hcut⟩ := unit_cases s n r
      · rw [hunit] at h
        obtain ⟨body, bytes, hbody, rfl, hmore⟩ := ih h hfault
        refine ⟨_, _, .unit hdigits hn hbody, push_push _ _ _, ?_⟩
        simpa using hr.trans hmore
      · rw [hunit] at h
        obtain ⟨body, bytes, hbody, rfl, hmore⟩ := ih h hfault
        refine ⟨_, _, .pair hdigits hsecond hn hm hbody, push_push _ _ _, ?_⟩
        simpa using hr.trans (hr'.trans hmore)
      · -- a half alone spoils the text, which contradicts that it has no fault
        rw [hunit] at h
        obtain ⟨body, bytes, _, rfl, _⟩ := ih h hfault
        simp [StringScan.push, StringScan.spoil] at hfault
      · rw [hunit] at h
        obtain ⟨e, he⟩ := hcut fuel
        rw [he] at h
        cases h

/-- **A string that the grammar writes is read as its text.** -/
theorem string_of_writes {text : Bytes} {s : String} (hs : WritesString text s)
    (h : Behind p text q) (hfuel : p.rest.length ≤ fuel + 1) :
    p.string fuel = .ok (.ok s, q) := by
  obtain ⟨body, hbody, rfl⟩ := hs
  obtain ⟨r, hr, h⟩ := Behind.split (a := [0x22]) h
  obtain ⟨left, hleft, hfuel⟩ := hr.fuel_left hfuel
  obtain rfl : left = fuel := by omega
  obtain rfl : r = p.skip 1 := hr.eq_skip
  have hscan : scanString left ⟨[], none⟩ (p.skip 1) = _ := scanString_of_quoted hbody h hfuel
  unfold Place.string
  rw [hscan]
  simp [StringScan.text, StringScan.push, bind, Except.bind, Bytes.text?_ofText]

/-- **What is read as a string without a fault is written as one.** -/
theorem string_writes {s : String} {rest : Bytes} (hrest : p.rest = 0x22 :: rest)
    (h : p.string fuel = .ok (.ok s, q)) : ∃ text, WritesString text s ∧ Behind p text q := by
  unfold Place.string at h
  simp only [except_bind_ok_iff] at h
  obtain ⟨⟨scan, after⟩, hscan, h⟩ := h
  simp only [Except.ok.injEq, Prod.mk.injEq] at h
  obtain ⟨htext, rfl⟩ := h
  cases hfault : scan.fault with
  | some fault => simp [StringScan.text, hfault] at htext
  | none =>
    obtain ⟨body, bytes, hbody, rfl, hbehind⟩ := scanString_quoted hscan hfault
    -- without a fault the bytes are a text
    have hbytes : bytes = Bytes.ofText s := by
      simp only [StringScan.text, hfault] at htext
      split at htext
      next text heq =>
        cases htext
        simpa [StringScan.push] using text?_eq_some_iff.mp heq
      next => cases htext
    rw [hbytes] at hbody
    exact ⟨_, ⟨body, hbody, rfl⟩, (behind_one hrest).trans hbehind⟩

end QuotaWatch.Json
