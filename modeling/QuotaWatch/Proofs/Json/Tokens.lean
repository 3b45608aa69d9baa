import QuotaWatch.Proofs.Except
import QuotaWatch.Proofs.Json.Grammar

/-!
# Reading words, numbers and strings

`Behind p text q` puts one place behind a text at another one. Each reader of a token has two lemmas
in these terms: a token that the grammar writes is read (`..._of_writes`), given that what follows
cannot belong to it, and what is read is a token of the grammar (`..._writes`).
-/

namespace QuotaWatch.Json

/-! ## Places -/

/-- At one place stands a text, and the other place is behind it. -/
structure Behind (p : Place) (text : Bytes) (q : Place) : Prop where
  rest : p.rest = text ++ q.rest
  offset : q.offset = p.offset + text.length

variable {p q r : Place} {a b text : Bytes} {x : UInt8}

theorem Behind.refl (p : Place) : Behind p [] p := ⟨rfl, rfl⟩

/-- Two texts one behind the other are passed one after the other. -/
theorem Behind.trans (h : Behind p a q) (h' : Behind q b r) : Behind p (a ++ b) r where
  rest := by rw [h.rest, h'.rest, List.append_assoc]
  offset := by rw [h'.offset, h.offset, List.length_append, Nat.add_assoc]

/-- There is only one place behind a text. -/
theorem Behind.eq_skip (h : Behind p text q) : q = p.skip text.length := by
  obtain ⟨hrest, hoffset⟩ := h
  obtain ⟨offset, rest⟩ := q
  simp only at hrest hoffset
  rw [Place.skip, hrest, List.drop_left, hoffset]

/-- Where a text stands, one can be behind it. -/
theorem behind_skip (h : p.rest = text ++ b) : Behind p text (p.skip text.length) where
  rest := by rw [Place.skip, h, List.drop_left]
  offset := rfl

theorem skip_skip (p : Place) (m n : Nat) : (p.skip m).skip n = p.skip (m + n) := by
  simp only [Place.skip, List.drop_drop, Nat.add_assoc]

theorem Behind.split (h : Behind p (a ++ b) r) : ∃ q, Behind p a q ∧ Behind q b r := by
  refine ⟨⟨p.offset + a.length, b ++ r.rest⟩, ⟨?_, rfl⟩, ⟨rfl, ?_⟩⟩
  · rw [h.rest, List.append_assoc]
  · rw [h.offset, List.length_append, Nat.add_assoc]

theorem behind_one (h : p.rest = x :: a) : Behind p [x] (p.skip 1) := behind_skip h

theorem Behind.drop (h : Behind p (a ++ b) q) : Behind (p.skip a.length) b q := by
  obtain ⟨r, hr, h⟩ := h.split
  rwa [← hr.eq_skip]

theorem Behind.tail (h : Behind p (x :: text) q) : Behind (p.skip 1) text q := h.drop (a := [x])

theorem Behind.length_rest (h : Behind p text q) : p.rest.length = text.length + q.rest.length := by
  rw [h.rest, List.length_append]

/-- The text between two places. -/
theorem Behind.take (h : Behind p text q) : p.rest.take (q.offset - p.offset) = text := by
  rw [h.offset, h.rest, Nat.add_sub_cancel_left, List.take_left]

/-- No byte of a kind stands at a place. -/
def Stops (kind : UInt8 → Bool) (p : Place) : Prop := ∀ b ∈ p.rest.head?, kind b = false

/-- A run of bytes of one kind ends where another one stands. -/
theorem takeWhile_eq {kind : UInt8 → Bool} (h : Behind p text q) (hall : ∀ b ∈ text, kind b = true)
    (hstop : Stops kind q) : p.rest.takeWhile kind = text := by
  rw [h.rest, List.takeWhile_append_of_pos hall]
  cases hq : q.rest with
  | nil => simp
  | cons c rest =>
    have hc : kind c = false := hstop c (by simp [hq])
    simp [hc]

/-- A run of bytes of one kind, as long as it goes, and what stops it. -/
theorem stops_takeWhile (kind : UInt8 → Bool) (p : Place) :
    Behind p (p.rest.takeWhile kind) (p.skip (p.rest.takeWhile kind).length)
      ∧ (∀ b ∈ p.rest.takeWhile kind, kind b = true)
      ∧ Stops kind (p.skip (p.rest.takeWhile kind).length) := by
  have hrest : p.rest = p.rest.takeWhile kind ++ p.rest.dropWhile kind :=
    (List.takeWhile_append_dropWhile).symm
  have hbehind := behind_skip hrest
  refine ⟨hbehind, fun b hb => ?_, fun b hb => ?_⟩
  · exact List.all_eq_true.mp (List.all_takeWhile) b hb
  · have hdrop : (p.skip (p.rest.takeWhile kind).length).rest = p.rest.dropWhile kind :=
      List.append_cancel_left (hbehind.rest.symm.trans hrest)
    rw [hdrop] at hb
    have := List.head?_dropWhile_not kind p.rest
    simpa [Option.mem_def.mp hb] using this

/-- A byte of another kind stops a run. -/
theorem stops_cons {kind : UInt8 → Bool} (h : Behind p (x :: text) q) (hx : kind x = false) :
    Stops kind p := by
  intro b hb
  rw [h.rest] at hb
  obtain rfl : x = b := by simpa using hb
  exact hx

/-! ## Blanks -/

/-- Blanks are skipped up to something else. -/
theorem skipBlanks_of_blank (h : Behind p text q) (hblank : Blank text)
    (hstop : Stops isBlank q) : p.skipBlanks = q := by
  rw [Place.skipBlanks, takeWhile_eq h hblank hstop, h.eq_skip]

/-- What is skipped are blanks, and all of them. -/
theorem skipBlanks_blank (p : Place) :
    ∃ gap, Blank gap ∧ Behind p gap p.skipBlanks ∧ Stops isBlank p.skipBlanks := by
  obtain ⟨hbehind, hall, hstop⟩ := stops_takeWhile isBlank p
  exact ⟨_, hall, hbehind, hstop⟩

/-- Between two places stands a mark with blanks in front of it. -/
def Closes (x : UInt8) (p q : Place) : Prop := ∃ gap, Blank gap ∧ Behind p (gap ++ [x]) q

/-- Between two places stands a mark with blanks around it. -/
def Parts (x : UInt8) (p q : Place) : Prop :=
  ∃ before gap, Blank before ∧ Blank gap ∧ Behind p (before ++ x :: gap) q

/-- A mark that is met behind blanks closes what stood before. -/
theorem closes_of_rest (h : p.skipBlanks.rest = x :: a) : Closes x p (p.skipBlanks.skip 1) := by
  obtain ⟨gap, hgap, hskip, _⟩ := skipBlanks_blank p
  exact ⟨gap, hgap, hskip.trans (behind_one h)⟩

theorem parts_of_rest (h : p.skipBlanks.rest = x :: a) :
    Parts x p (p.skipBlanks.skip 1).skipBlanks := by
  obtain ⟨before, hbefore, hskip, _⟩ := skipBlanks_blank p
  obtain ⟨gap, hgap, hnext, _⟩ := skipBlanks_blank (p.skipBlanks.skip 1)
  exact ⟨before, gap, hbefore, hgap, hskip.trans ((behind_one h).trans hnext)⟩

/-- A mark behind blanks is found by skipping them. -/
theorem Closes.found (h : Closes x p q) (hx : isBlank x = false) :
    p.skipBlanks.rest = x :: q.rest ∧ q = p.skipBlanks.skip 1 := by
  obtain ⟨gap, hgap, h⟩ := h
  obtain ⟨l, hl, hq⟩ := h.split
  rw [skipBlanks_of_blank hl hgap (stops_cons hq hx)]
  exact ⟨hq.rest, hq.eq_skip⟩

/-- A mark with blanks on both sides is found, and so is what stands behind it. -/
theorem Parts.found (h : Parts x p q) (hx : isBlank x = false) (hstop : Stops isBlank q) :
    (∃ more, p.skipBlanks.rest = x :: more) ∧ (p.skipBlanks.skip 1).skipBlanks = q := by
  obtain ⟨before, gap, hbefore, hgap, h⟩ := h
  obtain ⟨l, hl, hq⟩ := h.split
  rw [skipBlanks_of_blank hl hbefore (stops_cons hq hx)]
  exact ⟨⟨_, hq.rest⟩, skipBlanks_of_blank hq.tail hgap hstop⟩

/-! ## Words -/

/-- Two texts agree for as long as the expected one goes just if that is what stands there. -/
theorem length_agreed_eq_iff {rest : Bytes} : ∀ {expected : Bytes},
    ((rest.zip expected).takeWhile fun (a, b) => a = b).length = expected.length ↔
      expected <+: rest := by
  intro expected
  induction expected generalizing rest with
  | nil => simp
  | cons e more ih =>
    cases rest with
    | nil => simp
    | cons c rest =>
      by_cases hc : c = e
      · subst hc
        simpa [List.zip_cons_cons, List.cons_prefix_cons] using ih
      · simp [List.zip_cons_cons, List.cons_prefix_cons, hc, Ne.symm hc]

/-- A word that stands at a place is read. -/
theorem word_of_writes {node : Node} (h : Behind p text q) : p.word text node = (node, some q) := by
  have hagreed := length_agreed_eq_iff.mpr ⟨q.rest, h.rest.symm⟩
  unfold Place.word
  rw [if_pos hagreed, hagreed, h.eq_skip]

/-- What is read as a word is that word, or it is broken off. -/
theorem word_writes {node other : Node} {after : Option Place}
    (h : p.word text node = (other, after)) :
    (other = node ∧ ∃ q, after = some q ∧ Behind p text q) ∨ ∃ f g, other = .broken f g := by
  unfold Place.word at h
  simp only at h
  split at h
  next hagreed =>
    obtain ⟨rest, hrest⟩ := length_agreed_eq_iff.mp hagreed
    cases h
    rw [hagreed]
    exact .inl ⟨rfl, _, rfl, behind_skip hrest.symm⟩
  next =>
    cases h
    exact .inr ⟨_, _, rfl⟩

/-! ## Numbers -/

theorem Stops.mono {kind other : UInt8 → Bool} (h : Stops kind p)
    (hkind : ∀ b, other b = true → kind b = true) : Stops other p := by
  intro b hb
  cases hother : other b with
  | false => rfl
  | true =>
    have := h b hb
    rw [hkind b hother] at this
    cases this

/-- What would belong to the digits in front of it. -/
def continuesDigits (b : UInt8) : Bool := isDigit b || b = 0x2E

/-- What would belong to a number in front of it. -/
def continuesNumber (b : UInt8) : Bool := continuesDigits b || b = 0x65 || b = 0x45

theorem digits_of_writes (h : Behind p text q) (hall : ∀ b ∈ text, isDigit b = true)
    (hstop : Stops isDigit q) : p.digits = (text, q) := by
  rw [Place.digits, takeWhile_eq h hall hstop, h.eq_skip]

/-- What is read as digits are digits, all that stand there. -/
theorem digits_writes (h : p.digits = (text, q)) :
    Behind p text q ∧ (∀ b ∈ text, isDigit b = true) ∧ Stops isDigit q := by
  cases h
  exact stops_takeWhile isDigit p

theorem Behind.eq_self (h : Behind p [] q) : q = p := h.eq_skip

/-- A fraction begins with no digit, so the digits in front of it end where it begins. -/
theorem stops_fraction {f : Option Bytes} (hf : WritesFraction f text) (h : Behind p text q)
    (hstop : Stops continuesDigits q) : Stops isDigit p := by
  cases hf with
  | none =>
    rw [← h.eq_self]
    exact hstop.mono fun b hb => by simp [continuesDigits, hb]
  | some => exact stops_cons h (by decide)

/-- A fraction is read with its point, and its absence as none. -/
theorem fraction_of_writes {f : Option Bytes} (hf : WritesFraction f text) (h : Behind p text q)
    (hstop : Stops continuesDigits q) : p.fraction = .ok (f, q) := by
  have hdigit : Stops isDigit q := hstop.mono fun b hb => by simp [continuesDigits, hb]
  cases hf with
  | none =>
    obtain rfl := h.eq_self
    unfold Place.fraction
    split
    next rest hrest => simpa [hrest, continuesDigits] using hstop 0x2E (by simp [hrest])
    next => rfl
  | some hdigits =>
    have hd : (p.skip 1).digits = (_, q) :=
      digits_of_writes h.tail hdigits.all hdigit
    simp [Place.fraction, h.rest, hd, hdigits.nonempty]

/-- What is read as a fraction is one, or nothing. -/
theorem fraction_writes {f : Option Bytes} (h : p.fraction = .ok (f, q)) :
    ∃ text, WritesFraction f text ∧ Behind p text q := by
  unfold Place.fraction at h
  split at h
  next rest hrest =>
    cases hd : (p.skip 1).digits with
    | mk digits after =>
      rw [hd] at h
      -- a point needs digits behind it
      obtain ⟨hbehind, hall, _⟩ := digits_writes hd
      simp only at h
      split at h
      · cases h
      next hne =>
        cases h
        exact ⟨_, .some ⟨by simpa using hne, hall⟩, (behind_one hrest).trans hbehind⟩
  next =>
    cases h
    exact ⟨[], .none, .refl p⟩

/-- An exponent begins with a letter, so a fraction in front of it ends where it begins. -/
theorem stops_exponent {e : Option (Bool × Bytes)} (he : WritesExponent e text)
    (h : Behind p text q) (hstop : Stops continuesNumber q) : Stops continuesDigits p := by
  cases he with
  | none =>
    rw [← h.eq_self]
    exact hstop.mono fun b hb => by simp [continuesNumber, hb]
  | some hmark =>
    rcases hmark with rfl | rfl <;> exact stops_cons h (by decide)

/-- An exponent is read with its sign, and its absence as none. What follows must not look like an
exponent or go on with digits. -/
theorem exponent_of_writes {e : Option (Bool × Bytes)} (he : WritesExponent e text)
    (h : Behind p text q) (hstop : Stops continuesNumber q) : p.exponent = .ok (e, q) := by
  have hdigit : Stops isDigit q :=
    hstop.mono fun b hb => by simp [continuesNumber, continuesDigits, hb]
  cases he with
  | none =>
    obtain rfl := h.eq_self
    unfold Place.exponent
    split
    next b rest hrest =>
      have hb := hstop b (by simp [hrest])
      simp only [continuesNumber, Bool.or_eq_false_iff, decide_eq_false_iff_not] at hb
      rw [if_neg (by simp [hb])]
    next => rfl
  | @some mark negative sign digits hmark hsign hdigits =>
    have hrest : p.rest = mark :: (sign ++ digits ++ q.rest) := by rw [h.rest]; simp
    have hm : (decide (mark = 0x65) || decide (mark = 0x45)) = true := by simpa using hmark
    have htail : Behind (p.skip 1) (sign ++ digits) q := Behind.tail (by simpa using h)
    have hne := hdigits.nonempty
    cases hsign with
    | none =>
      have hd : (p.skip 1).digits = (digits, q) := digits_of_writes htail hdigits.all hdigit
      obtain ⟨first, more, hcons⟩ := List.exists_cons_of_ne_nil hne
      have hfirst := hdigits.all first (by simp [hcons])
      -- a digit is no sign
      have hminus : first ≠ 0x2D := by rintro rfl; exact absurd hfirst (by decide)
      have hplus : first ≠ 0x2B := by rintro rfl; exact absurd hfirst (by decide)
      have hsigned : (p.skip 1).rest = first :: (more ++ q.rest) := by
        rw [htail.rest, hcons]
        rfl
      simp only [Place.exponent, hrest, hm, if_true, hsigned]
      split
      next heq => exact absurd (List.cons.inj heq).1 hminus
      next heq => exact absurd (List.cons.inj heq).1 hplus
      next => simp [hd, hne]
    | plus =>
      have hd : ((p.skip 1).skip 1).digits = (digits, q) :=
        digits_of_writes htail.tail hdigits.all hdigit
      have hsigned : (p.skip 1).rest = 0x2B :: (digits ++ q.rest) := htail.rest
      simp [Place.exponent, hrest, hm, hsigned, hd, hne]
    | minus =>
      have hd : ((p.skip 1).skip 1).digits = (digits, q) :=
        digits_of_writes htail.tail hdigits.all hdigit
      have hsigned : (p.skip 1).rest = 0x2D :: (digits ++ q.rest) := htail.rest
      simp [Place.exponent, hrest, hm, hsigned, hd, hne]

/-- What is read as an exponent is one, or nothing. -/
theorem exponent_writes {e : Option (Bool × Bytes)} (h : p.exponent = .ok (e, q)) :
    ∃ text, WritesExponent e text ∧ Behind p text q := by
  unfold Place.exponent at h
  split at h
  next b rest hrest =>
    split at h
    next hmark =>
      have hmark : b = 0x65 ∨ b = 0x45 := by simpa using hmark
      simp only at h
      -- the sign is none, plus or minus; from its end on all is the same
      obtain ⟨negative, sign, start, hsign, hstart, h⟩ : ∃ negative sign start,
          WritesSign negative sign ∧ Behind (p.skip 1) sign start
            ∧ (if start.digits.1.isEmpty then Except.error (noDigit start.digits.2)
              else .ok (some (negative, start.digits.1), start.digits.2))
                = .ok (e, q) := by
        split at h
        next rest' hrest' => exact ⟨_, _, _, .minus, behind_one hrest', h⟩
        next rest' hrest' => exact ⟨_, _, _, .plus, behind_one hrest', h⟩
        next => exact ⟨_, _, _, .none, .refl _, h⟩
      cases hd : start.digits with
      | mk digits after =>
        rw [hd] at h
        obtain ⟨hbehind, hall, _⟩ := digits_writes hd
        simp only at h
        split at h
        · cases h
        next hne =>
          cases h
          exact ⟨_, .some hmark hsign ⟨by simpa using hne, hall⟩,
            (behind_one hrest).trans (hstart.trans hbehind)⟩
    next =>
      cases h
      exact ⟨[], .none, .refl p⟩
  next =>
    cases h
    exact ⟨[], .none, .refl p⟩

/-- **A numeral is read as its parts**: a sign, digits, a fraction and an exponent. Each part ends
because the next one begins with something else. -/
theorem numeral_of_writes {n : Numeral} (hn : WritesNumeral text n) (h : Behind p text q)
    (hstop : Stops continuesNumber q) : p.numeral = .ok (n, q) := by
  obtain ⟨negative, whole, fractionDigits, exponentDigits⟩ := n
  obtain ⟨hwhole, hzero, fraction, exponent, hfraction, hexponent, rfl⟩ := hn
  dsimp only at hwhole hzero hfraction hexponent h
  -- the places between the parts, from the last to the first
  obtain ⟨f, h, hf⟩ := h.split
  obtain ⟨w, h, hw⟩ := h.split
  obtain ⟨s, hs, hd⟩ := h.split
  have hstop' := stops_exponent hexponent hf hstop
  have hdigits : s.digits = (whole, w) :=
    digits_of_writes hd hwhole.all (stops_fraction hfraction hw hstop')
  have hzero' : whole.head? = some 0x30 → whole.length ≤ 1 := fun hhead =>
    Nat.le_of_eq (hzero hhead)
  have hf' := fraction_of_writes hfraction hw hstop'
  have he' := exponent_of_writes hexponent hf hstop
  have hne := hwhole.nonempty
  cases negative with
  | true =>
    have hrest : p.rest = 0x2D :: s.rest := hs.rest
    obtain rfl : s = p.skip 1 := hs.eq_skip
    simp only [Place.numeral, hrest]
    simpa [hdigits, hf', he', hne, bind, Except.bind] using hzero'
  | false =>
    obtain rfl : s = p := hs.eq_self
    obtain ⟨first, more, rfl⟩ := List.exists_cons_of_ne_nil hne
    have hfirst := hwhole.all first List.mem_cons_self
    -- a digit is no sign
    have hminus : first ≠ 0x2D := by rintro rfl; exact absurd hfirst (by decide)
    have hrest : s.rest = first :: (more ++ w.rest) := hd.rest
    simp only [Place.numeral, hrest]
    split
    next heq => exact absurd (List.cons.inj heq).1 hminus
    next => simpa [hdigits, hf', he', bind, Except.bind] using hzero'

/-- **What is read as a numeral is written as one.** No zero stands in front of other digits, since
the reader refuses that. -/
theorem numeral_writes {n : Numeral} (h : p.numeral = .ok (n, q)) :
    ∃ text, WritesNumeral text n ∧ Behind p text q := by
  unfold Place.numeral at h
  simp only at h
  obtain ⟨negative, start, hstart, h⟩ : ∃ negative start, Behind p (minus negative) start
      ∧ (if start.digits.1.isEmpty then Except.error (noDigit start.digits.2)
        else if start.digits.1.head? = some 0x30 && 1 < start.digits.1.length then
          .error ((start.skip 1).ahead .invalidNumber, (start.skip 1).ahead .invalidNumber)
        else do
          let fraction ← start.digits.2.fraction
          let exponent ← fraction.2.exponent
          .ok (⟨negative, start.digits.1, fraction.1, exponent.1⟩, exponent.2))
            = .ok (n, q) := by
    split at h
    next rest hrest => exact ⟨true, _, behind_one hrest, h⟩
    next => exact ⟨false, _, .refl p, h⟩
  cases hd : start.digits with
  | mk whole after =>
    rw [hd] at h
    obtain ⟨hwhole, hall, _⟩ := digits_writes hd
    dsimp only at h
    split at h
    · cases h
    next hne =>
    split at h
    · cases h
    next hzero =>
      simp only [except_bind_ok_iff] at h
      obtain ⟨⟨fractionDigits, f⟩, hf, ⟨exponentDigits, e⟩, he, h⟩ := h
      cases h
      obtain ⟨fraction, hfraction, hbehind⟩ := fraction_writes hf
      obtain ⟨exponent, hexponent, hbehind'⟩ := exponent_writes he
      refine ⟨_, ⟨⟨by simpa using hne, hall⟩, fun hhead => ?_, fraction, exponent, hfraction,
        hexponent, rfl⟩, ((hstart.trans hwhole).trans hbehind).trans hbehind'⟩
      -- a zero in front is the only digit there
      have hlong : ¬1 < whole.length := by simpa [hhead] using hzero
      have hpos : 0 < whole.length := List.length_pos_iff.mpr (by simpa using hne)
      show whole.length = 1
      omega

end QuotaWatch.Json
