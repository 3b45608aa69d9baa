import QuotaWatch.Proofs.Text.Decimal
import QuotaWatch.Toml.Writer

/-!
# Texts, numbers and flags of TOML read back

* **`string?_stringText`**: a text in whichever of the five forms it is written, whatever characters
  it has. Between double quotes it is read character by character (`basicChar_cases`); between
  single quotes it stands as it is, and what matters is where the closing quotes begin
  (`cons_append_ne_triple`).
* **`number?_countText`**: a number up to 2⁶³ - 1, in front of what ends a value.
-/

namespace QuotaWatch.Toml

open Text

variable {c d : Char} {cs rest : List Char} {n : Nat}

/-! ## Texts -/

/-- A character that does not stand for itself is one of the first 128 and is written in hexadecimal
digits. -/
theorem codePoint?_fourHexDigits (h : n < 128) :
    codePoint? (fourHexDigits n) = some (Char.ofNat n) := by
  have hall : ∀ i : Fin 128, codePoint? (fourHexDigits i) = some (Char.ofNat i) := by
    decide +kernel
  exact hall ⟨n, h⟩

/-- What cannot be printed is a control character, and none of these is above the first 128. -/
theorem lt_of_not_isPrintable (h : isPrintable c = false) : c.toNat < 128 := by
  simp only [isPrintable, Bool.or_eq_false_iff, Bool.and_eq_false_iff,
    decide_eq_false_iff_not] at h
  omega

/-- How a character is spelled between double quotes: as it stands, by a letter behind a backslash,
or by its code point. As it stands it is none that a reader takes for something else; a line break
is one in a block only. -/
theorem basicChar_cases (inBlock : Bool) (c : Char) :
    (basicChar inBlock c = [c] ∧ (isBasicChar c = true ∨ inBlock = true ∧ c = '\n'))
      ∨ (∃ letter, basicChar inBlock c = ['\\', letter] ∧ escaped? letter = some c)
      ∨ ∃ a b d e, basicChar inBlock c = ['\\', 'u', a, b, d, e]
        ∧ codePoint? [a, b, d, e] = some c := by
  rw [basicChar.eq_def]
  split
  case h_3 =>
    cases inBlock with
    | true => exact .inl ⟨rfl, .inr ⟨rfl, rfl⟩⟩
    | false => exact .inr (.inl ⟨'n', rfl, rfl⟩)
  case h_8 hquote hslash =>
    split
    next hprintable =>
      have hbasic : isBasicChar c = true := by
        simp [isBasicChar, hprintable]
        exact ⟨hquote, hslash⟩
      exact .inl ⟨rfl, .inl hbasic⟩
    next hprintable =>
      have hlt := lt_of_not_isPrintable (by simpa using hprintable)
      have hcode : codePoint? (fourHexDigits c.toNat) = some c := by
        rw [codePoint?_fourHexDigits hlt, Char.ofNat_toNat]
      exact .inr (.inr ⟨_, _, _, _, rfl, hcode⟩)
  all_goals exact .inr (.inl ⟨_, rfl, rfl⟩)

/-- A letter that stands for a character behind a backslash is none that a code point begins with,
and no blank or line end. -/
theorem escaped?_ne (h : escaped? d = some c) : d ≠ 'u' ∧ d ≠ 'U' ∧ isSpace d = false
    ∧ d ≠ '\n' ∧ d ≠ '\r' := by
  rw [escaped?.eq_def] at h
  split at h
  case h_8 => cases h
  all_goals decide

/-! ### Between double quotes -/

/-- Each character between double quotes is read as it was spelled, and the reader goes on behind
it. -/
theorem basicString_basicChar (c : Char) (rest : List Char) :
    basicString (basicChar false c ++ rest) = prepend c (basicString rest) := by
  rcases basicChar_cases false c with ⟨hc, hbasic⟩ | ⟨letter, hc, hletter⟩ | ⟨_, _, _, _, hc, hcode⟩
  · obtain hbasic : isBasicChar c = true := by simpa using hbasic
    have hbasic' := hbasic
    simp only [isBasicChar, Bool.and_eq_true, decide_eq_true_eq] at hbasic'
    rw [hc, List.singleton_append, basicString.eq_def]
    split <;> simp_all
  · obtain ⟨hu, hU, -⟩ := escaped?_ne hletter
    rw [hc, List.cons_append, List.singleton_append, basicString.eq_5, hletter]
    · rfl
    · exact fun _ _ _ _ _ h => absurd h hu
    · exact fun _ _ _ _ _ _ _ _ _ h => absurd h hU
  · rw [hc]
    exact (basicString.eq_3 ..).trans (by rw [hcode]; rfl)

/-- So a text between double quotes is read up to the closing quote. Induction on the text. -/
theorem basicString_flatMap (cs rest : List Char) :
    basicString (cs.flatMap (basicChar false) ++ '"' :: rest) = some (cs, rest) := by
  induction cs with
  | nil => simp [basicString]
  | cons c cs ih => simp [basicString_basicChar, ih, prepend]

/-- A backslash before a letter does not continue a line: only blanks up to a line end do. -/
theorem lineContinuation?_cons (hspace : isSpace d = false) (hn : d ≠ '\n') (hr : d ≠ '\r') :
    lineContinuation? (d :: rest) = none := by
  rw [lineContinuation?, skipSpaces, List.dropWhile_cons_of_neg (by simp [hspace]), newline?.eq_def]
  split <;> simp_all

/-- The same between three double quotes, where a line break stands for itself. -/
theorem basicBlock_basicChar (fuel : Nat) (c : Char) (rest : List Char) :
    basicBlock (fuel + 1) (basicChar true c ++ rest) = prepend c (basicBlock fuel rest) := by
  rcases basicChar_cases true c with ⟨hc, hbasic⟩ | ⟨letter, hc, hletter⟩ | ⟨_, _, _, _, hc, hcode⟩
  · rw [hc, List.singleton_append]
    rcases hbasic with hbasic | ⟨-, rfl⟩
    · have hbasic' := hbasic
      simp only [isBasicChar, Bool.and_eq_true, decide_eq_true_eq] at hbasic'
      have hreturn : c ≠ '\r' := by
        rintro rfl
        exact absurd hbasic (by decide)
      rw [basicBlock.eq_def]
      split <;> simp_all
    · rfl
  · obtain ⟨hu, hU, hspace, hn, hr⟩ := escaped?_ne hletter
    rw [hc, List.cons_append, List.singleton_append, basicBlock,
      lineContinuation?_cons hspace hn hr]
    · simp only [hletter]
      rfl
    · exact fun _ _ _ _ _ h => absurd h hu
    · exact fun _ _ _ _ _ _ _ _ _ h => absurd h hU
  · have hu : isSpace 'u' = false := by decide
    simp only [hc, List.cons_append, List.nil_append]
    rw [basicBlock, lineContinuation?_cons hu (by decide) (by decide)]
    simp only [hcode]
    rfl

/-- **A block of double quotes is read as it was written.** Each character costs the reader one
step, however it is spelled. -/
theorem basicBlock_flatMap (hrest : rest.head? ≠ some '"') :
    ∀ {fuel : Nat}, (cs.flatMap (basicChar true)).length < fuel →
      basicBlock fuel (cs.flatMap (basicChar true) ++ '"' :: '"' :: '"' :: rest)
        = some (cs, rest) := by
  induction cs with
  | nil =>
    intro fuel hfuel
    obtain ⟨k, rfl⟩ := Nat.exists_eq_add_one.mpr hfuel
    rw [List.flatMap_nil, List.nil_append, basicBlock.eq_def]
    simp only
    split <;> simp_all
  | cons c cs ih =>
    intro fuel hfuel
    obtain ⟨k, rfl⟩ := Nat.exists_eq_add_one.mpr (Nat.lt_of_le_of_lt (Nat.zero_le _) hfuel)
    have hpos : 0 < (basicChar true c).length := by
      rcases basicChar_cases true c with ⟨hc, -⟩ | ⟨_, hc, -⟩ | ⟨_, _, _, _, hc, -⟩ <;> simp [hc]
    rw [List.flatMap_cons, List.length_append] at hfuel
    rw [List.flatMap_cons, List.append_assoc, basicBlock_basicChar, ih (by omega)]
    rfl

/-! ### Between single quotes -/

/-- What may stand between single quotes as it is, with the reasons by name. -/
theorem suitsLiteral_iff : suitsLiteral cs = true ↔
    (∃ c ∈ cs, c = '"' ∨ c = '\\') ∧ (∀ c ∈ cs, isPrintable c = true ∨ c = '\n')
      ∧ hasTripleQuote cs = false ∧ cs.getLast? ≠ some '\'' := by
  simp [suitsLiteral, and_assoc]

/-- Between single quotes everything but these stands for itself, so the text ends at the first of
them. -/
theorem literalString_append (hall : ∀ c ∈ cs, isLiteralChar c = true) (rest : List Char) :
    literalString (cs ++ '\'' :: rest) = some (cs, rest) := by
  have hquote : ¬isLiteralChar '\'' = true := by decide
  rw [literalString, List.dropWhile_append_of_pos hall, List.takeWhile_append_of_pos hall,
    List.dropWhile_cons_of_neg hquote, List.takeWhile_cons_of_neg hquote]
  simp

/-- The closing quotes do not begin before the end of a text that has no three quotes side by side
and none at its end. -/
theorem cons_append_ne_triple (htriple : hasTripleQuote (c :: cs) = false)
    (hlast : (c :: cs).getLast? ≠ some '\'') (more : List Char) :
    c :: cs ++ '\'' :: '\'' :: '\'' :: rest ≠ '\'' :: '\'' :: '\'' :: more := by
  intro heq
  match cs, htriple, hlast, heq with
  | [], _, hlast, heq => simp_all
  | [d], _, hlast, heq => simp_all
  | d :: e :: cs, htriple, _, heq =>
    simp only [List.cons_append, List.cons.injEq] at heq
    obtain ⟨rfl, rfl, rfl, -⟩ := heq
    simp [hasTripleQuote] at htriple

/-- **A block of single quotes is read as it stands.** Induction on the text. -/
theorem literalBlock_append (hrest : rest.head? ≠ some '\'')
    (hall : ∀ c ∈ cs, isPrintable c = true ∨ c = '\n') (htriple : hasTripleQuote cs = false)
    (hlast : cs.getLast? ≠ some '\'') :
    literalBlock (cs ++ '\'' :: '\'' :: '\'' :: rest) = some (cs, rest) := by
  induction cs with
  | nil =>
    rw [List.nil_append, literalBlock.eq_def]
    simp only
    split <;> simp_all
  | cons c cs ih =>
    -- what is asked of the text holds of its rest
    have hmore : hasTripleQuote cs = false := by
      rw [hasTripleQuote.eq_def] at htriple
      split at htriple <;> simp_all
    have hlast' : cs.getLast? ≠ some '\'' := by
      cases cs with
      | nil => simp
      | cons d cs => simpa using hlast
    have hrec := ih (fun d hd => hall d (List.mem_cons_of_mem _ hd)) hmore hlast'
    have hreturn : c ≠ '\r' := by
      rintro rfl
      exact absurd (hall '\r' List.mem_cons_self) (by decide)
    have hc := hall c List.mem_cons_self
    rw [List.cons_append, literalBlock.eq_def]
    split
    next heq => simp at heq
    next heq => exact absurd heq (cons_append_ne_triple htriple hlast _)
    next heq => simp_all [prepend]
    next heq => simp_all
    next heq =>
      obtain ⟨rfl, rfl⟩ := List.cons.inj heq
      have hliteral : (isLiteralChar c || decide (c = '\'')) = true := by
        by_cases hquote : c = '\''
        · simp [hquote]
        · have hnat : c.toNat ≠ 0x27 := fun h => hquote (Char.toNat_inj.mp h)
          simp_all [isLiteralChar]
      rw [if_pos hliteral, hrec]
      rfl

/-! ### In all forms -/

/-- A text between double quotes on one line. It may be empty, and then its two quotes have to be
told from the first two of three. -/
theorem string?_basicString (hrest : rest.head? ≠ some '"') :
    string? ('"' :: (cs.flatMap (basicChar false) ++ '"' :: rest))
      = some (String.ofList cs, rest) := by
  -- the opening quote is not the first of three: an empty text has two, and no third follows
  have hone (more : List Char) :
      cs.flatMap (basicChar false) ++ '"' :: rest ≠ '"' :: '"' :: more := by
    cases cs with
    | nil =>
      rintro ⟨⟩
      exact hrest rfl
    | cons c cs =>
      intro heq
      rw [List.flatMap_cons] at heq
      rcases basicChar_cases false c with ⟨hc, hbasic⟩ | ⟨_, hc, -⟩ | ⟨_, _, _, _, hc, -⟩
      · rw [hc] at heq
        rw [(List.cons.inj heq).1] at hbasic
        exact absurd hbasic (by decide)
      · rw [hc] at heq
        cases (List.cons.inj heq).1
      · rw [hc] at heq
        cases (List.cons.inj heq).1
  rw [string?.eq_def]
  split
  next heq => exact absurd (List.cons.inj heq).2 (hone _)
  next heq =>
    rw [← (List.cons.inj heq).2, basicString_flatMap]
    rfl
  all_goals simp_all

/-- A text between three double quotes. The line end behind the first three is dropped by the
reader, so the writer puts one there. -/
theorem string?_basicBlock (hrest : rest.head? ≠ some '"') :
    string? ('"' :: '"' :: '"' :: '\n'
        :: (cs.flatMap (basicChar true) ++ '"' :: '"' :: '"' :: rest))
      = some (String.ofList cs, rest) := by
  -- the reader has fuel for every character it is given
  rw [string?, skipNewline, newline?, Option.getD_some, basicBlock_flatMap hrest]
  · rfl
  · simp only [List.length_cons, List.length_append]
    omega

/-- A text between single quotes on one line. It has no single quote in it and is not empty. -/
theorem string?_literalString (hquote : '\'' ∉ cs) (hne : cs ≠ [])
    (hall : ∀ c ∈ cs, isPrintable c = true) (rest : List Char) :
    string? ('\'' :: (cs ++ '\'' :: rest)) = some (String.ofList cs, rest) := by
  have hliteral : ∀ c ∈ cs, isLiteralChar c = true := by
    intro c hc
    have hnat : c.toNat ≠ 0x27 := fun h =>
      hquote (Char.toNat_inj.mp (show c.toNat = '\''.toNat from h) ▸ hc)
    simp [isLiteralChar, hall c hc, hnat]
  -- the first character is no quote, so the opening quote is alone
  obtain ⟨c, more, rfl⟩ := List.exists_cons_of_ne_nil hne
  have hc : c ≠ '\'' := fun h => hquote (h ▸ List.mem_cons_self)
  rw [string?.eq_def]
  split
  next heq => simp_all
  next heq => simp_all
  next heq => exact absurd (List.cons.inj (List.cons.inj heq).2).1 hc
  next heq =>
    rw [← (List.cons.inj heq).2, literalString_append hliteral]
    rfl
  next => simp_all

/-- A text between three single quotes. A line end behind the opening quotes is not part of it. -/
theorem string?_literalBlock {more : List Char} (hskip : skipNewline more
      = cs ++ '\'' :: '\'' :: '\'' :: rest) (hsuits : suitsLiteral cs = true)
    (hrest : rest.head? ≠ some '\'') :
    string? ('\'' :: '\'' :: '\'' :: more) = some (String.ofList cs, rest) := by
  obtain ⟨-, hall, htriple, hlast⟩ := suitsLiteral_iff.mp hsuits
  rw [string?, hskip, literalBlock_append hrest hall htriple hlast]
  rfl

/-- A text that begins with a character that can be printed loses nothing behind the opening quotes.
-/
theorem skipNewline_of_printable (hall : ∀ c ∈ cs, isPrintable c = true) (hne : cs ≠ [])
    (rest : List Char) : skipNewline (cs ++ rest) = cs ++ rest := by
  obtain ⟨c, more, rfl⟩ := List.exists_cons_of_ne_nil hne
  have hc := hall c List.mem_cons_self
  rw [List.cons_append, skipNewline, newline?.eq_def]
  split
  next heq =>
    rw [(List.cons.inj heq).1] at hc
    exact absurd hc (by decide)
  next heq =>
    rw [(List.cons.inj heq).1] at hc
    exact absurd hc (by decide)
  next => rfl

/-- A text is written with a quote in front. -/
theorem stringText_eq_cons (s : String) :
    ∃ q more, stringText s = q :: more ∧ (q = '"' ∨ q = '\'') := by
  simp only [stringText]
  split
  · split
    · exact ⟨_, _, rfl, .inr rfl⟩
    · split
      · exact ⟨_, _, rfl, .inr rfl⟩
      · exact ⟨_, _, rfl, .inr rfl⟩
  · split
    · exact ⟨_, _, rfl, .inl rfl⟩
    · exact ⟨_, _, rfl, .inl rfl⟩

/-- **A text is read as it was written**, in whichever form that is. No further quote may follow it,
as it would count as part of the text or of what closes it. -/
theorem string?_stringText (s : String) (hdouble : rest.head? ≠ some '"')
    (hsingle : rest.head? ≠ some '\'') : string? (stringText s ++ rest) = some (s, rest) := by
  have hback {text : List Char} (hread : string? text = some (String.ofList s.toList, rest)) :
      string? text = some (s, rest) := by rwa [String.ofList_toList] at hread
  simp only [stringText]
  by_cases hsuits : suitsLiteral s.toList = true
  · obtain ⟨⟨c, hc, -⟩, hall, -, -⟩ := suitsLiteral_iff.mp hsuits
    have hne : s.toList ≠ [] := List.ne_nil_of_mem hc
    rw [if_pos hsuits]
    split
    next hbreak =>
      refine hback ?_
      rw [List.append_assoc, List.append_assoc]
      exact string?_literalBlock rfl hsuits hsingle
    next hbreak =>
      -- without a line break every character can be printed
      have hline : ∀ c ∈ s.toList, isPrintable c = true := fun c hc =>
        (hall c hc).resolve_right fun h => hbreak (by simpa [h] using hc)
      split
      next hquote =>
        refine hback ?_
        rw [List.append_assoc, List.append_assoc]
        exact string?_literalBlock (skipNewline_of_printable hline hne _) hsuits hsingle
      next hquote =>
        refine hback ?_
        rw [List.append_assoc]
        exact string?_literalString (by simpa using hquote) hne hline rest
  · rw [if_neg hsuits]
    refine hback ?_
    split
    next =>
      rw [List.append_assoc, List.append_assoc]
      exact string?_basicBlock hdouble
    next =>
      rw [List.append_assoc]
      exact string?_basicString hdouble

/-! ## Numbers -/

/-- What may follow a value in what is written: the end of a line, or a comma or bracket of an
array. -/
def EndsValue (d : Char) : Prop := d ∈ ['\n', ',', ']']

instance : DecidablePred EndsValue := fun d =>
  inferInstanceAs (Decidable (d ∈ ['\n', ',', ']']))

theorem EndsValue.ne (hd : EndsValue d) (hc : c ∉ ['\n', ',', ']']) : c ≠ d := fun h => hc (h ▸ hd)

theorem EndsValue.cases (hd : EndsValue d) : d = '\n' ∨ d = ',' ∨ d = ']' := by
  simpa [EndsValue] using hd

theorem EndsValue.not_isDigit (hd : EndsValue d) : isDigit d = false := by
  rcases hd.cases with rfl | rfl | rfl <;> rfl

/-- Digits are read up to what ends the value. No underscores are among them. -/
theorem moreDigits_append (hdigits : ∀ c ∈ cs, isDigit c = true) (hd : EndsValue d) :
    moreDigits isDigit (cs ++ d :: rest) = some (cs, d :: rest) := by
  induction cs with
  | nil => rcases hd.cases with rfl | rfl | rfl <;> rfl
  | cons c cs ih =>
    have hc := hdigits c List.mem_cons_self
    have hscore : c ≠ '_' := by
      rintro rfl
      exact absurd hc (by decide)
    have hcs := ih fun c hc => hdigits c (List.mem_cons_of_mem _ hc)
    rw [List.cons_append, moreDigits.eq_def]
    split <;> simp_all [prepend]

/-- A decimal number is read whole: it has no zero in front, unless it is zero. -/
theorem wholeDigits?_decimal (n : Nat) (hd : EndsValue d) :
    wholeDigits? (decimal n ++ d :: rest) = some (decimal n, d :: rest) := by
  have hdigits : ∀ c ∈ decimal n, isDigit c = true := fun c => isDigit_of_mem_decimal
  -- a zero at the front is the whole number to the reader
  rcases Nat.eq_zero_or_pos n with rfl | hpos
  · rfl
  · obtain ⟨c, more, hmore, hc⟩ := decimal_of_pos hpos
    rw [hmore] at hdigits ⊢
    have hfirst := hdigits c List.mem_cons_self
    rw [List.cons_append, wholeDigits?.eq_def]
    split
    next heq => exact absurd (List.cons.inj heq).1 hc
    next =>
      rw [digits?, if_pos hfirst,
        moreDigits_append (fun c hc => hdigits c (List.mem_cons_of_mem _ hc)) hd]
      rfl

/-- Behind some of the digits there are more of them, or the end of the value. -/
theorem char?_of_fixedDigits? {count value : Nat} {more : List Char}
    (hdigits : ∀ c ∈ cs, isDigit c = true) (hd : EndsValue d)
    (h : fixedDigits? count (cs ++ d :: rest) = some (value, more)) (hc : isDigit c = false)
    (hcd : c ≠ d) : char? c more = none := by
  simp only [fixedDigits?, Bool.and_eq_true, decide_eq_true_eq] at h
  split at h
  next htaken =>
    obtain ⟨hcount, hall⟩ := htaken
    obtain ⟨-, rfl⟩ := Prod.mk.inj (Option.some.inj h)
    have hle : count ≤ cs.length := by
      refine Nat.le_of_not_lt fun hlong => ?_
      have hmem : d ∈ (cs ++ d :: rest).take count := by
        rw [List.take_append, List.take_of_length_le (by omega)]
        obtain ⟨k, hk⟩ := Nat.exists_eq_add_of_le' (show 1 ≤ count - cs.length by omega)
        rw [hk]
        simp
      exact absurd (List.all_eq_true.mp hall d hmem) (by simp [hd.not_isDigit])
    rw [List.drop_append_of_le_length hle]
    cases hmore : cs.drop count with
    | nil => simp [char?, hcd.symm]
    | cons b others =>
      have hb : isDigit b = true := hdigits b (List.mem_of_mem_drop (hmore ▸ List.mem_cons_self))
      have hne : b ≠ c := by
        rintro rfl
        rw [hb] at hc
        cases hc
      simp [char?, hne]
  next => cases h

/-- Digits up to what ends a value are no date and no time: there is no dash behind the year and no
colon behind the hour. -/
theorem moment?_of_digits (hdigits : ∀ c ∈ cs, isDigit c = true) (hd : EndsValue d) :
    moment? (cs ++ d :: rest) = none := by
  -- there is no dash behind a year and no colon behind an hour
  have hdate : date? (cs ++ d :: rest) = none := by
    rw [date?]
    cases hyear : fixedDigits? 4 (cs ++ d :: rest) with
    | none => rfl
    | some year =>
      have hdash : char? '-' year.2 = none :=
        char?_of_fixedDigits? hdigits hd hyear rfl (hd.ne (by decide))
      simp [hdash]
  have htime : time? (cs ++ d :: rest) = none := by
    rw [time?]
    cases hhour : fixedDigits? 2 (cs ++ d :: rest) with
    | none => rfl
    | some hour =>
      have hcolon : char? ':' hour.2 = none :=
        char?_of_fixedDigits? hdigits hd hhour rfl (hd.ne (by decide))
      simp [hcolon]
  rw [moment?, hdate, htime]
  rfl

theorem decimal_eq_cons (n : Nat) : ∃ c more, decimal n = c :: more ∧ isDigit c = true := by
  obtain ⟨c, more, hmore⟩ := List.exists_cons_of_ne_nil (decimal_ne_nil n)
  exact ⟨c, more, hmore, isDigit_of_mem_decimal (hmore ▸ List.mem_cons_self)⟩

/-- A decimal number begins with a digit and nothing else. -/
theorem decimal_append_ne (n : Nat) (hc : isDigit c = false) (rest more : List Char) :
    decimal n ++ rest ≠ c :: more := by
  obtain ⟨first, others, hfirst, hdigit⟩ := decimal_eq_cons n
  intro heq
  rw [hfirst, List.cons_append] at heq
  rw [(List.cons.inj heq).1, hc] at hdigit
  cases hdigit

/-- It has no sign in front. -/
theorem sign_decimal (n : Nat) (rest : List Char) :
    sign (decimal n ++ rest) = (false, decimal n ++ rest) := by
  rw [sign.eq_def]
  split
  next heq => exact absurd heq (decimal_append_ne n (by decide) _ _)
  next heq => exact absurd heq (decimal_append_ne n (by decide) _ _)
  next => rfl

/-- It is no fraction: behind its digits there is no point and no exponent. -/
theorem decimalFloat?_decimal (n : Nat) (hd : EndsValue d) :
    decimalFloat? (decimal n ++ d :: rest) = none := by
  rw [decimalFloat?, sign_decimal]
  simp only [wholeDigits?_decimal n hd]
  rcases hd.cases with rfl | rfl | rfl <;> rfl

/-- It is none of the words that stand for an infinity or for no number. -/
theorem specialFloat?_decimal (n : Nat) (rest : List Char) :
    specialFloat? (decimal n ++ rest) = none := by
  rw [specialFloat?, sign_decimal]
  simp only
  split
  next heq => exact absurd heq (decimal_append_ne n (by decide) _ _)
  next heq => exact absurd heq (decimal_append_ne n (by decide) _ _)
  next => rfl

/-- No zero of a decimal number is the mark of another base. -/
theorem decimal_append_ne_mark {mark : Char} (n : Nat) (hmark : mark ≠ d) (more : List Char) :
    decimal n ++ d :: rest ≠ '0' :: mark :: more := by
  intro heq
  rcases Nat.eq_zero_or_pos n with rfl | hpos
  · exact hmark (List.cons.inj (List.cons.inj heq).2).1.symm
  · obtain ⟨c, others, hothers, hc⟩ := decimal_of_pos hpos
    rw [hothers] at heq
    exact hc (List.cons.inj heq).1

/-- It is an integer to base ten, if that is in the range of a document. -/
theorem integer?_decimal (n : Nat) (hd : EndsValue d) :
    integer? (decimal n ++ d :: rest) = (fitting? n).map (·, d :: rest) := by
  rw [integer?.eq_def]
  split
  case h_4 =>
    rw [sign_decimal]
    simp only [wholeDigits?_decimal n hd, Option.bind_eq_bind, Option.bind_some,
      digitsValue_decimal, Bool.false_eq_true, if_false]
    cases fitting? (n : Int) <;> rfl
  all_goals
    next heq => exact absurd heq (decimal_append_ne_mark n (hd.ne (by decide)) _)

/-- The greatest number of a document, 2⁶³ - 1. -/
def greatest : Nat := 9223372036854775807

/-- **A number is read as it was written**, if a document can hold it. -/
theorem number?_countText {n : UInt64} (hn : n.toNat ≤ greatest) (hd : EndsValue d) :
    number? (countText n ++ d :: rest) = some (.integer n.toNat, d :: rest) := by
  have hdigits : ∀ c ∈ decimal n.toNat, isDigit c = true := fun c => isDigit_of_mem_decimal
  have hfits : fitting? n.toNat = some (.integer n.toNat) := by
    unfold greatest at hn
    rw [fitting?, if_pos (by simp; omega)]
  -- the reader tries dates and fractions first
  rw [number?, countText, moment?_of_digits hdigits hd, decimalFloat?_decimal n.toNat hd,
    specialFloat?_decimal, integer?_decimal n.toNat hd, hfits]
  rfl

end QuotaWatch.Toml
