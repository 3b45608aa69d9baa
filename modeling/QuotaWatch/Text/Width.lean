import QuotaWatch.Text.Emoji
import QuotaWatch.Text.Ligature

/-!
# Columns that a text takes on a terminal

`columns` adds up the columns of the characters from right to left. A character counts for itself
(`charColumns`) unless what stands to its right makes it part of a sequence that is drawn as one: a
line break of two characters, an emoji with a selector, a skin tone or joined emoji, the letters of
a flag, a ligature. `Context` says what stands to the right and `join?` which characters complete
it.
-/

namespace QuotaWatch.Text

/-! ## Characters that stand alone -/

/-- Marks, vowels and signs that take no column, without being marks that attach to the character
before them nor ignorable: Hangul vowels and final consonants, signs that enclose what follows, and
signs that are drawn over what follows. -/
def isDependentSign (n : Nat) : Bool :=
  inRanges [(0x0605, 0x0605), (0x070F, 0x070F), (0x0890, 0x0891), (0x08E2, 0x08E2),
    (0x0D4E, 0x0D4E), (0x1160, 0x11FF), (0xA8FA, 0xA8FA), (0xD7B0, 0xD7C6), (0xD7CB, 0xD7FB),
    (0x111C2, 0x111C3), (0x113D1, 0x113D1), (0x1193F, 0x1193F), (0x11941, 0x11941),
    (0x11A84, 0x11A89), (0x11D46, 0x11D46), (0x11F02, 0x11F02)] n

/-- Characters that take no column of their own. -/
def isInvisible (n : Nat) : Bool :=
  inRanges graphemeExtendRanges n || inRanges reservedMarkRanges n
    || inRanges defaultIgnorableRanges n || isDependentSign n

/-- Columns of a character that stands alone. A control counts for one, a spacing mark that is drawn
apart counts like a letter, and three letters of Hangul and Khmer are wider than their kind. -/
def charColumns (n : Nat) : Nat :=
  if n < 0x300 then if n = 0xAD then 0 else 1
  else if n = 0x115F || n = 0x17A4 then 2
  else if n = 0x17D8 then 3
  else if n = 0x2D7F || n = 0xFF9E || n = 0xFF9F then 1
  else if isInvisible n then 0
  else if inRanges wideRanges n || inRanges reservedWideRanges n then 2
  else 1

/-! ## What stands to the right -/

/-- What stands to the right of a character. -/
inductive Right where
  /-- Nothing that it could join. -/
  | plain
  /-- A line feed. -/
  | lineFeed
  /-- An emoji drawn in colour. -/
  | emoji
  /-- A skin tone. -/
  | skinTone
  /-- One letter of a flag, no other behind it. -/
  | flagLetter
  /-- Two letters of a flag or more. -/
  | flagLetters
  /-- A joiner and then an emoji drawn in colour. -/
  | joiner
  /-- A keycap with a joiner and an emoji behind it. -/
  | joinedKeycap
  /-- One letter of a flag with a joiner and an emoji behind it. -/
  | joinedFlagLetter
  /-- Two letters of a flag or more with a joiner and an emoji behind them. -/
  | joinedFlagLetters (odd : Bool)
  /-- The end of the invisible letters and digits that spell the region of a flag, a joiner and an
  emoji behind it. -/
  | regionTags (letters digits : Nat)
  /-- The vowel sign e of Kirat Rai. -/
  | kiratVowelE
  /-- The vowel sign ai of Kirat Rai. -/
  | kiratVowelAi
  /-- The right part of a ligature; `joined` if a joiner stands before it. -/
  | ligature (part : Ligature) (joined : Bool)
  deriving DecidableEq, Repr

/-- A selector between a character and what stands to its right. -/
inductive Selector where
  /-- Draws a quotation mark two columns wide. -/
  | wideQuote
  /-- Draws an emoji as text. -/
  | text
  /-- Draws an emoji in colour. -/
  | colour
  deriving DecidableEq, Repr

def selector? (n : Nat) : Option Selector :=
  if n = 0xFE01 then some .wideQuote
  else if n = 0xFE0E then some .text
  else if n = 0xFE0F then some .colour
  else none

/-- What a character finds on its right: a character or the beginning of a sequence, and the
selector before it. -/
structure Context where
  right : Right
  selector : Option Selector
  deriving DecidableEq, Repr

/-- A context without a selector. -/
def Right.bare (r : Right) : Context := ⟨r, none⟩

/-- What a selector leaves visible of what stands behind it: a ligature goes on across a selector,
and so does a joined emoji across the selector of the colour form. -/
def Right.behind (s : Selector) (r : Right) : Right :=
  match r, s with
  | .ligature part joined, _ => .ligature part joined
  | .joiner, .colour => .joiner
  | .joinedKeycap, .colour => .joinedKeycap
  | _, _ => .plain

/-- What remains on the right when a selector turns out to select nothing. -/
def Right.unselected : Right → Right
  | .ligature part joined => .ligature part joined
  | _ => .plain

/-! ## Adding a character on the left -/

/-- A character that joins nothing on its right: its columns, and what it is for the character on
its left. -/
def alone (n : Nat) : Int × Right :=
  if n = 0x0A then (1, .lineFeed)
  else if n ≤ 0xA0 then (1, .plain)
  else if isFlagLetter n then (1, .flagLetter)
  else if isSkinTone n then (2, .skinTone)
  else if isColourEmoji n then (2, .emoji)
  else if n = 0x16D67 then (1, .kiratVowelE)
  else if n = 0x16D68 then (1, .kiratVowelAi)
  else
    match ligature? n with
    | some part => (1, .ligature part false)
    | none => (charColumns n, .plain)

/-- A character before the right part of a ligature: the columns that it adds and what now stands
there, or nothing if it does not go on with the ligature. -/
def Ligature.join? (part : Ligature) (joined : Bool) (n : Nat) : Option (Int × Right) :=
  if part ≠ .alef && n = 0x200D then some (0, .ligature part true)
  else if part ≠ .alef && isLigatureTransparent n then some (0, .ligature part joined)
  else
    match part with
    | .alef =>
      if isLam n then some (0, .plain)
      else if charColumns n = 0 && !inRanges nonTransparentRanges n
      then some (0, .ligature .alef joined)
      else none
    | .lamed => if joined && n = 0x05D0 then some (0, .plain) else none
    | .khmerLetter => if n = 0x17D2 then some (-1, .plain) else none
    | .bugineseYa =>
      if joined && n = 0x1A17 then some (0, .ligature .bugineseVowelYa true) else none
    | .bugineseVowelYa => if n = 0x1A15 then some (0, .plain) else none
    | .tifinaghConsonant =>
      if n = 0x2D7F then some (1, .ligature .tifinaghJoined true)
      else if joined && isTifinaghConsonant n then some (0, .plain)
      else none
    | .tifinaghJoined => if isTifinaghConsonant n then some (-1, .plain) else none
    | .lisuTone => if 0xA4F8 ≤ n && n ≤ 0xA4FB then some (0, .plain) else none
    | .oldTurkicI => if joined && n = 0x10C32 then some (0, .plain) else none

/-- An invisible letter or digit before the end of the region of a flag, or the flag itself. A
region is three to six letters, or three digits and at most four letters behind them. -/
def joinTags? (letters digits n : Nat) : Option (Int × Right) :=
  if digits = 0 && letters < 6 && isTagLetter n then some (0, .regionTags (letters + 1) 0)
  else if letters ≤ 4 && digits < 3 && isTagDigit n
  then some (0, .regionTags letters (digits + 1))
  else if n = 0x1F3F4 && (if digits = 0 then 3 ≤ letters else digits = 3)
  then some (0, .emoji)
  else none

/-- The columns that a character adds when it goes on with what stands to its right, and what now
stands there; nothing if it stands alone. -/
def Right.join? (r : Right) (n : Nat) : Option (Int × Right) :=
  match r with
  | .plain => none
  | .lineFeed => if n = 0x0D then some (0, .plain) else none
  | .emoji => if n = 0x200D then some (0, .joiner) else none
  | .skinTone =>
    if n = 0x200D then some (0, .joiner)
    else if inRanges modifierBaseRanges n then some (0, .emoji)
    else none
  | .flagLetter => if isFlagLetter n then some (1, .flagLetters) else none
  | .flagLetters =>
    if isFlagLetter n then some (1, .flagLetters)
    else if n = 0x200D then some (0, .joiner)
    else none
  | .joiner =>
    if n = 0x20E3 then some (0, .joinedKeycap)
    else if isFlagLetter n then some (1, .joinedFlagLetter)
    else if isSkinTone n then some (0, .skinTone)
    else if n = 0xE007F then some (0, .regionTags 0 0)
    else if isColourEmoji n then some (0, .emoji)
    else none
  | .joinedKeycap => none
  | .joinedFlagLetter => if isFlagLetter n then some (-1, .joinedFlagLetters false) else none
  | .joinedFlagLetters odd =>
    if isFlagLetter n then some (if odd then -1 else 3, .joinedFlagLetters (!odd))
    else if n = 0x200D then some (0, .joiner)
    else none
  | .regionTags letters digits => joinTags? letters digits n
  | .kiratVowelE =>
    if n = 0x16D63 || n = 0x16D69 then some (0, .plain)
    else if n = 0x16D67 then some (0, .kiratVowelAi)
    else if n = 0x16D68 then some (1, .kiratVowelE)
    else none
  | .kiratVowelAi => if n = 0x16D63 then some (0, .plain) else none
  | .ligature part joined => if n ≤ 0xA0 then none else part.join? joined n

/-- What a selector does to the character before it: the columns of the two, and what they are for
the character on their left; nothing if it has no such form. -/
def Selector.join? (s : Selector) (r : Right) (n : Nat) : Option (Int × Right) :=
  match s with
  | .colour =>
    if inRanges selectorBaseRanges n
    then some (if r = .joiner || r = .joinedKeycap then 0 else 2, .emoji)
    else none
  | .text => if hasNarrowForm n then some (1, .plain) else none
  | .wideQuote =>
    if n = 0x2018 || n = 0x2019 || n = 0x201C || n = 0x201D then some (2, .plain) else none

/-- The columns that a character adds on the left of a text, and what then stands there. -/
def Context.add (ctx : Context) (n : Nat) : Int × Context :=
  match selector? n with
  | some s => (0, ⟨ctx.right.behind s, some s⟩)
  | none =>
    let joined :=
      match ctx.selector with
      | none => ctx.right.join? n
      | some s => (s.join? ctx.right n).or (ctx.right.unselected.join? n)
    let (width, right) := joined.getD (alone n)
    (width, right.bare)

/-- Adds one character on the left of a text: the columns so far and what now stands there. -/
def addColumns (c : Char) (state : Int × Context) : Int × Context :=
  let (width, ctx) := state.2.add c.toNat
  (state.1 + width, ctx)

def columns (cs : List Char) : Nat := (cs.foldr addColumns (0, Right.plain.bare)).1.toNat

end QuotaWatch.Text
