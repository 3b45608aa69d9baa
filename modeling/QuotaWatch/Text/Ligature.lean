import QuotaWatch.Text.Property

/-!
# Ligatures

Letters that merge with a letter on their left into one shape: which letters take part, and which
characters may stand between the two.
-/

namespace QuotaWatch.Text

/-- The right part of a ligature, by the letters that complete it on the left. -/
inductive Ligature where
  /-- The Arabic letter alef, which a lam completes. -/
  | alef
  /-- The Hebrew letter lamed, which an alef with a joiner completes. -/
  | lamed
  /-- A Khmer letter that a coeng writes below the letter before it. -/
  | khmerLetter
  /-- The Buginese letter ya. -/
  | bugineseYa
  /-- The Buginese letter ya with a joiner and the vowel sign i. -/
  | bugineseVowelYa
  /-- A Tifinagh consonant. -/
  | tifinaghConsonant
  /-- A Tifinagh consonant with the consonant joiner before it. -/
  | tifinaghJoined
  /-- The second of two Lisu tone letters. -/
  | lisuTone
  /-- The Old Turkic letter i, which a letter with a joiner completes. -/
  | oldTurkicI
  deriving DecidableEq, Repr

/-- The letters of the joining group Alef. -/
def isAlef (n : Nat) : Bool :=
  inRanges [(0x0622, 0x0623), (0x0625, 0x0625), (0x0627, 0x0627), (0x0671, 0x0673),
    (0x0675, 0x0675), (0x0773, 0x0774), (0x0870, 0x0882)] n

/-- The letters of the joining group Lam. -/
def isLam (n : Nat) : Bool :=
  inRanges [(0x0644, 0x0644), (0x06B5, 0x06B8), (0x076A, 0x076A), (0x08A6, 0x08A6),
    (0x08C7, 0x08C7)] n

/-- The Khmer letters that have a form below another letter. -/
def isKhmerLetter (n : Nat) : Bool :=
  inRanges [(0x1780, 0x1782), (0x1784, 0x1787), (0x1789, 0x178C), (0x178E, 0x1793),
    (0x1795, 0x1798), (0x179B, 0x179D), (0x17A0, 0x17A0), (0x17A2, 0x17A2), (0x17A7, 0x17A7),
    (0x17AB, 0x17AC), (0x17AF, 0x17AF)] n

def isTifinaghConsonant (n : Nat) : Bool := inRanges [(0x2D31, 0x2D65), (0x2D6F, 0x2D6F)] n

/-- The right part of a ligature that a letter is. -/
def ligature? (n : Nat) : Option Ligature :=
  if n = 0x05DC then some .lamed
  else if isAlef n then some .alef
  else if isKhmerLetter n then some .khmerLetter
  else if n = 0x1A10 then some .bugineseYa
  else if isTifinaghConsonant n then some .tifinaghConsonant
  else if n = 0xA4FC || n = 0xA4FD then some .lisuTone
  else if n = 0x10C03 then some .oldTurkicI
  else none

/-- Characters without a column that part a lam from its alef: of the characters without a column,
those whose Joining_Type is not Transparent. -/
def nonTransparentRanges : List (Nat × Nat) :=
  [(0x0605, 0x0605), (0x0890, 0x0891), (0x08E2, 0x08E2), (0x09BE, 0x09BE), (0x09D7, 0x09D7),
   (0x0B3E, 0x0B3E), (0x0B57, 0x0B57), (0x0BBE, 0x0BBE), (0x0BD7, 0x0BD7), (0x0CC0, 0x0CC0),
   (0x0CC2, 0x0CC2), (0x0CC7, 0x0CC8), (0x0CCA, 0x0CCB), (0x0CD5, 0x0CD6), (0x0D3E, 0x0D3E),
   (0x0D4E, 0x0D4E), (0x0D57, 0x0D57), (0x0DCF, 0x0DCF), (0x0DDF, 0x0DDF), (0x115F, 0x11FF),
   (0x1715, 0x1715), (0x1734, 0x1734), (0x180E, 0x180E), (0x1B35, 0x1B35), (0x1B3B, 0x1B3B),
   (0x1B3D, 0x1B3D), (0x1B43, 0x1B44), (0x1BAA, 0x1BAA), (0x1BF2, 0x1BF3), (0x200C, 0x200D),
   (0x2065, 0x2069), (0x302E, 0x302F), (0x3164, 0x3164), (0xA8FA, 0xA8FA), (0xA953, 0xA953),
   (0xA9C0, 0xA9C0), (0xD7B0, 0xD7C6), (0xD7CB, 0xD7FB), (0xFF9E, 0xFFA0), (0xFFF0, 0xFFF8),
   (0x111C0, 0x111C0), (0x111C2, 0x111C3), (0x11235, 0x11235), (0x1133E, 0x1133E),
   (0x1134D, 0x1134D), (0x11357, 0x11357), (0x113B8, 0x113B8), (0x113C2, 0x113C2),
   (0x113C5, 0x113C5), (0x113C7, 0x113C9), (0x113CF, 0x113CF), (0x113D1, 0x113D1),
   (0x114B0, 0x114B0), (0x114BD, 0x114BD), (0x115AF, 0x115AF), (0x116B6, 0x116B6),
   (0x11930, 0x11930), (0x1193D, 0x1193D), (0x1193F, 0x1193F), (0x11941, 0x11941),
   (0x11A84, 0x11A89), (0x11D46, 0x11D46), (0x11F02, 0x11F02), (0x11F41, 0x11F41),
   (0x16FF0, 0x16FF1), (0x1D165, 0x1D166), (0x1D16D, 0x1D172), (0xE0000, 0xE0000),
   (0xE0002, 0xE001F), (0xE0080, 0xE00FF), (0xE01F0, 0xE0FFF)]

/-- Characters that may stand inside every ligature but that of lam and alef: the grapheme joiner
and the selectors of a form. -/
def isLigatureTransparent (n : Nat) : Bool :=
  inRanges [(0x034F, 0x034F), (0x17B4, 0x17B5), (0x180B, 0x180D), (0x180F, 0x180F),
    (0xFE00, 0xFE0F), (0xE0100, 0xE01EF)] n

end QuotaWatch.Text
