/-!
# Byte strings and the text in them

Files and blobs are lists of bytes. `Bytes.ofText` writes a text in UTF-8 and `Bytes.text?` reads
it back; reading what was written gives the text again (`Bytes.text?_ofText`), and writing
distributes over concatenation (`Bytes.ofText_append`). `Bytes.soundLength` says how far a byte
string stays well-formed UTF-8.
-/

namespace QuotaWatch

/-- A byte string: the content of a file, a blob, or a text in UTF-8. -/
abbrev Bytes := List UInt8

namespace Bytes

/-- The UTF-8 form of a text. -/
def ofText (s : String) : Bytes := s.toByteArray.data.toList

/-- The text whose UTF-8 form is `b`, if there is one. -/
def text? (b : Bytes) : Option String := String.fromUTF8? ⟨b.toArray⟩

/-- The UTF-8 form of one character. -/
def ofChar (c : Char) : Bytes := String.utf8EncodeChar c

theorem ofText_append (s t : String) : ofText (s ++ t) = ofText s ++ ofText t := by
  simp [ofText, String.toByteArray_append]

theorem text?_ofText (s : String) : text? (ofText s) = some s := by
  have harr : (⟨(ofText s).toArray⟩ : ByteArray) = s.toByteArray := by
    simp [ofText]
  unfold text?
  rw [harr, String.fromUTF8?, dif_pos s.isValidUTF8]
  rfl

/-- The value of a hexadecimal digit. -/
def hexValue? (b : UInt8) : Option Nat :=
  if 0x30 ≤ b && b ≤ 0x39 then some (b.toNat - 0x30)
  else if 0x61 ≤ b && b ≤ 0x66 then some (b.toNat - 0x57)
  else if 0x41 ≤ b && b ≤ 0x46 then some (b.toNat - 0x37)
  else none

/-- A byte that continues a multi-byte character. -/
def isContinuation (b : UInt8) : Bool := 0x80 ≤ b && b ≤ 0xBF

/-- The least and the greatest byte that may follow the lead byte `a`, and how many bytes the
character has in all; `none` for a byte that leads no multi-byte character. The bounds leave out
overlong forms, surrogates and code points past U+10FFFF. -/
def leadRange? (a : UInt8) : Option (UInt8 × UInt8 × Nat) :=
  if 0xC2 ≤ a && a ≤ 0xDF then some (0x80, 0xBF, 2)
  else if a = 0xE0 then some (0xA0, 0xBF, 3)
  else if a = 0xED then some (0x80, 0x9F, 3)
  else if 0xE1 ≤ a && a ≤ 0xEF then some (0x80, 0xBF, 3)
  else if a = 0xF0 then some (0x90, 0xBF, 4)
  else if 0xF1 ≤ a && a ≤ 0xF3 then some (0x80, 0xBF, 4)
  else if a = 0xF4 then some (0x80, 0x8F, 4)
  else none

/-- Length of the longest leading part of a byte string that is whole, well-formed characters. -/
def soundLength : Bytes → Nat
  | [] => 0
  | a :: rest =>
    if a < 0x80 then soundLength rest + 1
    else
      match leadRange? a, rest with
      | some (low, high, 2), b :: rest =>
        if low ≤ b && b ≤ high then soundLength rest + 2 else 0
      | some (low, high, 3), b :: c :: rest =>
        if (low ≤ b && b ≤ high) && isContinuation c then soundLength rest + 3 else 0
      | some (low, high, 4), b :: c :: d :: rest =>
        if (low ≤ b && b ≤ high) && isContinuation c && isContinuation d
        then soundLength rest + 4 else 0
      | _, _ => 0

end Bytes

end QuotaWatch
