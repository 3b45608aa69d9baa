import QuotaWatch.Proofs.Text.Decimal
import QuotaWatch.Text.Bytes

/-!
# Blanks around a text

`Text.trim` takes blanks away at both ends and nothing else (`trim_between`, `eq_trim_between`). In
UTF-8, a character whose bytes are all ASCII is one byte (`ofChar_of_ascii`).
-/

namespace QuotaWatch

namespace Text

variable {front core back : List Char}

/-- What a text without blanks has around it is trimmed. The text may be empty: what is in front of
it and behind it is then one run of blanks, all of which is trimmed from the front. -/
theorem trim_between (hfront : ∀ c ∈ front, isBlank c = true)
    (hcore : ∀ c ∈ core, isBlank c = false) (hback : ∀ c ∈ back, isBlank c = true) :
    trim (front ++ core ++ back) = core := by
  have hstart : trimStart (front ++ core ++ back) = (core ++ back).dropWhile isBlank := by
    rw [trimStart, List.append_assoc, List.dropWhile_append_of_pos hfront]
  cases core with
  | nil =>
    -- with nothing between them, the blanks on both sides go together
    have hnone : back.dropWhile isBlank = [] := by
      rw [← List.append_nil back, List.dropWhile_append_of_pos hback, List.dropWhile_nil]
    rw [trim, hstart, List.nil_append, hnone]
    rfl
  | cons c rest =>
    have hc : ¬isBlank c = true := by simp [hcore c List.mem_cons_self]
    rw [trim, hstart, List.cons_append, List.dropWhile_cons_of_neg hc, trimEnd, ← List.cons_append,
      List.reverse_append,
      List.dropWhile_append_of_pos fun b hb => hback b (List.mem_reverse.mp hb)]
    have htrim := trim_of_no_blanks hcore
    rwa [trim, trimStart, List.dropWhile_cons_of_neg hc] at htrim

/-- What is trimmed away is blank, so a text is what is left of it between blanks. With
`trim_between` this says what `trim` does to any text. -/
theorem eq_trim_between (cs : List Char) : ∃ front back, (∀ c ∈ front, isBlank c = true)
    ∧ (∀ c ∈ back, isBlank c = true) ∧ cs = front ++ trim cs ++ back := by
  refine ⟨cs.takeWhile isBlank, ((trimStart cs).reverse.takeWhile isBlank).reverse,
    fun c hc => ?_, fun c hc => ?_, ?_⟩
  · exact List.all_eq_true.mp List.all_takeWhile c hc
  · exact List.all_eq_true.mp List.all_takeWhile c (List.mem_reverse.mp hc)
  · -- first what stands in front is taken away, then what is left behind
    have hend : trimStart cs = trim cs ++ ((trimStart cs).reverse.takeWhile isBlank).reverse := by
      rw [trim, trimEnd, ← List.reverse_append, List.takeWhile_append_dropWhile,
        List.reverse_reverse]
    have hstart : cs = cs.takeWhile isBlank ++ trimStart cs := List.takeWhile_append_dropWhile.symm
    rw [List.append_assoc, ← hend]
    exact hstart

end Text

namespace Bytes

theorem ofText_injective {s t : String} (h : ofText s = ofText t) : s = t := by
  have hs := text?_ofText s
  rw [h, text?_ofText] at hs
  exact (Option.some.inj hs).symm

/-- The bytes of a text are those of its characters, one character after the other. This is how a
text of characters meets the bytes of a file in all that follows. -/
theorem ofText_ofList (cs : List Char) : ofText (String.ofList cs) = cs.flatMap ofChar := by
  show (List.flatMap String.utf8EncodeChar cs).toByteArray.data.toList = _
  simp
  rfl

/-- A character all of whose bytes are ASCII is one of them. Every longer form of UTF-8 marks each
of its bytes by the highest bit. -/
theorem ofChar_of_ascii {c : Char} (h : ∀ b ∈ ofChar c, b.toNat < 128) :
    ofChar c = [UInt8.ofNat c.toNat] ∧ c.toNat < 128 := by
  have hval : c.val.toNat = c.toNat := rfl
  unfold ofChar String.utf8EncodeChar at h ⊢
  simp only [hval] at h ⊢
  split at h
  next hshort =>
    rw [if_pos hshort]
    exact ⟨rfl, by omega⟩
  next hlong =>
    -- a longer form begins with a byte that is not ASCII
    split at h
    · have hfirst := h _ List.mem_cons_self
      rw [UInt8.toNat_ofNat'] at hfirst
      omega
    split at h
    · have hfirst := h _ List.mem_cons_self
      rw [UInt8.toNat_ofNat'] at hfirst
      omega
    · have hfirst := h _ List.mem_cons_self
      rw [UInt8.toNat_ofNat'] at hfirst
      omega

/-- ASCII is text: bytes below 128, taken for characters, are written as the bytes that they are. -/
theorem ofText_ascii {bytes : Bytes} (h : ∀ b ∈ bytes, b.toNat < 128) :
    ofText (String.ofList (bytes.map fun b => Char.ofNat b.toNat)) = bytes := by
  rw [ofText_ofList]
  induction bytes with
  | nil => rfl
  | cons b rest ih =>
    have hb := h b List.mem_cons_self
    have hone : ofChar (Char.ofNat b.toNat) = [b] := by
      -- there are 128 cases, and each of them computes
      have hall : ∀ n < 128, ofChar (Char.ofNat n) = [UInt8.ofNat n] := by decide +kernel
      rw [hall b.toNat hb, UInt8.ofNat_toNat]
    rw [List.map_cons, List.flatMap_cons, ih fun c hc => h c (List.mem_cons_of_mem b hc), hone]
    rfl

end Bytes

end QuotaWatch
