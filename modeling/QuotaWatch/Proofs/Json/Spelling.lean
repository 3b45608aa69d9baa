import QuotaWatch.Proofs.Json.Reading

/-!
# What is read is spelled

What a reader takes for a value is spelled in the text, by an induction on the fuel of the reader
(`spelled_of_reads`). With the other direction, a text is read as a value exactly if it writes that
value (`parse_ok_iff`), so no text writes two values.
-/

namespace QuotaWatch.Json

variable {p q m n start : Place} {text gap rest : Bytes}
  {depth fuel : Nat} {after : Option Place} {part : Part} {v : Value} {vs : List Value}
  {name : String} {ms : List (String × Value)}

/-- A part stands at a place, up to another one. -/
def Spelled (depth : Nat) (p : Place) (after : Option Place) (part : Part) : Prop :=
  ∃ text q, after = some q ∧ Spells depth text part ∧ Behind p (text ++ part.closing) q

theorem Spelled.found (h : Spelled depth p (some q) part) :
    ∃ text, Spells depth text part ∧ Behind p (text ++ part.closing) q := by
  obtain ⟨text, r, hafter, h⟩ := h
  cases hafter
  exact ⟨text, h⟩

/-- What is read of a word is the value of the word, or it is broken and no value at all. -/
theorem spelled_word {word : Bytes} {node other : Node} {value : Value}
    (hread : p.word word node = (other, after)) (hnode : other.valueWithin depth = .ok v)
    (hvalue : node.valueWithin depth = .ok value) (h : Spells depth word (.value value)) :
    Spelled depth p after (.value v) := by
  obtain ⟨rfl, q, hafter, hq⟩ | ⟨f, g, rfl⟩ := word_writes hread
  · cases hnode.symm.trans hvalue
    exact ⟨word, q, hafter, h, by simpa [Part.closing] using hq⟩
  · cases hnode

/-- What is read as a number is spelled as one. -/
theorem spelled_number {n : Numeral} (hread : p.numeral = .ok (n, q))
    (hnode : (n.node (p.rest.take (q.offset - p.offset)) q).valueWithin depth = .ok v) :
    Spelled depth p (some q) (.value v) := by
  obtain ⟨text, hn, hq⟩ := numeral_writes hread
  rw [hq.take] at hnode
  obtain ⟨number, h⟩ | ⟨fault, h⟩ := node_cases n text q
  · rw [h] at hnode
    cases hnode
    have hspells : Spells depth text (.value (.number number)) :=
      .number ⟨n, hn, node_eq_number_iff.mp h⟩
    exact ⟨text, q, rfl, hspells, by simpa [Part.closing] using hq⟩
  · rw [h] at hnode
    cases hnode

/-- What is read as a string is spelled as one. -/
theorem spelled_string {s : String} (hrest : p.rest = 0x22 :: rest)
    (hread : p.string fuel = .ok (.ok s, q)) :
    Spelled depth p (some q) (.value (.string s)) := by
  obtain ⟨text, hs, hq⟩ := string_writes hrest hread
  exact ⟨text, q, rfl, .string hs, by simpa [Part.closing] using hq⟩

theorem spelled_emptyArray (hgap : Blank gap) (hp : Behind p (0x5B :: gap) start)
    (hq : Behind start [0x5D] q) : Spelled (depth + 2) p (some q) (.value (.array [])) :=
  ⟨_, q, rfl, .emptyArray hgap, by simpa [Part.closing] using hp.trans hq⟩

theorem spelled_emptyObject (hgap : Blank gap) (hp : Behind p (0x7B :: gap) start)
    (hq : Behind start [0x7D] q) : Spelled (depth + 2) p (some q) (.value (.object [])) :=
  ⟨_, q, rfl, .emptyObject hgap, by simpa [Part.closing] using hp.trans hq⟩

/-- An array is spelled if its items are, between brackets and behind blanks. -/
theorem spelled_array (hgap : Blank gap) (hp : Behind p (0x5B :: gap) start)
    (h : Spelled (depth + 1) start after (.items vs)) :
    Spelled (depth + 2) p after (.value (.array vs)) := by
  obtain ⟨text, q, hafter, htext, hq⟩ := h
  exact ⟨_, q, hafter, .array hgap htext, by simpa [Part.closing] using hp.trans hq⟩

/-- An object is spelled if its members are, between braces and behind blanks. -/
theorem spelled_object (hgap : Blank gap) (hp : Behind p (0x7B :: gap) start)
    (h : Spelled (depth + 1) start after (.members ms)) :
    Spelled (depth + 2) p after (.value (.object ms)) := by
  obtain ⟨text, q, hafter, htext, hq⟩ := h
  exact ⟨_, q, hafter, .object hgap htext, by simpa [Part.closing] using hp.trans hq⟩

theorem spelled_lastItem (h : Spelled depth p (some m) (.value v)) (hm : Closes 0x5D m q) :
    Spelled depth p (some q) (.items [v]) := by
  obtain ⟨text, htext, hp⟩ := h.found
  obtain ⟨gap, hgap, hm⟩ := hm
  exact ⟨_, q, rfl, .lastItem htext hgap, by simpa [Part.closing] using hp.trans hm⟩

/-- An item, a comma with blanks around it, and the items behind it are spelled together. -/
theorem spelled_item (h : Spelled depth p (some m) (.value v)) (hm : Parts 0x2C m n)
    (hmore : Spelled depth n after (.items vs)) : Spelled depth p after (.items (v :: vs)) := by
  obtain ⟨text, htext, hp⟩ := h.found
  obtain ⟨before, gap, hbefore, hgap, hm⟩ := hm
  obtain ⟨more, q, hafter, hmore, hq⟩ := hmore
  exact ⟨_, q, hafter, .item htext hbefore hgap hmore,
    by simpa [Part.closing] using hp.trans (hm.trans hq)⟩

theorem spelled_lastMember (hkey : HasKey p name start)
    (h : Spelled depth start (some m) (.value v)) (hm : Closes 0x7D m q) :
    Spelled depth p (some q) (.members [(name, v)]) := by
  obtain ⟨key, colon, hkey, hp, front, back, hfront, hback, hc⟩ := hkey
  obtain ⟨text, htext, hv⟩ := h.found
  obtain ⟨gap, hgap, hm⟩ := hm
  exact ⟨_, q, rfl, .lastMember hkey hfront hback htext hgap,
    by simpa [Part.closing] using hp.trans (hc.trans (hv.trans hm))⟩

/-- A key, its colon, a value, a comma and the members behind it are spelled together. -/
theorem spelled_member (hkey : HasKey p name start)
    (h : Spelled depth start (some m) (.value v)) (hm : Parts 0x2C m n)
    (hmore : Spelled depth n after (.members ms)) :
    Spelled depth p after (.members ((name, v) :: ms)) := by
  obtain ⟨key, colon, hkey, hp, front, back, hfront, hback, hc⟩ := hkey
  obtain ⟨text, htext, hv⟩ := h.found
  obtain ⟨before, gap, hbefore, hgap, hm⟩ := hm
  obtain ⟨more, q, hafter, hmore, hq⟩ := hmore
  exact ⟨_, q, hafter, .member hkey hfront hback htext hbefore hgap hmore,
    by simpa [Part.closing] using hp.trans (hc.trans (hv.trans (hm.trans hq)))⟩

/-- A node of an array is a value if there is room for its brackets, its items are values, and it
was closed. -/
theorem valueWithin_array_ok {offset : Nat} {nodes : List Node} {stop : Stop}
    (h : (Node.array offset nodes stop).valueWithin depth = .ok v) :
    ∃ k vs, depth = k + 2 ∧ valuesWithin (k + 1) nodes = .ok vs ∧ stop.check = .ok ()
      ∧ v = .array vs := by
  unfold Node.valueWithin at h
  split at h
  · cases h
  next hdepth =>
    simp only [except_bind_ok_iff] at h
    obtain ⟨vs, hvs, u, hstop, h⟩ := h
    cases h
    obtain ⟨k, rfl⟩ : ∃ k, depth = k + 2 := ⟨depth - 2, by omega⟩
    exact ⟨k, vs, rfl, hvs, hstop, rfl⟩

/-- A node of an object is a value under the same conditions. -/
theorem valueWithin_object_ok {offset : Nat} {nodes : List (Except Fault String × Node)}
    {stop : Stop} (h : (Node.object offset nodes stop).valueWithin depth = .ok v) :
    ∃ k ms, depth = k + 2 ∧ membersWithin (k + 1) nodes = .ok ms ∧ stop.check = .ok ()
      ∧ v = .object ms := by
  unfold Node.valueWithin at h
  split at h
  · cases h
  next hdepth =>
    simp only [except_bind_ok_iff] at h
    obtain ⟨ms, hms, u, hstop, h⟩ := h
    cases h
    obtain ⟨k, rfl⟩ : ∃ k, depth = k + 2 := ⟨depth - 2, by omega⟩
    exact ⟨k, ms, rfl, hms, hstop, rfl⟩

/-- Every reader with this much fuel reads what is spelled. -/
def Sound (fuel : Nat) : Prop :=
  ∀ depth p after part, Reads depth fuel p after part → Spelled depth p after part

/-- One step of reading a value. The cases are those of the reader: what it has met at the place
decides which spelling it is. -/
theorem Sound.value (ih : Sound fuel) (h : Reads depth (fuel + 1) p after (.value v)) :
    Spelled depth p after (.value v) := by
  obtain ⟨node, hread, hnode⟩ := h
  obtain ⟨gap, hgap, hskip, _⟩ := skipBlanks_blank (p.skip 1)
  unfold readValue at hread
  split at hread
  · cases hread
    cases hnode
  next b rest hrest =>
  -- the first byte tells: three words, numbers, texts, then arrays and objects
  split at hread
  · exact spelled_word hread hnode rfl .null
  split at hread
  · exact spelled_word hread hnode rfl .true
  split at hread
  · exact spelled_word hread hnode rfl .false
  split at hread
  · split at hread
    next numeral q hnumeral =>
      cases hread
      exact spelled_number hnumeral hnode
    next =>
      cases hread
      cases hnode
  split at hread
  next hquote =>
    split at hread
    next s q hstring =>
      cases hread
      cases hnode
      exact spelled_string (by rw [hrest, hquote]) hstring
    next =>
      cases hread
      cases hnode
    next =>
      cases hread
      cases hnode
  split at hread
  next hbracket =>
    subst hbracket
    have hstart := (behind_one hrest).trans hskip
    simp only at hread
    split at hread
    next more hclosing =>
      cases hread
      obtain ⟨k, vs, rfl, hvs, _, rfl⟩ := valueWithin_array_ok hnode
      cases hvs
      exact spelled_emptyArray hgap hstart (behind_one hclosing)
    next =>
      cases hread
      obtain ⟨k, vs, _, _, hstop, _⟩ := valueWithin_array_ok hnode
      cases hstop
    next =>
      cases hread
      -- an array is spelled out by its items, which cost less fuel
      obtain ⟨k, vs, rfl, hvs, hstop, rfl⟩ := valueWithin_array_ok hnode
      exact spelled_array hgap hstart (ih _ _ _ (.items vs) ⟨_, _, rfl, hvs, hstop⟩)
  split at hread
  next hbracket =>
    subst hbracket
    have hstart := (behind_one hrest).trans hskip
    simp only at hread
    split at hread
    next more hclosing =>
      cases hread
      obtain ⟨k, ms, rfl, hms, _, rfl⟩ := valueWithin_object_ok hnode
      cases hms
      exact spelled_emptyObject hgap hstart (behind_one hclosing)
    next =>
      cases hread
      obtain ⟨k, ms, _, _, hstop, _⟩ := valueWithin_object_ok hnode
      cases hstop
    next =>
      cases hread
      -- so is an object by its members
      obtain ⟨k, ms, rfl, hms, hstop, rfl⟩ := valueWithin_object_ok hnode
      exact spelled_object hgap hstart (ih _ _ _ (.members ms) ⟨_, _, rfl, hms, hstop⟩)
  · cases hread
    cases hnode

/-- Items are values if the first one is and the others are. -/
theorem valuesWithin_cons_ok {node : Node} {nodes : List Node}
    (h : valuesWithin depth (node :: nodes) = .ok vs) :
    ∃ v more, node.valueWithin depth = .ok v ∧ valuesWithin depth nodes = .ok more
      ∧ vs = v :: more := by
  unfold valuesWithin at h
  simp only [except_bind_ok_iff] at h
  obtain ⟨v, hv, more, hmore, h⟩ := h
  cases h
  exact ⟨v, more, hv, hmore, rfl⟩

/-- Members are values if the first one has a key and a value, and the others do. -/
theorem membersWithin_cons_ok {key : Except Fault String} {node : Node}
    {nodes : List (Except Fault String × Node)}
    (h : membersWithin depth ((key, node) :: nodes) = .ok ms) :
    ∃ name v more, key = .ok name ∧ node.valueWithin depth = .ok v
      ∧ membersWithin depth nodes = .ok more ∧ ms = (name, v) :: more := by
  unfold membersWithin at h
  simp only [except_bind_ok_iff] at h
  obtain ⟨name, hname, v, hv, more, hmore, h⟩ := h
  cases h
  exact ⟨name, v, more, hname, hv, hmore, rfl⟩

/-- One step of reading items. Where a list breaks off, its nodes are no values, or it is not
closed. -/
theorem Sound.items (ih : Sound fuel) (h : Reads depth (fuel + 1) p after (.items vs)) :
    Spelled depth p after (.items vs) := by
  obtain ⟨nodes, stop, hread, hnodes, hstop⟩ := h
  unfold readItems at hread
  split at hread
  next node found hvalue =>
  -- the first item, wherever the list goes on
  have hfirst {v : Value} (hv : node.valueWithin depth = .ok v) :
      Spelled depth p found (.value v) := ih _ _ _ (.value v) ⟨node, hvalue, hv⟩
  split at hread
  next =>
    -- a value ends somewhere
    cases hread
    obtain ⟨v, more, hv, _, _⟩ := valuesWithin_cons_ok hnodes
    obtain ⟨text, q, hfound, _⟩ := hfirst hv
    cases hfound
  next m =>
    simp only at hread
    split at hread
    next rest hclosing =>
      cases hread
      obtain ⟨v, more, hv, hmore, rfl⟩ := valuesWithin_cons_ok hnodes
      cases hmore
      exact spelled_lastItem (hfirst hv) (closes_of_rest hclosing)
    next rest hcomma =>
      split at hread
      next =>
        cases hread
        obtain ⟨v, more, _, hmore, _⟩ := valuesWithin_cons_ok hnodes
        obtain ⟨_, _, hstuck, _⟩ := valuesWithin_cons_ok hmore
        cases hstuck
      next =>
        cases hread
        obtain ⟨v, more, hv, hmore, rfl⟩ := valuesWithin_cons_ok hnodes
        exact spelled_item (hfirst hv) (parts_of_rest hcomma)
          (ih _ _ _ (.items more) ⟨_, _, rfl, hmore, hstop⟩)
    next =>
      cases hread
      cases hstop
    next =>
      cases hread
      cases hstop

/-- One step of reading members, with the key and the colon in front of each value. -/
theorem Sound.members (ih : Sound fuel) (h : Reads depth (fuel + 1) p after (.members ms)) :
    Spelled depth p after (.members ms) := by
  obtain ⟨nodes, stop, hread, hnodes, hstop⟩ := h
  unfold readMembers at hread
  split at hread
  case h_2 =>
    cases hread
    cases hstop
  next rest hquote =>
  split at hread
  next =>
    cases hread
    cases hstop
  next key colon hstring =>
  simp only at hread
  split at hread
  next rest hmark =>
    have hkey {name : String} (hname : key = .ok name) :
        HasKey p name (colon.skipBlanks.skip 1).skipBlanks := by
      obtain ⟨text, htext, hp⟩ := string_writes hquote (by rw [hstring, hname])
      exact ⟨text, colon, htext, hp, parts_of_rest hmark⟩
    cases hnode : readValue fuel (colon.skipBlanks.skip 1).skipBlanks with
    | mk node found =>
    simp only [hnode] at hread
    -- the first member, wherever the list goes on
    have hfirst {v : Value} (hv : node.valueWithin depth = .ok v) :
        Spelled depth _ found (.value v) := ih _ _ _ (.value v) ⟨node, hnode, hv⟩
    split at hread
    next =>
      cases hread
      obtain ⟨_, v, _, _, hv, _, _⟩ := membersWithin_cons_ok hnodes
      obtain ⟨text, q, hfound, _⟩ := hfirst hv
      cases hfound
    next m =>
    split at hread
    next rest hclosing =>
      cases hread
      obtain ⟨name, v, more, hname, hv, hmore, rfl⟩ := membersWithin_cons_ok hnodes
      cases hmore
      exact spelled_lastMember (hkey hname) (hfirst hv) (closes_of_rest hclosing)
    next rest hcomma =>
      split at hread
      next =>
        cases hread
        cases hstop
      next =>
        cases hread
        cases hstop
      next =>
        cases hread
        obtain ⟨name, v, more, hname, hv, hmore, rfl⟩ := membersWithin_cons_ok hnodes
        exact spelled_member (hkey hname) (hfirst hv) (parts_of_rest hcomma)
          (ih _ _ _ (.members more) ⟨_, _, rfl, hmore, hstop⟩)
    next =>
      cases hread
      cases hstop
    next =>
      cases hread
      cases hstop
  next =>
    cases hread
    obtain ⟨_, _, _, _, hstuck, _⟩ := membersWithin_cons_ok hnodes
    cases hstuck
  next =>
    cases hread
    obtain ⟨_, _, _, _, hstuck, _⟩ := membersWithin_cons_ok hnodes
    cases hstuck

/-- Readers with any amount of fuel read what is spelled. Without fuel nothing is read. -/
theorem sound : ∀ fuel, Sound fuel := by
  intro fuel
  induction fuel with
  -- without fuel nothing is read, so there is nothing to be spelled
  | zero =>
    intro depth p after part h
    cases part with
    | value v =>
      obtain ⟨node, hread, hnode⟩ := h
      cases hread
      cases hnode
    | items vs =>
      obtain ⟨nodes, stop, hread, _, hstop⟩ := h
      cases hread
      cases hstop
    | members ms =>
      obtain ⟨nodes, stop, hread, _, hstop⟩ := h
      cases hread
      cases hstop
  | succ fuel ih =>
    intro depth p after part h
    cases part with
    | value v => exact ih.value h
    | items vs => exact ih.items h
    | members ms => exact ih.members h

/-- **What is read is spelled.** The reader also makes nodes of what is broken or unreadable; this
is about the nodes that are values. -/
theorem spelled_of_reads (h : Reads depth fuel p after part) : Spelled depth p after part :=
  sound fuel depth p after part h

/-! ## Whole texts -/

/-- **A text is read as a value exactly if it writes that value**, with blanks around it and nothing
else. -/
theorem parse_ok_iff : Value.parse text = .ok v ↔ Writes text v := by
  constructor
  · intro h
    obtain ⟨before, hbefore, hskip, _⟩ := skipBlanks_blank ⟨0, text⟩
    unfold Value.parse Document.read at h
    cases hread : readValue (2 * text.length + 1) (Place.mk 0 text).skipBlanks with
    | mk root after =>
    simp only [hread, except_bind_ok_iff] at h
    obtain ⟨value, hvalue, h⟩ := h
    obtain ⟨body, q, rfl, hbody, hq⟩ : Spelled depthLimit _ after (.value value) :=
      spelled_of_reads ⟨root, hread, hvalue⟩
    obtain ⟨behind, hbehind, hend, _⟩ := skipBlanks_blank q
    simp only [Option.bind_some] at h
    split at h
    · cases h
    next hsurplus =>
      cases h
      -- nothing but blanks may be left behind the value
      have hnil : q.skipBlanks.rest = [] := by simpa using hsurplus
      refine ⟨before, body, behind, hbefore, hbehind, hbody, ?_⟩
      have hall := (hskip.trans (hq.trans hend)).rest
      simpa [Part.closing, hnil] using hall
  · rintro ⟨before, body, behind, hbefore, hbehind, hbody, rfl⟩
    have hall : Behind ⟨0, before ++ body ++ behind⟩ (before ++ (body ++ behind))
      ⟨(before ++ body ++ behind).length, []⟩ := ⟨by simp, by simp⟩
    obtain ⟨p, hp, hall⟩ := hall.split
    obtain ⟨q, hq, hend⟩ := hall.split
    have hstart := skipBlanks_of_blank hp hbefore (hbody.opens_at hall).stops
    have hstop : Stops continuesNumber q := ends_of_blank hbehind hend (by simp [Stops])
    -- two steps for each byte are enough fuel
    have hfuel : (Part.value v).steps p ≤ 2 * (before ++ body ++ behind).length + 1 :=
      Nat.add_le_add_right (Nat.mul_le_mul_left 2 hp.le) 1
    obtain ⟨root, hread, hvalue⟩ := reads_of_spells hbody (by simpa [Part.closing] using hq) hstop
      hfuel
    have hsurplus : q.skipBlanks.rest = [] := by
      rw [skipBlanks_of_blank hend hbehind (by simp [Stops])]
    unfold Value.parse Document.read
    simp only [hstart, hread, hvalue, Option.bind_some, hsurplus]
    rfl

/-- A text writes one value at most. -/
theorem Writes.unique {w : Value} (hv : Writes text v) (hw : Writes text w) : v = w :=
  Except.ok.inj ((parse_ok_iff.mpr hv).symm.trans (parse_ok_iff.mpr hw))

end QuotaWatch.Json
