import QuotaWatch.Proofs.Json.Strings

/-!
# What is spelled is read

A text that writes a value is read as that value, whatever stands behind it, by an induction on how
it is spelled (`reads_of_spells`). Each case is one step of a reader: a lemma `reads_...` says what
is read of one part of a value, given what is read of the parts inside it.
-/

namespace QuotaWatch.Json

variable {p q : Place} {text gap rest : Bytes} {depth fuel : Nat} {after : Option Place} {v : Value}
  {b : UInt8} {part : Part}

/-! ## Numbers -/

/-- Where a numeral ends shows in its fault only. The number is that of its text. -/
theorem node_eq_number {n : Numeral} {number : Number} {a b : Place}
    (h : n.node text a = .number number) : n.node text b = .number number := by
  unfold Numeral.node at h ⊢
  simp only at h ⊢
  -- the place is looked at only where a fault is reported
  split at h
  next hwhole => rw [if_pos hwhole, h]
  next hwhole =>
  rw [if_neg hwhole]
  split at h
  next hnegative => rw [if_pos hnegative, h]
  next hnegative =>
  rw [if_neg hnegative]
  split at h
  next =>
    split at h
    · cases h
    next hlarge => simpa [hlarge] using h
  next negative digits _ =>
    split at h
    next count hcount =>
      split at h
      next hsmall => simpa only [hcount, if_pos hsmall] using h
      next => cases h
    next hcount =>
      generalize isTooLarge _ _ = large at h ⊢
      cases large with
      | true => cases h
      | false => exact h

/-- So a numeral has one number, or none, wherever it stands. -/
theorem node_eq_number_iff {n : Numeral} {number : Number} {a : Place} :
    n.node text a = .number number ↔ n.number? text = some number := by
  unfold Numeral.number?
  constructor
  · intro h
    rw [node_eq_number h]
  · intro h
    split at h
    next other hnode =>
      cases h
      exact node_eq_number hnode
    next => cases h

/-- A numeral is a number or cannot be read. There is no third node. -/
theorem node_cases (n : Numeral) (text : Bytes) (a : Place) :
    (∃ number, n.node text a = .number number) ∨ ∃ fault, n.node text a = .unreadable fault := by
  unfold Numeral.node
  simp only
  split
  · exact .inl ⟨_, rfl⟩
  split
  · exact .inl ⟨_, rfl⟩
  split
  · split
    · exact .inr ⟨_, rfl⟩
    · exact .inl ⟨_, rfl⟩
  · split
    · split
      · exact .inl ⟨_, rfl⟩
      · exact .inr ⟨_, rfl⟩
    · -- a number too large for a word, or for a float, is no number
      generalize isTooLarge _ _ = large
      cases large with
      | true => exact .inr ⟨_, rfl⟩
      | false => exact .inl ⟨_, rfl⟩

/-- A numeral begins with a sign or with a digit. The reader tells by this byte that a number
follows. -/
theorem numeral_head {n : Numeral} (hn : WritesNumeral text n) :
    ∃ b rest, text = b :: rest ∧ (b = 0x2D ∨ isDigit b = true) := by
  obtain ⟨hwhole, _, fraction, exponent, _, _, rfl⟩ := hn
  obtain ⟨first, more, hcons⟩ := List.exists_cons_of_ne_nil hwhole.nonempty
  cases hnegative : n.negative with
  | true => exact ⟨0x2D, _, rfl, .inl rfl⟩
  | false =>
    have hfirst := hwhole.all first (by simp [hcons])
    exact ⟨first, more ++ fraction ++ exponent, by simp [minus, hcons], .inr hfirst⟩

/-! ## Where a part begins and ends -/

/-- What closes the brackets around a part. -/
def Part.closing : Part → Bytes
  | .value _ => []
  | .items _ => [0x5D]
  | .members _ => [0x7D]

/-- What is read of a part at a place. -/
def Reads (depth fuel : Nat) (p : Place) (after : Option Place) : Part → Prop
  | .value v => ∃ node, readValue fuel p = (node, after) ∧ node.valueWithin depth = .ok v
  | .items vs => ∃ nodes stop, readItems fuel p = (nodes, stop, after)
      ∧ valuesWithin depth nodes = .ok vs ∧ stop.check = .ok ()
  | .members ms => ∃ nodes stop, readMembers fuel p = (nodes, stop, after)
      ∧ membersWithin depth nodes = .ok ms ∧ stop.check = .ok ()

/-- No part begins with a blank or a closing bracket. -/
def opens (b : UInt8) : Bool := !isBlank b && b ≠ 0x5D && b ≠ 0x7D

theorem opens_of_digit (h : b = 0x2D ∨ isDigit b = true) : opens b = true := by
  obtain rfl | h := h
  · decide
  have hne (c : UInt8) (hc : isDigit c = false) : b ≠ c := by
    rintro rfl
    cases h.symm.trans hc
  simp [opens, isBlank, hne 0x20 rfl, hne 0x0A rfl, hne 0x09 rfl, hne 0x0D rfl, hne 0x5D rfl,
    hne 0x7D rfl]

/-- The first byte of a part opens it. So blanks in front of a part end where it begins, and a
closing bracket cannot be taken for one. -/
theorem opens_of_spells (h : Spells depth text part) :
    ∃ b rest, text = b :: rest ∧ opens b = true := by
  induction h with
  | null => exact ⟨_, _, rfl, by decide⟩
  | true => exact ⟨_, _, rfl, by decide⟩
  | false => exact ⟨_, _, rfl, by decide⟩
  | number h =>
    obtain ⟨n, hn, _⟩ := h
    obtain ⟨b, rest, rfl, hb⟩ := numeral_head hn
    exact ⟨b, rest, rfl, opens_of_digit hb⟩
  | string h =>
    obtain ⟨body, _, rfl⟩ := h
    exact ⟨_, _, rfl, by decide⟩
  | emptyArray => exact ⟨_, _, rfl, by decide⟩
  | array => exact ⟨_, _, rfl, by decide⟩
  | emptyObject => exact ⟨_, _, rfl, by decide⟩
  | object => exact ⟨_, _, rfl, by decide⟩
  -- a list begins as its first item does, members with a quote
  | lastItem _ _ ih =>
    obtain ⟨b, rest, rfl, hb⟩ := ih
    exact ⟨b, _, rfl, hb⟩
  | item _ _ _ _ ih =>
    obtain ⟨b, rest, rfl, hb⟩ := ih
    exact ⟨b, _, rfl, hb⟩
  | lastMember hkey =>
    obtain ⟨body, _, rfl⟩ := hkey
    exact ⟨_, _, rfl, by decide⟩
  | member hkey =>
    obtain ⟨body, _, rfl⟩ := hkey
    exact ⟨_, _, rfl, by decide⟩

/-- At a place a part may begin. -/
def Opens (p : Place) : Prop := ∃ b rest, p.rest = b :: rest ∧ opens b = true

/-- A part opens at the place where it stands. -/
theorem Spells.opens_at (h : Spells depth text part) (hp : Behind p (text ++ rest) q) :
    Opens p := by
  obtain ⟨b, more, rfl, hb⟩ := opens_of_spells h
  exact ⟨b, more ++ rest ++ q.rest, hp.rest, hb⟩

/-- Blanks in front of a part end where it begins. -/
theorem Opens.stops (h : Opens p) : Stops isBlank p := by
  obtain ⟨b, rest, hrest, hb⟩ := h
  intro c hc
  rw [hrest] at hc
  obtain rfl : b = c := by simpa using hc
  cases hblank : isBlank b with
  | false => rfl
  | true => simp [opens, hblank] at hb

/-- What opens a part closes nothing. -/
theorem Opens.cons (h : Opens p) : ∃ b rest, p.rest = b :: rest ∧ b ≠ 0x5D ∧ b ≠ 0x7D := by
  obtain ⟨b, rest, hrest, hb⟩ := h
  have hne : b ≠ 0x5D ∧ b ≠ 0x7D := by
    simp only [opens, Bool.and_eq_true, decide_eq_true_eq] at hb
    exact ⟨hb.1.2, hb.2⟩
  exact ⟨b, rest, hrest, hne⟩

/-! ## One part of a value -/

/-- A word is read where its first byte is met. -/
theorem reads_word {first : UInt8} {more : Bytes} {node : Node}
    (hread : ∀ rest, p.rest = first :: rest →
      readValue (fuel + 1) p = p.word (first :: more) node)
    (hnode : node.valueWithin depth = .ok v) (h : Behind p (first :: more) q) :
    Reads depth (fuel + 1) p (some q) (.value v) :=
  ⟨node, (hread _ h.rest).trans (word_of_writes h), hnode⟩

/-- A number is read, if what follows it cannot belong to it. -/
theorem reads_number {n : Number} (hn : WritesNumber text n) (h : Behind p text q)
    (hstop : Stops continuesNumber q) :
    Reads depth (fuel + 1) p (some q) (.value (.number n)) := by
  obtain ⟨numeral, hnumeral, hnumber⟩ := hn
  obtain ⟨b, rest, hcons, hb⟩ := numeral_head hnumeral
  have hrest : p.rest = b :: (rest ++ q.rest) := by rw [h.rest, hcons]; rfl
  have hread := numeral_of_writes hnumeral h hstop
  refine ⟨.number n, ?_, rfl⟩
  -- no word begins as a number does
  have hne (c : UInt8) (hc : c ≠ 0x2D) (hc' : isDigit c = false) : b ≠ c := by
    rintro rfl
    obtain hb | hb := hb
    · exact hc hb
    · cases hb.symm.trans hc'
  have hmark : (decide (b = 0x2D) || isDigit b) = true := by simpa using hb
  unfold readValue
  simp only [hrest]
  rw [if_neg (hne 0x6E (by decide) rfl), if_neg (hne 0x74 (by decide) rfl),
    if_neg (hne 0x66 (by decide) rfl), if_pos hmark]
  simp only [hread]
  rw [← hrest, h.take, node_eq_number_iff.mpr hnumber]

/-- A string is read with its quotes. It ends with itself, so nothing is asked of what follows. -/
theorem reads_string {s : String} (hs : WritesString text s) (h : Behind p text q)
    (hfuel : p.rest.length ≤ fuel + 1) :
    Reads depth (fuel + 1) p (some q) (.value (.string s)) := by
  have hread := string_of_writes hs h hfuel
  obtain ⟨body, _, rfl⟩ := hs
  have hrest : p.rest = 0x22 :: _ := h.rest
  refine ⟨.string s, ?_, rfl⟩
  unfold readValue
  simp only [hrest, hread]
  rfl

theorem reads_emptyArray (hgap : Blank gap) (h : Behind p (0x5B :: gap ++ [0x5D]) q) :
    Reads (depth + 2) (fuel + 1) p (some q) (.value (.array [])) := by
  have hrest : p.rest = 0x5B :: (gap ++ [0x5D] ++ q.rest) := h.rest
  have hclose : Closes 0x5D (p.skip 1) q := ⟨gap, hgap, h.tail⟩
  obtain ⟨hstart, rfl⟩ := hclose.found (by decide)
  refine ⟨.array p.offset [] .closed, ?_, rfl⟩
  unfold readValue
  simp only [hrest, hstart]
  rfl

theorem reads_emptyObject (hgap : Blank gap) (h : Behind p (0x7B :: gap ++ [0x7D]) q) :
    Reads (depth + 2) (fuel + 1) p (some q) (.value (.object [])) := by
  have hrest : p.rest = 0x7B :: (gap ++ [0x7D] ++ q.rest) := h.rest
  have hclose : Closes 0x7D (p.skip 1) q := ⟨gap, hgap, h.tail⟩
  obtain ⟨hstart, rfl⟩ := hclose.found (by decide)
  refine ⟨.object p.offset [] .closed, ?_, rfl⟩
  unfold readValue
  simp only [hrest, hstart]
  rfl

variable {start : Place}

/-- An array is read if its items are, one bracket deeper. -/
theorem reads_array {vs : List Value} (hgap : Blank gap) (hp : Behind p (0x5B :: gap) start)
    (hstart : Opens start) (h : Reads (depth + 1) fuel start after (.items vs)) :
    Reads (depth + 2) (fuel + 1) p after (.value (.array vs)) := by
  obtain ⟨nodes, stop, hread, hnodes, hstop⟩ := h
  have hskip : (p.skip 1).skipBlanks = start := skipBlanks_of_blank hp.tail hgap hstart.stops
  obtain ⟨b, rest, hrest, hclosing, _⟩ := hstart.cons
  have hbracket : p.rest = 0x5B :: (gap ++ start.rest) := hp.rest
  refine ⟨.array p.offset nodes stop, ?_, ?_⟩
  · unfold readValue
    simp only [hbracket, hskip, hrest, hread]
    simp [hclosing, isDigit]
  · simp [Node.valueWithin, hnodes, hstop, bind, Except.bind]

/-- An object is read if its members are, one bracket deeper. -/
theorem reads_object {ms : List (String × Value)} (hgap : Blank gap)
    (hp : Behind p (0x7B :: gap) start) (hstart : Opens start)
    (h : Reads (depth + 1) fuel start after (.members ms)) :
    Reads (depth + 2) (fuel + 1) p after (.value (.object ms)) := by
  obtain ⟨nodes, stop, hread, hnodes, hstop⟩ := h
  have hskip : (p.skip 1).skipBlanks = start := skipBlanks_of_blank hp.tail hgap hstart.stops
  obtain ⟨b, rest, hrest, _, hclosing⟩ := hstart.cons
  have hbracket : p.rest = 0x7B :: (gap ++ start.rest) := hp.rest
  refine ⟨.object p.offset nodes stop, ?_, ?_⟩
  · unfold readValue
    simp only [hbracket, hskip, hrest, hread]
    simp [hclosing, isDigit]
  · simp [Node.valueWithin, hnodes, hstop, bind, Except.bind]

variable {m n : Place} {vs : List Value}

/-- The last item is read, and the bracket behind it. -/
theorem reads_lastItem (h : Reads depth fuel p (some m) (.value v)) (hm : Closes 0x5D m q) :
    Reads depth (fuel + 1) p (some q) (.items [v]) := by
  obtain ⟨node, hread, hnode⟩ := h
  obtain ⟨hrest, rfl⟩ := hm.found (by decide)
  refine ⟨[node], .closed, ?_, ?_, rfl⟩
  · unfold readItems
    simp only [hread, hrest]
  · simp [valuesWithin, hnode, bind, Except.bind]

/-- An item is read, the comma behind it, and then the other items. -/
theorem reads_item (h : Reads depth fuel p (some m) (.value v)) (hm : Parts 0x2C m n)
    (hn : Opens n) (hmore : Reads depth fuel n after (.items vs)) :
    Reads depth (fuel + 1) p after (.items (v :: vs)) := by
  obtain ⟨node, hread, hnode⟩ := h
  obtain ⟨nodes, stop, hreads, hnodes, hstop⟩ := hmore
  obtain ⟨⟨more, hcomma⟩, hnext⟩ := hm.found (by decide) hn.stops
  obtain ⟨b, rest, hrest, hclosing, _⟩ := hn.cons
  refine ⟨node :: nodes, stop, ?_, ?_, hstop⟩
  · unfold readItems
    simp only [hread, hcomma, hnext, hrest, hreads]
    simp [hclosing]
  · simp [valuesWithin, hnode, hnodes, bind, Except.bind]

variable {name : String} {ms : List (String × Value)}

/-- Between two places stand the key of a member and its colon. -/
def HasKey (p : Place) (name : String) (q : Place) : Prop :=
  ∃ key colon, WritesString key name ∧ Behind p key colon ∧ Parts 0x3A colon q

/-- The key of a member is read as its name, and the value is looked for behind the colon. -/
theorem HasKey.found (h : HasKey p name start) (hstart : Opens start)
    (hfuel : p.rest.length ≤ fuel + 1) :
    (∃ rest, p.rest = 0x22 :: rest) ∧ ∃ colon, p.string fuel = .ok (.ok name, colon)
      ∧ (∃ more, colon.skipBlanks.rest = 0x3A :: more)
      ∧ (colon.skipBlanks.skip 1).skipBlanks = start := by
  obtain ⟨key, colon, hkey, hp, hc⟩ := h
  have hstring := string_of_writes hkey hp hfuel
  obtain ⟨body, _, rfl⟩ := hkey
  exact ⟨⟨_, hp.rest⟩, colon, hstring, hc.found (by decide) hstart.stops⟩

/-- The last member is read, and the brace behind it. -/
theorem reads_lastMember (hkey : HasKey p name start) (hfuel : p.rest.length ≤ fuel + 1)
    (hstart : Opens start) (h : Reads depth fuel start (some m) (.value v))
    (hm : Closes 0x7D m q) : Reads depth (fuel + 1) p (some q) (.members [(name, v)]) := by
  obtain ⟨node, hread, hnode⟩ := h
  obtain ⟨⟨rest, hquote⟩, colon, hstring, ⟨more, hmark⟩, hvalue⟩ := hkey.found hstart hfuel
  obtain ⟨hrest, rfl⟩ := hm.found (by decide)
  refine ⟨[(.ok name, node)], .closed, ?_, ?_, rfl⟩
  · unfold readMembers
    simp only [hquote, hstring, hmark, hvalue, hread, hrest]
  · simp [membersWithin, hnode, bind, Except.bind]

/-- A member is read, the comma behind it, and then the other members. -/
theorem reads_member (hkey : HasKey p name start) (hfuel : p.rest.length ≤ fuel + 1)
    (hstart : Opens start) (h : Reads depth fuel start (some m) (.value v))
    (hm : Parts 0x2C m n) (hn : Opens n) (hmore : Reads depth fuel n after (.members ms)) :
    Reads depth (fuel + 1) p after (.members ((name, v) :: ms)) := by
  obtain ⟨node, hread, hnode⟩ := h
  obtain ⟨nodes, stop, hreads, hnodes, hstop⟩ := hmore
  obtain ⟨⟨rest, hquote⟩, colon, hstring, ⟨more, hmark⟩, hvalue⟩ := hkey.found hstart hfuel
  obtain ⟨⟨tail, hcomma⟩, hnext⟩ := hm.found (by decide) hn.stops
  obtain ⟨b, rest, hrest, _, hclosing⟩ := hn.cons
  refine ⟨(.ok name, node) :: nodes, stop, ?_, ?_, hstop⟩
  · unfold readMembers
    simp only [hquote, hstring, hmark, hvalue, hread, hcomma, hnext, hrest, hreads]
    simp [hclosing]
  · simp [membersWithin, hnode, hnodes, bind, Except.bind]

/-! ## What is spelled is read -/

/-- What may stand behind a part: what follows a number must not belong to it. -/
def Part.Ends (q : Place) : Part → Prop
  | .value _ => Stops continuesNumber q
  | _ => True

/-- Enough fuel for a part at a place: each bracket and each comma takes two steps. -/
def Part.steps (p : Place) : Part → Nat
  | .value _ => 2 * p.rest.length + 1
  | _ => 2 * p.rest.length + 2

theorem continuesNumber_of_isBlank (h : isBlank b = true) : continuesNumber b = false := by
  have hb : ((b = 0x20 ∨ b = 0x0A) ∨ b = 0x09) ∨ b = 0x0D := by simpa [isBlank] using h
  obtain ((rfl | rfl) | rfl) | rfl := hb <;> rfl

/-- A number also ends where blanks stand between it and what would end it. -/
theorem ends_of_blank (hgap : Blank gap) (h : Behind m gap q) (hq : Stops continuesNumber q) :
    Stops continuesNumber m := by
  cases gap with
  | nil =>
    obtain rfl := h.eq_self
    exact hq
  | cons b rest => exact stops_cons h (continuesNumber_of_isBlank (hgap b List.mem_cons_self))

/-- A value ends where blanks and a mark follow. -/
theorem ends_of_mark {x : UInt8} (hgap : Blank gap) (h : Behind m (gap ++ x :: rest) q)
    (hx : continuesNumber x = false) : (Part.value v).Ends m := by
  obtain ⟨l, hl, hq⟩ := h.split
  exact ends_of_blank hgap hl (stops_cons hq hx)

theorem fuel_of_steps (h : part.steps p ≤ fuel) : ∃ left, fuel = left + 1 := by
  refine ⟨fuel - 1, ?_⟩
  cases part <;> simp only [Part.steps] at h <;> omega

/-- What stands further on needs less fuel. Each step of the reader goes on behind one byte at
least, and that pays for it. -/
theorem steps_le {part' : Part} (h : part.steps p ≤ fuel + 1)
    (hlt : q.rest.length < p.rest.length) : part'.steps q ≤ fuel := by
  cases part <;> cases part' <;> simp only [Part.steps] at h ⊢ <;> omega

/-- The first item of a list stands where the list does and still needs less: a list has one step
more. -/
theorem steps_item_le {vs : List Value} (h : (Part.items vs).steps p ≤ fuel + 1) :
    (Part.value v).steps p ≤ fuel := by
  simp only [Part.steps] at h ⊢
  omega

theorem length_le_of_steps (h : part.steps p ≤ fuel + 1) : p.rest.length ≤ fuel + 1 := by
  cases part <;> simp only [Part.steps] at h <;> omega

theorem Behind.le (h : Behind p text q) : q.rest.length ≤ p.rest.length := by
  have := h.length_rest
  omega

theorem Behind.lt_of_mark {x : UInt8} (gap : Bytes) (h : Behind p (gap ++ x :: rest) q) :
    q.rest.length < p.rest.length := by
  have hlength := h.length_rest
  rw [List.length_append, List.length_cons] at hlength
  omega

/-- **What is spelled is read.** The induction follows how a part is spelled, for every place at
which it may stand and for all that may stand behind it. The readers run on fuel, and `Part.steps`
is enough of it. -/
theorem reads_of_spells (h : Spells depth text part) (hp : Behind p (text ++ part.closing) q)
    (hends : part.Ends q) (hfuel : part.steps p ≤ fuel) : Reads depth fuel p (some q) part := by
  induction h generalizing p q fuel with
  | null =>
    obtain ⟨fuel, rfl⟩ := fuel_of_steps hfuel
    exact reads_word (fun rest hrest => by unfold readValue; simp only [hrest]; rfl) rfl hp
  | true =>
    obtain ⟨fuel, rfl⟩ := fuel_of_steps hfuel
    exact reads_word (fun rest hrest => by unfold readValue; simp only [hrest]; rfl) rfl hp
  | false =>
    obtain ⟨fuel, rfl⟩ := fuel_of_steps hfuel
    exact reads_word (fun rest hrest => by unfold readValue; simp only [hrest]; rfl) rfl hp
  | number h =>
    obtain ⟨fuel, rfl⟩ := fuel_of_steps hfuel
    rw [Part.closing, List.append_nil] at hp
    exact reads_number h hp hends
  | string h =>
    obtain ⟨fuel, rfl⟩ := fuel_of_steps hfuel
    rw [Part.closing, List.append_nil] at hp
    exact reads_string h hp (length_le_of_steps hfuel)
  | emptyArray hgap =>
    obtain ⟨fuel, rfl⟩ := fuel_of_steps hfuel
    rw [Part.closing, List.append_nil] at hp
    exact reads_emptyArray hgap hp
  | array hgap h ih =>
    obtain ⟨fuel, rfl⟩ := fuel_of_steps hfuel
    rw [Part.closing, List.append_nil, List.append_assoc] at hp
    obtain ⟨start, hp, hq⟩ := hp.split
    have hlt : start.rest.length < p.rest.length := hp.lt_of_mark []
    exact reads_array hgap hp (h.opens_at hq) (ih hq trivial (steps_le hfuel hlt))
  | emptyObject hgap =>
    obtain ⟨fuel, rfl⟩ := fuel_of_steps hfuel
    rw [Part.closing, List.append_nil] at hp
    exact reads_emptyObject hgap hp
  | object hgap h ih =>
    obtain ⟨fuel, rfl⟩ := fuel_of_steps hfuel
    rw [Part.closing, List.append_nil, List.append_assoc] at hp
    obtain ⟨start, hp, hq⟩ := hp.split
    have hlt : start.rest.length < p.rest.length := hp.lt_of_mark []
    exact reads_object hgap hp (h.opens_at hq) (ih hq trivial (steps_le hfuel hlt))
  | @lastItem depth text gap v h hgap ih =>
    obtain ⟨fuel, rfl⟩ := fuel_of_steps hfuel
    -- the value, and what closes the list behind it
    have hp : Behind p ((text ++ []) ++ (gap ++ [0x5D])) q := by simpa [Part.closing] using hp
    obtain ⟨m, hp, hq⟩ := hp.split
    have hread := ih hp (ends_of_mark hgap hq (by decide)) (steps_item_le hfuel)
    exact reads_lastItem hread ⟨gap, hgap, hq⟩
  | @item depth text before gap more v vs h hbefore hgap hmore ih ihMore =>
    obtain ⟨fuel, rfl⟩ := fuel_of_steps hfuel
    -- the value, the comma, and the list behind it
    have hp : Behind p ((text ++ []) ++ ((before ++ 0x2C :: gap) ++ (more ++ [0x5D]))) q := by
      simpa [Part.closing] using hp
    obtain ⟨m, hp, hq⟩ := hp.split
    obtain ⟨n, hn, hq⟩ := hq.split
    have hread := ih hp (ends_of_mark hbefore hn (by decide)) (steps_item_le hfuel)
    have hlt : n.rest.length < p.rest.length := Nat.lt_of_lt_of_le (hn.lt_of_mark before) hp.le
    have hreads := ihMore hq trivial (steps_le hfuel hlt)
    exact reads_item hread ⟨before, gap, hbefore, hgap, hn⟩ (hmore.opens_at hq) hreads
  | @lastMember depth key front back text gap name v hkey hfront hback h hgap ih =>
    obtain ⟨fuel, rfl⟩ := fuel_of_steps hfuel
    have hp : Behind p (key ++ ((front ++ 0x3A :: back) ++ ((text ++ []) ++ (gap ++ [0x7D])))) q :=
      by simpa [Part.closing] using hp
    obtain ⟨colon, hp, hq⟩ := hp.split
    obtain ⟨start, hc, hq⟩ := hq.split
    obtain ⟨m, hv, hq⟩ := hq.split
    have hlt : start.rest.length < p.rest.length :=
      Nat.lt_of_lt_of_le (hc.lt_of_mark front) hp.le
    have hread := ih hv (ends_of_mark hgap hq (by decide)) (steps_le hfuel hlt)
    have hcolon : HasKey p name start := ⟨key, colon, hkey, hp, front, back, hfront, hback, hc⟩
    exact reads_lastMember hcolon (length_le_of_steps hfuel) (h.opens_at hv) hread ⟨gap, hgap, hq⟩
  | @member depth key front back text before gap more name v ms hkey hfront hback h hbefore hgap
      hmore ih ihMore =>
    obtain ⟨fuel, rfl⟩ := fuel_of_steps hfuel
    have hp : Behind p (key ++ ((front ++ 0x3A :: back)
        ++ ((text ++ []) ++ ((before ++ 0x2C :: gap) ++ (more ++ [0x7D]))))) q := by
      simpa [Part.closing] using hp
    obtain ⟨colon, hp, hq⟩ := hp.split
    obtain ⟨start, hc, hq⟩ := hq.split
    obtain ⟨m, hv, hq⟩ := hq.split
    obtain ⟨n, hn, hq⟩ := hq.split
    have hlt : start.rest.length < p.rest.length :=
      Nat.lt_of_lt_of_le (hc.lt_of_mark front) hp.le
    have hlt' : n.rest.length < p.rest.length :=
      Nat.lt_trans (Nat.lt_of_lt_of_le (hn.lt_of_mark before) hv.le) hlt
    have hread := ih hv (ends_of_mark hbefore hn (by decide)) (steps_le hfuel hlt)
    have hreads := ihMore hq trivial (steps_le hfuel hlt')
    have hcolon : HasKey p name start := ⟨key, colon, hkey, hp, front, back, hfront, hback, hc⟩
    exact reads_member hcolon (length_le_of_steps hfuel) (h.opens_at hv) hread
      ⟨before, gap, hbefore, hgap, hn⟩ (hmore.opens_at hq) hreads

end QuotaWatch.Json
