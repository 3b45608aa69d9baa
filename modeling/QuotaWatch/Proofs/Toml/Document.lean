import Mathlib.Data.List.Forall2
import QuotaWatch.Proofs.Toml.Scalar
import QuotaWatch.Toml.Reader

/-!
# Documents of TOML read back

A document is built line by line from its end: `Document.pairLine` puts a line with a key and a
value in front of one, `Document.headerLines` the header of a table. What may be a value is
`Writes`; what may be one inside an array as well is `WritesScalar`.

* **`writes_array`**: an array of such values is a value, in whichever of its three forms.
* **`Document.parse`**: a document is read as the statements that it writes.

The reader has fuel, and each lemma says how much of it is enough.
-/

namespace QuotaWatch.Toml

open Text

variable {c d : Char} {cs rest text : List Char} {v : Value} {fuel depth : Nat}

/-! ## Values -/

/-- A character that values begin with: nothing that a reader passes over in front of them, and no
end of an array. -/
def OpensValue (c : Char) : Prop := c ∉ [' ', '\t', '\n', '\r', '#', ']']

instance : DecidablePred OpensValue := fun c =>
  inferInstanceAs (Decidable (c ∉ [' ', '\t', '\n', '\r', '#', ']']))

/-- A number begins with nothing that is passed over. -/
theorem opensValue_of_isDigit (hc : isDigit c = true) : OpensValue c := by
  intro hmem
  have hnone : [' ', '\t', '\n', '\r', '#', ']'].all (fun b => !isDigit b) = true := by decide
  have hnot := List.all_eq_true.mp hnone c hmem
  rw [hc] at hnot
  cases hnot

theorem OpensValue.not_isSpace (hc : OpensValue c) : isSpace c = false := by
  simp [OpensValue] at hc
  simp [isSpace, hc]

/-- Blanks are passed over in front of a value and not in it. -/
theorem OpensValue.skipSpaces (hc : OpensValue c) (rest : List Char) :
    skipSpaces (c :: rest) = c :: rest := by
  rw [Toml.skipSpaces, List.dropWhile_cons_of_neg (by simp [hc.not_isSpace])]

/-- In an array, line ends and comments are passed over as well, and still the value is left as it
is. -/
theorem OpensValue.skipFiller (hc : OpensValue c) (rest : List Char) :
    skipFiller false (c :: rest) = c :: rest := by
  have hspace := hc.not_isSpace
  simp only [OpensValue, List.mem_cons, not_or] at hc
  rw [skipFiller.eq_def]
  split <;> simp_all

/-- A text that a value without parts is written as: it is read wherever it stands, up to what ends
it. -/
structure WritesScalar (text : List Char) (v : Value) : Prop where
  opens : ∃ c more, text = c :: more ∧ OpensValue c
  read : ∀ fuel depth d rest, EndsValue d →
    value? (fuel + 1) depth (text ++ d :: rest) = some (v, d :: rest)

theorem WritesScalar.skipFiller (h : WritesScalar text v) (rest : List Char) :
    skipFiller false (text ++ rest) = text ++ rest := by
  obtain ⟨c, more, rfl, hc⟩ := h.opens
  exact hc.skipFiller (more ++ rest)

/-- A text is a value anywhere. Its first character, a quote of either kind, tells the reader to
read a text. -/
theorem writesScalar_string (s : String) : WritesScalar (stringText s) (.string s) := by
  obtain ⟨q, more, htext, hq⟩ := stringText_eq_cons s
  refine ⟨⟨q, more, htext, by rcases hq with rfl | rfl <;> decide⟩, fun fuel depth d rest hd => ?_⟩
  -- what ends a value is no quote
  have hread : string? (stringText s ++ d :: rest) = some (s, d :: rest) :=
    string?_stringText s (fun h => hd.ne (by decide) (Option.some.inj h).symm)
      fun h => hd.ne (by decide) (Option.some.inj h).symm
  rw [htext, List.cons_append] at hread ⊢
  rcases hq with rfl | rfl
  · rw [value?, hread]
    rfl
  · rw [value?, hread]
    rfl

/-- A number is one if a document can hold it: the numbers of TOML are signed, so half of what a
word can hold is too much. -/
theorem writesScalar_count {n : UInt64} (hn : n.toNat ≤ greatest) :
    WritesScalar (countText n) (.integer n.toNat) := by
  obtain ⟨c, more, hmore, hc⟩ := decimal_eq_cons n.toNat
  refine ⟨⟨c, more, hmore, opensValue_of_isDigit hc⟩, fun fuel depth d rest hd => ?_⟩
  have hread : number? (countText n ++ d :: rest) = _ := number?_countText hn hd
  rw [countText, hmore, List.cons_append] at hread ⊢
  rw [value?]
  · exact hread
  -- no other value begins with a digit
  all_goals
    intro others heq
    rw [(List.cons.inj heq).1] at hc
    exact absurd hc (by decide)

/-- A flag is a value anywhere. -/
theorem writesScalar_flag (b : Bool) : WritesScalar (flagText b) (.boolean b) := by
  cases b with
  | false =>
    have htext : flagText false = ['f', 'a', 'l', 's', 'e'] := rfl
    rw [htext]
    exact ⟨⟨'f', _, rfl, by decide⟩, fun fuel depth d rest hd => rfl⟩
  | true =>
    have htext : flagText true = ['t', 'r', 'u', 'e'] := rfl
    rw [htext]
    exact ⟨⟨'t', _, rfl, by decide⟩, fun fuel depth d rest hd => rfl⟩

/-- A text that a value of a document is written as: it is read up to the end of its line. -/
structure Writes (text : List Char) (v : Value) : Prop where
  opens : ∃ c more, text = c :: more ∧ OpensValue c
  read : ∀ fuel rest, text.length < fuel →
    value? fuel 0 (text ++ '\n' :: rest) = some (v, '\n' :: rest)

/-- What is a value anywhere is one at the end of a line. -/
theorem WritesScalar.writes (h : WritesScalar text v) : Writes text v := by
  refine ⟨h.opens, fun fuel rest hfuel => ?_⟩
  obtain ⟨k, rfl⟩ := Nat.exists_eq_add_of_le' (Nat.one_le_of_lt hfuel)
  exact h.read k 0 '\n' rest (by decide)

/-! ## Arrays -/

/-- An item of an array is read, and what comes behind it decides how the array goes on. -/
theorem items?_item {item : List Char} (h : WritesScalar item v) (hd : EndsValue d)
    (hcs : skipFiller false cs = item ++ d :: rest) :
    items? (fuel + 2) depth cs =
      match skipFiller false (d :: rest) with
      | ']' :: rest => some ([v], rest)
      | ',' :: rest =>
        (items? (fuel + 1) depth rest).bind fun (more, rest) => some (v :: more, rest)
      | _ => none := by
  have hread := h.read fuel depth d rest hd
  obtain ⟨c, more, rfl, hc⟩ := h.opens
  have hbracket : c ≠ ']' := by
    rintro rfl
    exact absurd hc (by decide)
  rw [items?, hcs]
  split
  next heq => exact absurd (List.cons.inj heq).1 hbracket
  next =>
    rw [hread]
    rfl

/-- Items of an array on lines of their own, each with a comma behind it. -/
def itemLines (items : List (List Char)) : List Char :=
  items.flatMap fun item => "    ".toList ++ item ++ [',', '\n']

/-- A line end and the blanks that the next line begins with are passed over. -/
theorem skipFiller_indent (cs : List Char) :
    skipFiller false ('\n' :: ("    ".toList ++ cs)) = skipFiller false cs := by
  have hindent : "    ".toList = [' ', ' ', ' ', ' '] := rfl
  rw [hindent]
  rfl

/-- Items on lines of their own are read one by one, up to the bracket. Induction on the items; each
takes one step of the fuel. -/
theorem items?_itemLines {items : List (List Char)} {values : List Value}
    (h : List.Forall₂ WritesScalar items values) :
    ∀ {fuel : Nat}, items.length < fuel →
      items? fuel depth ('\n' :: (itemLines items ++ ']' :: rest)) = some (values, rest) := by
  induction h with
  | nil =>
    intro fuel hfuel
    obtain ⟨k, rfl⟩ := Nat.exists_eq_add_of_le' (Nat.one_le_of_lt hfuel)
    rfl
  | @cons item v items values hitem _ ih =>
    intro fuel hfuel
    rw [List.length_cons] at hfuel
    obtain ⟨k, rfl⟩ := Nat.exists_eq_add_of_le' (show 2 ≤ fuel by omega)
    have hlines : itemLines (item :: items) ++ ']' :: rest
        = "    ".toList ++ (item ++ ',' :: '\n' :: (itemLines items ++ ']' :: rest)) := by
      simp [itemLines]
    have hitem' : skipFiller false (item ++ ',' :: '\n' :: (itemLines items ++ ']' :: rest))
        = item ++ ',' :: '\n' :: (itemLines items ++ ']' :: rest) := hitem.skipFiller _
    -- the comma behind an item is what the reader stops at
    have hcomma : ∀ cs, skipFiller false (',' :: cs) = ',' :: cs := fun cs => rfl
    rw [hlines, items?_item hitem (by decide) ((skipFiller_indent _).trans hitem')]
    simp only [hcomma]
    rw [ih (by omega)]
    rfl

/-- There are no more items than characters, so fuel for the characters is enough for the items. -/
theorem length_le_itemLines (items : List (List Char)) :
    items.length ≤ (itemLines items).length := by
  induction items with
  | nil => simp
  | cons item items ih =>
    simp only [itemLines, List.flatMap_cons, List.length_append, List.length_cons] at ih ⊢
    omega

/-- Behind its opening bracket an array is read to the end, in any of its three forms. -/
theorem items?_arrayText {items : List (List Char)} {values : List Value}
    (h : List.Forall₂ WritesScalar items values) (hfuel : (arrayText items).length ≤ fuel) :
    items? fuel depth ((arrayText items).tail ++ rest) = some (values, rest) := by
  cases h with
  | nil =>
    obtain ⟨k, rfl⟩ : ∃ k, fuel = k + 1 :=
      Nat.exists_eq_add_of_le' (Nat.le_trans (by simp [arrayText]) hfuel)
    rfl
  | @cons item v items values hitem hitems =>
    cases hitems with
    | nil =>
      -- a single item stands between the brackets
      obtain ⟨k, rfl⟩ : ∃ k, fuel = k + 2 :=
        Nat.exists_eq_add_of_le' (Nat.le_trans (by simp [arrayText]) hfuel)
      show items? (k + 2) depth (item ++ [']'] ++ rest) = _
      rw [List.append_assoc, List.singleton_append,
        items?_item hitem (by decide) (hitem.skipFiller _)]
      rfl
    | @cons second w others values hsecond hothers =>
      have hlines := length_le_itemLines (item :: second :: others)
      have htext : (arrayText (item :: second :: others)).tail ++ rest
          = '\n' :: (itemLines (item :: second :: others) ++ ']' :: rest) := by
        simp [arrayText, itemLines]
      have hlength : (arrayText (item :: second :: others)).length
          = (itemLines (item :: second :: others)).length + 3 := by
        show ('[' :: '\n' :: itemLines (item :: second :: others) ++ [']']).length = _
        simp only [List.length_append, List.length_cons, List.length_nil]
      rw [htext]
      exact items?_itemLines (.cons hitem (.cons hsecond hothers)) (by omega)

/-- **An array is read as it was written.** An empty one and one with a single item stand on their
line, others have a line for each item. -/
theorem writes_array {items : List (List Char)} {values : List Value}
    (h : List.Forall₂ WritesScalar items values) :
    Writes (arrayText items) (.array false values) := by
  have hopens : arrayText items = '[' :: (arrayText items).tail := by
    rw [arrayText.eq_def]
    split <;> rfl
  refine ⟨⟨'[', (arrayText items).tail, hopens, by decide⟩, fun fuel rest hfuel => ?_⟩
  obtain ⟨k, rfl⟩ := Nat.exists_eq_add_of_le' (Nat.one_le_of_lt hfuel)
  have hread : items? k 1 ((arrayText items).tail ++ '\n' :: rest) = some (values, '\n' :: rest) :=
    items?_arrayText h (by omega)
  rw [hopens, List.cons_append, value?, if_pos (by decide), hread]
  rfl

/-- An array of things that are written and read one by one. -/
theorem writes_array_map {α : Type} {write : α → List Char} {value : α → Value} {as : List α}
    (h : ∀ a ∈ as, WritesScalar (write a) (value a)) :
    Writes (arrayText (as.map write)) (.array false (as.map value)) := by
  refine writes_array (List.forall₂_map_left_iff.mpr (List.forall₂_map_right_iff.mpr ?_))
  exact List.forall₂_same.mpr h

/-! ## Lines -/

/-- A key that needs no quotes. -/
def IsBareKey (key : String) : Prop := key.toList ≠ [] ∧ key.toList.all isBareChar = true

instance : DecidablePred IsBareKey := fun key =>
  inferInstanceAs (Decidable (key.toList ≠ [] ∧ key.toList.all isBareChar = true))

variable {key : String}

theorem IsBareKey.chars (h : IsBareKey key) : ∀ c ∈ key.toList, isBareChar c = true :=
  List.all_eq_true.mp h.2

/-- A line that begins with a key begins with no mark of another statement. -/
theorem IsBareKey.append_ne (h : IsBareKey key) {b : Char} (hb : isBareChar b = false)
    (cs more : List Char) : key.toList ++ cs ≠ b :: more := by
  obtain ⟨first, others, hfirst⟩ := List.exists_cons_of_ne_nil h.1
  have hbare := h.chars first (hfirst ▸ List.mem_cons_self)
  intro heq
  rw [hfirst, List.cons_append] at heq
  rw [(List.cons.inj heq).1, hb] at hbare
  cases hbare

/-- No blanks are passed over in front of a key without quotes. -/
theorem IsBareKey.skipSpaces_append (h : IsBareKey key) (cs : List Char) :
    skipSpaces (key.toList ++ cs) = key.toList ++ cs := by
  obtain ⟨first, others, hfirst⟩ := List.exists_cons_of_ne_nil h.1
  have hne : ∀ b, isBareChar b = false → first ≠ b := fun b hb heq =>
    h.append_ne hb [] others (by rw [List.append_nil, hfirst, heq])
  have hspace : isSpace first = false := by
    simp [isSpace, hne ' ' (by decide), hne '\t' (by decide)]
  rw [hfirst, List.cons_append, skipSpaces, List.dropWhile_cons_of_neg (by simp [hspace])]

/-- A key is read up to a character that is none of its own, and blanks behind it are dropped. -/
theorem key?_of_bare (hkey : IsBareKey key) (hd : isBareChar d = false)
    (hrest : (skipSpaces (d :: rest)).head? ≠ some '.') :
    key? (key.toList ++ d :: rest) = some ([key], skipSpaces (d :: rest)) := by
  have hsimple : simpleKey? (key.toList ++ d :: rest) = some (key, d :: rest) := by
    have hname : (key.toList ++ d :: rest).takeWhile isBareChar = key.toList := by
      rw [List.takeWhile_append_of_pos hkey.chars, List.takeWhile_cons_of_neg (by simp [hd]),
        List.append_nil]
    have hbehind : (key.toList ++ d :: rest).dropWhile isBareChar = d :: rest := by
      rw [List.dropWhile_append_of_pos hkey.chars, List.dropWhile_cons_of_neg (by simp [hd])]
    have hempty : key.toList.isEmpty = false := by simpa using hkey.1
    rw [simpleKey?.eq_def]
    split
    next heq => exact absurd heq (hkey.append_ne (by decide) _ _)
    next heq => exact absurd heq (hkey.append_ne (by decide) _ _)
    next =>
      rw [hname, hbehind]
      simp [hempty]
  -- there is no dot behind the key, so it has one part
  have hparts : keyParts? ((key.toList ++ d :: rest).length + 1) (key.toList ++ d :: rest)
      = some ([key], skipSpaces (d :: rest)) := by
    rw [keyParts?, hkey.skipSpaces_append, hsimple]
    simp only [Option.bind_eq_bind, Option.bind_some]
    split
    next heq => exact absurd (by rw [heq]; rfl) hrest
    next => rfl
  rw [key?, hparts]
  rfl

/-- A text that writes statements: it is read as them, if no fuel is missing. -/
def Document (text : List Char) (statements : List Statement) : Prop :=
  ∀ fuel, text.length < fuel → statements? fuel text = some statements

/-- Nothing written is nothing read. -/
theorem document_nil : Document [] [] := by
  intro fuel hfuel
  obtain ⟨k, rfl⟩ := Nat.exists_eq_add_of_le' (Nat.one_le_of_lt hfuel)
  rfl

variable {statements : List Statement}

/-- The line of a key and a value, taken apart as the reader takes it. -/
theorem pairLine_append (key : String) (text rest : List Char) :
    pairLine key text ++ rest = key.toList ++ ' ' :: '=' :: ' ' :: (text ++ '\n' :: rest) := by
  have hequals : " = ".toList = [' ', '=', ' '] := rfl
  simp [pairLine, hequals]

/-- A line of a key and a value is read as that, up to the line end. -/
theorem pair?_pairLine (hkey : IsBareKey key) (hv : Writes text v) (rest : List Char) :
    pair? (pairLine key text ++ rest) = some (.pair [key] v, '\n' :: rest) := by
  obtain ⟨c, more, hmore, hc⟩ := hv.opens
  have hread := hv.read (2 * (' ' :: (text ++ '\n' :: rest)).length + 2) rest (by simp; omega)
  have hskip : skipSpaces (' ' :: (text ++ '\n' :: rest)) = text ++ '\n' :: rest := by
    rw [hmore]
    exact hc.skipSpaces _
  have hkeyRead : key? (key.toList ++ ' ' :: '=' :: ' ' :: (text ++ '\n' :: rest))
      = some ([key], '=' :: ' ' :: (text ++ '\n' :: rest)) :=
    key?_of_bare hkey (by decide) (show some '=' ≠ some '.' by decide)
  rw [pairLine_append, pair?, hkeyRead]
  simp only [Option.bind_eq_bind, Option.bind_some, hskip, hread]

theorem endLine?_newline (rest : List Char) : endLine? ('\n' :: rest) = some rest := rfl

/-- A line with a key and a value in front of a document makes one more statement. -/
theorem Document.pairLine (h : Document rest statements) (hkey : IsBareKey key)
    (hv : Writes text v) :
    Document (pairLine key text ++ rest) (.pair [key] v :: statements) := by
  intro fuel hfuel
  obtain ⟨k, rfl⟩ := Nat.exists_eq_add_of_le' (Nat.one_le_of_lt hfuel)
  have hpair := pair?_pairLine hkey hv rest
  have hlater : statements? k rest = some statements := by
    apply h
    simp [Toml.pairLine] at hfuel
    omega
  rw [pairLine_append] at hpair ⊢
  rw [statements?, hkey.skipSpaces_append]
  split
  next heq => exact absurd (List.append_eq_nil_iff.mp heq).1 hkey.1
  -- a comment, two line ends and a header begin with marks that no key has
  iterate 4 next heq => exact absurd heq (hkey.append_ne (by decide) _ _)
  next =>
    rw [hpair]
    simp only [Option.bind_eq_bind, Option.bind_some, endLine?_newline, hlater]

/-- So does the header of a table, with an empty line in front of it. The empty line costs the
reader a step and gives no statement. -/
theorem Document.headerLines (h : Document rest statements) (hkey : IsBareKey key) :
    Document (headerLines key ++ rest) (.header [key] :: statements) := by
  intro fuel hfuel
  have hlength : rest.length + 2 < fuel := by
    simp [Toml.headerLines] at hfuel
    omega
  obtain ⟨k, rfl⟩ := Nat.exists_eq_add_of_le' (show 2 ≤ fuel by omega)
  have hlater : statements? k rest = some statements := h k (by omega)
  have hlines : Toml.headerLines key ++ rest
      = '\n' :: '[' :: (key.toList ++ ']' :: '\n' :: rest) := by
    simp [Toml.headerLines]
  have hkeyRead : key? (key.toList ++ ']' :: '\n' :: rest) = some ([key], ']' :: '\n' :: rest) :=
    key?_of_bare hkey (by decide) (show some ']' ≠ some '.' by decide)
  have hheader : header? (key.toList ++ ']' :: '\n' :: rest)
      = some (.header [key], '\n' :: rest) := by
    rw [header?.eq_def]
    split
    next heq => exact absurd heq (hkey.append_ne (by decide) _ _)
    next =>
      rw [hkeyRead]
      rfl
  -- the empty line in front costs one step
  have hblank : ∀ cs, statements? (k + 2) ('\n' :: cs) = statements? (k + 1) cs := fun cs => rfl
  have hbracket : ∀ cs, skipSpaces ('[' :: cs) = '[' :: cs := fun cs => rfl
  rw [hlines, hblank, statements?, hbracket]
  simp only [hheader, Option.bind_eq_bind, Option.bind_some, endLine?_newline, hlater]

/-- **A document is read as the statements that it writes**, in the order in which it writes them. A
byte order mark in front would be dropped, so it may not begin with one. -/
theorem Document.parse {cs : List Char} (h : Document cs statements)
    (hmark : cs.head? ≠ some '\uFEFF') :
    parse (String.ofList cs) = Members.ofStatements statements := by
  have hskip : skipMark cs = cs := by
    rw [skipMark.eq_def]
    split
    next => exact absurd rfl hmark
    next => rfl
  rw [Toml.parse, String.toList_ofList, hskip, h _ (Nat.lt_succ_self _), Option.bind_some]

end QuotaWatch.Toml
