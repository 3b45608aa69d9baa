import QuotaWatch.Proofs.Json.Writing

/-!
# Readers and the values they accept

`IsNodeOf n v` says that the node `n` is what is read of a text that writes the value `v`; where its
brackets stand is left open. `Accepts read v a` says that a reader takes `a` from every node of `v`.
The readers for parts of values accept what is written for them, and an object is read by its fields
if each of its members has one that accepts it (`Fills`).

* **`Accepts.run`**: a reader that accepts a value takes the same from every text that writes it.
-/

namespace QuotaWatch.Json

variable {α β : Type} {n : Node} {v : Value} {a : α} {read : Reader α}

/-! ## Nodes of values -/

/-- A node is one of a value. -/
def IsNodeOf (n : Node) (v : Value) : Prop := ∃ depth, n.valueWithin depth = .ok v

/-- The one node of a value without brackets. -/
def Value.leaf? : Value → Option Node
  | .null => some .null
  | .bool b => some (.bool b)
  | .number m => some (.number m)
  | .string s => some (.string s)
  | .array _ => none
  | .object _ => none

/-- A value without brackets has one node only. What is read of such a value is therefore known
without its text. -/
theorem IsNodeOf.eq_leaf {leaf : Node} (h : IsNodeOf n v) (hleaf : v.leaf? = some leaf) :
    n = leaf := by
  obtain ⟨depth, h⟩ := h
  -- a list or an object is the node of no leaf
  cases n with
  | array =>
    obtain ⟨_, _, _, _, _, rfl⟩ := valueWithin_array_ok h
    cases hleaf
  | object =>
    obtain ⟨_, _, _, _, _, rfl⟩ := valueWithin_object_ok h
    cases hleaf
  | unreadable => cases h
  | broken => cases h
  | _ =>
    cases h
    exact Option.some.inj hleaf

theorem stop_of_check {stop : Stop} (h : stop.check = .ok ()) : stop = .closed := by
  cases stop with
  | closed => rfl
  | broken => cases h

/-- The items of an array are nodes of its values, one by one. -/
theorem forall₂_valuesWithin {depth : Nat} : ∀ {nodes : List Node} {vs : List Value},
    valuesWithin depth nodes = .ok vs → List.Forall₂ IsNodeOf nodes vs
  | [], vs, h => by
    cases h
    exact .nil
  | node :: nodes, vs, h => by
    obtain ⟨v, more, hv, hmore, rfl⟩ := valuesWithin_cons_ok h
    exact .cons ⟨depth, hv⟩ (forall₂_valuesWithin hmore)

/-- The members of an object are nodes of its values, under the same keys. -/
theorem forall₂_membersWithin {depth : Nat} :
    ∀ {nodes : List (Except Fault String × Node)} {ms : List (String × Value)},
      membersWithin depth nodes = .ok ms →
        List.Forall₂ (fun node m => node.1 = .ok m.1 ∧ IsNodeOf node.2 m.2) nodes ms
  | [], ms, h => by
    cases h
    exact .nil
  | (key, node) :: nodes, ms, h => by
    obtain ⟨name, v, more, hname, hv, hmore, rfl⟩ := membersWithin_cons_ok h
    exact .cons ⟨hname, depth, hv⟩ (forall₂_membersWithin hmore)

/-- A node of an array has nodes of its items, and its bracket is closed. -/
theorem IsNodeOf.eq_array {vs : List Value} (h : IsNodeOf n (.array vs)) :
    ∃ offset nodes, n = .array offset nodes .closed ∧ List.Forall₂ IsNodeOf nodes vs := by
  obtain ⟨depth, h⟩ := h
  cases n with
  | array offset nodes stop =>
    obtain ⟨k, _, _, hvs, hstop, ⟨⟩⟩ := valueWithin_array_ok h
    rw [stop_of_check hstop]
    exact ⟨offset, nodes, rfl, forall₂_valuesWithin hvs⟩
  | object => obtain ⟨_, _, _, _, _, ⟨⟩⟩ := valueWithin_object_ok h
  | _ => cases h

/-- A node of an object has its keys and nodes of its values, and its bracket is closed. -/
theorem IsNodeOf.eq_object {ms : List (String × Value)} (h : IsNodeOf n (.object ms)) :
    ∃ offset nodes, n = .object offset nodes .closed
      ∧ List.Forall₂ (fun node m => node.1 = .ok m.1 ∧ IsNodeOf node.2 m.2) nodes ms := by
  obtain ⟨depth, h⟩ := h
  cases n with
  | array => obtain ⟨_, _, _, _, _, ⟨⟩⟩ := valueWithin_array_ok h
  | object offset nodes stop =>
    obtain ⟨k, _, _, hms, hstop, ⟨⟩⟩ := valueWithin_object_ok h
    rw [stop_of_check hstop]
    exact ⟨offset, nodes, rfl, forall₂_membersWithin hms⟩
  | _ => cases h

/-! ## Parts of values -/

/-- A reader takes `a` from every node of a value. -/
def Accepts (read : Reader α) (v : Value) (a : α) : Prop := ∀ n, IsNodeOf n v → read n = .ok a

theorem accepts_count (m : UInt64) : Accepts Node.count (.number (.natural m)) m := by
  intro n h
  rw [h.eq_leaf rfl]
  rfl

/-- A byte is accepted from a count below 256, which the count of a byte is. -/
theorem accepts_byte (b : UInt8) : Accepts Node.byte (.number (.natural b.toUInt64)) b := by
  intro n h
  have hlt : b.toUInt64 < 256 := by
    rw [UInt64.lt_iff_toNat_lt, UInt8.toNat_toUInt64]
    exact b.toNat_lt
  rw [h.eq_leaf rfl]
  show (if b.toUInt64 < 256 then Except.ok b.toUInt64.toUInt8 else _) = _
  rw [if_pos hlt, UInt8.toUInt8_toUInt64]

theorem accepts_flag (b : Bool) : Accepts Node.flag (.bool b) b := by
  intro n h
  rw [h.eq_leaf rfl]
  rfl

theorem accepts_text (s : String) : Accepts Node.text (.string s) s := by
  intro n h
  rw [h.eq_leaf rfl]
  rfl

/-- A text that stands for something is accepted as that, if the text of it leads back. -/
theorem accepts_textAs {f : String → Option α} {s : String} (hf : f s = some a) :
    Accepts (Node.textAs f) (.string s) a := by
  intro n h
  rw [h.eq_leaf rfl]
  simp [Node.textAs, Node.text, hf, bind, Except.bind]

theorem Accepts.map {f : α → β} (h : Accepts read v a) :
    Accepts (fun n => (read n).map f) v (f a) := by
  intro n hn
  show (read n).map f = _
  rw [h n hn]
  rfl

/-- A value that may be missing is accepted as one that is there, unless it is null. -/
theorem Accepts.optional (h : Accepts read v a) (hv : v ≠ .null) :
    Accepts (Node.optional read) v (some a) := by
  intro n hn
  -- only the word null is taken for nothing
  have hnull : n ≠ .null := by
    rintro rfl
    obtain ⟨depth, hn⟩ := hn
    cases hn
    exact hv rfl
  unfold Node.optional
  split
  · exact absurd rfl hnull
  · rw [h n hn]
    rfl

/-- Null is accepted as an absent value. -/
theorem accepts_null : Accepts (Node.optional read) .null none := by
  intro n h
  rw [h.eq_leaf rfl]
  rfl

/-- A list is read if each of its items is. -/
theorem mapM_ok_of_forall₂ {γ : Type} {f : γ → Except Category β} {xs : List γ} {bs : List β}
    (h : List.Forall₂ (fun x b => f x = .ok b) xs bs) : xs.mapM f = .ok bs := by
  induction h with
  | nil => rfl
  | cons hfirst _ ih => simp [hfirst, ih, bind, Except.bind, pure, Except.pure]

/-- A list is accepted from the array of its items. -/
theorem accepts_list {toJson : α → Value} (h : ∀ a, Accepts read (toJson a) a) (as : List α) :
    Accepts (Node.list read) (.array (as.map toJson)) as := by
  intro n hn
  obtain ⟨offset, nodes, rfl, hnodes⟩ := hn.eq_array
  have hread : nodes.mapM read = .ok as :=
    mapM_ok_of_forall₂ ((List.forall₂_map_right_iff.mp hnodes).imp fun node a => h a node)
  simp [Node.list, hread, Stop.want, bind, Except.bind]

/-- Entries under names of their own are accepted from an object, in the order in which they stand.
-/
theorem accepts_entries {toJson : α → Value} (h : ∀ a, Accepts read (toJson a) a)
    (entries : List (String × α)) :
    Accepts (Node.entries read) (.object (entries.map fun e => (e.1, toJson e.2))) entries := by
  intro n hn
  obtain ⟨offset, nodes, rfl, hnodes⟩ := hn.eq_object
  simp only [Node.entries]
  rw [mapM_ok_of_forall₂ ((List.forall₂_map_right_iff.mp hnodes).imp fun node e hnode => ?_)]
  · rfl
  · obtain ⟨hkey, hvalue⟩ := hnode
    simp [hkey, h _ _ hvalue, bind, Except.bind]

/-! ## Objects with known members -/

variable {fields : List Field} {ms : List (String × Value)} {name : String} {found : Found}

/-- The members of an object, in the order of their fields. A field may have none. -/
inductive Fills : List Field → List (String × Value) → Prop where
  | nil : Fills [] []
  | member {α : Type} {name : String} {read : Reader α} {v : Value} {a : α} {fields : List Field}
      {ms : List (String × Value)} (h : Accepts read v a) (rest : Fills fields ms) :
      Fills (Field.of name read :: fields) ((name, v) :: ms)
  | skipped {field : Field} {fields : List Field} {ms : List (String × Value)}
      (rest : Fills fields ms) : Fills (field :: fields) ms

/-- Members stand in the order of their fields. So no name stands twice if no field does. -/
theorem Fills.sublist (h : Fills fields ms) :
    (ms.map Prod.fst).Sublist (fields.map Field.name) := by
  induction h with
  | nil => exact .slnil
  | member _ _ ih => exact ih.cons_cons _
  | skipped _ ih => exact .cons _ ih

/-- Each member has a field that lets it pass, and it is the first field of its name. -/
theorem Fills.field (h : Fills fields ms) (hnames : (fields.map Field.name).Nodup) :
    ∀ m ∈ ms, ∃ field, fields.find? (fun f => f.name = m.1) = some field
      ∧ ∀ n, IsNodeOf n m.2 → field.check n = .ok () := by
  induction h with
  | nil => simp
  | @member _ name read v a fields ms haccepts hrest ih =>
    obtain ⟨hfresh, hnames⟩ := List.nodup_cons.mp hnames
    refine List.forall_mem_cons.mpr ⟨?_, fun m hm => ?_⟩
    · exact ⟨_, List.find?_cons_of_pos (by simp [Field.of]), haccepts.map⟩
    · obtain ⟨field, hfield, hcheck⟩ := ih hnames m hm
      -- names are different, so the first field is passed over
      have hne : name ≠ m.1 := by
        intro heq
        exact hfresh (heq ▸ hrest.sublist.subset (List.mem_map_of_mem hm))
      exact ⟨field, by rw [List.find?_cons_of_neg (by simp [Field.of, hne]), hfield], hcheck⟩
  | @skipped field fields ms hrest ih =>
    obtain ⟨hfresh, hnames⟩ := List.nodup_cons.mp hnames
    intro m hm
    obtain ⟨other, hother, hcheck⟩ := ih hnames m hm
    have hne : field.name ≠ m.1 := by
      intro heq
      exact hfresh (heq ▸ hrest.sublist.subset (List.mem_map_of_mem hm))
    exact ⟨other, by rw [List.find?_cons_of_neg (by simpa using hne), hother], hcheck⟩

/-- What was found are nodes of some members. -/
structure Holding (found : Found) (ms : List (String × Value)) : Prop where
  has : ∀ m ∈ ms, ∃ n, found.get? m.1 = some n ∧ IsNodeOf n m.2
  only : ∀ name, name ∉ ms.map Prod.fst → found.get? name = none

/-- A member that has to be there is read from what was found. -/
theorem Holding.need (h : Holding found ms) (hm : (name, v) ∈ ms) (haccepts : Accepts read v a) :
    found.need name read = .ok a := by
  obtain ⟨n, hn, hnode⟩ := h.has _ hm
  rw [Found.need, hn]
  exact haccepts n hnode

/-- A member that is there is read, whatever would stand in for it. -/
theorem Holding.getOr (h : Holding found ms) (hm : (name, v) ∈ ms) (haccepts : Accepts read v a)
    (default : α) : found.getOr name read default = .ok a := by
  obtain ⟨n, hn, hnode⟩ := h.has _ hm
  rw [Found.getOr, hn]
  exact haccepts n hnode

/-- For a member that is not there its default stands in. -/
theorem Holding.getOr_missing (h : Holding found ms) (hm : name ∉ ms.map Prod.fst) (default : α) :
    found.getOr name read default = .ok default := by
  rw [Found.getOr, h.only name hm]

theorem get?_cons (name key : String) (n : Node) (found : Found) :
    Found.get? ((key, n) :: found) name = if key = name then some n else found.get? name := by
  by_cases h : key = name
  · simp [Found.get?, h]
  · simp [Found.get?, h]

/-- One more member is found, with a name that was not there before. -/
theorem Holding.concat {m : String × Value} (h : Holding found ms) (hfresh : m.1 ∉ ms.map Prod.fst)
    (hnode : IsNodeOf n m.2) : Holding ((m.1, n) :: found) (ms ++ [m]) where
  has := by
    intro other hother
    rcases List.mem_append.mp hother with hother | hother
    · obtain ⟨node, hget, hof⟩ := h.has other hother
      have hne : m.1 ≠ other.1 := fun heq => hfresh (heq ▸ List.mem_map_of_mem hother)
      exact ⟨node, by rw [get?_cons, if_neg hne, hget], hof⟩
    · obtain rfl : other = m := by simpa using hother
      exact ⟨n, by rw [get?_cons, if_pos rfl], hnode⟩
  only := by
    intro name hname
    obtain ⟨hbefore, hne⟩ : name ∉ ms.map Prod.fst ∧ name ≠ m.1 := by
      simpa only [List.map_append, List.mem_append, List.map_cons, List.map_nil,
        List.mem_singleton, not_or] using hname
    rw [get?_cons, if_neg hne.symm, h.only name hbefore]

/-- Members are found one after another, those found before included. The induction carries what was
found so far as `Holding`, and a member is new because no key stands twice. -/
theorem findMembers_ok {nodes : List (Except Fault String × Node)} {before : List (String × Value)}
    (hnodes : List.Forall₂ (fun node m => node.1 = .ok m.1 ∧ IsNodeOf node.2 m.2) nodes ms)
    (hfields : ∀ m ∈ ms, ∃ field, fields.find? (fun f => f.name = m.1) = some field
      ∧ ∀ n, IsNodeOf n m.2 → field.check n = .ok ())
    (hkeys : ((before ++ ms).map Prod.fst).Nodup) (hfound : Holding found before) :
    ∃ found', findMembers fields found nodes = .ok found' ∧ Holding found' (before ++ ms) := by
  induction hnodes generalizing before found with
  | nil => exact ⟨found, rfl, by simpa using hfound⟩
  | @cons node m nodes ms hfirst _ ih =>
    obtain ⟨key, n⟩ := node
    obtain ⟨rfl, hnode⟩ : key = .ok m.1 ∧ IsNodeOf n m.2 := hfirst
    obtain ⟨field, hfield, hcheck⟩ := hfields m List.mem_cons_self
    have hsplit : before ++ m :: ms = (before ++ [m]) ++ ms := by simp
    rw [hsplit] at hkeys ⊢
    -- the keys are distinct, so a member is none of those found before
    have hfresh : m.1 ∉ before.map Prod.fst := by
      have hfront := (List.nodup_append.mp (by simpa using hkeys)).2.2
      intro hmem
      obtain ⟨other, hother, heq⟩ := List.mem_map.mp hmem
      exact hfront m.1 (by simpa using ⟨other.2, heq ▸ hother⟩) m.1 (by simp) rfl
    obtain ⟨found', hread, hholding⟩ := ih
      (fun other hother => hfields other (List.mem_cons_of_mem m hother)) hkeys
      (hfound.concat hfresh hnode)
    refine ⟨found', ?_, hholding⟩
    simp only [findMembers, except_mapError_ok, hfield, bind, Except.bind, hfound.only m.1 hfresh,
      hcheck n hnode, hread]
    rfl

/-- **An object whose members fill the fields is read by them**, and what is found are its members.
A reader of a type starts with this, and then takes each part from what was found. -/
theorem Fills.reads (h : Fills fields ms) (hnames : (fields.map Field.name).Nodup)
    (mayBePartial : Bool) (hn : IsNodeOf n (.object ms)) :
    ∃ found, n.fields mayBePartial fields = .ok found ∧ Holding found ms := by
  obtain ⟨offset, nodes, rfl, hnodes⟩ := hn.eq_object
  have hnothing : Holding [] [] := ⟨by simp, fun _ _ => rfl⟩
  obtain ⟨found, hread, hholding⟩ := findMembers_ok hnodes (h.field hnames)
    (by simpa using hnames.sublist h.sublist) hnothing
  exact ⟨found, by simp [Node.fields, hread, Stop.want, bind, Except.bind], by simpa using hholding⟩

/-! ## What is found -/

/-- The part of an object with a given name, or of an array at a given position. -/
def Node.part? (name : String) (position : Nat) : Node → Option Node
  | .object _ members _ => (members.find? fun m => m.1.toOption = some name).map (·.2)
  | .array _ items _ => items[position]?
  | _ => none

variable {found' : Found}

/-- What is found under the name of a field is the first member with this name. A second one would
have been refused. -/
theorem get?_of_findMembers (hname : ∃ field ∈ fields, field.name = name) :
    ∀ {nodes : List (Except Fault String × Node)} {found : Found},
      findMembers fields found nodes = .ok found' →
        found'.get? name = (found.get? name).or
          ((nodes.find? fun m => m.1.toOption = some name).map (·.2))
  | [], found, h => by
    cases h
    simp
  | (key, n) :: rest, found, h => by
    rw [findMembers, except_bind_ok_iff] at h
    obtain ⟨key, hkey, h⟩ := h
    obtain rfl := except_mapError_ok_iff.mp hkey
    rw [List.find?_cons]
    split at h
    -- a member without a field is checked and passed over
    next hnone =>
      have hne : key ≠ name := by
        rintro rfl
        obtain ⟨field, hfield, heq⟩ := hname
        exact List.find?_eq_none.mp hnone field hfield (by simp [heq])
      obtain ⟨_, _, h⟩ := except_bind_ok_iff.mp h
      rw [get?_of_findMembers hname h]
      simp [Except.toOption, hne]
    next hsome =>
      split at h
      next => cases h
      next hfresh =>
        obtain ⟨_, _, h⟩ := except_bind_ok_iff.mp h
        rw [get?_of_findMembers hname h, get?_cons]
        -- a member with a field is kept, and a second one would be an error
        by_cases heq : key = name
        · subst heq
          rw [Option.not_isSome_iff_eq_none.mp hfresh]
          simp [Except.toOption]
        · simp [Except.toOption, heq]


/-- Items of an array are found under the names of other fields only. -/
theorem get?_of_findItems_ne {stop : Stop} :
    ∀ {fields : List Field} {items : List Node} {found : Found},
      findItems stop found fields items = .ok found' → (∀ field ∈ fields, field.name ≠ name) →
        found'.get? name = found.get? name
  | [], [], found, h, _ => by
    obtain ⟨_, _, h⟩ := except_bind_ok_iff.mp h
    cases h
    rfl
  | [], _ :: _, found, h, _ => by cases h
  | _ :: _, [], found, h, _ => by
    obtain ⟨_, _, h⟩ := except_bind_ok_iff.mp h
    cases h
    rfl
  | field :: fields, n :: rest, found, h, hname => by
    obtain ⟨hne, hname⟩ := List.forall_mem_cons.mp hname
    obtain ⟨_, _, h⟩ := except_bind_ok_iff.mp h
    rw [get?_of_findItems_ne h hname, get?_cons, if_neg hne]

/-- What is found under the name of a field is the item at the position of the field. A type with
named fields is also read from an array, and there the position stands in for the name. -/
theorem get?_of_findItems {stop : Stop} :
    ∀ {fields : List Field} {items : List Node} {found : Found} {i : Nat} {field : Field},
      findItems stop found fields items = .ok found' → (fields.map Field.name).Nodup →
        (∀ field ∈ fields, found.get? field.name = none) → fields[i]? = some field →
          found'.get? field.name = items[i]?
  | [], _, found, i, field, _, _, _, hi => by simp at hi
  | _ :: _, [], found, i, field, h, _, hfresh, hi => by
    obtain ⟨_, _, h⟩ := except_bind_ok_iff.mp h
    cases h
    simpa using hfresh field (List.mem_of_getElem? hi)
  | first :: fields, n :: rest, found, i, field, h, hnames, hfresh, hi => by
    obtain ⟨hfirst, hnames⟩ := List.nodup_cons.mp hnames
    have hne : ∀ other ∈ fields, other.name ≠ first.name := fun other hother heq =>
      hfirst (heq ▸ List.mem_map_of_mem hother)
    obtain ⟨_, _, h⟩ := except_bind_ok_iff.mp h
    -- a part behind the first is not found under the name of the first
    cases i with
    | zero =>
      obtain rfl : first = field := by simpa using hi
      rw [get?_of_findItems_ne h hne, get?_cons, if_pos rfl, List.getElem?_cons_zero]
    | succ i =>
      rw [List.getElem?_cons_succ]
      refine get?_of_findItems h hnames (fun other hother => ?_) hi
      rw [get?_cons, if_neg (hne other hother).symm]
      exact hfresh other (List.mem_cons_of_mem _ hother)

/-- **What is found under the name of a field is the part that stands there**, by name in an object
and by position in an array. -/
theorem get?_of_fields {mayBePartial : Bool} {field : Field} {i : Nat}
    (h : n.fields mayBePartial fields = .ok found) (hnames : (fields.map Field.name).Nodup)
    (hi : fields[i]? = some field) : found.get? field.name = n.part? field.name i := by
  cases n with
  -- by name in an object, by place in an array
  | object offset members stop =>
    obtain ⟨found', hmembers, h⟩ := except_bind_ok_iff.mp h
    obtain ⟨_, _, h⟩ := except_bind_ok_iff.mp h
    cases h
    rw [get?_of_findMembers ⟨field, List.mem_of_getElem? hi, rfl⟩ hmembers]
    rfl
  | array offset items stop =>
    obtain ⟨found', hitems, h⟩ := except_bind_ok_iff.mp h
    split at h
    next =>
      cases h
      exact get?_of_findItems hitems hnames (fun _ _ => rfl) hi
    next => cases h
  | _ => cases h

/-! ## Texts -/

/-- A text that writes a value is read as a node of it, with nothing behind. -/
theorem read_of_writes {text : Bytes} (h : Writes text v) :
    IsNodeOf (Document.read text).root v ∧ (Document.read text).surplus = none := by
  have hparse := parse_ok_iff.mpr h
  simp only [Value.parse, except_bind_ok_iff] at hparse
  obtain ⟨value, hvalue, hend⟩ := hparse
  split at hend
  · cases hend
  next hnone =>
    cases hend
    exact ⟨⟨_, hvalue⟩, hnone⟩

/-- A text is read if its root is and nothing stands behind. The root comes first, so its fault is
the one that is reported. -/
theorem run_ok_iff {text : Bytes} :
    Reader.run read text = .ok a
      ↔ read (Document.read text).root = .ok a ∧ (Document.read text).surplus = none := by
  simp only [Reader.run, except_bind_ok_iff]
  cases (Document.read text).surplus <;> simp

/-- **A reader takes the same from every text that writes a value it accepts**, however the text is
laid out. -/
theorem Accepts.run {text : Bytes} (h : Accepts read v a) (htext : Writes text v) :
    Reader.run read text = .ok a := by
  obtain ⟨hnode, hsurplus⟩ := read_of_writes htext
  exact run_ok_iff.mpr ⟨h _ hnode, hsurplus⟩

end QuotaWatch.Json
