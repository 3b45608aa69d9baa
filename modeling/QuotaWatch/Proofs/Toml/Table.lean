import Mathlib.Data.List.Nodup
import QuotaWatch.Toml.Table

/-!
# The tables of a document with one level of headers

* **`ofStatements_sections`**: pairs, and then headers with pairs of their own, make a table of just
  these members, as long as no key is given twice.

The reader keeps what is finished, the header it is under and the members of the current table.
`foldlM_take_pairs` says what pairs do to these, `foldlM_take_sections` what whole sections do.
-/

namespace QuotaWatch.Toml

variable {members pairs root : Members} {key name : String} {v : Value} {a : Assembly}

def keysOf (members : Members) : List String := members.map Prod.fst

/-- What is not among the keys is not found. -/
theorem get?_of_not_mem (h : key ∉ keysOf members) : Members.get? members key = none := by
  rw [Members.get?, Option.map_eq_none_iff, List.find?_eq_none]
  intro m hm hkey
  exact h (List.mem_map.mpr ⟨m, hm, by simpa using hkey⟩)

/-- Where no key is given twice, the key of a member is not among those in front of it. -/
theorem not_mem_of_nodup (h : (keysOf (members ++ (key, v) :: pairs)).Nodup) :
    key ∉ keysOf members := by
  intro hmem
  rw [keysOf, List.map_append, List.nodup_append] at h
  exact h.2.2 key hmem key List.mem_cons_self rfl

/-- A key that is new is added behind the others, however its table came about. -/
theorem addMember_of_not_mem (h : key ∉ keysOf members) (style : Style) :
    addMember key v style members = some (members ++ [(key, v)]) := by
  rw [addMember, get?_of_not_mem h]

/-! ## Pairs -/

def pairStatements (members : Members) : List Statement :=
  members.map fun m => .pair [m.1] m.2

/-- A pair with a new key goes to the end of the current table. -/
theorem take_pair (h : key ∉ keysOf a.members) :
    a.take (.pair [key] v) = some { a with members := a.members ++ [(key, v)] } := by
  have hdefine : a.members.define [key] v = some (a.members ++ [(key, v)]) :=
    addMember_of_not_mem h .header
  rw [Assembly.take, hdefine]
  rfl

/-- Pairs with new keys fill the current table. Induction on the pairs, with the table as far as it
has got. -/
theorem foldlM_take_pairs (pairs : Members) {a : Assembly}
    (hnodup : (keysOf (a.members ++ pairs)).Nodup) :
    (pairStatements pairs).foldlM Assembly.take a
      = some { a with members := a.members ++ pairs } := by
  -- the current table grows key by key
  induction pairs generalizing a with
  | nil =>
    rw [List.append_nil]
    rfl
  | cons pair pairs ih =>
    obtain ⟨key, v⟩ := pair
    have hfree : key ∉ keysOf a.members := not_mem_of_nodup hnodup
    have hsplit : a.members ++ (key, v) :: pairs = a.members ++ [(key, v)] ++ pairs := by simp
    rw [hsplit] at hnodup ⊢
    have hlater := @ih { a with members := a.members ++ [(key, v)] } hnodup
    show (a.take (.pair [key] v)).bind ((pairStatements pairs).foldlM Assembly.take) = _
    rw [take_pair hfree, Option.bind_some, hlater]

/-! ## Sections -/

/-- A section of a document: its name and its members. -/
abbrev Section := String × Members

def sectionStatements (s : Section) : List Statement := .header [s.1] :: pairStatements s.2

def sectionMember (s : Section) : String × Value := (s.1, .table .header s.2)

/-- The header of a new table finishes the current one and opens another, which is empty. -/
theorem take_header (hfinish : a.finish = some root) (hfree : name ∉ keysOf root) :
    a.take (.header [name]) = some ⟨root, some ([name], false), []⟩ := by
  have hnone := get?_of_not_mem hfree
  have hlookup : lookupPath [name] root = none := by
    rw [lookupPath, hnone]
  have himplied : atHeader [name] takeImplied root = some root := by
    show takeImplied name .header root = some root
    rw [takeImplied, hnone]
  rw [Assembly.take, hfinish]
  simp only [Option.bind_eq_bind, Option.bind_some, hlookup, himplied, Option.getD_none]

/-- A section that is finished is one more member of the whole. -/
theorem finish_section (hfree : name ∉ keysOf root) (members : Members) :
    Assembly.finish ⟨root, some ([name], false), members⟩
      = some (root ++ [(name, .table .header members)]) :=
  addMember_of_not_mem hfree .header

/-- What is finished stays in front, and every section adds one member. Induction on the sections;
the names that are taken are those of what is finished. -/
theorem foldlM_take_sections (sections : List Section) {a : Assembly} {done : Members}
    (hfinish : a.finish = some done) (hnodup : (keysOf (done ++ sections.map sectionMember)).Nodup)
    (hsections : ∀ s ∈ sections, (keysOf s.2).Nodup) :
    ((sections.flatMap sectionStatements).foldlM Assembly.take a).bind Assembly.finish
      = some (done ++ sections.map sectionMember) := by
  induction sections generalizing a done with
  | nil => simpa using hfinish
  | cons s sections ih =>
    obtain ⟨name, members⟩ := s
    have hfree : name ∉ keysOf done := not_mem_of_nodup hnodup
    have hmembers : (keysOf members).Nodup := hsections _ List.mem_cons_self
    have hpairs : (pairStatements members).foldlM Assembly.take ⟨done, some ([name], false), []⟩
        = some ⟨done, some ([name], false), members⟩ := foldlM_take_pairs members hmembers
    have hdone : done ++ (sectionMember (name, members) :: sections.map sectionMember)
        = done ++ [(name, .table .header members)] ++ sections.map sectionMember := by
      simp [sectionMember]
    rw [List.map_cons, hdone] at hnodup ⊢
    -- the header opens the section, its pairs fill it, and the next header finishes it
    rw [List.flatMap_cons, sectionStatements, List.foldlM_append, List.foldlM_cons,
      take_header hfinish hfree, Option.bind_eq_bind, Option.bind_some, hpairs,
      Option.bind_some]
    exact ih (finish_section hfree members) hnodup fun s hs =>
      hsections s (List.mem_cons_of_mem _ hs)

/-- **Pairs and sections make a table of their members.** -/
theorem ofStatements_sections {sections : List Section}
    (hnodup : (keysOf (root ++ sections.map sectionMember)).Nodup)
    (hsections : ∀ s ∈ sections, (keysOf s.2).Nodup) :
    Members.ofStatements (pairStatements root ++ sections.flatMap sectionStatements)
      = some (root ++ sections.map sectionMember) := by
  have hroot : (keysOf root).Nodup := by
    rw [keysOf, List.map_append] at hnodup
    exact (List.nodup_append.mp hnodup).1
  have hpairs : (pairStatements root).foldlM Assembly.take .start = some ⟨[], none, root⟩ :=
    foldlM_take_pairs root hroot
  rw [Members.ofStatements, List.foldlM_append, hpairs, Option.bind_eq_bind, Option.bind_some]
  exact foldlM_take_sections sections rfl hnodup hsections

end QuotaWatch.Toml
