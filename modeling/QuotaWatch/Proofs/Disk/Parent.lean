import Mathlib.Data.List.TakeWhile
import QuotaWatch.Proofs.Disk.Walk

/-!
# A path and its parent

`Path.parent?` works on the text of a path and drops what does not count: slashes and the name `.`
at the end, before and behind the last name. Seen as names, a path is its parent, its last name, and
any number of `.` around that (`names_of_parent?`). Both start from the same place
(`isAbsolute_parent?`), and so does whatever is joined to a path (`isAbsolute_join`).
-/

namespace QuotaWatch

namespace Path

variable {p parent : Path} {name : String}

/-- Names that all stay where they are. -/
def Stay (names : List String) : Prop := ∀ name ∈ names, name = "."

theorem stay_nil : Stay [] := by simp [Stay]

/-- What is trimmed off the end of a text are slashes and names that stay. Among the names of a path
a slash is nothing, so only the names that stay are seen. -/
theorem names_trimReversed (cs : List Char) :
    ∃ dots, Stay dots ∧ namesOfParts (splitSlashes cs.reverse)
      = namesOfParts (splitSlashes (trimReversed cs).reverse) ++ dots := by
  fun_induction trimReversed cs with
  | case1 => exact ⟨[], stay_nil, (List.append_nil _).symm⟩
  | case2 rest _ ih =>
    obtain ⟨dots, hstay, hnames⟩ := ih
    refine ⟨dots, hstay, ?_⟩
    rw [List.reverse_cons, splitSlashes_append, namesOfParts_append, hnames]
    -- behind the slash stands an empty part
    simp [splitSlashes, namesOfParts]
  -- a slash and a dot in front of it, which is a name that stays
  | case3 rest ih =>
    obtain ⟨dots, hstay, hnames⟩ := ih
    refine ⟨dots ++ ["."], ?_, ?_⟩
    · intro name hmem
      rcases List.mem_append.mp hmem with hmem | hmem
      · exact hstay name hmem
      · exact List.mem_singleton.mp hmem
    · rw [List.reverse_cons, splitSlashes_append, namesOfParts_append] at hnames
      rw [List.reverse_cons, List.reverse_cons, List.append_assoc, List.singleton_append,
        splitSlashes_append, namesOfParts_append, ← List.append_assoc, ← hnames]
      simp [splitSlashes, namesOfParts]
  | case4 cs => exact ⟨[], stay_nil, (List.append_nil _).symm⟩

/-- Trimming keeps the first character of a path, so an absolute path stays absolute. -/
theorem getLast?_trimReversed (cs : List Char) : (trimReversed cs).getLast? = cs.getLast? := by
  fun_induction trimReversed cs with
  | case1 => rfl
  | case2 rest hrest ih =>
    rw [ih]
    cases rest with
    | nil => exact absurd rfl hrest
    | cons c more => simp
  | case3 rest ih => rw [ih]; simp
  | case4 cs => rfl

/-- Trimming takes away at one end only. -/
theorem trimReversed_suffix (cs : List Char) : trimReversed cs <:+ cs := by
  fun_induction trimReversed cs with
  | case1 => exact List.suffix_rfl
  | case2 rest _ ih => exact ih.trans (List.suffix_cons _ _)
  | case3 rest ih => exact ih.trans (List.suffix_cons _ _)
  | case4 cs => exact List.suffix_rfl

/-- A text in reverse is its last name and what is in front of it. -/
theorem reversed_eq (p : Path) :
    p.reversed = p.lastReversed ++ p.reversed.dropWhile (· ≠ '/') :=
  (List.takeWhile_append_dropWhile).symm

/-- No slash stands in the last name. -/
theorem notMem_lastReversed (p : Path) : '/' ∉ p.lastReversed := by
  intro hmem
  exact absurd (List.mem_takeWhile_imp hmem) (by simp)

/-- **A path is its parent and its last name**, with names that stay around it. The parent is taken
from the text and not from the names, so this is where the two views of a path are shown to agree.
-/
theorem names_of_parent? (h : p.parent? = some parent) :
    ∃ before after, Stay before ∧ Stay after
      ∧ p.names = parent.names ++ before ++ String.ofList p.lastReversed.reverse :: after := by
  unfold parent? at h
  split at h
  · cases h
  next hlast =>
    obtain rfl := (Option.some.inj h).symm
    obtain ⟨after, hafter, hnames⟩ := names_trimReversed p.text.toList.reverse
    obtain ⟨before, hbefore, hparent⟩ := names_trimReversed (p.reversed.dropWhile (· ≠ '/'))
    refine ⟨before, after, hbefore, hafter, ?_⟩
    have hnonempty : p.lastReversed.reverse.isEmpty = false := by simpa using hlast
    have hsingle : namesOfParts (splitSlashes p.lastReversed.reverse)
        = [String.ofList p.lastReversed.reverse] := by
      rw [splitSlashes_of_notMem (by simpa using notMem_lastReversed p)]
      simp only [namesOfParts, List.filter_cons, hnonempty, Bool.not_false, if_true,
        List.filter_nil, List.map_cons, List.map_nil]
    -- in front of the last name stands a slash, or nothing
    have hfront : namesOfParts (splitSlashes p.reversed.reverse)
        = namesOfParts (splitSlashes (p.reversed.dropWhile (· ≠ '/')).reverse)
          ++ [String.ofList p.lastReversed.reverse] := by
      rw [show p.reversed.reverse
          = (p.reversed.dropWhile (· ≠ '/')).reverse ++ p.lastReversed.reverse by
        rw [← List.reverse_append, ← reversed_eq]]
      cases hdrop : p.reversed.dropWhile (· ≠ '/') with
      | nil => simpa [splitSlashes, namesOfParts] using hsingle
      | cons c front =>
        have hc : c = '/' := by
          have := List.head?_dropWhile_not (· ≠ '/') p.reversed
          rw [hdrop] at this
          simpa using this
        subst hc
        rw [List.reverse_cons, List.append_assoc, List.singleton_append, splitSlashes_append,
          namesOfParts_append, hsingle, splitSlashes_append, namesOfParts_append]
        simp [splitSlashes, namesOfParts]
    rw [List.reverse_reverse] at hnames
    rw [names_eq, names_eq, hnames]
    show namesOfParts (splitSlashes p.reversed.reverse) ++ after = _
    rw [hfront, hparent]
    simp

/-- The text of a path begins with that of its parent. -/
theorem parent?_prefix (h : p.parent? = some parent) :
    parent.text.toList <+: p.text.toList := by
  unfold parent? at h
  split at h
  · cases h
  · obtain rfl := (Option.some.inj h).symm
    have hfront : p.reversed.dropWhile (· ≠ '/') <:+ p.text.toList.reverse :=
      (List.dropWhile_suffix _).trans (trimReversed_suffix _)
    rw [String.toList_ofList, ← List.reverse_suffix, List.reverse_reverse]
    exact (trimReversed_suffix _).trans hfront

/-! ## Where paths start -/

/-- Whether a path is absolute can be told from its trimmed text. -/
theorem isAbsolute_eq (p : Path) : p.isAbsolute = decide (p.reversed.getLast? = some '/') := by
  rw [isAbsolute, reversed, getLast?_trimReversed, List.getLast?_reverse]

/-- A path and its parent start from the same place. This also holds of a path that is one name: its
parent is empty, and neither of them is absolute. -/
theorem isAbsolute_parent? (h : p.parent? = some parent) : parent.isAbsolute = p.isAbsolute := by
  unfold parent? at h
  split at h
  · cases h
  · obtain rfl := (Option.some.inj h).symm
    rw [isAbsolute_eq p, isAbsolute, String.toList_ofList, List.head?_reverse,
      getLast?_trimReversed]
    rw [show p.reversed.getLast? = ((p.reversed.dropWhile (· ≠ '/')).getLast?).or
        p.lastReversed.getLast? by rw [← List.getLast?_append, ← reversed_eq]]
    cases hdrop : (p.reversed.dropWhile (· ≠ '/')).getLast? with
    | some c => simp
    | none =>
      -- the last name is all there is, and it begins with no slash
      have hnot : p.lastReversed.getLast? ≠ some '/' := fun hlast =>
        notMem_lastReversed p (List.mem_of_getLast? hlast)
      simp [hnot]

/-- What is joined to a path starts where the path does, because a name does not begin with a slash.
-/
theorem isAbsolute_join (p : Path) (h : IsName name) : (p.join name).isAbsolute = p.isAbsolute := by
  have hhead := h.head?_ne
  unfold join
  split
  next hempty =>
    simp only [hhead, decide_false, Bool.false_or, String.isEmpty_iff] at hempty
    simp [isAbsolute, hempty, hhead]
  next hempty =>
    simp only [hhead, decide_false, Bool.false_or, String.isEmpty_iff] at hempty
    have hne : p.text.toList ≠ [] := by simpa using hempty
    obtain ⟨c, rest, htext⟩ := List.exists_cons_of_ne_nil hne
    split <;> simp [isAbsolute, htext]

/-! ## File names -/

/-- A file name is the last name, and there is a parent. So a path that has a file name can be given
another one. -/
theorem isName_of_fileName? (h : p.fileName? = some name) :
    IsName name ∧ name = String.ofList p.lastReversed.reverse
      ∧ ∃ parent, p.parent? = some parent := by
  unfold fileName? at h
  simp only at h
  split at h
  · cases h
  next hother =>
    obtain rfl := (Option.some.inj h).symm
    simp only [Bool.or_eq_true, decide_eq_true_eq, not_or] at hother
    obtain ⟨⟨hempty, hhere⟩, hup⟩ := hother
    -- a name that is not empty and no dots, spelled as a text
    have hof (short : String) (hne : p.lastReversed.reverse ≠ short.toList) :
        String.ofList p.lastReversed.reverse ≠ short := fun heq => hne (by rw [← heq]; simp)
    refine ⟨⟨hof "" (by simpa using hempty), ?_, hof "." hhere, hof ".." hup⟩, rfl, ?_⟩
    · simpa using notMem_lastReversed p
    · unfold parent?
      rw [if_neg (by simpa using hempty)]
      exact ⟨_, rfl⟩

/-- **A file beside a path.** It is looked up where the last name of the path is looked up, or in
the path itself if that has no file name. The ledger's archives are put beside the ledger in this
way. -/
theorem names_withFileName_beside {other : String} (h : IsName other) :
    ∃ init rest, (p.withFileName other).names = init ++ [other]
      ∧ p.names = init ++ rest
      ∧ (rest = [] ∨ ∃ name before after, p.fileName? = some name
          ∧ rest = before ++ name :: after ∧ Stay before ∧ Stay after ∧ IsName name)
      ∧ (p.withFileName other).isAbsolute = p.isAbsolute := by
  cases hfile : p.fileName? with
  -- without a file name the new name is put behind the path
  | none =>
    have hjoin : p.withFileName other = p.join other := by simp [withFileName, hfile]
    exact ⟨p.names, [], by rw [hjoin, names_join p h], by simp, .inl rfl,
      by rw [hjoin, isAbsolute_join p h]⟩
  -- otherwise it takes the place of the old one and of what stays behind it
  | some name =>
    obtain ⟨hname, hlast, parent, hparent⟩ := isName_of_fileName? hfile
    obtain ⟨before, after, hbefore, hafter, hnames⟩ := names_of_parent? hparent
    rw [← hlast, List.append_assoc] at hnames
    refine ⟨parent.names, _, names_withFileName hfile hparent h, hnames,
      .inr ⟨name, before, after, rfl, rfl, hbefore, hafter, hname⟩, ?_⟩
    have hjoin : p.withFileName other = parent.join other := by simp [withFileName, hfile, hparent]
    rw [hjoin, isAbsolute_join parent h, isAbsolute_parent? hparent]

end Path

end QuotaWatch
