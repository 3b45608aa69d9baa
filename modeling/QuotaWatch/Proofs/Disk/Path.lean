import QuotaWatch.Disk.Path

/-!
# The names of a path

`Path.names` splits a path at its slashes; `Path.join`, `Path.fileName?` and `Path.withFileName`
work on its text. The two views meet here. A `Path.IsName` is a text that stands for one name;
joining it adds it at the end of the names (`names_join`). The other way round, a path that ends in
a name has that name as its file name, and `Path.withFileName` puts another one in its place
(`names_withFileName`).
-/

namespace QuotaWatch

namespace Path

/-! ## Splitting at slashes -/

/-- There is always a part, if only an empty one. -/
theorem splitSlashes_ne_nil (cs : List Char) : splitSlashes cs ≠ [] := by
  cases cs with
  | nil => simp [splitSlashes]
  | cons c rest =>
    rw [splitSlashes]
    split
    · simp
    · split <;> simp

/-- A text without slashes is a single part. -/
theorem splitSlashes_of_notMem {cs : List Char} (h : '/' ∉ cs) : splitSlashes cs = [cs] := by
  induction cs with
  | nil => rfl
  | cons c rest ih =>
    have hc : c ≠ '/' := fun heq => h (heq ▸ List.mem_cons_self)
    rw [splitSlashes, ih fun hmem => h (List.mem_cons_of_mem _ hmem)]
    simp [hc]

/-- What stands before and behind a slash is split on its own. -/
theorem splitSlashes_append (a b : List Char) :
    splitSlashes (a ++ '/' :: b) = splitSlashes a ++ splitSlashes b := by
  induction a with
  | nil =>
    cases hb : splitSlashes b with
    | nil => exact absurd hb (splitSlashes_ne_nil b)
    | cons part parts => simp [splitSlashes, hb]
  | cons c rest ih =>
    rw [List.cons_append, splitSlashes, ih, splitSlashes]
    cases hrest : splitSlashes rest with
    | nil => exact absurd hrest (splitSlashes_ne_nil rest)
    | cons part parts =>
      by_cases hc : c = '/' <;> simp [hc]

/-! ## Names -/

/-- A text that stands for one name of a path, and not for a way to stay or go up. -/
structure IsName (name : String) : Prop where
  nonempty : name ≠ ""
  noSlash : '/' ∉ name.toList
  ne_here : name ≠ "."
  ne_up : name ≠ ".."

/-- The names of a list of parts. -/
def namesOfParts (parts : List (List Char)) : List String :=
  (parts.filter fun part => !part.isEmpty).map String.ofList

/-- The names of a path are its parts that are not empty. -/
theorem names_eq (p : Path) : p.names = namesOfParts (splitSlashes p.text.toList) := rfl

@[simp]
theorem namesOfParts_append (a b : List (List Char)) :
    namesOfParts (a ++ b) = namesOfParts a ++ namesOfParts b := by
  simp [namesOfParts]

theorem IsName.toList_ne_nil {name : String} (h : IsName name) : name.toList ≠ [] := by
  simpa using h.nonempty

/-- A name that is a part is one name. -/
theorem IsName.namesOfParts {name : String} (h : IsName name) :
    Path.namesOfParts [name.toList] = [name] := by
  have hne : name.toList.isEmpty = false := by
    simpa using h.nonempty
  simp [Path.namesOfParts, hne]

theorem IsName.head?_ne {name : String} (h : IsName name) : name.toList.head? ≠ some '/' := by
  intro hhead
  exact h.noSlash (List.mem_of_mem_head? hhead)

/-- What ends in more than two characters without a slash is a name. This is how a name for an
archive is known to be one, whatever it begins with. -/
theorem IsName.append {name suffix : String} (hslash : '/' ∉ name.toList)
    (hsuffix : '/' ∉ suffix.toList) (hlen : 2 < suffix.toList.length) :
    IsName (name ++ suffix) := by
  have hlong : 2 < (name ++ suffix).toList.length := by
    simp only [String.toList_append, List.length_append]
    omega
  -- the three texts without a slash that are no names are short
  have hne : ∀ short : String, short.toList.length ≤ 2 → name ++ suffix ≠ short := by
    rintro short hshort heq
    rw [heq] at hlong
    omega
  have hnot : '/' ∉ (name ++ suffix).toList := by
    simp only [String.toList_append, List.mem_append, not_or]
    exact ⟨hslash, hsuffix⟩
  exact ⟨hne "" (by decide), hnot, hne "." (by decide), hne ".." (by decide)⟩

/-- **A joined name is the last one.** Whether a slash is put in between depends on the text, and
never on more than that. -/
theorem names_join (p : Path) {name : String} (h : IsName name) :
    (p.join name).names = p.names ++ [name] := by
  have hhead : (name.toList.head? = some '/') = False := eq_false h.head?_ne
  unfold join
  split
  next hempty =>
    -- only an empty path is left out, for a name does not begin with a slash
    simp only [hhead, decide_false, Bool.false_or, String.isEmpty_iff] at hempty
    simp only [names_eq, hempty, splitSlashes_of_notMem h.noSlash]
    simpa [splitSlashes, Path.namesOfParts] using h.namesOfParts
  next =>
    split
    next hslash =>
      -- between the two slashes that meet here stands an empty part, which does not count
      obtain ⟨init, hinit⟩ : ∃ init, p.text.toList = init ++ ['/'] := by
        simpa [endsWithSlash, List.getLast?_eq_some_iff] using hslash
      simp only [names_eq, String.toList_append, hinit, List.append_assoc, List.singleton_append]
      rw [splitSlashes_append, splitSlashes_append, splitSlashes_of_notMem h.noSlash,
        namesOfParts_append, namesOfParts_append, h.namesOfParts]
      simp [splitSlashes, Path.namesOfParts]
    next =>
      simp only [names_eq, String.toList_append]
      rw [show p.text.toList ++ "/".toList ++ name.toList = p.text.toList ++ '/' :: name.toList by
        simp]
      rw [splitSlashes_append, splitSlashes_of_notMem h.noSlash, namesOfParts_append,
        h.namesOfParts]

/-- A path that a name is joined to has no slash at its end. -/
theorem endsWithSlash_join (p : Path) {name : String} (h : IsName name) :
    (p.join name).endsWithSlash = false := by
  -- however the name is joined, it comes last
  obtain ⟨pre, hpre⟩ : ∃ pre, (p.join name).text.toList = pre ++ name.toList := by
    unfold join
    split
    · exact ⟨[], rfl⟩
    · split
      · exact ⟨p.text.toList, by simp⟩
      · exact ⟨p.text.toList ++ ['/'], by simp⟩
  have hlast : (p.join name).text.toList.getLast? = some (name.toList.getLast h.toList_ne_nil) := by
    rw [hpre, List.getLast?_append, List.getLast?_eq_some_getLast h.toList_ne_nil, Option.some_or]
  rw [endsWithSlash, hlast, decide_eq_false_iff_not, Option.some.injEq]
  exact fun heq => h.noSlash (heq ▸ List.getLast_mem h.toList_ne_nil)

/-! ## The last name -/

/-- A text is split behind its last slash. -/
theorem exists_last_part (cs : List Char) :
    ∃ pre part, cs = pre ++ part ∧ '/' ∉ part ∧ (pre = [] ∨ ∃ init, pre = init ++ ['/']) := by
  induction cs with
  | nil => exact ⟨[], [], rfl, by simp, .inl rfl⟩
  | cons c rest ih =>
    obtain ⟨pre, part, hcat, hnot, hpre | ⟨init, hpre⟩⟩ := ih
    · -- with no slash behind it the character is the last slash or a part of the name
      by_cases hc : c = '/'
      · exact ⟨[c], part, by simp [hcat, hpre], hnot, .inr ⟨[], by simp [hc]⟩⟩
      · refine ⟨[], c :: part, by simp [hcat, hpre], ?_, .inl rfl⟩
        simp only [List.mem_cons, not_or]
        exact ⟨Ne.symm hc, hnot⟩
    · exact ⟨c :: pre, part, by simp [hcat], hnot, .inr ⟨c :: init, by simp [hpre]⟩⟩

/-- Nothing is trimmed off a name, except for the name that stays. -/
theorem trimReversed_of_name {part rest : List Char} (hpart : part ≠ []) (hnot : '/' ∉ part)
    (hdot : part ≠ ['.']) : trimReversed (part ++ rest) = part ++ rest := by
  match part, hpart with
  | c :: tail, _ =>
    have hc : c ≠ '/' := fun heq => hnot (heq ▸ List.mem_cons_self)
    -- a dot is dropped only if nothing but slashes stand on both sides
    by_cases hcdot : c = '.'
    · subst hcdot
      match tail with
      | [] => exact absurd rfl hdot
      | x :: more =>
        have hx : x ≠ '/' := fun heq => hnot (heq ▸ List.mem_cons_of_mem _ List.mem_cons_self)
        simp [trimReversed, hx]
    · simp [trimReversed, hc, hcdot]

/-- **The last name of a path.** A path that ends in a name, without a slash behind it, has that
name as its file name. -/
theorem names_of_endsInName {p : Path} (hslash : p.endsWithSlash = false)
    (hends : p.endsInName = true) :
    ∃ init name, p.names = init ++ [name] ∧ IsName name ∧ p.fileName? = some name
      ∧ ∃ parent, p.parent? = some parent := by
  obtain ⟨pre, part, hcat, hnot, hpre⟩ := exists_last_part p.text.toList
  -- a last part that is empty would be a slash at the end, or an empty path
  have hpart : part ≠ [] := by
    rintro rfl
    rcases hpre with rfl | ⟨init, rfl⟩
    · simp [endsInName, names_eq, hcat, splitSlashes, namesOfParts] at hends
    · simp [endsWithSlash, hcat] at hslash
  have hne : (String.ofList part) ≠ "" := by simpa using hpart
  obtain ⟨init, hnames⟩ : ∃ init, p.names = init ++ [String.ofList part] := by
    have hsingle : namesOfParts [part] = [String.ofList part] := by simp [namesOfParts, hpart]
    rcases hpre with rfl | ⟨init, rfl⟩
    · refine ⟨[], ?_⟩
      rw [names_eq, hcat, List.nil_append, splitSlashes_of_notMem hnot, hsingle, List.nil_append]
    · refine ⟨namesOfParts (splitSlashes init), ?_⟩
      rw [names_eq, hcat, List.append_assoc, List.singleton_append, splitSlashes_append,
        namesOfParts_append, splitSlashes_of_notMem hnot, hsingle]
  have hname : IsName (String.ofList part) := by
    simp only [endsInName, hnames, List.getLast?_append, List.getLast?_singleton, Option.some_or,
      Bool.and_eq_true, decide_eq_true_eq] at hends
    exact ⟨hne, by simpa using hnot, hends.1, hends.2⟩
  have hdot : part ≠ ['.'] := fun heq => hname.ne_here (by rw [heq])
  have hup : part ≠ ['.', '.'] := fun heq => hname.ne_up (by rw [heq])
  -- nothing is trimmed off a name, so the reversed text begins with it
  have hreversed : p.reversed = part.reverse ++ pre.reverse := by
    rw [reversed, hcat, List.reverse_append, trimReversed_of_name]
    · simpa using hpart
    · simpa using hnot
    · simpa using hdot
  have hlast : p.lastReversed = part.reverse := by
    rw [lastReversed, hreversed, List.takeWhile_append_of_pos]
    · rcases hpre with rfl | ⟨init, rfl⟩ <;> simp
    · intro c hc
      simp only [decide_eq_true_eq]
      rintro rfl
      exact hnot (List.mem_reverse.mp hc)
  refine ⟨init, String.ofList part, hnames, hname, ?_, ?_⟩
  · simp [fileName?, hlast, hpart, hdot, hup]
  · simp [parent?, hlast, hpart]

/-- **Another last name** takes the place of the last one, behind the same parent. -/
theorem names_withFileName {p : Path} {name other : String} {parent : Path}
    (hfile : p.fileName? = some name) (hparent : p.parent? = some parent) (h : IsName other) :
    (p.withFileName other).names = parent.names ++ [other] := by
  rw [withFileName, hfile, hparent]
  exact names_join parent h

end Path

end QuotaWatch
