import QuotaWatch.Proofs.Disk.Change
import QuotaWatch.Proofs.Disk.Parent

/-!
# Where a walk stops

The places that a walk passes are known without a disk (`Location.stops`), for a name leads the same
way whatever stands there. Two disks on which the same stands at all stops are the same to a path
(`find_congr`), and what is found at a path stays found when only something is added (`find_keeps`).
Two changes need the stops:

* a file beside a path is no stop of it (`notMem_stops_beside`);
* a directory that is moved takes away what it holds, and only that (`get?_move_of_not_leadsTo`).
-/

namespace QuotaWatch

namespace Location

variable {l place : Location} {name : String} {names : List String}

/-- Where a name leads, whatever stands there. -/
def step (l : Location) (name : String) : Location :=
  if name = "." then l else if name = ".." then l.parent else l.child name

/-- The places that a walk passes, its start and its end among them. -/
def stops (l : Location) : List String → List Location
  | [] => [l]
  | name :: rest => l :: (l.step name).stops rest

/-- Where a walk ends, whatever stands on its way. -/
def walk (l : Location) (names : List String) : Location := names.foldl step l

/-- A walk goes on from where it got. -/
theorem walk_append (l : Location) (a b : List String) :
    l.walk (a ++ b) = (l.walk a).walk b := List.foldl_append

/-- A stop of a walk in two parts is a stop of the first part, or of the second one from where the
first one ends. -/
theorem mem_stops_append {a b : List String} :
    ∀ {l : Location}, place ∈ l.stops (a ++ b) →
      place ∈ l.stops a ∨ place ∈ (l.walk a).stops b := by
  induction a with
  | nil => exact fun h => .inr h
  | cons name rest ih =>
    intro l h
    rw [List.cons_append, stops, List.mem_cons] at h
    rw [stops, List.mem_cons]
    rcases h with h | h
    · exact .inl (.inl h)
    · exact (ih h).imp_left .inr

/-- A walk stops where it ends. -/
theorem walk_mem_stops : ∀ (names : List String) (l : Location), l.walk names ∈ l.stops names
  | [], _ => List.mem_singleton_self _
  | name :: rest, l => List.mem_cons_of_mem _ (walk_mem_stops rest (l.step name))

/-- Names that stay lead nowhere else. -/
theorem walk_stay (h : Path.Stay names) : l.walk names = l := by
  induction names with
  | nil => rfl
  | cons name rest ih =>
    obtain rfl := h name List.mem_cons_self
    exact ih fun other hmem => h other (List.mem_cons_of_mem _ hmem)

/-- Names that stay pass no other place. -/
theorem eq_of_mem_stops_stay (h : Path.Stay names) (hmem : place ∈ l.stops names) : place = l := by
  induction names with
  | nil => exact List.mem_singleton.mp hmem
  | cons name rest ih =>
    obtain rfl := h name List.mem_cons_self
    rcases List.mem_cons.mp hmem with hmem | hmem
    · exact hmem
    · exact ih (fun other hother => h other (List.mem_cons_of_mem _ hother)) hmem

theorem leadsTo_trans {a b c : Location} (hab : a.leadsTo b = true) (hbc : b.leadsTo c = true) :
    a.leadsTo c = true := by
  rw [leadsTo, List.isPrefixOf_iff_prefix] at hab hbc ⊢
  exact hab.trans hbc

/-- A walk that does not go up stays below its stops. So what stands at its end stands below all the
directories that it passed. -/
theorem leadsTo_walk (hdown : ".." ∉ names) (h : place ∈ l.stops names) :
    place.leadsTo (l.walk names) = true := by
  induction names generalizing l place with
  | nil =>
    rw [List.mem_singleton.mp h]
    exact leadsTo_self l
  | cons name rest ih =>
    have hname : name ≠ ".." := fun heq => hdown (heq ▸ List.mem_cons_self)
    have hrest : ".." ∉ rest := fun hmem => hdown (List.mem_cons_of_mem _ hmem)
    rcases List.mem_cons.mp h with rfl | h
    · -- without a way up, each step leads on from the place
      have hstep : place.leadsTo (place.step name) = true := by
        rw [step, if_neg hname]
        split
        · exact leadsTo_self place
        · rw [leadsTo, List.isPrefixOf_iff_prefix]
          exact List.prefix_append _ _
      have hstart : place.step name ∈ (place.step name).stops rest := by
        cases rest <;> simp [stops]
      exact leadsTo_trans hstep (ih hrest hstart)
    · exact ih hrest h

/-- What is moved is below its new place. -/
theorem leadsTo_moved (l origin target : Location) :
    target.leadsTo (l.moved origin target) = true := by
  rw [leadsTo, List.isPrefixOf_iff_prefix]
  exact List.prefix_append _ _

end Location

namespace Path

/-- What a path asks for behind its names: with a slash at its end it has to be a directory. -/
def ending (p : Path) : List String := if p.endsWithSlash then ["."] else []

theorem stay_ending (p : Path) : Stay p.ending := by
  unfold ending Stay
  split <;> simp

end Path

namespace Disk

open Location QuotaWatch.Path

variable {d d' : Disk} {p source target : Path} {place loc origin : Location} {content : Content}
  {names : List String}

/-- Where a name leads does not depend on the disk. Only whether it leads on does. -/
theorem Leads.eq_step {name : String} {next : Location} (h : Leads place name next) :
    next = place.step name := by
  cases h with
  | here hhere => simp [step, hhere]
  | up hup => simp [step, hup]
  | down hhere hup => simp [step, hhere, hup]

/-- A walk that succeeds passed directories only, and ends where it would on any disk. -/
theorem stops_of_descend (h : d.descend place names = .ok loc) :
    loc = place.walk names ∧
      ∀ stop ∈ place.stops names, stop = loc ∨ d.get? stop = some .directory := by
  induction names generalizing place with
  | nil =>
    cases h
    exact ⟨rfl, fun stop hmem => .inl (List.mem_singleton.mp hmem)⟩
  | cons name rest ih =>
    obtain ⟨hget, next, hleads, h⟩ := descend_cons_ok_iff.mp h
    obtain rfl := hleads.eq_step
    obtain ⟨hloc, hstops⟩ := ih h
    refine ⟨hloc, fun stop hmem => ?_⟩
    -- every stop but the last is gone through, so it is a directory
    rcases List.mem_cons.mp hmem with rfl | hmem
    · exact .inr hget
    · exact hstops stop hmem

/-! ## Disks that look the same to a path -/

/-- A walk looks at its stops and at nothing else. -/
theorem descend_congr :
    ∀ {names : List String} {place : Location},
      (∀ stop ∈ place.stops names, d'.get? stop = d.get? stop) →
        d'.descend place names = d.descend place names
  | [], _, _ => rfl
  | name :: rest, place, h => by
    have hplace := h place List.mem_cons_self
    -- the stops of the rest are stops of the whole
    have hrest : d'.descend (place.step name) rest = d.descend (place.step name) rest :=
      descend_congr fun stop hmem => h stop (List.mem_cons_of_mem _ hmem)
    rw [descend, descend, hplace]
    unfold step at hrest
    split
    · rfl
    · rfl
    · split
      next hhere => rwa [if_pos hhere] at hrest
      next hhere =>
        rw [if_neg hhere] at hrest
        split
        next hup => rwa [if_pos hup] at hrest
        next hup =>
          rw [if_neg hup] at hrest
          rw [hrest]

/-- Where a path leads is known without the disk. -/
theorem eq_walk_of_locate (h : d.locate p = .ok loc) : loc = (d.start p).walk p.names := by
  obtain ⟨rfl, _⟩ := stops_of_descend (locate_ok_iff.mp h).2
  show (d.start p).walk (p.names ++ p.ending) = _
  rw [walk_append, walk_stay (stay_ending p)]

/-- The place of a path is a stop on its way. -/
theorem locate_mem_stops (h : d.locate p = .ok loc) : loc ∈ (d.start p).stops p.names := by
  rw [eq_walk_of_locate h]
  exact walk_mem_stops _ _

/-- **Disks that agree on the way of a path have the same at it.** So whoever reads at that path
does not notice a change elsewhere, and meets the same fault if there is one. -/
theorem find_congr (hworking : d'.working = d.working)
    (h : ∀ stop ∈ (d.start p).stops p.names, d'.get? stop = d.get? stop) :
    d'.find p = d.find p := by
  have hlocate : d'.locate p = d.locate p := by
    unfold locate
    have hstart : d'.start p = d.start p := by rw [start, start, hworking]
    rw [hstart]
    congr 1
    funext _
    refine descend_congr fun stop hmem => ?_
    rcases mem_stops_append (b := p.ending) hmem with hmem | hmem
    · exact h stop hmem
    · -- what is written behind the names leads nowhere else
      rw [eq_of_mem_stops_stay (stay_ending p) hmem]
      exact h _ (walk_mem_stops _ _)
  unfold find
  rw [hlocate]
  cases hl : d.locate p with
  | error fault => rfl
  | ok loc =>
    simp only [h loc (locate_mem_stops hl), bind, Except.bind]

/-- A path that does not go up finds what stands at its place also before anything is added. What is
found there needs directories on the whole way to it, so none of them was added. -/
theorem IsTree.find_of_extends (ht : d.IsTree) (hext : d.Extends d') (hdown : ".." ∉ p.names)
    {entry : Entry} (hl : d'.locate p = .ok loc) (hget : d.get? loc = some entry) :
    d.find p = .ok entry := by
  have hwalk : loc = (d.start p).walk p.names := by
    rw [← start_keeps hext.keepsDirectories p]
    exact eq_walk_of_locate hl
  -- the stops are all in the old tree: below a place that is not, nothing was
  have hsame : d'.find p = d.find p := by
    refine find_congr hext.working fun stop hmem => ?_
    have hleads : stop.leadsTo loc = true := hwalk ▸ leadsTo_walk hdown hmem
    by_cases heq : stop = loc
    · rw [heq, hget, hext.entry hget]
    · by_cases hstop : d.get? stop = some .directory
      · rw [hstop, hext.entry hstop]
      · have hnone := ht.get?_below hstop hleads (Ne.symm heq)
        cases hget.symm.trans hnone
  rw [← hsame]
  exact find_ok_iff.mpr ⟨loc, hl, hext.entry hget⟩

/-! ## Walks that fail -/

/-- Behind a walk that succeeds, another one goes on as if it started there, and fails as it does.
-/
theorem descend_append_of_ok {a b : List String} :
    ∀ {place : Location}, d.descend place a = .ok loc →
      d.descend place (a ++ b) = d.descend loc b := by
  induction a with
  | nil =>
    intro place h
    cases h
    rfl
  | cons name rest ih =>
    intro place h
    obtain ⟨hget, next, hleads, h⟩ := descend_cons_ok_iff.mp h
    have hrest := ih h
    show d.descend place (name :: (rest ++ b)) = _
    rw [descend, hget]
    cases hleads with
    | here hhere => simpa [hhere] using hrest
    | up hup => simpa [hup] using hrest
    | down hhere hup hlong => simpa [hhere, hup, hlong] using hrest

/-- To stay in a directory succeeds. -/
theorem descend_stay (hget : d.get? place = some .directory) (h : Stay names) :
    d.descend place names = .ok place := by
  induction names with
  | nil => rfl
  | cons name rest ih =>
    obtain rfl := h name List.mem_cons_self
    exact descend_cons_ok_iff.mpr ⟨hget, place, .here rfl,
      ih fun other hmem => h other (List.mem_cons_of_mem _ hmem)⟩

/-- **A walk that fails goes on to fail the same way**, unless something was missing. A file in the
way stays in the way, and a name stays too long, but what is missing may be added. -/
theorem descend_keeps_error (hext : d.Extends d') {fault : DiskFault} (hne : fault ≠ .notFound) :
    ∀ {names : List String} {place : Location},
      d.descend place names = .error fault → d'.descend place names = .error fault
  | [], _, h => by cases h
  | name :: rest, place, h => by
    rw [descend] at h ⊢
    split at h
    · cases h
      exact absurd rfl hne
    -- what was there still is, a file as well as a directory
    next hget =>
      rw [hext.entry hget]
      exact h
    next hget =>
      rw [hext.entry hget]
      simp only
      split at h
      next hhere =>
        rw [if_pos hhere]
        exact descend_keeps_error hext hne h
      next hhere =>
        rw [if_neg hhere]
        split at h
        next hup =>
          rw [if_pos hup]
          exact descend_keeps_error hext hne h
        next hup =>
          rw [if_neg hup]
          split at h
          next hlong => rw [if_pos hlong, h]
          next hlong =>
            rw [if_neg hlong]
            exact descend_keeps_error hext hne h

/-- **What is found stays found, and so does a fault**, unless something was missing. -/
theorem find_keeps (hext : d.Extends d') (h : d.find p ≠ .error .notFound) :
    d'.find p = d.find p := by
  have hstart : d'.start p = d.start p := start_keeps hext.keepsDirectories p
  cases hl : d.locate p with
  | ok loc =>
    have hl' := locate_keeps hext.keepsDirectories hl
    cases hget : d.get? loc with
    | none =>
      simp [find, hl, hget, bind, Except.bind] at h
    | some entry =>
      rw [find_ok_iff.mpr ⟨loc, hl, hget⟩]
      exact find_ok_iff.mpr ⟨loc, hl', hext.entry hget⟩
  | error fault =>
    have hfind : d.find p = .error fault := by simp [find, hl, bind, Except.bind]
    -- a path that leads nowhere is the one fault that is left out
    have hne : fault ≠ .notFound := by
      rintro rfl
      exact h hfind
    have hl' : d'.locate p = .error fault := by
      unfold locate at hl ⊢
      cases hc : checkPath p with
      | error other =>
        rw [hc] at hl
        exact hl
      | ok _ =>
        rw [hc] at hl
        rw [hstart]
        exact descend_keeps_error hext hne hl
    rw [hfind]
    simp [find, hl', bind, Except.bind]

/-! ## A file beside a path -/

/-- **A path does not pass a free place beside it.** All that it passes before its last name are
directories, and the last name is another one. So a file that is put there is not noticed at the
path. -/
theorem notMem_stops_beside {other : String} (hother : IsName other)
    (hne : p.fileName? ≠ some other) (hl : d.locateNew (p.withFileName other) = .ok place)
    (hnone : d.get? place = none) : place ∉ (d.start p).stops p.names := by
  obtain ⟨init, rest, hbeside, hnames, hrest, habsolute⟩ :=
    names_withFileName_beside (p := p) hother
  have hd := (locateNew_ok_iff.mp hl).2.1
  have hstart : d.start (p.withFileName other) = d.start p := by rw [start, start, habsolute]
  rw [hbeside, hstart] at hd
  obtain ⟨home, hhome, hget, rfl⟩ := descend_concat hother hd
  obtain ⟨hwalk, hstops⟩ := stops_of_descend hhome
  intro hmem
  rw [hnames] at hmem
  -- the directories on the way stand, and the free place does not
  have hdirectory (stop : Location) (hstop : stop ∈ (d.start p).stops init) :
      d.get? stop = some .directory := by
    rcases hstops stop hstop with rfl | hstop
    · exact hget
    · exact hstop
  have hnot : home ≠ home.child other := by
    intro heq
    rw [← heq, hget] at hnone
    cases hnone
  rcases mem_stops_append hmem with hmem | hmem
  · rw [hdirectory _ hmem] at hnone
    cases hnone
  · rw [← hwalk] at hmem
    rcases hrest with rfl | ⟨name, before, after, hfile, rfl, hbefore, hafter, hname⟩
    · exact hnot (List.mem_singleton.mp hmem).symm
    · rcases mem_stops_append hmem with hmem | hmem
      · exact hnot (eq_of_mem_stops_stay hbefore hmem).symm
      · rw [walk_stay hbefore, stops, List.mem_cons] at hmem
        rcases hmem with hmem | hmem
        · exact hnot hmem.symm
        · -- the last stop has the file name of the path, which is another one
          have hstep : home.step name = home.child name := by
            rw [step, if_neg hname.ne_here, if_neg hname.ne_up]
          have heq := eq_of_mem_stops_stay hafter hmem
          rw [hstep] at heq
          have hlast : other = name := by simpa using congrArg (fun m => m.names.getLast?) heq
          exact hne (hlast ▸ hfile)

/-! ## A directory that is moved -/

section Move

variable {other : Location}

/-- An entry after a move is at a place outside of it just if it was there before. -/
theorem moved_fst_eq_iff (hsource : origin.leadsTo other = false)
    (htarget : place.leadsTo other = false) (e : Location × Entry) :
    (if origin.leadsTo e.1 then (e.1.moved origin place, e.2) else e).1 = other ↔ e.1 = other := by
  split
  -- what is moved comes from below the origin and goes below the place
  next hleads =>
    constructor
    · intro heq
      rw [← heq, leadsTo_moved] at htarget
      cases htarget
    · intro heq
      rw [heq, hsource] at hleads
      cases hleads
  next => rfl

/-- What is neither moved nor where it is moved to stays. -/
theorem get?_move_of_not_leadsTo (hsource : origin.leadsTo other = false)
    (htarget : place.leadsTo other = false) :
    (d.move origin place).get? other = d.get? other := by
  unfold get? move
  split
  · rfl
  · -- the move renames other entries only, so the search finds the same one
    have hfind : (fun e : Location × Entry => decide (e.1 = other)) ∘
        (fun e => if origin.leadsTo e.1 then (e.1.moved origin place, e.2) else e)
          = fun e => decide (e.1 = other) := by
      funext e
      simp only [Function.comp, moved_fst_eq_iff hsource htarget e]
    rw [List.find?_map, hfind, Option.map_map]
    cases hget : d.entries.find? fun e => decide (e.1 = other) with
    | none => rfl
    | some e =>
      have he : e.1 = other := by simpa using List.find?_some hget
      simp [he, hsource]

/-- Only what has a name is renamed. -/
theorem endsInName_of_rename (h : d.rename source target = .ok d') : source.endsInName = true := by
  simp only [rename, except_bind_ok_iff] at h
  obtain ⟨_, _, _, _, h⟩ := h
  split at h
  next hends => exact (Bool.and_eq_true_iff.mp hends).1
  next => cases h

/-- A directory is renamed to what is free by a move, which takes along what it holds. -/
theorem rename_directory_ok (hl : d.locate source = .ok origin)
    (hdirectory : d.get? origin = some .directory) (hfree : d.has target = false)
    (h : d.rename source target = .ok d') :
    ∃ place, d.get? place = none ∧ d' = d.move origin place := by
  have hfind : d.find source = .ok .directory := find_ok_iff.mpr ⟨origin, hl, hdirectory⟩
  simp only [rename, except_bind_ok_iff] at h
  obtain ⟨_, _, _, _, h⟩ := h
  split at h
  · simp only [except_bind_ok_iff] at h
    obtain ⟨origin', hl', entry, hfind', place, hplace, h⟩ := h
    cases hl.symm.trans hl'
    cases hfind.symm.trans hfind'
    have hnone : d.get? place = none := by
      -- a place that is taken would mean that the target is there
      cases hget : d.get? place with
      | none => rfl
      | some there =>
        rw [has_iff.mpr ⟨place, there, hplace, hget⟩] at hfree
        cases hfree
    rw [hnone] at h
    dsimp only at h
    split at h
    · cases h
    · exact ⟨place, hnone, (Except.ok.inj h).symm⟩
  · cases h

end Move

end Disk

end QuotaWatch
