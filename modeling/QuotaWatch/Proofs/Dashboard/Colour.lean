import Mathlib.Data.List.Forall2
import Mathlib.Data.List.TakeWhile
import QuotaWatch.Proofs.Dashboard.Outline

/-!
# Colour as decoration

`withoutStyles` deletes the escape sequences that set how text is shown. Deleting them from a frame
in colour gives the frame without colour, character for character (`withoutStyles_frame`), unless a
string that is shown brings an escape character of its own.

The crux is that every escape sequence of a frame is complete in itself: what stands behind it is
looked at as if the sequence were not there, whatever that text is. `Decorates` says this of a piece
of a frame, and the pieces can be put together.
-/

namespace QuotaWatch

open Renderer Text

/-! ## Deleting escape sequences -/

/-- A character that may stand between `[` and `m` in an escape sequence for styles. -/
def isParameter (c : Char) : Bool := isDigit c || c = ';' || c = ':'

/-- What stands behind the escape sequence for styles that a text starts with. -/
def behindStyle? : List Char → Option (List Char)
  | '\x1b' :: '[' :: rest =>
    match rest.dropWhile isParameter with
    | 'm' :: rest => some rest
    | _ => none
  | _ => none

/-- The escape sequences that are deleted: an escape character, a bracket, parameters and the letter
that ends them. Everything below uses this form and not how it is looked for. -/
theorem behindStyle?_eq_some_iff {cs rest : List Char} : behindStyle? cs = some rest ↔
    ∃ code, (∀ c ∈ code, isParameter c = true)
      ∧ cs = '\x1b' :: '[' :: code ++ 'm' :: rest := by
  constructor
  · intro h
    unfold behindStyle? at h
    split at h
    · rename_i tail
      refine ⟨tail.takeWhile isParameter, fun c => List.mem_takeWhile_imp, ?_⟩
      -- the parameters are as many as there are, and the final letter is behind them
      have hsplit := List.takeWhile_append_dropWhile (p := isParameter) (l := tail)
      split at h
      · rename_i behind heq
        cases h
        rw [List.cons_append, List.cons_append, ← heq, hsplit]
      · cases h
    · cases h
  · rintro ⟨code, hcode, rfl⟩
    have hdrop : (code ++ 'm' :: rest).dropWhile isParameter = 'm' :: rest := by
      rw [List.dropWhile_append_of_pos hcode]
      rfl
    simp [behindStyle?, hdrop]

/-- What stands behind an escape sequence is shorter, so deleting comes to an end. -/
theorem length_behindStyle? {cs rest : List Char} (h : behindStyle? cs = some rest) :
    rest.length < cs.length := by
  obtain ⟨code, -, rfl⟩ := behindStyle?_eq_some_iff.mp h
  simp only [List.length_append, List.length_cons]
  omega

/-- A text with every escape sequence for styles deleted. -/
def withoutStyles : List Char → List Char
  | [] => []
  | c :: cs =>
    match _ : behindStyle? (c :: cs) with
    | some rest => withoutStyles rest
    | none => c :: withoutStyles cs
termination_by cs => cs.length
decreasing_by
  · exact length_behindStyle? ‹_›
  · exact Nat.lt_succ_self _

@[simp]
theorem withoutStyles_nil : withoutStyles [] = [] := by
  rw [withoutStyles]

/-- An escape sequence in front is deleted. -/
theorem withoutStyles_of_some {cs rest : List Char} (h : behindStyle? cs = some rest) :
    withoutStyles cs = withoutStyles rest := by
  cases cs with
  | nil => cases h
  | cons c cs =>
    rw [withoutStyles]
    split <;> simp_all

/-- A character that begins no escape sequence is kept. -/
theorem withoutStyles_of_none {c : Char} {cs : List Char} (h : behindStyle? (c :: cs) = none) :
    withoutStyles (c :: cs) = c :: withoutStyles cs := by
  rw [withoutStyles]
  split <;> simp_all

/-- Deleting escape sequences leaves every line break where it is, because a line break is no
parameter. -/
theorem count_withoutStyles (cs : List Char) : (withoutStyles cs).count '\n' = cs.count '\n' := by
  fun_induction withoutStyles cs with
  | case1 => rfl
  | case2 c cs rest h ih =>
    obtain ⟨code, hcode, heq⟩ := behindStyle?_eq_some_iff.mp h
    have hbreak : '\n' ∉ code := fun hmem => absurd (hcode _ hmem) (by decide)
    rw [ih, heq]
    simp [List.count_eq_zero_of_not_mem hbreak]
  | case3 c cs h ih => simp [List.count_cons, ih]

/-! ## Decorated text -/

/-- A text that is another one with escape sequences put into it, whatever stands behind. It is not
enough that deleting gives the other text: an escape sequence that is open at the end would take
characters from what stands behind. -/
def Decorates (text bare : List Char) : Prop :=
  ∀ rest, withoutStyles (text ++ rest) = bare ++ withoutStyles rest

namespace Decorates

variable {a a' b b' text bare : List Char}

/-- With nothing behind, deleting gives the bare text. -/
theorem withoutStyles_eq (h : Decorates text bare) : withoutStyles text = bare := by
  simpa using h []

theorem nil : Decorates [] [] := fun _ => rfl

/-- Decorated pieces are put together, because each of them leaves what stands behind it alone. -/
theorem append (ha : Decorates a a') (hb : Decorates b b') : Decorates (a ++ b) (a' ++ b') := by
  intro rest
  rw [List.append_assoc, ha, hb, List.append_assoc]

/-- Text without an escape character decorates itself. Every sequence that is deleted begins with
that character. -/
theorem refl (h : '\x1b' ∉ text) : Decorates text text := by
  intro rest
  induction text with
  | nil => rfl
  | cons c cs ih =>
    obtain ⟨hc, hcs⟩ := not_or.mp (mt List.mem_cons.mpr h)
    -- no style begins with another character than the escape
    have hnone : behindStyle? (c :: (cs ++ rest)) = none := by
      rw [Option.eq_none_iff_forall_ne_some]
      intro behind hsome
      obtain ⟨code, -, heq⟩ := behindStyle?_eq_some_iff.mp hsome
      exact hc (List.cons.inj heq).1.symm
    rw [List.cons_append, withoutStyles_of_none hnone, ih hcs, List.cons_append]

/-- An escape sequence decorates nothing. -/
theorem escapeSequence {code : String} (h : code.toList.all isParameter = true) :
    Decorates (escapeSequence code) [] := by
  intro rest
  have hbehind : behindStyle? (QuotaWatch.escapeSequence code ++ rest) = some rest :=
    behindStyle?_eq_some_iff.mpr
      ⟨code.toList, List.all_eq_true.mp h, by simp [QuotaWatch.escapeSequence]⟩
  exact withoutStyles_of_some hbehind

/-- What is written in front of a colour and behind it are complete escape sequences, or nothing. -/
theorem marks (paint : Paint) : Decorates paint.marks.1 [] ∧ Decorates paint.marks.2 [] := by
  cases paint with
  | plain => exact ⟨nil, nil⟩
  | bold | dim | red | yellow | green =>
    exact ⟨escapeSequence (by decide), escapeSequence (by decide)⟩

/-- A segment in colour decorates its text, an empty one included: no marks are written around
nothing. -/
theorem written {s : Segment} (h : '\x1b' ∉ s.text) : Decorates (s.written true) s.text := by
  obtain ⟨hfront, hback⟩ := marks s.paint
  by_cases hempty : s.text = []
  · have hwritten : s.written true = [] := by simp [Segment.written, Paint.apply, hempty]
    rw [hwritten, hempty]
    exact nil
  · have hwritten : s.written true = s.paint.marks.1 ++ s.text ++ s.paint.marks.2 := by
      simp [Segment.written, Paint.apply, hempty]
    rw [hwritten]
    simpa using (hfront.append (refl h)).append hback

/-- The segments of a line one after the other, in colour and bare. -/
theorem writtenLine {line : List Segment} (h : ∀ s ∈ line, '\x1b' ∉ s.text) :
    Decorates (writtenLine true line) (writtenLine false line) := by
  induction line with
  | nil => exact nil
  | cons s line ih =>
    obtain ⟨hs, hline⟩ := List.forall_mem_cons.mp h
    exact (written hs).append (ih hline)

/-- Borders and fill are the same in colour: they hold no escape character, and their widths are
those of the bare line. -/
theorem boxed {part : BoxLine} (h : Decorates text bare) (lead trail : Nat) :
    Decorates (part.boxed lead text trail) (part.boxed lead bare trail) := by
  have hborders := part.printable_borders
  simp only [printable_cons] at hborders
  have hleft : '\x1b' ∉ [part.left] :=
    (printable_replicate hborders.1 1).notMem (by decide)
  have hright : '\x1b' ∉ [part.right] :=
    (printable_replicate hborders.2.1 1).notMem (by decide)
  have hblanks (n : Nat) : '\x1b' ∉ List.replicate n part.fill :=
    (printable_replicate hborders.2.2.1 n).notMem (by decide)
  exact ((refl hleft).append (((refl (hblanks lead)).append h).append
    (refl (hblanks trail)))).append (refl hright)

/-- Lines put together with line breaks, in colour and bare. -/
theorem joinLines {lines bares : List (List Char)} (h : List.Forall₂ Decorates lines bares) :
    Decorates (joinLines lines) (joinLines bares) := by
  have hbreak : Decorates ['\n'] ['\n'] := refl (by decide)
  induction h with
  | nil => exact nil
  | @cons line bare lines bares hline hlines ih =>
    cases hlines with
    | nil => exact hline
    | cons => exact hline.append (hbreak.append ih)

end Decorates

/-! ## Frames -/

namespace Renderer

variable {r : Renderer} {snapshot : Snapshot} {status : Status}

/-- **Colour is decoration.** Without its escape sequences a frame in colour is the frame without
colour, line by line and as a whole. The lines have the same borders and the same fill, and in
between them the same segments, in colour and bare. -/
theorem withoutStyles_frame (h : Free '\x1b' r snapshot status) (now : Time.LocalTime) :
    let coloured := { r with colour := true }
    let plain := { r with colour := false }
    withoutStyles (coloured.frame snapshot status now).toList
        = (plain.frame snapshot status now).toList
      ∧ (coloured.lines snapshot status now).map withoutStyles = plain.lines snapshot status now
      ∧ (coloured.frame snapshot status now).toList.count '\n'
        = (plain.frame snapshot status now).toList.count '\n'
      ∧ '\x1b' ∉ (plain.frame snapshot status now).toList
      ∧ coloured.lines snapshot status now = (r.outline snapshot status now).map (fun part =>
          part.boxed (r.lead part) (writtenLine true (part.segments r.title)) (r.trail part))
      ∧ plain.lines snapshot status now = (r.outline snapshot status now).map (fun part =>
          part.boxed (r.lead part) (writtenLine false (part.segments r.title)) (r.trail part)) := by
  intro coloured plain
  have hcoloured : coloured.lines snapshot status now
      = (r.outline snapshot status now).map coloured.draw := rfl
  have hplain : plain.lines snapshot status now
      = (r.outline snapshot status now).map plain.draw := rfl
  -- each line decorates its bare form, so the frame does
  have hdraw : ∀ part ∈ r.outline snapshot status now,
      Decorates (coloured.draw part) (plain.draw part) := fun part hpart =>
    (Decorates.writtenLine (h.segments (by decide) part hpart)).boxed _ _
  have hlines : List.Forall₂ Decorates (coloured.lines snapshot status now)
      (plain.lines snapshot status now) := by
    rw [hcoloured, hplain, List.forall₂_map_left_iff, List.forall₂_map_right_iff,
      List.forall₂_same]
    exact hdraw
  have hframe : withoutStyles (coloured.frame snapshot status now).toList
      = (plain.frame snapshot status now).toList := by
    simpa [frame] using (Decorates.joinLines hlines).withoutStyles_eq
  refine ⟨hframe, ?_, ?_, ?_, hcoloured, hplain⟩
  · rw [hcoloured, hplain, List.map_map]
    exact List.map_congr_left fun part hpart => (hdraw part hpart).withoutStyles_eq
  · -- deleting leaves the line breaks, so both frames have as many
    rw [← hframe, count_withoutStyles]
  · have hnot : ∀ line ∈ plain.lines snapshot status now, '\x1b' ∉ line := by
      rw [hplain]
      exact List.forall_mem_map.mpr fun part hpart =>
        notMem_draw rfl (h.segments (by decide) part hpart) (by decide)
    simpa [frame] using notMem_joinLines (by decide) hnot

/-- A snapshot in which a name looks like what is left of an escape sequence. -/
def bracketed : Snapshot :=
  { timestamp := default, records := [⟨"[1m] model", none, some 1200, "credits"⟩],
    source := "state.db" }

/-- Brackets that are shown stay where they are. A name and a recommendation look like the rest of
an escape sequence here, and nothing of them is deleted. -/
theorem withoutStyles_frame_bracketed :
    Free '\x1b' (standard true) bracketed (Status.unknown "[0m] no quota" default)
      ∧ withoutStyles ((standard true).frame bracketed
          (Status.unknown "[0m] no quota" default) default).toList
        = ((standard false).frame bracketed
          (Status.unknown "[0m] no quota" default) default).toList := by
  have hfree : Free '\x1b' (standard true) bracketed
      (Status.unknown "[0m] no quota" default) := by
    constructor <;> decide
  exact ⟨hfree, (withoutStyles_frame hfree default).1⟩

end Renderer

end QuotaWatch
