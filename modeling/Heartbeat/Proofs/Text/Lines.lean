import Heartbeat.Text.Blank
import Mathlib.Data.List.TakeWhile

/-!
# The lines of a text

A text is cut at its line feeds. A carriage return in front of one goes with it; it is a blank, so
that it makes no difference where the blanks at the ends of the lines are dropped anyway.

* `trim_append_blanks`, `trim_blanks_append`, `trim_trim`: blanks at the ends do not matter.
* `byLines`: induction over the lines of a text.
* `trimmedLines`: the lines without the blanks at their ends.
* `trimmedLines_append`: what follows a line feed is read by itself.
* `SameLines`: line feeds at the end of a text and blanks at the ends of its lines do not matter.
* `firstLines`, `trimmedLines_firstLines`: a text cut behind some of its lines.
-/

namespace Heartbeat.Text

variable {s rest line blanks : List Char}

/-! ## Blanks at the ends -/

/-- All characters are blanks. -/
def AllBlank (s : List Char) : Prop := ∀ c ∈ s, isBlank c = true

instance (s : List Char) : Decidable (AllBlank s) :=
  decidable_of_iff (s.all isBlank = true) List.all_eq_true

theorem trimRight_append_blanks (h : AllBlank blanks) :
    trimRight (s ++ blanks) = trimRight s := by
  unfold trimRight
  rw [List.reverse_append, List.dropWhile_append_of_pos]
  exact fun c hc => h c (List.mem_reverse.mp hc)

theorem trim_append_blanks (h : AllBlank blanks) : trim (s ++ blanks) = trim s := by
  unfold trim trimLeft
  rw [List.dropWhile_append]
  split
  · rename_i hempty
    rw [List.isEmpty_iff.mp hempty, List.dropWhile_eq_nil_iff.mpr h]
  · exact trimRight_append_blanks h

theorem trim_blanks_append (h : AllBlank blanks) : trim (blanks ++ s) = trim s := by
  unfold trim trimLeft
  rw [List.dropWhile_append_of_pos h]

/-- A text is its core with blanks around it. -/
theorem exists_blanks_around (s : List Char) :
    ∃ before after, AllBlank before ∧ AllBlank after ∧ s = before ++ trim s ++ after := by
  refine ⟨s.takeWhile isBlank, ((trimLeft s).reverse.takeWhile isBlank).reverse, ?_, ?_, ?_⟩
  · exact fun c hc => List.mem_takeWhile_imp hc
  · exact fun c hc => List.mem_takeWhile_imp (List.mem_reverse.mp hc)
  · unfold trim trimRight
    rw [List.append_assoc, ← List.reverse_append, List.takeWhile_append_dropWhile,
      List.reverse_reverse]
    exact List.takeWhile_append_dropWhile.symm

theorem trim_trim (s : List Char) : trim (trim s) = trim s := by
  obtain ⟨before, after, hbefore, hafter, hs⟩ := exists_blanks_around s
  have hcore := congrArg trim hs
  rw [trim_append_blanks hafter, trim_blanks_append hbefore] at hcore
  exact hcore.symm

/-- Nothing is left of blanks, and of nothing else. -/
theorem trim_eq_nil_iff : trim s = [] ↔ AllBlank s := by
  constructor
  · intro hnil
    obtain ⟨before, after, hbefore, hafter, hs⟩ := exists_blanks_around s
    rw [hnil, List.append_nil] at hs
    rw [hs]
    exact fun c hc => (List.mem_append.mp hc).elim (hbefore c) (hafter c)
  · exact fun hblank => trim_append_blanks (s := []) hblank

theorem trimmed_eq_empty_iff {text : String} : trimmed text = "" ↔ AllBlank text.toList := by
  rw [← String.toList_eq_nil_iff, trimmed, String.toList_ofList, trim_eq_nil_iff]

/-! ## Lines -/

/-- A character is put in front of the first line, unless it ends one. -/
theorem lines_cons {c : Char} (hfeed : c ≠ '\n')
    (hreturn : c = '\r' → ∀ rest, s ≠ '\n' :: rest) : lines (c :: s) = consFirst c (lines s) := by
  rw [lines]
  · exact hfeed
  · exact fun rest hc hs => hreturn hc rest hs

/-- A line that is ended by a line feed, with the carriage return in front of it or without. -/
theorem lines_line (h : '\n' ∉ line) (rest : List Char) :
    ∃ first, lines (line ++ '\n' :: rest) = first :: lines rest ∧
      (first = line ∨ first ++ ['\r'] = line) := by
  induction line with
  | nil => exact ⟨[], by rw [List.nil_append, lines], .inl rfl⟩
  | cons c line ih =>
    rw [List.mem_cons, not_or] at h
    obtain ⟨hc, hline⟩ := h
    obtain ⟨first, hlines, hfirst⟩ := ih hline
    by_cases hend : c = '\r' ∧ line = []
    · obtain ⟨rfl, rfl⟩ := hend
      exact ⟨[], by rw [List.cons_append, List.nil_append, lines], .inr rfl⟩
    · refine ⟨c :: first, ?_, hfirst.imp (congrArg _) (congrArg _)⟩
      rw [List.cons_append, lines_cons (Ne.symm hc), hlines, consFirst]
      intro hreturn rest' heq
      cases line with
      | nil => exact hend ⟨hreturn, rfl⟩
      | cons d line =>
        rw [List.cons_append] at heq
        exact hline ((List.cons.inj heq).1 ▸ List.mem_cons_self)

/-- What is not ended by a line feed is a line if there is anything. -/
theorem lines_last (h : '\n' ∉ line) (hsome : line ≠ []) : lines line = [line] := by
  induction line with
  | nil => exact absurd rfl hsome
  | cons c line ih =>
    rw [List.mem_cons, not_or] at h
    obtain ⟨hc, hline⟩ := h
    have hfeed : ∀ rest, line ≠ '\n' :: rest := by
      rintro rest rfl
      exact hline List.mem_cons_self
    rw [lines_cons (Ne.symm hc) fun _ => hfeed]
    cases line with
    | nil => rfl
    | cons d line => rw [ih hline (List.cons_ne_nil d line), consFirst]

/-- **Induction over the lines of a text**: the last one, and one that is ended by a line feed in
front of others. -/
theorem byLines {motive : List Char → Prop} (last : ∀ line, '\n' ∉ line → motive line)
    (more : ∀ line rest, '\n' ∉ line → motive rest → motive (line ++ '\n' :: rest))
    (s : List Char) : motive s := by
  suffices h : ∀ s line, '\n' ∉ line → motive (line ++ s) from h s [] List.not_mem_nil
  intro s
  induction s with
  | nil =>
    intro line hline
    rw [List.append_nil]
    exact last line hline
  | cons c s ih =>
    intro line hline
    by_cases hc : c = '\n'
    · subst hc
      exact more line s hline (ih [] List.not_mem_nil)
    · rw [← List.singleton_append, ← List.append_assoc]
      refine ih (line ++ [c]) fun hmem => ?_
      rcases List.mem_append.mp hmem with hmem | hmem
      · exact hline hmem
      · exact hc (List.mem_singleton.mp hmem).symm

/-! ## Lines without the blanks at their ends -/

/-- The lines of a text without the blanks at their ends. -/
def trimmedLines (s : List Char) : List (List Char) := (lines s).map trim

theorem length_trimmedLines (s : List Char) : (trimmedLines s).length = (lines s).length :=
  List.length_map _

theorem trimmedLines_line (h : '\n' ∉ line) (rest : List Char) :
    trimmedLines (line ++ '\n' :: rest) = trim line :: trimmedLines rest := by
  obtain ⟨first, hlines, hfirst⟩ := lines_line h rest
  have htrim : trim first = trim line := by
    rcases hfirst with rfl | rfl
    · rfl
    · exact (trim_append_blanks (List.forall_mem_singleton.mpr rfl)).symm
  unfold trimmedLines
  rw [hlines, List.map_cons, htrim]

theorem trimmedLines_last (h : '\n' ∉ line) (hsome : line ≠ []) :
    trimmedLines line = [trim line] := by
  unfold trimmedLines
  rw [lines_last h hsome]
  rfl

/-- **What follows a line feed is read by itself.** -/
theorem trimmedLines_append (s rest : List Char) :
    trimmedLines (s ++ '\n' :: rest) = trimmedLines (s ++ ['\n']) ++ trimmedLines rest := by
  induction s using byLines with
  | last line hline =>
    rw [trimmedLines_line hline, trimmedLines_line hline]
    rfl
  | more line s hline ih =>
    simp only [List.append_assoc, List.cons_append]
    rw [trimmedLines_line hline, trimmedLines_line hline, ih, List.cons_append]

/-- Every line feed ends a line. -/
theorem length_trimmedLines_feed (s : List Char) :
    (trimmedLines (s ++ ['\n'])).length = s.count '\n' + 1 := by
  induction s using byLines with
  | last line hline =>
    rw [trimmedLines_line hline, List.count_eq_zero_of_not_mem hline]
    rfl
  | more line s hline ih =>
    rw [List.append_assoc, List.cons_append, trimmedLines_line hline, List.length_cons, ih,
      List.count_append, List.count_eq_zero_of_not_mem hline, List.count_cons_self, Nat.zero_add]

/-! ## Places between lines -/

/-- A place where a line starts, told from what stands before it: nothing, or a line feed at its
end. -/
def LineStart (before : List Char) : Prop := before = [] ∨ ∃ text, before = text ++ ['\n']

theorem trimmedLines_of_lineStart {before : List Char} (h : LineStart before) (after : List Char) :
    trimmedLines (before ++ after) = trimmedLines before ++ trimmedLines after := by
  obtain rfl | ⟨text, rfl⟩ := h
  · rfl
  · rw [List.append_assoc, List.singleton_append, trimmedLines_append]

theorem length_trimmedLines_of_lineStart {before : List Char} (h : LineStart before) :
    (trimmedLines before).length = before.count '\n' := by
  obtain rfl | ⟨text, rfl⟩ := h
  · rfl
  · rw [length_trimmedLines_feed, List.count_append]
    rfl

/-- A place where a line ends, told from what follows: nothing, or a line feed, with a carriage
return in front of it or without. -/
def LineEnd (after : List Char) : Prop :=
  after = [] ∨ ∃ rest, after = '\n' :: rest ∨ after = '\r' :: '\n' :: rest

/-! ## Texts with the same lines -/

/-- Two texts have the same lines up to the blanks at their ends, and up to an empty line at the end
of the second. -/
def SameLines (s t : List Char) : Prop :=
  trimmedLines t = trimmedLines s ∨ trimmedLines t = trimmedLines s ++ [[]]

theorem SameLines.refl (s : List Char) : SameLines s s := .inl rfl

theorem sameLines_last {line' : List Char} (h : '\n' ∉ line) (h' : '\n' ∉ line')
    (htrim : trim line' = trim line) (hgrows : line' = [] → line = []) : SameLines line line' := by
  by_cases hsome' : line' = []
  · rw [hsome', hgrows hsome']
    exact .refl []
  · by_cases hsome : line = []
    · unfold SameLines
      rw [trimmedLines_last h' hsome', htrim, hsome]
      exact .inr rfl
    · unfold SameLines
      rw [trimmedLines_last h' hsome', trimmedLines_last h hsome, htrim]
      exact .inl rfl

theorem sameLines_line {line' : List Char} (h : '\n' ∉ line) (h' : '\n' ∉ line')
    (htrim : trim line' = trim line) (rest : List Char) :
    SameLines (line ++ '\n' :: rest) (line' ++ '\n' :: rest) := by
  unfold SameLines
  rw [trimmedLines_line h, trimmedLines_line h', htrim]
  exact .inl rfl

theorem SameLines.more {t : List Char} (h : SameLines s t) (hline : '\n' ∉ line) :
    SameLines (line ++ '\n' :: s) (line ++ '\n' :: t) := by
  unfold SameLines
  rw [trimmedLines_line hline, trimmedLines_line hline]
  exact h.imp (congrArg _) (congrArg _)

/-- **A line feed at the end of a text** ends its last line, or an empty one. -/
theorem sameLines_feed (s : List Char) : SameLines s (s ++ ['\n']) := by
  induction s using byLines with
  | last line hline =>
    unfold SameLines
    rw [trimmedLines_line hline]
    by_cases hsome : line = []
    · rw [hsome]
      exact .inr rfl
    · rw [trimmedLines_last hline hsome]
      exact .inl rfl
  | more line s hline ih =>
    rw [List.append_assoc, List.cons_append]
    exact ih.more hline

theorem SameLines.behind {before t : List Char} (h : SameLines s t) (hplace : LineStart before) :
    SameLines (before ++ s) (before ++ t) := by
  unfold SameLines
  rw [trimmedLines_of_lineStart hplace, trimmedLines_of_lineStart hplace, List.append_assoc]
  exact h.imp (congrArg _) (congrArg _)

/-- **Blanks at the start of a line.** -/
theorem sameLines_blanks_append {before : List Char} (h : AllBlank blanks) (hone : '\n' ∉ blanks)
    (hplace : LineStart before) (after : List Char) :
    SameLines (before ++ after) (before ++ blanks ++ after) := by
  have hjoin : ∀ {line}, '\n' ∉ line → '\n' ∉ blanks ++ line := fun hline hmem =>
    (List.mem_append.mp hmem).elim hone hline
  rw [List.append_assoc]
  refine SameLines.behind ?_ hplace
  induction after using byLines with
  | last line hline =>
    exact sameLines_last hline (hjoin hline) (trim_blanks_append h)
      fun hnone => (List.append_eq_nil_iff.mp hnone).2
  | more line s hline =>
    rw [← List.append_assoc]
    exact sameLines_line hline (hjoin hline) (trim_blanks_append h) s

/-- **Blanks at the end of a line.** -/
theorem sameLines_append_blanks {after : List Char} (h : AllBlank blanks) (hone : '\n' ∉ blanks)
    (hend : LineEnd after) (before : List Char) :
    SameLines (before ++ after) (before ++ blanks ++ after) := by
  have hjoin : ∀ {line}, '\n' ∉ line → '\n' ∉ line ++ blanks := fun hline hmem =>
    (List.mem_append.mp hmem).elim hline hone
  induction before using byLines with
  | last line hline =>
    rcases hend with rfl | ⟨rest, rfl | rfl⟩
    · rw [List.append_nil, List.append_nil]
      exact sameLines_last hline (hjoin hline) (trim_append_blanks h)
        fun hnone => (List.append_eq_nil_iff.mp hnone).1
    · exact sameLines_line hline (hjoin hline) (trim_append_blanks h) rest
    · have hreturn : AllBlank ['\r'] := List.forall_mem_singleton.mpr rfl
      have hjoin' : ∀ {line}, '\n' ∉ line → '\n' ∉ line ++ ['\r'] := fun hline hmem =>
        (List.mem_append.mp hmem).elim hline (by decide)
      rw [List.append_cons, List.append_cons (line ++ blanks)]
      refine sameLines_line (hjoin' hline) (hjoin' (hjoin hline)) ?_ rest
      rw [trim_append_blanks hreturn, trim_append_blanks hreturn, trim_append_blanks h]
  | more line s hline ih =>
    simp only [List.append_assoc, List.cons_append] at ih ⊢
    exact ih.more hline

/-! ## The first lines -/

/-- The first lines of a text, with a line feed behind the last of them. -/
def firstLines : Nat → List Char → List Char
  | 0, _ => []
  | _ + 1, [] => []
  | n + 1, c :: s =>
    if c = '\n' then '\n' :: firstLines n s
    else c :: if s = [] then ['\n'] else firstLines (n + 1) s

theorem firstLines_zero (s : List Char) : firstLines 0 s = [] := by
  rw [firstLines]

theorem firstLines_line (n : Nat) (h : '\n' ∉ line) (rest : List Char) :
    firstLines (n + 1) (line ++ '\n' :: rest) = line ++ '\n' :: firstLines n rest := by
  induction line with
  | nil => rfl
  | cons c line ih =>
    rw [List.mem_cons, not_or] at h
    rw [List.cons_append, firstLines, if_neg (Ne.symm h.1), if_neg (by simp), ih h.2]
    rfl

theorem firstLines_last (n : Nat) (h : '\n' ∉ line) (hsome : line ≠ []) :
    firstLines (n + 1) line = line ++ ['\n'] := by
  induction line with
  | nil => exact absurd rfl hsome
  | cons c line ih =>
    rw [List.mem_cons, not_or] at h
    rw [firstLines, if_neg (Ne.symm h.1)]
    by_cases hlast : line = []
    · rw [if_pos hlast, hlast]
      rfl
    · rw [if_neg hlast, ih h.2 hlast]
      rfl

/-- **A text that goes on behind its first lines in another way** has these lines and then the
others. -/
theorem trimmedLines_firstLines (n : Nat) (s others : List Char) :
    trimmedLines (firstLines n s ++ others) = (trimmedLines s).take n ++ trimmedLines others := by
  induction s using byLines generalizing n with
  | last line hline =>
    cases n with
    | zero => rw [firstLines_zero, List.take_zero, List.nil_append, List.nil_append]
    | succ n =>
      by_cases hsome : line = []
      · subst hsome
        rfl
      · rw [firstLines_last n hline hsome, List.append_assoc, List.singleton_append,
          trimmedLines_line hline, trimmedLines_last hline hsome]
        simp
  | more line s hline ih =>
    cases n with
    | zero => rw [firstLines_zero, List.take_zero, List.nil_append, List.nil_append]
    | succ n =>
      rw [firstLines_line n hline, List.append_assoc, List.cons_append, trimmedLines_line hline,
        trimmedLines_line hline, ih, List.take_succ_cons, List.cons_append]

end Heartbeat.Text
