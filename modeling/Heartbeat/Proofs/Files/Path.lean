import Heartbeat.Files.Path
import Mathlib.Data.List.TakeWhile

/-!
# Where paths lead

A path leads to its components: the place where it starts, and the names between its slashes. Gaps
between slashes and dots are no names, so that a slash more or at the end makes no difference. What
stands behind a slash adds its names and nothing else, and joining a path with a text is the same as
writing a slash between them.

* `names`, `start`: the names in a text, and where it starts.
* `components_slash`: a text behind a slash.
* `components_join`, `components_join_join`: a path joined with a text, and with two.
* `HasExtension`, `extension?_isSome_iff`: which paths have an extension.
-/

namespace Heartbeat.ScriptPath

variable {s t before after : List Char} {p : ScriptPath} {text : String}

/-! ## Names between slashes -/

/-- The names in a text. -/
def names (s : List Char) : List String := ((pieces s).filter isComponent).map String.ofList

/-- Where a text starts: at the root, at a dot, or at its first name. -/
def start (s : List Char) : List String :=
  if s.head? = some '/' then ["/"] else if (pieces s).head? = some ['.'] then ["."] else []

theorem pieces_ne_nil (s : List Char) : pieces s ≠ [] := by
  cases s with
  | nil => simp [pieces]
  | cons c s =>
    by_cases hc : c = '/'
    · simp [pieces, hc]
    · cases hs : pieces s <;> simp [pieces, hc, hs]

/-- A slash ends a piece. -/
theorem pieces_slash (s t : List Char) : pieces (s ++ '/' :: t) = pieces s ++ pieces t := by
  induction s with
  | nil => simp [pieces]
  | cons c s ih =>
    by_cases hc : c = '/'
    · simp [pieces, hc, ih]
    · cases hs : pieces s with
      | nil => exact absurd hs (pieces_ne_nil s)
      | cons piece rest => simp [pieces, hc, ih, hs]

theorem names_slash (s t : List Char) : names (s ++ '/' :: t) = names s ++ names t := by
  simp [names, pieces_slash]

theorem start_slash (h : s ≠ []) (t : List Char) : start (s ++ '/' :: t) = start s := by
  unfold start
  rw [pieces_slash]
  cases hs : pieces s with
  | nil => exact absurd hs (pieces_ne_nil s)
  | cons piece rest =>
    cases s with
    | nil => exact absurd rfl h
    | cons c s => rfl

/-- A text starts where it does with its first slash, whatever follows. -/
theorem start_slash_end (s t : List Char) : start (s ++ '/' :: t) = start (s ++ ['/']) := by
  cases s with
  | nil => simp [start]
  | cons c s => rw [start_slash (List.cons_ne_nil c s), start_slash (List.cons_ne_nil c s)]

theorem components_eq (p : ScriptPath) :
    p.components = start p.text.toList ++ names p.text.toList := by
  unfold components start names isAbsolute
  by_cases hroot : p.text.toList.head? = some '/'
  · simp [hroot]
  · by_cases hdot : (pieces p.text.toList).head? = some ['.']
    · simp [hroot, hdot]
    · simp [hroot, hdot]

example : (mk "./a//./b/").components = [".", "a", "b"] := by decide +kernel

/-! ## Paths below paths -/

/-- A text behind a path, with a slash between them; an empty path is left out. -/
def slash (p : ScriptPath) (text : String) : ScriptPath :=
  if p.text = "" then ⟨text⟩ else ⟨p.text ++ "/" ++ text⟩

/-- A text behind a slash adds its names. -/
theorem components_slash (h : p.text ≠ "") (text : String) :
    (p.slash text).components = p.components ++ names text.toList := by
  have hsome : p.text.toList ≠ [] := fun hnil => h (String.toList_eq_nil_iff.mp hnil)
  have htext : (p.slash text).text.toList = p.text.toList ++ '/' :: text.toList := by
    simp [slash, h]
  rw [components_eq, components_eq, htext, start_slash hsome, names_slash, List.append_assoc]

theorem slash_slash (h : text ≠ "") (other : String) :
    (p.slash text).slash other = p.slash (text ++ "/" ++ other) := by
  unfold slash
  by_cases hpath : p.text = ""
  · simp [hpath, h]
  · simp [hpath, String.append_assoc]

/-- **Joining is writing a slash between**, as far as it matters where paths lead: a text is joined
to the empty path as it is, and to other paths if it is not from the root. -/
theorem components_join (h : p.text ≠ "" → (mk text).isAbsolute = false) :
    (p.join text).components = (p.slash text).components := by
  by_cases hpath : p.text = ""
  · simp [join, slash, hpath]
  · have hroot : text.toList.head? ≠ some '/' := by simpa [isAbsolute] using h hpath
    by_cases hend : p.text.toList.getLast? = some '/'
    · -- the slash is there already
      obtain ⟨s, hs⟩ := List.getLast?_eq_some_iff.mp hend
      have hjoin : (p.join text).text.toList = s ++ '/' :: text.toList := by
        simp [join, hroot, hpath, hs]
      rw [components_slash hpath, components_eq, components_eq, hjoin, hs, start_slash_end,
        names_slash, names_slash]
      simp [names, pieces, isComponent]
    · simp [join, slash, hroot, hpath, hend]

theorem text_join_ne_empty (h : text ≠ "") : (p.join text).text ≠ "" := by
  unfold join
  split_ifs <;> simp [h]

theorem text_slash_ne_empty (h : text ≠ "") : (p.slash text).text ≠ "" := by
  unfold slash
  split_ifs <;> simp [h]

/-- Joining twice is writing two slashes. -/
theorem components_join_join {other : String} (hsome : text ≠ "")
    (htext : p.text ≠ "" → (mk text).isAbsolute = false) (hother : (mk other).isAbsolute = false) :
    ((p.join text).join other).components = (p.slash (text ++ "/" ++ other)).components := by
  rw [components_join fun _ => hother, components_slash (text_join_ne_empty hsome),
    components_join htext, ← components_slash (text_slash_ne_empty hsome), slash_slash hsome]

theorem isAbsolute_append (h : text ≠ "") (other : String) :
    (mk (text ++ other)).isAbsolute = (mk text).isAbsolute := by
  unfold isAbsolute
  cases hs : text.toList with
  | nil => exact absurd (String.toList_eq_nil_iff.mp hs) h
  | cons c s => simp [hs]

/-! ## Extensions -/

/-- The last name of a path has a dot behind its first character; what follows the last dot is the
extension. `..` is no name. -/
def HasExtension (p : ScriptPath) : Prop :=
  ∃ last, p.components.getLast? = some last ∧ last ≠ ".." ∧
    ∃ stem after, stem ≠ [] ∧ '.' ∉ after ∧ last.toList = stem ++ '.' :: after

theorem ne_dot_of_mem_reverse (h : '.' ∉ s) : ∀ c ∈ s.reverse, (c != '.') = true := by
  intro c hc
  rw [bne_iff_ne]
  rintro rfl
  exact h (List.mem_reverse.mp hc)

/-- A text is cut at a dot that none follows. -/
theorem splitAtLastDot?_append (h : '.' ∉ after) :
    splitAtLastDot? (before ++ '.' :: after) = some (before, after) := by
  have htail : (before ++ '.' :: after).reverse.takeWhile (· != '.') = after.reverse := by
    simp [List.takeWhile_append_of_pos (ne_dot_of_mem_reverse h)]
  have hlength : (before ++ '.' :: after).length = before.length + after.length + 1 := by
    simp [Nat.add_assoc]
  have hcut : before.length + after.length + 1 - after.length - 1 = before.length := by omega
  unfold splitAtLastDot?
  simp only [htail, List.length_reverse, List.reverse_reverse, hlength, hcut]
  rw [if_pos (by omega), List.take_left]

theorem splitAtLastDot?_eq_none (h : '.' ∉ s) : splitAtLastDot? s = none := by
  unfold splitAtLastDot?
  rw [List.takeWhile_eq_self_iff.mpr (ne_dot_of_mem_reverse h)]
  simp

/-- There is a last dot if there is any. -/
theorem exists_last_dot (h : '.' ∈ s) :
    ∃ before after, s = before ++ '.' :: after ∧ '.' ∉ after := by
  obtain ⟨after, before, hs, hafter⟩ := List.eq_append_cons_of_mem (List.mem_reverse.mpr h)
  refine ⟨before.reverse, after.reverse, ?_, by simpa using hafter⟩
  rw [← List.reverse_reverse s, hs]
  simp

theorem splitAtLastDot?_eq_some_iff :
    splitAtLastDot? s = some (before, after) ↔ '.' ∉ after ∧ s = before ++ '.' :: after := by
  constructor
  · intro hsplit
    by_cases hdot : '.' ∈ s
    · obtain ⟨stem, rest, rfl, hrest⟩ := exists_last_dot hdot
      rw [splitAtLastDot?_append hrest] at hsplit
      cases hsplit
      exact ⟨hrest, rfl⟩
    · rw [splitAtLastDot?_eq_none hdot] at hsplit
      cases hsplit
  · rintro ⟨hafter, rfl⟩
    exact splitAtLastDot?_append hafter

theorem extension?_isSome : p.extension?.isSome = true ↔
    ∃ last stem after, p.fileName? = some last ∧ stem ≠ [] ∧
      splitAtLastDot? last.toList = some (stem, after) := by
  unfold extension?
  cases p.fileName? with
  | none => simp
  | some last =>
    cases hsplit : splitAtLastDot? last.toList with
    | none => simp [hsplit]
    | some parts =>
      obtain ⟨stem, after⟩ := parts
      cases stem <;> simp [hsplit]

theorem fileName?_eq_some_iff {last : String} : p.fileName? = some last ↔
    p.components.getLast? = some last ∧ last ≠ "/" ∧ last ≠ "." ∧ last ≠ ".." := by
  unfold fileName?
  cases p.components.getLast? with
  | none => simp
  | some name =>
    by_cases hspecial : name = "/" ∨ name = "." ∨ name = ".."
    · simp only [if_pos hspecial, Option.some.injEq]
      constructor
      · rintro ⟨⟩
      · rintro ⟨rfl, hroot, hdot, hup⟩
        rcases hspecial with h | h | h <;> contradiction
    · simp only [if_neg hspecial, Option.some.injEq]
      constructor
      · rintro rfl
        simpa using hspecial
      · exact fun h => h.1

/-- A path has an extension if its last name has one. -/
theorem extension?_isSome_iff : p.extension?.isSome = true ↔ HasExtension p := by
  rw [extension?_isSome]
  unfold HasExtension
  constructor
  · rintro ⟨last, stem, after, hname, hstem, hsplit⟩
    obtain ⟨hlast, -, -, hup⟩ := fileName?_eq_some_iff.mp hname
    exact ⟨last, hlast, hup, stem, after, hstem, splitAtLastDot?_eq_some_iff.mp hsplit⟩
  · rintro ⟨last, hlast, hup, stem, after, hstem, hsplit⟩
    refine ⟨last, stem, after, fileName?_eq_some_iff.mpr ⟨hlast, ?_, ?_, hup⟩, hstem,
      splitAtLastDot?_eq_some_iff.mpr hsplit⟩
    -- the root has no dot, and a dot has nothing in front of it
    · rintro rfl
      cases stem <;> simp at hsplit
    · rintro rfl
      cases stem <;> simp at hsplit hstem

end Heartbeat.ScriptPath
