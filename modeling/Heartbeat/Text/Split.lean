/-!
# Cutting a text at a character

* `splitAt?`: what stands before and after the first occurrence of a character.
* `splitAt?_append`: a text is cut at a mark that does not occur before it.
* `length_lt_of_splitAt?`: what stands after it is shorter than the text.
* `length_dropWhile_le`: what follows a run is no longer than the text.
-/

namespace Heartbeat.Text

/-- What stands before and after the first occurrence of a character, if it occurs. -/
def splitAt? (mark : Char) : List Char → Option (List Char × List Char)
  | [] => none
  | c :: s =>
    if c = mark then some ([], s)
    else (splitAt? mark s).map fun (before, after) => (c :: before, after)

/-- What stands before and after the mark makes up the text with the mark between. -/
theorem eq_append_of_splitAt? {mark : Char} {s before after : List Char}
    (h : splitAt? mark s = some (before, after)) : s = before ++ mark :: after := by
  induction s generalizing before after with
  | nil => simp [splitAt?] at h
  | cons c s ih =>
    by_cases hc : c = mark
    · simp only [splitAt?, hc, if_true, Option.some.injEq, Prod.mk.injEq] at h
      obtain ⟨rfl, rfl⟩ := h
      simp [hc]
    · simp only [splitAt?, hc, if_false, Option.map_eq_some_iff] at h
      obtain ⟨⟨b, a⟩, hba, heq⟩ := h
      simp only [Prod.mk.injEq] at heq
      obtain ⟨rfl, rfl⟩ := heq
      rw [ih hba, List.cons_append]

/-- A text is cut at a mark that does not occur before it. -/
theorem splitAt?_append {mark : Char} {before after : List Char} (h : mark ∉ before) :
    splitAt? mark (before ++ mark :: after) = some (before, after) := by
  induction before with
  | nil => simp [splitAt?]
  | cons c before ih =>
    rw [List.mem_cons, not_or] at h
    rw [List.cons_append, splitAt?, if_neg (Ne.symm h.1), ih h.2]
    rfl

/-- What stands after the mark is shorter than the text. -/
theorem length_lt_of_splitAt? {mark : Char} {s before after : List Char}
    (h : splitAt? mark s = some (before, after)) : after.length < s.length := by
  rw [eq_append_of_splitAt? h]
  simp only [List.length_append, List.length_cons]
  omega

/-- What follows a run is no longer than the text. -/
theorem length_dropWhile_le {α : Type} (p : α → Bool) (s : List α) :
    (s.dropWhile p).length ≤ s.length :=
  (List.dropWhile_sublist p).length_le

end Heartbeat.Text
