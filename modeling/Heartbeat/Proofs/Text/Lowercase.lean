import Heartbeat.Text.Lowercase
import Mathlib.Data.List.Basic

/-!
# Case beyond ASCII

Lower case is that of Unicode, so that a letter beyond ASCII may have one in ASCII: the Kelvin sign
has `k`, and `İ` has `i` with a dot above. There are no others.

* `lowerRuns_sound`: the runs of the table lead beyond ASCII, up to the Kelvin sign.
* `lower_eq_iff`: what a text of other ASCII letters is the lower case of.
-/

namespace Heartbeat.Text

variable {s t : List Char} {c : Char}

/-- An ASCII character that only ASCII characters are lowered to. -/
def IsPlain (c : Char) : Prop := c.toNat < 0x80 ∧ c ≠ 'k' ∧ c ≠ 'i'

instance : DecidablePred IsPlain := fun c =>
  inferInstanceAs (Decidable (c.toNat < 0x80 ∧ c ≠ 'k' ∧ c ≠ 'i'))

theorem lowerChar_of_ascii (h : c.toNat < 0x80) : lowerChar c = [lowerAscii c] := by
  unfold lowerChar lowerAscii
  rw [if_pos h]

/-- The code points that a run leads to are characters beyond ASCII. -/
def LowerRun.Beyond (run : LowerRun) : Prop :=
  0x80 ≤ run.target ∧
    (run.target + (run.last - run.first) < 0xD800 ∨
      0xE000 ≤ run.target ∧ run.target + (run.last - run.first) < 0x110000)

instance : DecidablePred LowerRun.Beyond := fun _ =>
  inferInstanceAs (Decidable (_ ∧ (_ ∨ _ ∧ _)))

/-- The run of the Kelvin sign. -/
def kelvinRun : LowerRun := ⟨0x212A, 0x212A, 1, 0x6B⟩

theorem lowerRuns_sound : ∀ run ∈ lowerRuns, run.Beyond ∨ run = kelvinRun := by decide +kernel

theorem LowerRun.lower?_eq_some {run : LowerRun} {code low : Nat}
    (h : run.lower? code = some low) :
    run.first ≤ code ∧ code ≤ run.last ∧ low = run.target + (code - run.first) := by
  unfold lower? at h
  split at h
  · rename_i hin
    exact ⟨hin.1, hin.2.1, (Option.some.inj h).symm⟩
  · cases h

/-- A character that the table has is not lowered to a plain one. -/
theorem not_isPlain_ofNat {run : LowerRun} {code low : Nat} (hrun : run ∈ lowerRuns)
    (h : run.lower? code = some low) : ¬ IsPlain (Char.ofNat low) := by
  obtain ⟨hfirst, hlast, rfl⟩ := LowerRun.lower?_eq_some h
  rcases lowerRuns_sound run hrun with ⟨htarget, hvalid⟩ | rfl
  · have hchar : (run.target + (code - run.first)).isValidChar := by
      unfold Nat.isValidChar
      omega
    have hcode : (Char.ofNat (run.target + (code - run.first))).toNat =
        run.target + (code - run.first) := by
      rw [Char.ofNat, dif_pos hchar]
      rfl
    rintro ⟨hascii, -⟩
    omega
  · have hcode : code = 0x212A := Nat.le_antisymm hlast hfirst
    subst hcode
    decide

/-- **What is beyond ASCII is not lowered to a plain character.** -/
theorem lowerChar_of_not_ascii (h : ¬ c.toNat < 0x80) :
    ∃ d rest, lowerChar c = d :: rest ∧ ¬ IsPlain d := by
  unfold lowerChar
  rw [if_neg h]
  split
  · exact ⟨_, _, rfl, by decide⟩
  · split
    · rename_i code hcode
      obtain ⟨run, hrun, hlow⟩ := List.exists_of_findSome?_eq_some hcode
      exact ⟨_, _, rfl, not_isPlain_ofNat hrun hlow⟩
    · exact ⟨c, [], rfl, fun hplain => h hplain.1⟩

theorem lowerAscii_of_not_ascii (h : ¬ c.toNat < 0x80) : lowerAscii c = c := by
  unfold lowerAscii
  split
  · rename_i hletter
    have hle : c.toNat ≤ 'Z'.toNat := by
      simp only [Bool.and_eq_true, decide_eq_true_eq] at hletter
      exact Char.le_def.mp hletter.2
    exact absurd (Nat.lt_of_le_of_lt hle (by decide)) h
  · rfl

/-- A plain text is the lower case of a text if it is so by the ASCII letters alone. The flag says
what stands in front of the text. -/
theorem lowerAfter_eq_iff (ht : ∀ c ∈ t, IsPlain c) (afterCased : Bool) :
    lowerAfter afterCased s = t ↔ s.map lowerAscii = t := by
  induction s generalizing t afterCased with
  | nil => rfl
  | cons c s ih =>
    by_cases hascii : c.toNat < 0x80
    · have hsigma : (c == 'Σ') = false := by
        rw [beq_eq_false_iff_ne]
        rintro rfl
        exact absurd hascii (by decide)
      simp only [lowerAfter, hsigma, Bool.false_and, Bool.false_eq_true, if_false,
        lowerChar_of_ascii hascii, List.map_cons, List.singleton_append]
      cases t with
      | nil => simp
      | cons d t =>
        rw [List.cons.injEq, List.cons.injEq,
          ih (fun c hc => ht c (List.mem_cons_of_mem d hc))]
    · -- neither of the two texts is plain
      refine iff_of_false ?_ ?_
      · rw [lowerAfter]
        split
        · rintro rfl
          exact absurd (ht 'ς' List.mem_cons_self) (by decide)
        · obtain ⟨d, rest, hlower, hplain⟩ := lowerChar_of_not_ascii hascii
          rw [hlower]
          rintro rfl
          exact hplain (ht d List.mem_cons_self)
      · rw [List.map_cons, lowerAscii_of_not_ascii hascii]
        rintro rfl
        exact hascii (ht c List.mem_cons_self).1

/-- **A plain text is the lower case of the texts that differ from it in the case of their ASCII
letters**, and of no others. -/
theorem lower_eq_iff (ht : ∀ c ∈ t, IsPlain c) : lower s = t ↔ s.map lowerAscii = t :=
  lowerAfter_eq_iff ht false

end Heartbeat.Text
