import Heartbeat.StepScript.Program

/-!
# What a program that was read is like

A program is read line by line. Each of its instructions comes from a line of the source and keeps
the number of that line; a label stands for a position in the program or right behind it; and at the
end every label that a jump names is defined.

* `Program.ReadFrom`: a program whose instructions come from lines, and whose labels stay within it.
* `Program.IsClosed`: a program whose jumps lead somewhere.
* `readFrom_addLines`: reading more lines keeps that instructions come from lines.
* `readFrom_parse`, `isClosed_of_parse`: a program that was read is of both kinds.
-/

namespace Heartbeat.StepScript.Program

open Heartbeat.Text

variable {p q : Program} {done : List (List Char)} {text : List Char}

/-- **Each instruction comes from its line, and each label stands for a position of the program or
for its end.** -/
structure ReadFrom (p : Program) (lines : List (List Char)) : Prop where
  placed : ∀ i ∈ p.code, ∃ index text, i.line = index + 1 ∧ lines[index]? = some text ∧
    readLine text = .ok (.instruction i.instruction)
  within : ∀ label ∈ p.labels, label.2 ≤ p.size

/-- **Each jump leads to a position of the program or to its end.** -/
def IsClosed (p : Program) : Prop :=
  ∀ i ∈ p.code, ∀ label, i.instruction.jump? = some label →
    ∃ target, p.label? label = some target ∧ target ≤ p.size

theorem readFrom_empty : empty.ReadFrom [] := ⟨nofun, nofun⟩

theorem ReadFrom.target_le (h : p.ReadFrom done) {label : String} {target : Nat}
    (hlabel : p.label? label = some target) : target ≤ p.size := by
  obtain ⟨entry, hentry, rfl⟩ := Option.map_eq_some_iff.mp hlabel
  exact h.within entry (List.mem_of_find?_eq_some hentry)

theorem addLine_eq_ok_iff {number : Nat} : p.addLine number text = .ok q ↔
    ∃ content, readLine text = .ok content ∧ p.add number content = .ok q := by
  unfold addLine
  cases readLine text with
  | error fault => exact ⟨nofun, nofun⟩
  | ok content =>
    have hbind : (Except.ok content >>= p.add number) = p.add number content := rfl
    rw [hbind]
    cases hadd : p.add number content <;> simp [hadd]

/-- A line adds at most one instruction, which comes from it, and at most one label, which stands
for the end of what was read so far. -/
theorem readFrom_addLine (h : p.ReadFrom done)
    (hadd : p.addLine (done.length + 1) text = .ok q) : q.ReadFrom (done ++ [text]) := by
  have hplaced : ∀ i ∈ p.code, ∃ index line, i.line = index + 1 ∧
      (done ++ [text])[index]? = some line ∧ readLine line = .ok (.instruction i.instruction) := by
    intro i hi
    obtain ⟨index, line, hline, hget, hread⟩ := h.placed i hi
    refine ⟨index, line, hline, ?_, hread⟩
    rwa [List.getElem?_append_left (List.getElem?_eq_some_iff.mp hget).1]
  obtain ⟨content, hread, hadd⟩ := addLine_eq_ok_iff.mp hadd
  cases content with
  | nothing =>
    obtain rfl := Except.ok.inj hadd
    exact ⟨hplaced, h.within⟩
  | label name =>
    simp only [add] at hadd
    split at hadd
    · exact absurd hadd nofun
    · obtain rfl := Except.ok.inj hadd
      refine ⟨hplaced, fun label hlabel => ?_⟩
      rcases List.mem_append.mp hlabel with hold | hnew
      · exact h.within label hold
      · obtain rfl := List.mem_singleton.mp hnew
        exact Nat.le_refl _
  | instruction i =>
    obtain rfl := Except.ok.inj hadd
    refine ⟨fun j hj => ?_, fun label hlabel => ?_⟩
    · rcases List.mem_append.mp hj with hold | hnew
      · exact hplaced j hold
      · obtain rfl := List.mem_singleton.mp hnew
        exact ⟨done.length, text, rfl, List.getElem?_concat_length, hread⟩
    · exact Nat.le_trans (h.within label hlabel) (by simp [size])

theorem readFrom_addLines {texts : List (List Char)} (h : p.ReadFrom done)
    (hadd : p.addLines (done.length + 1) texts = .ok q) : q.ReadFrom (done ++ texts) := by
  induction texts generalizing p done with
  | nil =>
    obtain rfl := Except.ok.inj hadd
    rwa [List.append_nil]
  | cons text texts ih =>
    rw [addLines] at hadd
    split at hadd
    · rename_i next hnext
      have hlength : done.length + 1 = (done ++ [text]).length := by simp
      rw [hlength] at hadd
      have hrest := ih (readFrom_addLine h hnext) hadd
      rwa [List.append_assoc] at hrest
    · exact absurd hadd nofun

/-- A program that was read comes from the lines that were added, and its jumps were checked. -/
theorem parse_eq_ok_iff {source : String} : parse source = .ok p ↔
    empty.addLines 1 (lines source.toList) = .ok p ∧ p.code.findSome? p.jumpError? = none := by
  unfold parse
  cases hadd : empty.addLines 1 (lines source.toList) with
  | error e => exact ⟨nofun, nofun⟩
  | ok q =>
    show q.checkJumps = .ok p ↔ _
    unfold checkJumps
    constructor
    · intro h
      split at h
      · exact absurd h nofun
      · rename_i hjumps
        obtain rfl := Except.ok.inj h
        exact ⟨rfl, hjumps⟩
    · rintro ⟨heq, hjumps⟩
      obtain rfl := Except.ok.inj heq
      rw [hjumps]

/-- **The instructions of a program that was read come from its source.** -/
theorem readFrom_parse {source : String} (h : parse source = .ok p) :
    p.ReadFrom (lines source.toList) :=
  readFrom_addLines readFrom_empty (parse_eq_ok_iff.mp h).1

/-- **The jumps of a program that was read lead somewhere.** -/
theorem isClosed_of_parse {source : String} (h : parse source = .ok p) : p.IsClosed := by
  intro i hi label hjump
  have hchecked := List.findSome?_eq_none_iff.mp (parse_eq_ok_iff.mp h).2 i hi
  unfold jumpError? at hchecked
  rw [hjump] at hchecked
  cases hlabel : p.label? label with
  | none => simp [hlabel] at hchecked
  | some target => exact ⟨target, rfl, (readFrom_parse h).target_le hlabel⟩

end Heartbeat.StepScript.Program
