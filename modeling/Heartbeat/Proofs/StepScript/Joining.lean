import Heartbeat.Proofs.StepScript.Layout

/-!
# Programs one behind the other

Two sources that define no label in common are read, one behind the other, as the two programs one
behind the other: the lines of the second are counted from the end of the first, and its labels
stand for positions behind the instructions of the first.

* `Program.append`: programs one behind the other; `label?_append_program`.
* `addLines_prepend`: what stands before does not enter what is read, unless labels meet.
* `parse_append`: **sources one behind the other are read as their programs one behind the other.**
-/

namespace Heartbeat.StepScript

open Heartbeat.Text

namespace Program

variable {p q : Program} {number : Nat} {text : List Char} {texts : List (List Char)}

/-- Two programs one behind the other. -/
def append (p q : Program) : Program :=
  ⟨p.code ++ q.code, p.labels ++ q.labels.map fun (name, index) => (name, index + p.size)⟩

theorem append_empty (p : Program) : p.append empty = p := by
  simp [append, empty]

theorem label?_append_program (p q : Program) (name : String) :
    (p.append q).label? name = (p.label? name).or ((q.label? name).map (· + p.size)) := by
  refine (label?_append p.labels _ _ name).trans (congrArg _ ?_)
  unfold label?
  rw [List.find?_map, Option.map_map, Option.map_map]
  rfl

theorem add_prepend {content : LineContent}
    (hfresh : ∀ name, content = .label name → p.label? name = none) :
    (p.append q).add number content = (q.add number content).map p.append := by
  cases content with
  | nothing => rfl
  | label name =>
    have hdefined : ((p.append q).label? name).isSome = (q.label? name).isSome := by
      rw [label?_append_program, hfresh name rfl, Option.none_or, Option.isSome_map]
    rw [add, add, hdefined]
    split
    · rfl
    · simp [append, size, Except.map, Nat.add_comm]
  | instruction i => simp [add, append, Except.map, size]

theorem addLine_prepend
    (hfresh : ∀ name, readLine text = .ok (.label name) → p.label? name = none) :
    (p.append q).addLine number text = (q.addLine number text).map p.append := by
  rw [addLine_eq, addLine_eq]
  cases hread : readLine text with
  | error fault => rfl
  | ok content =>
    have hnew : ∀ name, content = .label name → p.label? name = none := by
      rintro name rfl
      exact hfresh name hread
    show ((p.append q).add number content).mapError _ =
      ((q.add number content).mapError _).map p.append
    rw [add_prepend hnew]
    cases q.add number content <;> rfl

/-- **What stands before does not enter what is read**, unless labels meet. -/
theorem addLines_prepend
    (hfresh : ∀ text ∈ texts, ∀ name, readLine text = .ok (.label name) → p.label? name = none) :
    (p.append q).addLines number texts = (q.addLines number texts).map p.append := by
  induction texts generalizing q number with
  | nil => rfl
  | cons text texts ih =>
    obtain ⟨htext, htexts⟩ := List.forall_mem_cons.mp hfresh
    rw [addLines, addLines, addLine_prepend htext]
    cases q.addLine number text with
    | error e => rfl
    | ok r => exact ih htexts

/-- A jump leads somewhere in a program that has more labels. -/
theorem jumpError?_eq_none_of_labels {r : Program} {i : SourceInstruction}
    (hlabels : ∀ name, (p.label? name).isSome = true → (r.label? name).isSome = true)
    (h : p.jumpError? i = none) : r.jumpError? i = none := by
  unfold jumpError? at h ⊢
  cases hjump : i.instruction.jump? with
  | none => rfl
  | some label =>
    rw [hjump] at h
    by_cases hdefined : (p.label? label).isSome = true
    · exact if_pos (hlabels label hdefined)
    · simp [hdefined] at h

theorem checkJumps_eq_ok_iff : p.checkJumps = .ok p ↔ ∀ i ∈ p.code, p.jumpError? i = none := by
  rw [← List.findSome?_eq_none_iff]
  unfold checkJumps
  cases p.code.findSome? p.jumpError? with
  | none => exact iff_of_true rfl rfl
  | some e => exact iff_of_false nofun nofun

/-- The jumps of two programs one behind the other lead somewhere if they do so in each. -/
theorem checkJumps_append (hp : p.checkJumps = .ok p) (hq : q.checkJumps = .ok q) :
    (p.append q).checkJumps = .ok (p.append q) := by
  have hlabels : ∀ name, ((p.append q).label? name).isSome =
      ((p.label? name).isSome || (q.label? name).isSome) := by
    intro name
    rw [label?_append_program, Option.isSome_or, Option.isSome_map]
  refine checkJumps_eq_ok_iff.mpr fun i hi => ?_
  rcases List.mem_append.mp hi with hi | hi
  · refine jumpError?_eq_none_of_labels (fun name hname => ?_) (checkJumps_eq_ok_iff.mp hp i hi)
    rw [hlabels, hname, Bool.true_or]
  · refine jumpError?_eq_none_of_labels (fun name hname => ?_) (checkJumps_eq_ok_iff.mp hq i hi)
    rw [hlabels, hname, Bool.or_true]

end Program

section Joining

variable {source source' : String} {p q : Program}

theorem addLines_of_parse (h : Program.parse source = .ok p) :
    Program.empty.addLines 1 (trimmedLines source.toList) = .ok p ∧ p.checkJumps = .ok p := by
  obtain ⟨hread, hjumps⟩ := Program.parse_eq_ok_iff.mp h
  refine ⟨(Program.addLines_trim _ _ _).trans hread, ?_⟩
  exact Program.checkJumps_eq_ok_iff.mpr (List.findSome?_eq_none_iff.mp hjumps)

/-- A line feed behind a source changes nothing. -/
theorem addLines_feed (h : Program.parse source = .ok p) :
    Program.empty.addLines 1 (trimmedLines (source.toList ++ ['\n'])) = .ok p := by
  have hread := (addLines_of_parse h).1
  rcases sameLines_feed source.toList with hsame | hsame
  · rw [hsame, hread]
  · have hblank : readLine [] = .ok .nothing := rfl
    rw [hsame, Program.addLines_append, hread]
    exact Program.addLines_remark hblank p (1 + (trimmedLines source.toList).length) []

/-- A program has every label that a line of its source defines. -/
theorem label?_isSome_of_line (h : Program.parse source = .ok p) {text : List Char}
    (htext : text ∈ trimmedLines source.toList) {name : String}
    (hread : readLine text = .ok (.label name)) : (p.label? name).isSome = true := by
  obtain ⟨index, hindex⟩ := List.mem_iff_getElem?.mp htext
  refine ((renders_parse h).labels name).mpr ⟨index, ?_⟩
  unfold Says
  rw [← readAt?_trimmedLines, readAt?, hindex, Option.map_some, hread]

/-- The lines of a source that stand behind others are counted from there. -/
theorem addLines_behind (h : Program.parse source = .ok p) (offset : Nat) :
    Program.empty.addLines (1 + offset) (trimmedLines source.toList) =
      .ok (p.renumber (· + offset)) := by
  have hplace : ∀ index < (trimmedLines source.toList).length,
      1 + index + offset = 1 + offset + index := fun index _ => Nat.add_right_comm 1 index offset
  rw [← Program.renumber_empty (· + offset), Program.addLines_renumber hplace,
    (addLines_of_parse h).1]
  rfl

/-- Two sources that define no label in common are read as the first program and the second one
behind it, with its lines counted from the line feed between them. -/
theorem parse_joined (hp : Program.parse source = .ok p) (hq : Program.parse source' = .ok q)
    (hapart : ∀ name, p.label? name = none ∨ q.label? name = none) :
    Program.parse (source ++ "\n" ++ source') =
      .ok (p.append (q.renumber (· + (source.toList.count '\n' + 1)))) := by
  have hfresh : ∀ text ∈ trimmedLines source'.toList, ∀ name,
      readLine text = .ok (.label name) → p.label? name = none := by
    intro text htext name hread
    have hdefined := label?_isSome_of_line hq htext hread
    refine (hapart name).resolve_right fun hnone => ?_
    rw [hnone] at hdefined
    cases hdefined
  have hlead : (q.renumber (· + (source.toList.count '\n' + 1))).checkJumps =
      .ok (q.renumber (· + (source.toList.count '\n' + 1))) := by
    rw [Program.checkJumps_renumber, (addLines_of_parse hq).2]
    rfl
  have hsecond : p.addLines (1 + (source.toList.count '\n' + 1)) (trimmedLines source'.toList) =
      .ok (p.append (q.renumber (· + (source.toList.count '\n' + 1)))) := by
    conv =>
      lhs
      rw [← p.append_empty]
    rw [Program.addLines_prepend hfresh, addLines_behind hq]
    rfl
  have htext : (source ++ "\n" ++ source').toList = source.toList ++ '\n' :: source'.toList := by
    simp
  rw [Program.parse_eq_parseLines, htext, trimmedLines_append, Program.parseLines,
    Program.addLines_append, addLines_feed hp, length_trimmedLines_feed]
  show p.addLines _ _ >>= Program.checkJumps = _
  rw [hsecond]
  exact Program.checkJumps_append (addLines_of_parse hp).2 hlead

/-- **Sources one behind the other are read as their programs one behind the other**, if they define
no label in common: the instructions are those of both, the lines of the second are counted from
the line feed behind the first, and its labels from the last instruction of the first. -/
theorem parse_append (hp : Program.parse source = .ok p) (hq : Program.parse source' = .ok q)
    (hapart : ∀ name, p.label? name = none ∨ q.label? name = none) :
    ∃ joined, Program.parse (source ++ "\n" ++ source') = .ok joined ∧
      joined.code.map (·.instruction) = p.code.map (·.instruction) ++ q.code.map (·.instruction) ∧
      joined.code.map (·.line) = p.code.map (·.line) ++
        q.code.map (·.line + (1 + source.toList.count '\n')) ∧
      ∀ name, joined.label? name = (p.label? name).or ((q.label? name).map (· + p.size)) := by
  refine ⟨_, parse_joined hp hq hapart, ?_, ?_, Program.label?_append_program p _⟩
  · simp [Program.append, Program.renumber]
  · simp [Program.append, Program.renumber, Nat.add_comm 1]

/-- A loop behind a start, with the loop's label at the seam. -/
theorem loop_behind_start :
    Program.parse "set n x" = .ok ⟨[⟨1, .set "n" "x"⟩], []⟩ ∧
      Program.parse ":top\ngoto top" = .ok ⟨[⟨2, .goto "top"⟩], [("top", 0)]⟩ ∧
      ∃ joined, Program.parse "set n x\n:top\ngoto top" = .ok joined ∧
        joined.code.map (·.line) = [1, 3] ∧ joined.label? "top" = some 1 := by
  have hstart : Program.parse "set n x" = .ok ⟨[⟨1, .set "n" "x"⟩], []⟩ := rfl
  have hloop : Program.parse ":top\ngoto top" = .ok ⟨[⟨2, .goto "top"⟩], [("top", 0)]⟩ := rfl
  obtain ⟨joined, hparse, -, hlines, hlabels⟩ := parse_append hstart hloop fun _ => .inl rfl
  exact ⟨hstart, hloop, joined, hparse, hlines, hlabels "top"⟩

end Joining

end Heartbeat.StepScript
