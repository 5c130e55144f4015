import Heartbeat.Proofs.StepScript.Reading

/-!
# The layout of a program

A program is laid out in another way by putting in lines that say nothing, blank ones and remarks,
and blanks at the ends of its lines. This only changes the numbers of the lines. What was read up to
some line enters what is read from there only by its labels and by its number of instructions, so
that the lines may be counted in any way that keeps their order.

* `Program.renumber`, `renumbered`: the same with lines counted in another way.
* `addLines_renumber`, `checkJumps_renumber`: reading does not look at the numbers of lines.
* `IsRemark`, `readLine_remark`: lines that say nothing.
* `Relaid`: a text is another one in a different layout.
* `parse_relaid`: **the layout does not change what is read.**
-/

namespace Heartbeat.StepScript

open Heartbeat.Text

/-! ## Lines counted in another way -/

/-- The same error, with lines counted in another way. -/
def ParseError.renumber (f : Nat → Nat) (e : ParseError) : ParseError := { e with line := f e.line }

namespace Program

/-- The same program, with lines counted in another way. -/
def renumber (f : Nat → Nat) (p : Program) : Program :=
  { p with code := p.code.map fun i => { i with line := f i.line } }

end Program

/-- What reading comes to, with lines counted in another way. -/
def renumbered (f : Nat → Nat) : Except ParseError Program → Except ParseError Program
  | .ok p => .ok (p.renumber f)
  | .error e => .error (e.renumber f)

section Renumber

variable {f g : Nat → Nat} {x : Except ParseError Program}
  {read read' : Program → Except ParseError Program}

theorem renumbered_id (x : Except ParseError Program) : renumbered id x = x := by
  cases x with
  | error e => rfl
  | ok p => simp [renumbered, Program.renumber]

theorem renumbered_comp (f g : Nat → Nat) (x : Except ParseError Program) :
    renumbered g (renumbered f x) = renumbered (g ∘ f) x := by
  cases x with
  | error e => rfl
  | ok p => simp [renumbered, Program.renumber]

theorem renumbered_bind (h : ∀ p, read' (p.renumber f) = renumbered f (read p)) :
    (renumbered f x >>= read') = renumbered f (x >>= read) := by
  cases x with
  | error e => rfl
  | ok p => exact h p

end Renumber

namespace Program

variable {p : Program} {f : Nat → Nat} {number number' : Nat} {text : List Char}
  {texts more : List (List Char)}

@[simp] theorem label?_renumber (f : Nat → Nat) (p : Program) (name : String) :
    (p.renumber f).label? name = p.label? name := rfl

@[simp] theorem size_renumber (f : Nat → Nat) (p : Program) : (p.renumber f).size = p.size :=
  List.length_map _

@[simp] theorem renumber_empty (f : Nat → Nat) : empty.renumber f = empty := rfl

theorem add_renumber (content : LineContent) :
    (p.renumber f).add (f number) content = (p.add number content).map (renumber f) := by
  cases content with
  | nothing => rfl
  | label name =>
    simp only [add, label?_renumber, size_renumber]
    split <;> rfl
  | instruction i => simp [add, renumber, Except.map]

theorem addLine_renumber (text : List Char) :
    (p.renumber f).addLine (f number) text = renumbered f (p.addLine number text) := by
  rw [addLine_eq, addLine_eq]
  cases readLine text with
  | error fault => rfl
  | ok content =>
    show ((p.renumber f).add (f number) content).mapError _ =
      renumbered f ((p.add number content).mapError _)
    rw [add_renumber]
    cases p.add number content <;> rfl

/-- **Reading does not look at the numbers of lines.** -/
theorem addLines_renumber (h : ∀ index < texts.length, f (number + index) = number' + index) :
    (p.renumber f).addLines number' texts = renumbered f (p.addLines number texts) := by
  induction texts generalizing p number number' with
  | nil => rfl
  | cons text texts ih =>
    obtain rfl : f number = number' := h 0 (Nat.zero_lt_succ _)
    have hrest : ∀ index < texts.length, f (number + 1 + index) = f number + 1 + index := by
      intro index hindex
      have hnext := h (index + 1) (Nat.succ_lt_succ hindex)
      rw [Nat.add_right_comm, Nat.add_assoc, hnext]
      omega
    rw [addLines, addLines, addLine_renumber]
    cases p.addLine number text with
    | error e => rfl
    | ok q => exact ih hrest

theorem checkJumps_renumber (p : Program) :
    (p.renumber f).checkJumps = renumbered f p.checkJumps := by
  have hjump : ∀ i : SourceInstruction, (p.renumber f).jumpError? { i with line := f i.line } =
      (p.jumpError? i).map (ParseError.renumber f) := by
    intro i
    unfold jumpError?
    simp only [label?_renumber]
    cases i.instruction.jump? with
    | none => rfl
    | some label =>
      by_cases hdefined : (p.label? label).isSome <;> simp [hdefined, ParseError.renumber]
  have hfind : (p.renumber f).code.findSome? (p.renumber f).jumpError? =
      (p.code.findSome? p.jumpError?).map (ParseError.renumber f) := by
    simp only [renumber, List.findSome?_map, List.map_findSome?]
    exact congrArg (List.findSome? · p.code) (funext hjump)
  unfold checkJumps
  rw [hfind]
  cases p.code.findSome? p.jumpError? <;> rfl

/-! ## Lines one after another -/

theorem addLines_append (p : Program) (number : Nat) (texts more : List (List Char)) :
    p.addLines number (texts ++ more) =
      p.addLines number texts >>= fun q => q.addLines (number + texts.length) more := by
  induction texts generalizing p number with
  | nil => rfl
  | cons text texts ih =>
    rw [List.cons_append, addLines, addLines, List.length_cons]
    cases p.addLine number text with
    | error e => rfl
    | ok q =>
      show q.addLines (number + 1) (texts ++ more) = _
      rw [ih, Nat.add_assoc, Nat.add_comm 1]

/-- Blanks at the ends of lines do not change what is read. -/
theorem addLines_trim (p : Program) (number : Nat) (texts : List (List Char)) :
    p.addLines number (texts.map trim) = p.addLines number texts := by
  induction texts generalizing p number with
  | nil => rfl
  | cons text texts ih =>
    have hline : p.addLine number (trim text) = p.addLine number text := by
      unfold addLine
      rw [readLine_trim]
    rw [List.map_cons, addLines, addLines, hline]
    cases p.addLine number text with
    | error e => rfl
    | ok q => exact ih q (number + 1)

/-- A line that says nothing only counts as a line. -/
theorem addLines_remark (h : readLine text = .ok .nothing) (p : Program) (number : Nat)
    (texts : List (List Char)) :
    p.addLines number (text :: texts) = p.addLines (number + 1) texts := by
  have hline : p.addLine number text = .ok p := by
    unfold addLine
    rw [h]
    rfl
  rw [addLines, hline]

/-- Reads a program from its lines. -/
def parseLines (texts : List (List Char)) : Except ParseError Program :=
  empty.addLines 1 texts >>= checkJumps

theorem parse_eq_parseLines (source : String) :
    parse source = parseLines (trimmedLines source.toList) := by
  unfold parse parseLines trimmedLines
  rw [addLines_trim]

theorem parseLines_concat_remark (h : readLine text = .ok .nothing) (texts : List (List Char)) :
    parseLines (texts ++ [text]) = parseLines texts := by
  unfold parseLines
  rw [addLines_append]
  cases empty.addLines 1 texts with
  | error e => rfl
  | ok p =>
    show p.addLines _ [text] >>= checkJumps = p.checkJumps
    rw [addLines_remark h]
    rfl

end Program

/-- The numbers of lines when there is a new line of that number. -/
def makeRoom (number line : Nat) : Nat := if line < number then line else line + 1

/-- **A line that says nothing makes room for itself** and changes nothing else. -/
theorem Program.parseLines_insert_remark {text : List Char} (h : readLine text = .ok .nothing)
    (texts more : List (List Char)) : parseLines (texts ++ text :: more) =
      renumbered (makeRoom (texts.length + 1)) (parseLines (texts ++ more)) := by
  have hbefore : ∀ index < texts.length, makeRoom (texts.length + 1) (1 + index) = 1 + index := by
    intro index hindex
    exact if_pos (by omega)
  have hbehind : ∀ index < more.length,
      makeRoom (texts.length + 1) (1 + texts.length + index) = 1 + texts.length + 1 + index := by
    intro index hindex
    unfold makeRoom
    rw [if_neg (by omega)]
    omega
  have hfirst := addLines_renumber (p := empty) hbefore
  calc parseLines (texts ++ text :: more)
      = (empty.addLines 1 texts >>= fun p => p.addLines (1 + texts.length) (text :: more)) >>=
          checkJumps := by
        unfold parseLines
        rw [addLines_append]
    _ = (renumbered (makeRoom (texts.length + 1)) (empty.addLines 1 texts) >>=
          fun p => p.addLines (1 + texts.length) (text :: more)) >>= checkJumps := by
        rw [← hfirst, renumber_empty]
    _ = renumbered (makeRoom (texts.length + 1)) (empty.addLines 1 texts >>=
          fun p => p.addLines (1 + texts.length) more) >>= checkJumps := by
        rw [renumbered_bind fun p => ?_]
        rw [addLines_remark h, addLines_renumber hbehind]
    _ = renumbered (makeRoom (texts.length + 1)) (parseLines (texts ++ more)) := by
        rw [renumbered_bind checkJumps_renumber, parseLines, addLines_append]

/-! ## Texts laid out in another way -/

/-- A line that says nothing: its first character that is no blank, if there is one, is `#`. -/
def IsRemark (line : List Char) : Prop := ∀ c ∈ line.find? (!isBlank ·), c = '#'

instance (line : List Char) : Decidable (IsRemark line) :=
  decidable_of_iff ((line.find? (!isBlank ·)).all (· == '#') = true) <| by
    unfold IsRemark
    cases line.find? (!isBlank ·) <;> simp

theorem readLine_remark {line : List Char} (h : IsRemark line) : readLine line = .ok .nothing := by
  unfold IsRemark at h
  rw [List.find?_eq_head?_dropWhile_not] at h
  simp only [Bool.not_not] at h
  unfold readLine trim trimLeft
  cases hline : line.dropWhile isBlank with
  | nil => rfl
  | cons c rest =>
    rw [hline] at h
    obtain rfl := h c rfl
    have hright : ∃ rest', trimRight ('#' :: rest) = '#' :: rest' := by
      unfold trimRight
      rw [List.reverse_cons, List.dropWhile_append]
      split
      · exact ⟨[], rfl⟩
      · exact ⟨_, List.reverse_concat⟩
    obtain ⟨rest', hrest'⟩ := hright
    rw [hrest']
    rfl

/-- **A text is laid out in another way**, by steps, and with it the numbers of its lines. -/
inductive Relaid : List Char → List Char → (Nat → Nat) → Prop where
  /-- A line that says nothing is put in where a line starts. -/
  | line {before line after : List Char} (hplace : LineStart before) (hone : '\n' ∉ line)
      (hline : IsRemark line) :
      Relaid (before ++ after) (before ++ line ++ '\n' :: after)
        (makeRoom (before.count '\n' + 1))
  /-- A line that says nothing is put behind a text that ends with a line feed. -/
  | lastLine {before line : List Char} (hplace : LineStart before) (hone : '\n' ∉ line)
      (hline : IsRemark line) : Relaid before (before ++ line) id
  /-- A line that says nothing is put behind a text that does not. -/
  | newLine {before line : List Char} (hone : '\n' ∉ line) (hline : IsRemark line) :
      Relaid before (before ++ '\n' :: line) id
  /-- Blanks are put in where a line starts or ends. -/
  | blanks {before blanks after : List Char} (hplace : LineStart before ∨ LineEnd after)
      (hone : '\n' ∉ blanks) (hblanks : AllBlank blanks) :
      Relaid (before ++ after) (before ++ blanks ++ after) id
  | trans {s t u : List Char} {f g : Nat → Nat} (hfirst : Relaid s t f) (hthen : Relaid t u g) :
      Relaid s u (g ∘ f)

section Relaid

variable {s t before line after : List Char} {f : Nat → Nat}

theorem parseLines_of_sameLines (h : SameLines s t) :
    Program.parseLines (trimmedLines t) = Program.parseLines (trimmedLines s) := by
  obtain h | h := h
  · rw [h]
  · rw [h, Program.parseLines_concat_remark rfl]

theorem parseLines_line (hplace : LineStart before) (hone : '\n' ∉ line) (hline : IsRemark line)
    (after : List Char) : Program.parseLines (trimmedLines (before ++ line ++ '\n' :: after)) =
      renumbered (makeRoom (before.count '\n' + 1))
        (Program.parseLines (trimmedLines (before ++ after))) := by
  have hsaid : readLine (trim line) = .ok .nothing := by
    rw [readLine_trim, readLine_remark hline]
  rw [List.append_assoc, trimmedLines_of_lineStart hplace, trimmedLines_line hone,
    Program.parseLines_insert_remark hsaid, length_trimmedLines_of_lineStart hplace,
    trimmedLines_of_lineStart hplace]

theorem parseLines_lastLine (hplace : LineStart before) (hone : '\n' ∉ line)
    (hline : IsRemark line) :
    Program.parseLines (trimmedLines (before ++ line)) =
      Program.parseLines (trimmedLines before) := by
  have hsaid : readLine (trim line) = .ok .nothing := by
    rw [readLine_trim, readLine_remark hline]
  by_cases hsome : line = []
  · rw [hsome, List.append_nil]
  · rw [trimmedLines_of_lineStart hplace, trimmedLines_last hone hsome,
      Program.parseLines_concat_remark hsaid]

theorem Relaid.parseLines (h : Relaid s t f) :
    Program.parseLines (trimmedLines t) = renumbered f (Program.parseLines (trimmedLines s)) := by
  induction h with
  | line hplace hone hline => exact parseLines_line hplace hone hline _
  | lastLine hplace hone hline =>
    rw [renumbered_id, parseLines_lastLine hplace hone hline]
  | newLine hone hline =>
    rename_i before line
    have hplace : LineStart (before ++ ['\n']) := .inr ⟨before, rfl⟩
    rw [renumbered_id, List.append_cons, parseLines_lastLine hplace hone hline,
      parseLines_of_sameLines (sameLines_feed before)]
  | blanks hplace hone hblanks =>
    rename_i before blanks after
    rw [renumbered_id]
    obtain hstart | hend := hplace
    · exact parseLines_of_sameLines (sameLines_blanks_append hblanks hone hstart after)
    · exact parseLines_of_sameLines (sameLines_append_blanks hblanks hone hend before)
  | trans _ _ ih ih' => rw [ih', ih, renumbered_comp]

end Relaid

/-- **The layout does not change what is read**: a program that is laid out in another way has the
same instructions and labels or the same fault, and the numbers of lines that go with the layout. -/
theorem parse_relaid {source source' : String} {f : Nat → Nat}
    (h : Relaid source.toList source'.toList f) :
    Program.parse source' = renumbered f (Program.parse source) := by
  rw [Program.parse_eq_parseLines, Program.parse_eq_parseLines, h.parseLines]

/-- A remark before a jump that leads nowhere, and blanks behind it. -/
theorem remark_moves_fault :
    Relaid "set a 1\ngoto b".toList "set a 1\n # up\ngoto b\t".toList (id ∘ makeRoom 2) ∧
      Program.parse "set a 1\n # up\ngoto b\t" = .error ⟨3, .unknownLabel "b"⟩ := by
  have hremark : Relaid "set a 1\ngoto b".toList "set a 1\n # up\ngoto b".toList (makeRoom 2) :=
    @Relaid.line "set a 1\n".toList " # up".toList "goto b".toList
      (.inr ⟨"set a 1".toList, rfl⟩) (by decide) (by decide)
  have hblanks : Relaid "set a 1\n # up\ngoto b".toList "set a 1\n # up\ngoto b\t".toList id :=
    @Relaid.blanks "set a 1\n # up\ngoto b".toList "\t".toList [] (.inr (.inl rfl)) (by decide)
      (by decide)
  exact ⟨hremark.trans hblanks, parse_relaid (hremark.trans hblanks)⟩

end Heartbeat.StepScript
